import Mathlib.Data.List.Perm.Basic
import Mathlib.Logic.Function.Basic
import RaizStack.Fallible
import RaizStack.MemBackfill
import RaizStack.Text

/-!
# What the operator asks for

`CONTRACT_START_LEDGERS` and `BACKFILL_FROM_LEDGER`, read once at the
start: a spec for each contract named in the first and the second for the
rest. Whatever does not read is an error, so that a typo cannot leave a
contract without its history.

`SpecText`, `EntryReads` and `EntriesRead` say which texts are meant, with
no order of tests in them; `fromStr_iff`, `readEntry_iff` and `parse_iff`
are the two directions for the three levels. Once no id occurs twice the
order of the entries is gone (`parse_perm`).
-/

namespace RaizStack

/-! ## The code -/

/-- `StartSpec::from_str`. -/
def StartSpec.fromStr (s : List Char) : Except String StartSpec :=
  let t := Text.trimWhiteSpace s
  if Text.eqIgnoreAsciiCase t "head".toList then .ok .head
  else if Text.eqIgnoreAsciiCase t "oldest".toList then .ok .oldest
  else
    match (Text.parseI64 t).filter (0 < ·) with
    | some n => .ok (.ledger n)
    | none => .error
        ("expected a positive ledger number, `oldest` or `head`, got `" ++ String.ofList t ++ "`")

structure StartLedgerConfig where
  default : StartSpec
  perContract : String → Option StartSpec

namespace StartLedgerConfig

/-- `StartLedgerConfig::DEFAULT`. -/
def unconfigured : StartSpec := .oldest

/-- The default of `parse`. -/
def readDefault (raw : Option String) : Except String StartSpec :=
  match (raw.map fun s => Text.trimWhiteSpace s.toList).filter (· ≠ []) with
  | some v => (StartSpec.fromStr v).mapError fun e => "BACKFILL_FROM_LEDGER: " ++ e
  | none => .ok unconfigured

/-- One turn of the loop of `parse`. -/
def readEntry (known : List String) (perContract : String → Option StartSpec)
    (entry : List Char) : Except String (String → Option StartSpec) :=
  let entry := Text.trimWhiteSpace entry
  if entry = [] then .ok perContract
  else
    match Text.rsplitOnce ':' entry with
    | none => .error ("CONTRACT_START_LEDGERS entry `" ++ String.ofList entry
        ++ "` is not `CONTRACTID:LEDGER` (LEDGER may also be `oldest` or `head`)")
    | some (cid, value) => do
        let cid := String.ofList (Text.trimWhiteSpace cid)
        let spec ← (StartSpec.fromStr value).mapError fun e =>
          "CONTRACT_START_LEDGERS entry `" ++ String.ofList entry ++ "`: " ++ e
        if cid ∉ known then
          .error ("CONTRACT_START_LEDGERS names contract `" ++ cid
            ++ "`, which is not in CONTRACT_IDS. A start ledger for a contract we do not index has "
            ++ "no effect — fix the id or add it to CONTRACT_IDS.")
        else if (perContract cid).isSome then
          .error ("CONTRACT_START_LEDGERS lists contract `" ++ cid ++ "` twice")
        else .ok (Function.update perContract cid (some spec))

def parse (perContractRaw defaultRaw : Option String) (known : List String) :
    Except String StartLedgerConfig := do
  let default ← readDefault defaultRaw
  let perContract ← ((perContractRaw.getD "").toList.splitOn ',').foldlM (readEntry known)
    fun _ => none
  .ok { default := default, perContract := perContract }

def forContract (cfg : StartLedgerConfig) (contractId : String) : StartSpec :=
  (cfg.perContract contractId).getD cfg.default

end StartLedgerConfig

/-! ## What is meant -/

/-- A trimmed text that stands for a spec. -/
inductive SpecText : List Char → StartSpec → Prop where
  | head {t : List Char} (h : t.map Char.toLower = "head".toList) : SpecText t .head
  | oldest {t : List Char} (h : t.map Char.toLower = "oldest".toList) : SpecText t .oldest
  /-- A positive `i64` in digits, a plus sign in front or not. -/
  | ledger {t ds : List Char} {n : Nat} (hsign : t = ds ∨ t = '+' :: ds)
      (hds : Text.parseDigits ds = some n) (hpos : 0 < n) (hmax : n < 2 ^ 63) :
      SpecText t (.ledger n)

/-- What is configured for the rest. -/
inductive DefaultReads : Option String → StartSpec → Prop where
  | unset : DefaultReads none .oldest
  | blank {s : String} (h : Text.trimWhiteSpace s.toList = []) : DefaultReads (some s) .oldest
  | given {s : String} {spec : StartSpec} (h : Text.trimWhiteSpace s.toList ≠ [])
      (hspec : SpecText (Text.trimWhiteSpace s.toList) spec) : DefaultReads (some s) spec

/-- A known contract and a spec, with the last colon between them. -/
def EntryReads (known : List String) (entry : List Char) (p : String × StartSpec) : Prop :=
  ∃ cid value, entry = cid ++ ':' :: value ∧ ':' ∉ value
    ∧ String.ofList (Text.trimWhiteSpace cid) = p.1 ∧ p.1 ∈ known
    ∧ SpecText (Text.trimWhiteSpace value) p.2

/-- The entries that are not blank, trimmed. -/
def entries (segments : List (List Char)) : List (List Char) :=
  (segments.map Text.trimWhiteSpace).filter (· ≠ [])

/-- Every entry reads, and no id occurs twice. -/
structure EntriesRead (known : List String) (segments : List (List Char))
    (pairs : List (String × StartSpec)) : Prop where
  each : List.Forall₂ (EntryReads known) (entries segments) pairs
  distinct : (pairs.map Prod.fst).Nodup

/-- The entries as they are written. -/
def segments (raw : Option String) : List (List Char) :=
  (raw.getD "").toList.splitOn ','

/-! ## Specs -/

theorem eqIgnoreAsciiCase_iff {t w : List Char} (hw : w.map Char.toLower = w) :
    Text.eqIgnoreAsciiCase t w = true ↔ t.map Char.toLower = w := by
  rw [Text.eqIgnoreAsciiCase, beq_iff_eq, hw]

/-- A number is no word. -/
theorem map_toLower_ne {t ds w : List Char} {n : Nat} {d : Char} (hsign : t = ds ∨ t = '+' :: ds)
    (hds : Text.parseDigits ds = some n) (hd : 97 ≤ d.toNat) : t.map Char.toLower ≠ d :: w := by
  have hfirst : ∀ c rest, t = c :: rest → c.toNat ≤ 57 := by
    intro c rest hc
    rcases hsign with rfl | rfl
    · rw [hc, Text.parseDigits] at hds
      split at hds
      · next hdigits =>
          have hc' : Text.isDigit c = true := List.all_eq_true.mp hdigits.2 c List.mem_cons_self
          rw [Text.isDigit, Bool.and_eq_true, decide_eq_true_eq, decide_eq_true_eq] at hc'
          exact hc'.2
      · cases hds
    · obtain ⟨rfl, -⟩ := List.cons.inj hc
      decide
  intro heq
  cases t with
  | nil => cases heq
  | cons c rest =>
      have hc := hfirst c rest rfl
      have hlow : c.toLower.toNat = d.toNat := congrArg Char.toNat (List.cons.inj heq).1
      rw [Text.toNat_toLower, if_neg (by omega)] at hlow
      omega

/-- **The specs that read**, and as what. -/
theorem fromStr_iff {s : List Char} {spec : StartSpec} :
    StartSpec.fromStr s = .ok spec ↔ SpecText (Text.trimWhiteSpace s) spec := by
  have hhead : "head".toList.map Char.toLower = "head".toList := by decide
  have holdest : "oldest".toList.map Char.toLower = "oldest".toList := by decide
  unfold StartSpec.fromStr
  generalize Text.trimWhiteSpace s = t
  simp only [eqIgnoreAsciiCase_iff hhead, eqIgnoreAsciiCase_iff holdest]
  by_cases h₁ : t.map Char.toLower = "head".toList
  · rw [if_pos h₁]
    constructor
    · rintro ⟨⟩
      exact .head h₁
    · rintro (_ | h | ⟨hsign, hds, -, -⟩)
      · rfl
      · exact absurd (h₁.symm.trans h) (by decide)
      · exact absurd h₁ (map_toLower_ne hsign hds (by decide))
  · rw [if_neg h₁]
    by_cases h₂ : t.map Char.toLower = "oldest".toList
    · rw [if_pos h₂]
      constructor
      · rintro ⟨⟩
        exact .oldest h₂
      · rintro (h | _ | ⟨hsign, hds, -, -⟩)
        · exact absurd h h₁
        · rfl
        · exact absurd h₂ (map_toLower_ne hsign hds (by decide))
    · rw [if_neg h₂]
      constructor
      · intro h
        split at h
        · next n hn =>
            cases h
            obtain ⟨hread, hpos⟩ := Option.filter_eq_some_iff.mp hn
            have hpos' : 0 < n := of_decide_eq_true hpos
            obtain ⟨m, rfl⟩ := Int.eq_ofNat_of_zero_le (Int.le_of_lt hpos')
            have hm : 0 < m := Int.ofNat_lt.mp hpos'
            obtain ⟨ds, hsign, hds, hmax⟩ := (Text.parseI64_eq_pos hm).mp hread
            exact .ledger hsign hds hm hmax
        · cases h
      · rintro (h | h | ⟨hsign, hds, hpos, hmax⟩)
        · exact absurd h h₁
        · exact absurd h h₂
        · have hread := (Text.parseI64_eq_pos hpos).mpr ⟨_, hsign, hds, hmax⟩
          rw [hread, Option.filter_some, if_pos (decide_eq_true (Int.natCast_pos.mpr hpos))]

namespace StartLedgerConfig

/-! ## The default -/

theorem readDefault_iff {raw : Option String} {spec : StartSpec} :
    readDefault raw = .ok spec ↔ DefaultReads raw spec := by
  cases raw with
  | none =>
      constructor
      · rintro ⟨⟩
        exact .unset
      · rintro ⟨⟩
        rfl
  | some s =>
      rw [readDefault, Option.map_some, Option.filter_some]
      by_cases hblank : Text.trimWhiteSpace s.toList = []
      · rw [if_neg (by simp [hblank])]
        constructor
        · rintro ⟨⟩
          exact .blank hblank
        · rintro (_ | _ | ⟨h, -⟩)
          · rfl
          · exact absurd hblank h
      · rw [if_pos (by simp [hblank])]
        dsimp only
        rw [Fallible.mapError_eq_ok, fromStr_iff, Text.trimWhiteSpace_trimWhiteSpace]
        constructor
        · exact .given hblank
        · rintro (_ | h | ⟨-, h⟩)
          · exact absurd h hblank
          · exact h

/-! ## One entry -/

/-- **The entries that read**: blank ones do nothing, any other one has to
name a contract that is not in the map. -/
theorem readEntry_iff {known : List String} {m m' : String → Option StartSpec}
    {entry : List Char} :
    readEntry known m entry = .ok m'
      ↔ (Text.trimWhiteSpace entry = [] ∧ m' = m)
        ∨ (Text.trimWhiteSpace entry ≠ [] ∧ ∃ p, EntryReads known (Text.trimWhiteSpace entry) p
            ∧ m p.1 = none ∧ m' = Function.update m p.1 (some p.2)) := by
  unfold readEntry
  generalize Text.trimWhiteSpace entry = t
  dsimp only
  by_cases hblank : t = []
  · rw [if_pos hblank]
    constructor
    · rintro ⟨⟩
      exact .inl ⟨hblank, rfl⟩
    · rintro (⟨-, rfl⟩ | ⟨h, -⟩)
      · rfl
      · exact absurd hblank h
  · rw [if_neg hblank]
    constructor
    · intro h
      refine .inr ⟨hblank, ?_⟩
      split at h
      · cases h
      · next cid value hsplit =>
          obtain ⟨hentry, hlast⟩ := Text.rsplitOnce_eq_some.mp hsplit
          obtain ⟨spec, hspec, h⟩ := Fallible.bind_eq_ok.mp h
          rw [Fallible.mapError_eq_ok, fromStr_iff] at hspec
          split at h
          · cases h
          · next hknown =>
              split at h
              · cases h
              · next hfree =>
                  cases h
                  exact ⟨(_, spec), ⟨cid, value, hentry, hlast, rfl, not_not.mp hknown, hspec⟩,
                    Option.not_isSome_iff_eq_none.mp hfree, rfl⟩
    · rintro (⟨h, -⟩ | ⟨-, ⟨c, spec⟩, ⟨cid, value, hentry, hlast, hc, hknown, hspec⟩, hfree, rfl⟩)
      · exact absurd h hblank
      · dsimp only at hc hknown hspec hfree
        rw [Text.rsplitOnce_eq_some.mpr ⟨hentry, hlast⟩]
        dsimp only
        rw [Fallible.mapError_eq_ok.mpr (fromStr_iff.mpr hspec), Fallible.ok_bind, hc,
          if_neg (not_not.mpr hknown), hfree]
        rfl

/-! ## All of them -/

/-- A map with some pairs written over it. -/
def overwrite (m : String → Option StartSpec) (pairs : List (String × StartSpec)) :
    String → Option StartSpec :=
  pairs.foldl (fun m p => Function.update m p.1 (some p.2)) m

theorem overwrite_of_not_mem {m : String → Option StartSpec} {pairs : List (String × StartSpec)}
    {c : String} (h : c ∉ pairs.map Prod.fst) : overwrite m pairs c = m c := by
  induction pairs generalizing m with
  | nil => rfl
  | cons p pairs ih =>
      rw [List.map_cons, List.mem_cons, not_or] at h
      rw [overwrite, List.foldl_cons]
      exact (ih h.2).trans (Function.update_of_ne h.1 _ _)

theorem overwrite_of_mem {m : String → Option StartSpec} {pairs : List (String × StartSpec)}
    (hnodup : (pairs.map Prod.fst).Nodup) {p : String × StartSpec} (hp : p ∈ pairs) :
    overwrite m pairs p.1 = some p.2 := by
  induction pairs generalizing m with
  | nil => cases hp
  | cons q pairs ih =>
      rw [List.map_cons, List.nodup_cons] at hnodup
      rw [overwrite, List.foldl_cons]
      rcases List.mem_cons.mp hp with rfl | hp
      · exact (overwrite_of_not_mem hnodup.1).trans (Function.update_self _ _ _)
      · exact ih hnodup.2 hp

theorem entries_cons (e : List Char) (es : List (List Char)) :
    entries (e :: es)
      = if Text.trimWhiteSpace e = [] then entries es else Text.trimWhiteSpace e :: entries es := by
  rw [entries, List.map_cons, List.filter_cons]
  by_cases h : Text.trimWhiteSpace e = []
  · rw [if_neg (by simp [h]), if_pos h]
    rfl
  · rw [if_pos (by simp [h]), if_neg h]
    rfl

/-- **The whole loop.** -/
theorem foldlM_readEntry_iff {known : List String} {m m' : String → Option StartSpec}
    {es : List (List Char)} :
    es.foldlM (readEntry known) m = .ok m'
      ↔ ∃ pairs, EntriesRead known es pairs ∧ (∀ p ∈ pairs, m p.1 = none)
          ∧ m' = overwrite m pairs := by
  induction es generalizing m with
  | nil =>
      constructor
      · rintro ⟨⟩
        exact ⟨[], ⟨.nil, List.nodup_nil⟩, by simp, rfl⟩
      · rintro ⟨pairs, ⟨hall, -⟩, -, rfl⟩
        cases hall
        rfl
  | cons e es ih =>
      rw [List.foldlM_cons, Fallible.bind_eq_ok]
      by_cases hblank : Text.trimWhiteSpace e = []
      · have hsame : ∀ pairs, EntriesRead known (e :: es) pairs ↔ EntriesRead known es pairs := by
          intro pairs
          have hes : entries (e :: es) = entries es := by rw [entries_cons, if_pos hblank]
          exact ⟨fun h => ⟨hes ▸ h.each, h.distinct⟩, fun h => ⟨hes ▸ h.each, h.distinct⟩⟩
        simp only [hsame, ← ih, readEntry_iff, hblank, ne_eq, not_true_eq_false, false_and,
          or_false, true_and, exists_eq_left]
      · have hes : entries (e :: es) = Text.trimWhiteSpace e :: entries es := by
          rw [entries_cons, if_neg hblank]
        constructor
        · rintro ⟨m₁, hstep, hrest⟩
          obtain ⟨h, -⟩ | ⟨-, p, hp, hfree, rfl⟩ := readEntry_iff.mp hstep
          · exact absurd h hblank
          · obtain ⟨pairs, hpairs, hnone, rfl⟩ := ih.mp hrest
            have hnew : ∀ q ∈ pairs, q.1 ≠ p.1 ∧ m q.1 = none := by
              intro q hq
              have hq' := hnone q hq
              by_cases heq : q.1 = p.1
              · rw [heq, Function.update_self] at hq'
                cases hq'
              · rw [Function.update_of_ne heq] at hq'
                exact ⟨heq, hq'⟩
            refine ⟨p :: pairs, ⟨?_, ?_⟩, ?_, rfl⟩
            · rw [hes]
              exact .cons hp hpairs.each
            · rw [List.map_cons, List.nodup_cons]
              refine ⟨fun hmem => ?_, hpairs.distinct⟩
              obtain ⟨q, hq, heq⟩ := List.mem_map.mp hmem
              exact (hnew q hq).1 heq
            · exact List.forall_mem_cons.mpr ⟨hfree, fun q hq => (hnew q hq).2⟩
        · rintro ⟨pairs, ⟨hall, hnodup⟩, hnone, rfl⟩
          rw [hes] at hall
          cases hall with
          | cons hp hall =>
              rename_i p pairs
              rw [List.map_cons, List.nodup_cons] at hnodup
              rw [List.forall_mem_cons] at hnone
              refine ⟨_, readEntry_iff.mpr (.inr ⟨hblank, p, hp, hnone.1, rfl⟩), ?_⟩
              refine ih.mpr ⟨pairs, ⟨hall, hnodup.2⟩, fun q hq => ?_, rfl⟩
              have hne : q.1 ≠ p.1 := fun heq => hnodup.1 (heq ▸ List.mem_map_of_mem hq)
              rw [Function.update_of_ne hne]
              exact hnone.2 q hq

/-! ## The configuration -/

theorem parse_iff {perContractRaw defaultRaw : Option String} {known : List String}
    {cfg : StartLedgerConfig} :
    parse perContractRaw defaultRaw known = .ok cfg
      ↔ ∃ spec pairs, DefaultReads defaultRaw spec
          ∧ EntriesRead known (segments perContractRaw) pairs
          ∧ cfg = ⟨spec, overwrite (fun _ => none) pairs⟩ := by
  rw [parse, Fallible.bind_eq_ok]
  constructor
  · rintro ⟨spec, hspec, h⟩
    obtain ⟨m, hm, h⟩ := Fallible.bind_eq_ok.mp h
    obtain ⟨pairs, hpairs, -, rfl⟩ := foldlM_readEntry_iff.mp hm
    cases h
    exact ⟨spec, pairs, readDefault_iff.mp hspec, hpairs, rfl⟩
  · rintro ⟨spec, pairs, hspec, hpairs, rfl⟩
    refine ⟨spec, readDefault_iff.mpr hspec, Fallible.bind_eq_ok.mpr ⟨_, ?_, rfl⟩⟩
    exact foldlM_readEntry_iff.mpr ⟨pairs, hpairs, fun _ _ => rfl, rfl⟩

/-- The order of the entries is not looked at. -/
theorem parse_perm {perContractRaw perContractRaw' defaultRaw : Option String}
    {known : List String} {cfg : StartLedgerConfig}
    (hperm : (entries (segments perContractRaw')).Perm (entries (segments perContractRaw)))
    (h : parse perContractRaw defaultRaw known = .ok cfg) :
    parse perContractRaw' defaultRaw known = .ok cfg := by
  obtain ⟨spec, pairs, hspec, hpairs, rfl⟩ := parse_iff.mp h
  obtain ⟨pairs', hall', hperm'⟩ := List.perm_comp_forall₂ hperm hpairs.each
  have hkeys : (pairs'.map Prod.fst).Perm (pairs.map Prod.fst) := hperm'.map _
  have hnodup : (pairs'.map Prod.fst).Nodup := hkeys.nodup_iff.mpr hpairs.distinct
  refine parse_iff.mpr ⟨spec, pairs', hspec, ⟨hall', hnodup⟩, ?_⟩
  congr 1
  funext c
  by_cases hc : c ∈ pairs.map Prod.fst
  · obtain ⟨p, hp, rfl⟩ := List.mem_map.mp hc
    rw [overwrite_of_mem hpairs.distinct hp, overwrite_of_mem hnodup (hperm'.mem_iff.mpr hp)]
  · rw [overwrite_of_not_mem hc, overwrite_of_not_mem fun hc' => hc (hkeys.mem_iff.mp hc')]

/-- **The configuration is read exactly**: what reads is accepted and
nothing else, a contract gets the spec of its entry or else the default,
and entries in another order make the same configuration. -/
theorem parse_exact (perContractRaw defaultRaw : Option String) (known : List String) :
    ((∃ cfg, parse perContractRaw defaultRaw known = .ok cfg)
        ↔ (∃ spec, DefaultReads defaultRaw spec)
          ∧ ∃ pairs, EntriesRead known (segments perContractRaw) pairs)
      ∧ (∀ spec pairs, DefaultReads defaultRaw spec →
          EntriesRead known (segments perContractRaw) pairs →
          ∃ cfg, parse perContractRaw defaultRaw known = .ok cfg
            ∧ (∀ p ∈ pairs, cfg.forContract p.1 = p.2)
            ∧ ∀ c, c ∉ pairs.map Prod.fst → cfg.forContract c = spec)
      ∧ ∀ perContractRaw' : Option String,
          (entries (segments perContractRaw')).Perm (entries (segments perContractRaw)) →
          ∀ cfg, parse perContractRaw' defaultRaw known = .ok cfg
            ↔ parse perContractRaw defaultRaw known = .ok cfg := by
  refine ⟨⟨?_, ?_⟩, ?_, fun raw' hperm cfg => ⟨parse_perm hperm.symm, parse_perm hperm⟩⟩
  · rintro ⟨cfg, h⟩
    obtain ⟨spec, pairs, hspec, hpairs, -⟩ := parse_iff.mp h
    exact ⟨⟨spec, hspec⟩, pairs, hpairs⟩
  · rintro ⟨⟨spec, hspec⟩, pairs, hpairs⟩
    exact ⟨_, parse_iff.mpr ⟨spec, pairs, hspec, hpairs, rfl⟩⟩
  · intro spec pairs hspec hpairs
    refine ⟨_, parse_iff.mpr ⟨spec, pairs, hspec, hpairs, rfl⟩, fun p hp => ?_, fun c hc => ?_⟩
    · change (overwrite (fun _ => none) pairs p.1).getD spec = p.2
      rw [overwrite_of_mem hpairs.distinct hp, Option.getD_some]
    · change (overwrite (fun _ => none) pairs c).getD spec = spec
      rw [overwrite_of_not_mem hc, Option.getD_none]

/-- Two entries, blanks around them, and a default in capitals. -/
theorem parse_exact_two :
    ∃ cfg, parse (some "CAAA:3950128, CBBB : oldest") (some " HEAD ") ["CAAA", "CBBB", "CCCC"]
        = .ok cfg
      ∧ (∀ p ∈ [("CAAA", StartSpec.ledger 3950128), ("CBBB", .oldest)], cfg.forContract p.1 = p.2)
      ∧ ∀ c, c ∉ ["CAAA", "CBBB"] → cfg.forContract c = .head := by
  refine (parse_exact (some "CAAA:3950128, CBBB : oldest") (some " HEAD ")
    ["CAAA", "CBBB", "CCCC"]).2.1 .head [("CAAA", .ledger 3950128), ("CBBB", .oldest)] ?_ ?_
  · exact .given (by decide) (.head (by decide))
  · refine ⟨?_, by decide⟩
    have hentries : entries (segments (some "CAAA:3950128, CBBB : oldest"))
        = ["CAAA:3950128".toList, "CBBB : oldest".toList] := by decide
    rw [hentries]
    refine .cons ⟨"CAAA".toList, "3950128".toList, by decide, by decide, by decide, by decide, ?_⟩
      (.cons ⟨"CBBB ".toList, " oldest".toList, by decide, by decide, by decide, by decide, ?_⟩
        .nil)
    · exact .ledger (n := 3950128) (.inl rfl) (by decide) (by decide) (by decide)
    · exact .oldest (by decide)

end StartLedgerConfig

end RaizStack
