import RaizStack.ScValRaw
import RaizStack.TimelineBlind

/-!
# What the decoder lets through

Every failure of the reader is a `ScValDecodeException`, but for one: a
count word from `2 ^ 31` on is negative as an `Int`, and `List(n)` throws
an `IllegalArgumentException` of its own before it reads an element.
`Overcounts` says of bytes where such a count can stand, at any depth,
behind whatever the reader accepts on the way; on those bytes and no
others the exception passes the callers that catch the decoder's
(`legible_iff`).

Both directions follow the reader: what it took before it failed is the
spelling of values (`takes_scVal`), and those are read again
(`reads_raw`).
-/

namespace RaizStack

open XdrReader Reading BigEndian XdrVal EventsClient

/-! ## Where a negative count stands -/

/-- The head of a list that is there: its discriminant, the pointer and
the count. -/
def listHead (d : Nat) (flag : Flag) (n : Nat) (rest : List UInt8) : List UInt8 :=
  word32 d ++ (word32 flag.1.toNat ++ (word32 n ++ rest))

/-- Bytes on which the reader comes to a count from `2 ^ 31` on. -/
inductive Overcounts : List UInt8 → Prop where
  | count (d : Nat) (hd : d = 16 ∨ d = 17) (flag : Flag) (n : Nat) (hn : 2 ^ 31 ≤ n)
      (hlt : n < 2 ^ 32) (rest : List UInt8) : Overcounts (listHead d flag n rest)
  | item (flag : Flag) (n : Nat) (hn : n < 2 ^ 31) (items : List RawVal) (hlt : items.length < n)
      (rest : List UInt8) (hrest : Overcounts rest) :
      Overcounts (listHead 16 flag n (items.flatMap RawVal.spelt ++ rest))
  | key (flag : Flag) (n : Nat) (hn : n < 2 ^ 31) (entries : List (RawVal × RawVal))
      (hlt : entries.length < n) (rest : List UInt8) (hrest : Overcounts rest) :
      Overcounts (listHead 17 flag n (entries.flatMap RawVal.entrySpelt ++ rest))
  | value (flag : Flag) (n : Nat) (hn : n < 2 ^ 31) (entries : List (RawVal × RawVal))
      (hlt : entries.length < n) (key : RawVal) (rest : List UInt8) (hrest : Overcounts rest) :
      Overcounts (listHead 17 flag n
        (entries.flatMap RawVal.entrySpelt ++ (key.spelt ++ rest)))

/-- A base64 text of such bytes. -/
def TextOvercounts (text : String) : Prop :=
  ∃ raw, Base64.decode (Text.trim text.toList) = .ok raw ∧ Overcounts raw

/-! ## Every other failure is the decoder's own -/

variable {α : Type}

def Caught : Thrown → Prop
  | .scVal _ _ => True
  | _ => False

theorem fails_fail (msg : String) : Fails (fail msg : Xdr α) Caught := by
  intro s e h
  cases h
  trivial

theorem fails_fixed (n : Nat) : Fails (fixed n) Caught := by
  intro s e h
  unfold fixed at h
  split at h
  · cases h
    trivial
  · cases h

theorem fails_u32 : Fails XdrReader.u32 Caught :=
  (fails_fixed 4).bind fun _ => .pure _

theorem fails_i64 : Fails XdrReader.i64 Caught :=
  (fails_fixed 8).bind fun _ => .pure _

theorem fails_u64Unsigned : Fails u64Unsigned Caught :=
  (fails_fixed 8).bind fun _ => .pure _

theorem fails_parts128 {hi : Xdr Int} (h : Fails hi Caught) : Fails (parts128 hi) Caught :=
  h.bind fun _ => fails_u64Unsigned.bind fun _ => .pure _

theorem fails_parts256 (signedHigh : Bool) : Fails (parts256 signedHigh) Caught := by
  have hhigh : Fails (highLimb signedHigh) Caught := by
    cases signedHigh with
    | true => exact fails_i64
    | false => exact fails_u64Unsigned
  exact hhigh.bind fun _ => fails_u64Unsigned.bind fun _ => fails_u64Unsigned.bind fun _ =>
    fails_u64Unsigned.bind fun _ => .pure _

theorem fails_body (n : Int) : Fails (body n) Caught := by
  intro s e h
  rcases bind_eq_error h with hleft | ⟨left, t, -, h⟩
  · cases hleft
  split at h
  · exact fails_fail _ _ _ h
  · exact ((fails_fixed _).bind fun out => (fails_fixed _).bind fun _ => .pure out) _ _ h

theorem fails_as {p : Xdr α} (h : Fails p Caught) (f : α → ScVal) :
    Fails (XdrReader.as p f) Caught :=
  h.bind fun _ => .pure _

theorem fails_sized (f : List UInt8 → ScVal) : Fails (sized f) Caught :=
  fails_u32.bind fun _ => (fails_body _).bind fun _ => .pure _

theorem fails_address : Fails address Caught := by
  refine fails_u32.bind fun t => ?_
  split
  · refine fails_u32.bind fun keyType => ?_
    split
    · exact fails_fail _
    · exact (fails_fixed 32).bind fun _ => .pure _
  · split
    · exact (fails_fixed 32).bind fun _ => .pure _
    · exact fails_fail _

/-- The arms that hold no list. -/
theorem fails_arm (lossy : List UInt8 → String) (p : Xdr ScVal) {t : Int} (hvec : t ≠ 16)
    (hmap : t ≠ 17) : Fails (arm lossy p t) Caught := by
  unfold arm
  split
  case h_2 => exact .pure _
  case h_3 => exact fails_u32.bind fun _ => fails_u32.bind fun _ => .pure _
  case h_14 => exact fails_sized _
  case h_15 => exact fails_sized _
  case h_16 => exact fails_sized _
  case h_17 => exact absurd rfl hvec
  case h_18 => exact absurd rfl hmap
  case h_19 => exact fails_as fails_address _
  case h_20 =>
    intro s e h
    rcases bind_eq_error h with hpos | ⟨pos, t, -, h⟩
    · cases hpos
    · exact fails_fail _ _ _ h
  all_goals
    first
      | exact fails_as fails_u32 _
      | exact fails_as fails_u64Unsigned _
      | exact fails_as fails_i64 _
      | exact fails_as (fails_parts128 fails_u64Unsigned) _
      | exact fails_as (fails_parts128 fails_i64) _
      | exact fails_as (fails_parts256 _) _

/-! ## Lists that are there -/

/-- The count, as the reader sees it. -/
theorem toInt_neg {n : Nat} (hlt : n < 2 ^ 32) : toInt n < 0 ↔ 2 ^ 31 ≤ n := by
  rw [toInt, BitVec.toInt_eq_toNat_cond, BitVec.toNat_ofNat]
  split <;> omega

/-- Where a list fails with what no caller catches: on its count, or in
an element behind others that were read. -/
theorem optionalList_uncaught {p : Xdr α} {δ : Type} (enc : δ → List UInt8) (val : δ → α)
    (hp : Takes p fun ts a => ∃ x, ts = enc x ∧ a = val x) {s : Input UInt8} {e : Thrown}
    (h : optionalList p s = .error e) (he : ¬ Caught e) :
    ∃ (flag : Flag) (n : Nat) (rest : List UInt8), n < 2 ^ 32 ∧
      s.rest = word32 flag.1.toNat ++ (word32 n ++ rest) ∧
      (2 ^ 31 ≤ n ∨ n < 2 ^ 31 ∧ ∃ (xs : List δ) (t : Input UInt8), xs.length < n ∧
        rest = xs.flatMap enc ++ t.rest ∧ p t = .error e) := by
  rcases bind_eq_error h with hpresent | ⟨present, s₁, hpresent, h⟩
  · exact absurd (fails_u32 _ _ hpresent) he
  obtain ⟨us, hus, flag, rfl, rfl⟩ := takes_u32 _ _ _ hpresent
  split at h
  · cases h
  rename_i hflag
  rcases bind_eq_error h with hn | ⟨n, s₂, hn, h⟩
  · exact absurd (fails_u32 _ _ hn) he
  obtain ⟨vs, hvs, x, rfl, rfl⟩ := takes_u32 _ _ _ hn
  have hne : flag ≠ 0 := by
    rintro rfl
    exact hflag rfl
  refine ⟨⟨flag, hne⟩, x.toNat, s₂.rest, x.isLt, hus.trans (congrArg _ hvs), ?_⟩
  unfold listOf at h
  split at h
  · rename_i hcount
    exact .inl ((toInt_neg x.isLt).mp hcount)
  rename_i hcount
  have hlt : x.toNat < 2 ^ 31 := Nat.lt_of_not_le fun hle => hcount ((toInt_neg x.isLt).mpr hle)
  rw [toInt_of_lt hlt, Int.toNat_natCast] at h
  obtain ⟨k, hk, as, t, has, hfail⟩ := times_eq_error h
  obtain ⟨ts, hts, xs, rfl, rfl, rfl⟩ := Takes.times enc val hp k _ _ _ has
  exact .inr ⟨hlt, xs, t, hk, hts, hfail⟩

/-- The head of a list is read up to the count. -/
theorem optionalList_head {p : Xdr α} (flag : Flag) {n : Nat} (hlt : n < 2 ^ 32) (pos : Nat)
    (rest : List UInt8) :
    optionalList p ⟨pos, word32 flag.1.toNat ++ (word32 n ++ rest)⟩
      = listOf (toInt n) p ⟨pos + 4 + 4, rest⟩ := by
  have hflag := reads_u32 flag.1.isLt pos (word32 n ++ rest)
  have hn := reads_u32 hlt (pos + 4) rest
  rw [optionalList, bind_of_ok hflag, if_neg (flag_ne_zero flag)]
  exact bind_of_ok hn

/-- A list whose elements were read, up to one that fails. -/
theorem listOf_of_error {p : Xdr α} {δ : Type} (enc : δ → List UInt8) (val : δ → α) {n : Nat}
    (hn : n < 2 ^ 31) {xs : List δ} (hlt : xs.length < n)
    (h : ∀ x ∈ xs, Reads p (enc x) (val x)) {pos : Nat} {rest : List UInt8} {e : Thrown}
    (hfail : ∀ pos, p ⟨pos, rest⟩ = .error e) :
    listOf (toInt n) p ⟨pos, xs.flatMap enc ++ rest⟩ = .error e := by
  rw [toInt_of_lt hn, listOf, if_neg (by omega), Int.toNat_natCast]
  exact times_of_error hlt (Reads.times enc val h pos rest) (hfail _)

/-! ## The exception and the bytes -/

section Decoder

variable (lossy : List UInt8 → String)

/-- The reader of a map's entries. -/
def entryReader (fuel : Nat) : Xdr (ScVal × ScVal) := do
  let key ← XdrReader.scVal lossy fuel
  let value ← XdrReader.scVal lossy fuel
  pure (key, value)

/-- What no caller catches comes from a count. -/
theorem overcounts_of_uncaught {fuel : Nat} {s : Input UInt8} {e : Thrown}
    (h : XdrReader.scVal lossy fuel s = .error e) (he : ¬ Caught e) : Overcounts s.rest := by
  induction fuel generalizing s with
  | zero => exact absurd (fails_fail _ _ _ h) he
  | succ fuel ih =>
      rcases bind_eq_error h with ht | ⟨d, s₁, ht, h⟩
      · exact absurd (fails_u32 _ _ ht) he
      obtain ⟨us, hus, x, rfl, rfl⟩ := takes_u32 _ _ _ ht
      by_cases hvec : toInt x.toNat = 16
      · have hx : x.toNat = 16 := toInt_eq (by decide) hvec
        rw [hvec] at h
        rcases bind_eq_error h with h | ⟨as, t, -, hpure⟩
        swap
        · cases hpure
        obtain ⟨flag, n, rest, hlt, hrest, hcount⟩ :=
          optionalList_uncaught _ _ (takes_scVal lossy fuel) h he
        rw [hus, hx, hrest]
        rcases hcount with hn | ⟨hn, ws, t, hlen, rfl, hfail⟩
        · exact .count 16 (.inl rfl) flag n hn hlt rest
        · exact .item flag n hn ws hlen t.rest (ih hfail)
      by_cases hmap : toInt x.toNat = 17
      · have hx : x.toNat = 17 := toInt_eq (by decide) hmap
        rw [hmap] at h
        rcases bind_eq_error h with h | ⟨as, t, -, hpure⟩
        swap
        · cases hpure
        obtain ⟨flag, n, rest, hlt, hrest, hcount⟩ := optionalList_uncaught _ _
          (takes_entry lossy (takes_scVal lossy fuel)) h he
        rw [hus, hx, hrest]
        rcases hcount with hn | ⟨hn, es, t, hlen, rfl, hfail⟩
        · exact .count 17 (.inr rfl) flag n hn hlt rest
        -- the entry failed in its key, or in the value behind it
        rcases bind_eq_error hfail with hkey | ⟨v, u, hkey, hfail⟩
        · exact .key flag n hn es hlen t.rest (ih hkey)
        rcases bind_eq_error hfail with hvalue | ⟨v', u', -, hpure⟩
        · obtain ⟨ts, hts, w, rfl, -⟩ := takes_scVal lossy fuel _ _ _ hkey
          rw [hts]
          exact .value flag n hn es hlen w u.rest (ih hvalue)
        · cases hpure
      · exact absurd (fails_arm lossy _ hvec hmap _ _ h) he

/-- The arm of a list, behind its discriminant. -/
theorem scVal_listHead {d : Nat} (hd : d < 2 ^ 31) (fuel pos : Nat) (flag : Flag) (n : Nat)
    (rest : List UInt8) :
    XdrReader.scVal lossy (fuel + 1) ⟨pos, listHead d flag n rest⟩
      = arm lossy (XdrReader.scVal lossy fuel) d
        ⟨pos + 4, word32 flag.1.toNat ++ (word32 n ++ rest)⟩ := by
  have hread := reads_u32 (n := d) (by omega) pos (word32 flag.1.toNat ++ (word32 n ++ rest))
  rw [XdrReader.scVal, listHead, bind_of_ok hread, toInt_of_lt hd]
  rfl

theorem length_listHead (d : Nat) (flag : Flag) (n : Nat) (rest : List UInt8) :
    (listHead d flag n rest).length = 12 + rest.length := by
  simp only [listHead, length_word32_append]
  omega

/-- A vector fails where its list does. -/
theorem vec_of_error {fuel pos n : Nat} {flag : Flag} {rest : List UInt8} {e : Thrown}
    (hlt : n < 2 ^ 32)
    (h : ∀ pos, listOf (toInt n) (XdrReader.scVal lossy fuel) ⟨pos, rest⟩ = .error e) :
    XdrReader.scVal lossy (fuel + 1) ⟨pos, listHead 16 flag n rest⟩ = .error e := by
  rw [scVal_listHead lossy (by decide)]
  exact bind_of_error ((optionalList_head flag hlt _ rest).trans (h _))

theorem map_of_error {fuel pos n : Nat} {flag : Flag} {rest : List UInt8} {e : Thrown}
    (hlt : n < 2 ^ 32)
    (h : ∀ pos, listOf (toInt n) (entryReader lossy fuel) ⟨pos, rest⟩ = .error e) :
    XdrReader.scVal lossy (fuel + 1) ⟨pos, listHead 17 flag n rest⟩ = .error e := by
  rw [scVal_listHead lossy (by decide)]
  exact bind_of_error ((optionalList_head flag hlt _ rest).trans (h _))

/-- The entries in front of the one that fails. -/
theorem reads_entries_raw {fuel : Nat} {es : List (RawVal × RawVal)}
    (hfuel : (es.flatMap RawVal.entrySpelt).length ≤ fuel) :
    ∀ e ∈ es, Reads (entryReader lossy fuel) (RawVal.entrySpelt e)
      (e.1.value lossy, e.2.value lossy) := by
  intro e he
  have hentry := Nat.le_trans (length_le_flatMap he) hfuel
  rw [RawVal.entrySpelt, List.length_append] at hentry
  exact reads_entry lossy e (reads_raw lossy fuel _ (by omega)) (reads_raw lossy fuel _ (by omega))

/-- The reader comes to the count. -/
theorem uncaught_of_overcounts {ts : List UInt8} (h : Overcounts ts) {fuel : Nat}
    (hfuel : ts.length ≤ fuel) :
    ∃ m, ∀ pos, XdrReader.scVal lossy fuel ⟨pos, ts⟩ = .error (.illegalArgument m) := by
  -- a level of nesting is behind a head, so there is fuel for it
  have hsucc : ∀ {d n fuel : Nat} {flag : Flag} {rest : List UInt8},
      (listHead d flag n rest).length ≤ fuel → ∃ k, fuel = k + 1 ∧ rest.length ≤ k := by
    intro d n fuel flag rest hle
    rw [length_listHead] at hle
    exact ⟨fuel - 1, by omega, by omega⟩
  induction h generalizing fuel with
  | count d hd flag n hn hlt rest =>
      obtain ⟨fuel, rfl, -⟩ := hsucc hfuel
      refine ⟨"Illegal Capacity: " ++ toString (toInt n), fun pos => ?_⟩
      have hlist : ∀ {β : Type} (p : Xdr β) (t : Input UInt8), listOf (toInt n) p t
          = .error (.illegalArgument ("Illegal Capacity: " ++ toString (toInt n))) := by
        intro β p t
        rw [listOf, if_pos ((toInt_neg hlt).mpr hn)]
      rcases hd with rfl | rfl
      · exact vec_of_error lossy hlt fun _ => hlist _ _
      · exact map_of_error lossy hlt fun _ => hlist _ _
  | item flag n hn items hlt rest hrest ih =>
      obtain ⟨fuel, rfl, hle⟩ := hsucc hfuel
      rw [List.length_append] at hle
      obtain ⟨m, hm⟩ := ih (show rest.length ≤ fuel by omega)
      refine ⟨m, fun pos => vec_of_error lossy (by omega) fun _ => ?_⟩
      refine listOf_of_error _ (RawVal.value lossy) hn hlt (fun w hw => ?_) hm
      exact reads_raw lossy fuel w (Nat.le_trans (length_le_flatMap hw) (by omega))
  | key flag n hn entries hlt rest hrest ih =>
      obtain ⟨fuel, rfl, hle⟩ := hsucc hfuel
      rw [List.length_append] at hle
      obtain ⟨m, hm⟩ := ih (show rest.length ≤ fuel by omega)
      refine ⟨m, fun pos => map_of_error lossy (by omega) fun _ => ?_⟩
      refine listOf_of_error _ _ hn hlt (reads_entries_raw lossy (by omega)) fun pos => ?_
      exact bind_of_error (hm pos)
  | value flag n hn entries hlt key rest hrest ih =>
      obtain ⟨fuel, rfl, hle⟩ := hsucc hfuel
      rw [List.length_append, List.length_append] at hle
      obtain ⟨m, hm⟩ := ih (show rest.length ≤ fuel by omega)
      refine ⟨m, fun pos => map_of_error lossy (by omega) fun _ => ?_⟩
      refine listOf_of_error _ _ hn hlt (reads_entries_raw lossy (by omega)) fun pos => ?_
      have hkey := reads_raw lossy fuel key (by omega) pos rest
      exact (bind_of_ok hkey).trans (bind_of_error (hm _))

/-! ## Through base64 -/

/-- **The texts the callers can live with** are those without such a
count. -/
theorem legible_iff (text : String) : Legible lossy text ↔ ¬ TextOvercounts text := by
  constructor
  · rintro hlegible ⟨raw, hraw, hover⟩
    obtain ⟨m, hm⟩ := uncaught_of_overcounts lossy hover (Nat.le_refl raw.length)
    have hthrown : ScVal.decode lossy text = .error (.illegalArgument m) := by
      rw [ScVal.decode, hraw]
      simp only [hm 0]
    rcases hlegible with ⟨v, hv⟩ | ⟨rawMessage, base64, hv⟩
    · cases hthrown.symm.trans hv
    · cases hthrown.symm.trans hv
  · intro hover
    unfold Legible ScVal.decode
    split
    · exact .inr ⟨_, _, rfl⟩
    rename_i raw hraw
    split
    · exact .inr ⟨_, _, rfl⟩
    · exact .inr ⟨_, _, rfl⟩
    · rename_i e hscVal hdecoder hindex
      have he : ¬ Caught e := by
        intro hcaught
        cases e with
        | scVal rawMessage base64 => exact hscVal _ _ rfl
        | outOfBounds => exact hcaught
        | illegalArgument m => exact hcaught
      exact absurd ⟨raw, hraw, overcounts_of_uncaught lossy hindex he⟩ hover
    · split
      · exact .inr ⟨_, _, rfl⟩
      · exact .inl ⟨_, rfl⟩

theorem decodeOrNull_returns_iff (text : String) :
    (∃ o, ScVal.decodeOrNull lossy text = .ok o) ↔ ¬ TextOvercounts text := by
  rw [← legible_iff lossy]
  refine ⟨?_, Legible.decodeOrNull⟩
  rintro ⟨o, ho⟩
  unfold ScVal.decodeOrNull at ho
  split at ho
  · rename_i v hv
    exact .inl ⟨v, hv⟩
  · rename_i rawMessage base64 hv
    exact .inr ⟨rawMessage, base64, hv⟩
  · cases ho

theorem decodeTopic_returns_iff (topic : String) :
    (∃ v, ScVal.decodeTopic lossy topic = .ok v) ↔ ¬ TextOvercounts topic := by
  rw [← legible_iff lossy]
  refine ⟨?_, Legible.decodeTopic⟩
  rintro ⟨v, hv⟩
  unfold ScVal.decodeTopic at hv
  split at hv
  · rename_i value hvalue
    exact .inl ⟨value, hvalue⟩
  · rename_i rawMessage base64 hvalue
    exact .inr ⟨rawMessage, base64, hvalue⟩
  · cases hv

/-- One element a topic, when none of them has such a count. -/
theorem decodeTopics_returns_iff (topics : List String) :
    (∃ vs, ScVal.decodeTopics lossy topics = .ok vs ∧ vs.length = topics.length) ↔
      ∀ topic ∈ topics, ¬ TextOvercounts topic := by
  unfold ScVal.decodeTopics
  constructor
  · rintro ⟨vs, hvs, -⟩ topic htopic
    exact (decodeTopic_returns_iff lossy topic).mp (Fallible.of_mapM_eq_ok hvs htopic)
  · intro h
    obtain ⟨vs, hvs⟩ := Fallible.exists_mapM_eq_ok fun topic htopic =>
      (decodeTopic_returns_iff lossy topic).mpr (h topic htopic)
    exact ⟨vs, hvs, Fallible.length_of_mapM hvs⟩

end Decoder

/-! ## The mapper -/

section Mapper

variable (lossy : List UInt8 → String) (goalAccount : String)

/-- The head topic is the base64 of a symbol, so the mapper looks at the
value. -/
def EventsClient.EventRecord.SymbolHead (e : EventRecord) : Prop :=
  ∃ topic b, e.topics.head? = some topic ∧
    Base64.decode (Text.trim topic.toList) = .ok (RawVal.symbol b).spelt

/-- An event without a count that the mapper would come to. -/
def EventsClient.EventRecord.WithoutOvercount (e : EventRecord) : Prop :=
  (∀ topic ∈ e.topics, ¬ TextOvercounts topic) ∧
    (e.SymbolHead → ∀ xdr, e.valueXdr = some xdr → ¬ TextOvercounts xdr)

theorem RawVal.asSymbol_eq_some {w : RawVal} {name : String}
    (h : (w.value lossy).asSymbol = some name) : ∃ b, w = .symbol b := by
  cases w with
  | symbol b => exact ⟨b, rfl⟩
  | plain x hplain =>
      cases x with
      | bool | bytes | string | symbol | vec | map => cases hplain
      | _ => cases h
  | _ => cases h

/-- The head topic reads as a symbol when it spells one. -/
theorem asSymbol_head_iff {e : EventRecord} {topics : List ScVal}
    (h : ScVal.decodeTopics lossy e.topics = .ok topics) :
    (∃ name, topics.head?.bind ScVal.asSymbol = some name) ↔ e.SymbolHead := by
  unfold ScVal.decodeTopics at h
  unfold EventRecord.SymbolHead
  cases htopics : e.topics with
  | nil =>
      rw [htopics] at h
      cases h
      simp
  | cons topic rest =>
      rw [htopics, Fallible.mapM_cons] at h
      obtain ⟨v, hv, h⟩ := Fallible.bind_eq_ok.mp h
      obtain ⟨vs, -, h⟩ := Fallible.bind_eq_ok.mp h
      cases h
      simp only [List.head?_cons, Option.bind_some, Option.some.injEq, exists_eq_left',
        exists_and_left]
      unfold ScVal.decodeTopic at hv
      constructor
      · rintro ⟨name, hname⟩
        split at hv
        · rename_i value hvalue
          cases hv
          obtain ⟨w, hw, rfl⟩ := (decode_eq_ok_iff lossy).mp hvalue
          obtain ⟨b, rfl⟩ := RawVal.asSymbol_eq_some lossy hname
          exact ⟨b, hw⟩
        · cases hv
          cases hname
        · cases hv
      · rintro ⟨b, hb⟩
        have hvalue := (decode_eq_ok_iff lossy).mpr ⟨.symbol b, hb, rfl⟩
        rw [hvalue] at hv
        cases hv
        exact ⟨_, rfl⟩

theorem valueOf_returns_iff (e : EventRecord) :
    (∃ value, TimelineMapper.valueOf lossy e = .ok value) ↔
      ∀ xdr, e.valueXdr = some xdr → ¬ TextOvercounts xdr := by
  unfold TimelineMapper.valueOf
  cases e.valueXdr with
  | none => simp
  | some xdr =>
      rw [decodeOrNull_returns_iff]
      simp

theorem map_returns_iff (e : EventRecord) :
    (∃ row, TimelineMapper.map lossy goalAccount e = .ok row) ↔ e.WithoutOvercount := by
  unfold EventRecord.WithoutOvercount
  constructor
  · rintro ⟨row, hrow⟩
    obtain ⟨topics, htopics, hrow⟩ := Fallible.bind_eq_ok.mp hrow
    have hall := (decodeTopics_returns_iff lossy e.topics).mp
      ⟨topics, htopics, Fallible.length_of_mapM htopics⟩
    refine ⟨hall, fun hsymbol => ?_⟩
    obtain ⟨name, hname⟩ := (asSymbol_head_iff lossy htopics).mpr hsymbol
    rw [hname] at hrow
    obtain ⟨value, hvalue, -⟩ := Fallible.bind_eq_ok.mp hrow
    exact (valueOf_returns_iff lossy e).mp ⟨value, hvalue⟩
  · rintro ⟨hall, hvalue⟩
    obtain ⟨topics, htopics, -⟩ := (decodeTopics_returns_iff lossy e.topics).mpr hall
    rw [TimelineMapper.map, htopics, Fallible.ok_bind]
    split
    · exact ⟨none, rfl⟩
    · rename_i head hhead
      obtain ⟨value, hv⟩ := (valueOf_returns_iff lossy e).mpr
        (hvalue ((asSymbol_head_iff lossy htopics).mp ⟨head, hhead⟩))
      rw [hv]
      exact ⟨_, rfl⟩

/-- **Malformed input degrades**, but for one shape: topics, a value and
an event come out as values, `Undecodable`, nothing or a row exactly when
no text in them counts from `2 ^ 31` on. -/
theorem degrades_iff :
    (∀ topics : List String,
      (∃ vs, ScVal.decodeTopics lossy topics = .ok vs ∧ vs.length = topics.length) ↔
        ∀ topic ∈ topics, ¬ TextOvercounts topic) ∧
    (∀ text : String, (∃ o, ScVal.decodeOrNull lossy text = .ok o) ↔ ¬ TextOvercounts text) ∧
    ∀ e : EventRecord,
      (∃ row, TimelineMapper.map lossy goalAccount e = .ok row) ↔ e.WithoutOvercount :=
  ⟨decodeTopics_returns_iff lossy, decodeOrNull_returns_iff lossy,
    map_returns_iff lossy goalAccount⟩

end Mapper

/-- A vector that says it holds `2 ^ 31` elements: twelve bytes. -/
def overcountText : String := "AAAAEAAAAAGAAAAA"

/-- An event with that text for its only topic. -/
def overcountEvent : EventRecord :=
  { id := "0000000000000000001-0000000000"
    ledger := 1
    contractId := CtConfig.token
    ledgerClosedAt := none
    txHash := none
    topics := [overcountText]
    valueXdr := none
    inSuccessfulContractCall := true }

/-- The exception passes all three. -/
theorem degrades_not_overcount :
    (¬ ∃ vs, ScVal.decodeTopics (fun _ => "\uFFFD") [overcountText] = .ok vs) ∧
      (¬ ∃ o, ScVal.decodeOrNull (fun _ => "\uFFFD") overcountText = .ok o) ∧
      ¬ ∃ row, TimelineMapper.map (fun _ => "\uFFFD") CtConfig.goalAccount overcountEvent
        = .ok row := by
  have hdecode : ScVal.decode (fun _ => "\uFFFD") overcountText
      = .error (.illegalArgument "Illegal Capacity: -2147483648") := rfl
  refine ⟨?_, ?_, ?_⟩
  · rintro ⟨vs, hvs⟩
    cases hvs.symm.trans (show _ = Except.error _ from rfl)
  · rintro ⟨o, ho⟩
    rw [ScVal.decodeOrNull, hdecode] at ho
    cases ho
  · rintro ⟨row, hrow⟩
    cases hrow.symm.trans (show _ = Except.error _ from rfl)

end RaizStack
