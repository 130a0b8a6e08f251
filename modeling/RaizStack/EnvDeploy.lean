import RaizStack.CtField
import RaizStack.Fallible
import RaizStack.JsValue
import RaizStack.Keyed
import RaizStack.Keyset
import RaizStack.Lts

/-!
# The secrets of the scripts

`.env.deploy` is a text of `KEY=VALUE` lines. A script loads it into an
object, takes from it the secrets it needs, makes up those that are not
there, and saves: the file is read again, the object laid over it, and the
whole written back. So the file is rewritten in the script's own form
each time, whatever stood in it.

What is written is read back exactly when no key and no value of the
update breaks its line (`load_save_iff`); what is read from a file never
does. On that rests the point of the file: a secret that was saved once is
the one every later script gets (`saved_for_good`), wherever the scripts
before it stopped. One script runs at a time here, and a write is not cut
off.
-/

namespace RaizStack

namespace EnvDeploy

/-! ## The format -/

/-- A property of the object. -/
abbrev Entry := String × String

/-- The object, its properties in the order they came in. -/
abbrev Env := Keyed.Table (Prod.fst : Entry → String)

/-- `env[key]`. -/
def get? (env : Env) (key : String) : Option String :=
  (env.find? key).map Prod.snd

/-- `[A-Z0-9_]`. -/
def isKeyChar (c : Char) : Bool :=
  ('A' ≤ c && c ≤ 'Z') || ('0' ≤ c && c ≤ '9') || c == '_'

/-- What `.` does not match. -/
def isLineTerminator (c : Char) : Bool :=
  c == '\n' || c == '\r' || c == '\u2028' || c == '\u2029'

/-- `line.match(/^([A-Z0-9_]+)=(.*)$/)`. -/
def matchLine (line : List Char) : Option Entry :=
  match line.dropWhile isKeyChar with
  | '=' :: value =>
      if line.takeWhile isKeyChar = [] ∨ value.any isLineTerminator = true then none
      else some (String.ofList (line.takeWhile isKeyChar), String.ofList value)
  | _ => none

/-- Of `\r\n` the split takes both. -/
def chomp (line : List Char) : List Char :=
  if line.getLast? = some '\r' then line.dropLast else line

def chompLines : List (List Char) → List (List Char)
  | [] => []
  | [line] => [line]
  | line :: lines => chomp line :: chompLines lines

/-- `text.split(/\r?\n/)`. -/
def splitLines (text : List Char) : List (List Char) :=
  chompLines (text.splitOnP (· == '\n'))

def ofText (text : String) : Env :=
  ((splitLines text.toList).filterMap matchLine).foldl Keyed.Table.upsert (.empty _)

/-- `loadEnvDeploy`, of the file if it exists. -/
def loadEnvDeploy (file : Option String) : Env :=
  match file with
  | none => .empty _
  | some text => ofText text

/-- `{ ...env, ...update }`. -/
def overlay (env update : Env) : Env :=
  update.rows.foldl Keyed.Table.upsert env

/-- The properties that come first whenever they came in: the array
indices. -/
def index? (key : String) : Option Nat :=
  (Text.parseDigits key.toList).filter fun n => toString n = key ∧ n < 2 ^ 32 - 1

/-- `Object.entries`. -/
def entries (env : Env) : List Entry :=
  Keyset.orderBy (fun e => (index? e.1).getD 0) (env.rows.filter fun e => (index? e.1).isSome)
    ++ env.rows.filter fun e => !(index? e.1).isSome

def header : String :=
  "# Session-4 CT flow secrets — TESTNET ONLY, friendbot play-money. NEVER commit.\n"

/-- `${k}=${v}`. -/
def lineOf (e : Entry) : List Char :=
  e.1.toList ++ '=' :: e.2.toList

def body (env : Env) : String :=
  String.ofList (header.toList ++ ['\n'].intercalate ((entries env).map lineOf) ++ ['\n'])

/-- `saveEnvDeploy`: the text the file has afterwards. -/
def saveEnvDeploy (file : Option String) (update : Env) : String :=
  body (overlay (loadEnvDeploy file) update)

/-! ## Lines -/

/-- A property that makes one line, and one the loader reads. -/
structure Saveable (e : Entry) : Prop where
  key : e.1.toList ≠ []
  keyChars : ∀ c ∈ e.1.toList, isKeyChar c = true
  value : ∀ c ∈ e.2.toList, isLineTerminator c = false

theorem noLineTerminator {l : List Char} (h : l.any isLineTerminator = false) :
    ∀ c ∈ l, isLineTerminator c = false := by
  intro c hc
  exact Bool.eq_false_of_not_eq_true (List.any_eq_false.mp h c hc)

theorem not_isKeyChar_eq : isKeyChar '=' = false := by decide

theorem isLineTerminator_of_isKeyChar {c : Char} (h : isKeyChar c = true) :
    isLineTerminator c = false := by
  by_contra hc
  simp only [isLineTerminator, Bool.not_eq_false, Bool.or_eq_true, beq_iff_eq] at hc
  obtain ((rfl | rfl) | rfl) | rfl := hc <;> simp [isKeyChar] at h

theorem Saveable.lineOf {e : Entry} (h : Saveable e) :
    ∀ c ∈ EnvDeploy.lineOf e, isLineTerminator c = false := by
  intro c hc
  rcases List.mem_append.mp hc with hc | hc
  · exact isLineTerminator_of_isKeyChar (h.keyChars c hc)
  · rcases List.mem_cons.mp hc with rfl | hc
    · decide
    · exact h.value c hc

/-- The lines that match are those of the saveable properties. -/
theorem matchLine_eq_some {line : List Char} {e : Entry} :
    matchLine line = some e ↔ Saveable e ∧ line = lineOf e := by
  constructor
  · intro h
    unfold matchLine at h
    split at h
    · rename_i value hrest
      split at h
      · cases h
      · rename_i hgood
        obtain rfl := Option.some.inj h
        rw [not_or] at hgood
        refine ⟨⟨?_, fun c hc => ?_, fun c hc => ?_⟩, ?_⟩
        · rw [String.toList_ofList]
          exact hgood.1
        · rw [String.toList_ofList] at hc
          exact List.mem_takeWhile_imp hc
        · rw [String.toList_ofList] at hc
          by_contra hterm
          exact hgood.2 (List.any_eq_true.mpr ⟨c, hc, Bool.eq_true_of_not_eq_false hterm⟩)
        · rw [lineOf, String.toList_ofList, String.toList_ofList, ← hrest,
            List.takeWhile_append_dropWhile]
    · cases h
  · rintro ⟨h, rfl⟩
    have htake : (lineOf e).takeWhile isKeyChar = e.1.toList := by
      rw [lineOf, List.takeWhile_append_of_pos h.keyChars, List.takeWhile_cons,
        not_isKeyChar_eq]
      exact List.append_nil _
    have hdrop : (lineOf e).dropWhile isKeyChar = '=' :: e.2.toList := by
      rw [lineOf, List.dropWhile_append_of_pos h.keyChars, List.dropWhile_cons,
        not_isKeyChar_eq]
      rfl
    have hvalue : ¬ e.2.toList.any isLineTerminator = true := by
      intro hany
      obtain ⟨c, hc, hterm⟩ := List.any_eq_true.mp hany
      rw [h.value c hc] at hterm
      cases hterm
    rw [matchLine, hdrop, htake]
    exact (if_neg (not_or.mpr ⟨h.key, hvalue⟩)).trans (by simp)

/-- Lines that hold no terminator come out of their text again. -/
theorem splitLines_of_lines {lines : List (List Char)}
    (h : ∀ line ∈ lines, ∀ c ∈ line, isLineTerminator c = false) :
    splitLines (lines.flatMap (· ++ ['\n'])) = lines ++ [[]] := by
  have hno : ∀ {line : List Char} {c : Char}, (∀ c ∈ line, isLineTerminator c = false) →
      isLineTerminator c = true → c ∉ line := by
    intro line c hline hc hmem
    rw [hline c hmem] at hc
    cases hc
  induction lines with
  | nil => rfl
  | cons line lines ih =>
      have hline := h line List.mem_cons_self
      have hnl : ∀ c ∈ line, (c == '\n') = false := fun c hc =>
        beq_false_of_ne fun heq => hno hline (by decide) (heq ▸ hc)
      have hcr : chomp line = line := by
        refine if_neg fun hlast => ?_
        exact hno hline (by decide) (List.mem_of_getLast? hlast)
      have hrest := ih fun l hl => h l (List.mem_cons_of_mem line hl)
      rw [splitLines] at hrest ⊢
      rw [List.flatMap_cons, List.append_assoc, List.singleton_append,
        List.splitOnP_append_cons_of_forall_mem hnl '\n' rfl]
      cases hsplit : (lines.flatMap (· ++ ['\n'])).splitOnP (· == '\n') with
      | nil => exact absurd hsplit (List.splitOnP_ne_nil _ _)
      | cons first others =>
          rw [hsplit] at hrest
          rw [chompLines, hcr, hrest]
          · rfl
          · exact List.cons_ne_nil _ _

/-! ## What is written is read -/

theorem get?_eq_some {env : Env} {key value : String} :
    get? env key = some value ↔ (key, value) ∈ env.rows := by
  rw [get?, Option.map_eq_some_iff]
  constructor
  · rintro ⟨e, he, rfl⟩
    obtain ⟨hmem, rfl⟩ := Keyed.Table.find?_eq_some.mp he
    exact hmem
  · exact fun hmem => ⟨_, Keyed.Table.find?_eq_some.mpr ⟨hmem, rfl⟩, rfl⟩

theorem entries_perm (env : Env) : (entries env).Perm env.rows :=
  (Keyset.orderBy_perm.append_right _).trans (List.filter_append_perm _ _)

theorem mem_entries {env : Env} {e : Entry} : e ∈ entries env ↔ e ∈ env.rows :=
  (entries_perm env).mem_iff

theorem keys_entries_nodup (env : Env) : ((entries env).map Prod.fst).Nodup :=
  ((entries_perm env).map _).nodup_iff.mpr env.keysNodup

/-- Both objects of an update, property by property. -/
theorem get?_overlay (env update : Env) (key : String) :
    get? (overlay env update) key = (get? update key).or (get? env key) := by
  have hfind : (overlay env update).find? key = (update.find? key).or (env.find? key) :=
    Keyed.Table.find?_foldl_upsert update.keysNodup env key
  rw [get?, hfind, get?, get?]
  cases update.find? key with
  | some e => rfl
  | none => rfl

/-- A loaded property is saveable: it was a line. -/
theorem saveable_of_ofText {text : String} {e : Entry} (h : e ∈ (ofText text).rows) :
    Saveable e := by
  have hrows : ∀ (l : List Entry) (T : Env), (∀ x ∈ l, Saveable x) → (∀ x ∈ T.rows, Saveable x) →
      ∀ x ∈ (l.foldl Keyed.Table.upsert T).rows, Saveable x := by
    intro l
    induction l with
    | nil => exact fun T _ hT => hT
    | cons y l ih =>
        intro T hl hT
        refine ih _ (fun x hx => hl x (List.mem_cons_of_mem y hx)) fun x hx => ?_
        rcases Keyed.Table.mem_upsert.mp hx with rfl | ⟨hx, -⟩
        · exact hl _ List.mem_cons_self
        · exact hT x hx
  refine hrows _ _ (fun x hx => ?_) (fun x hx => by cases hx) e h
  obtain ⟨line, -, hline⟩ := List.mem_filterMap.mp hx
  exact (matchLine_eq_some.mp hline).1

theorem saveable_of_loaded {file : Option String} {e : Entry}
    (h : e ∈ (loadEnvDeploy file).rows) : Saveable e := by
  cases file with
  | none => cases h
  | some text => exact saveable_of_ofText h

theorem body_lines (env : Env) :
    (body env).toList = (header.toList.dropLast ::
      (if entries env = [] then [[]] else (entries env).map lineOf)).flatMap (· ++ ['
']) := by
  have hheader : header.toList = header.toList.dropLast ++ ['
'] := by decide +kernel
  have hjoin : ∀ (line : List Char) (lines : List (List Char)),
      ['
'].intercalate (line :: lines) ++ ['
'] = (line :: lines).flatMap (· ++ ['
']) := by
    intro line lines
    induction lines generalizing line with
    | nil => simp [List.intercalate]
    | cons next lines ih =>
        rw [List.intercalate_cons_cons, List.append_assoc, List.append_assoc, ih]
        simp only [List.flatMap_cons, List.append_assoc]
  rw [body, String.toList_ofList, List.flatMap_cons, ← hheader, List.append_assoc]
  congr 1
  cases hentries : entries env with
  | nil => rfl
  | cons e es =>
      rw [if_neg (List.cons_ne_nil e es), List.map_cons, hjoin]

/-- A body of saveable properties loads to them. -/
theorem rows_body {env : Env} (h : ∀ e ∈ env.rows, Saveable e) :
    (ofText (body env)).rows = entries env := by
  have hclean : ∀ line ∈ header.toList.dropLast ::
      (if entries env = [] then [[]] else (entries env).map lineOf),
      ∀ c ∈ line, isLineTerminator c = false := by
    intro line hline
    rcases List.mem_cons.mp hline with rfl | hline
    · exact noLineTerminator (by decide +kernel)
    · split at hline
      · rw [List.mem_singleton.mp hline]
        nofun
      · obtain ⟨e, he, rfl⟩ := List.mem_map.mp hline
        exact (h e (mem_entries.mp he)).lineOf
  have hmatched : (splitLines (body env).toList).filterMap matchLine = entries env := by
    have hheader : matchLine header.toList.dropLast = none := by decide +kernel
    have hlines : ((entries env).map lineOf).filterMap matchLine = entries env := by
      rw [List.filterMap_map]
      refine (List.filterMap_congr fun e he => ?_).trans List.filterMap_some
      exact matchLine_eq_some.mpr ⟨h e (mem_entries.mp he), rfl⟩
    rw [body_lines, splitLines_of_lines hclean, List.filterMap_append, List.filterMap_cons,
      hheader]
    have hblank : [[]].filterMap matchLine = [] := by decide
    rw [hblank, List.append_nil]
    dsimp only
    split
    · rename_i hnil
      rw [hblank, hnil]
    · exact hlines
  rw [ofText, hmatched, Keyed.Table.rows_foldl_upsert]
  · rfl
  · exact keys_entries_nodup env

theorem get?_body {env : Env} (h : ∀ e ∈ env.rows, Saveable e) (key : String) :
    get? (ofText (body env)) key = get? env key := by
  refine Option.ext fun value => ?_
  rw [get?_eq_some, get?_eq_some, rows_body h, mem_entries]

theorem saveable_overlay {file : Option String} {update : Env} (h : ∀ e ∈ update.rows, Saveable e) :
    ∀ e ∈ (overlay (loadEnvDeploy file) update).rows, Saveable e := by
  intro e he
  have hget : get? (overlay (loadEnvDeploy file) update) e.1 = some e.2 := get?_eq_some.mpr he
  rw [get?_overlay, Option.or_eq_some_iff] at hget
  rcases hget with hget | ⟨-, hget⟩
  · exact h e (get?_eq_some.mp hget)
  · exact saveable_of_loaded (get?_eq_some.mp hget)

/-- **Saved and loaded.** Over whatever the file held, a load after a save
gives the file's properties under those of the update - exactly when each
property of the update is one line that the loader reads. -/
theorem load_save_iff (file : Option String) (update : Env) :
    (∀ key, get? (loadEnvDeploy (some (saveEnvDeploy file update))) key =
        (get? update key).or (get? (loadEnvDeploy file) key)) ↔
      ∀ e ∈ update.rows, Saveable e := by
  constructor
  · intro h e he
    have hget : get? (loadEnvDeploy (some (saveEnvDeploy file update))) e.1 = some e.2 := by
      rw [h, get?_eq_some.mpr he]
      rfl
    exact saveable_of_loaded (get?_eq_some.mp hget)
  · intro h key
    rw [← get?_overlay]
    exact get?_body (saveable_overlay h) key

/-! ## Written twice -/

theorem index?_eq_some {key : String} {n : Nat} (h : index? key = some n) : toString n = key :=
  (of_decide_eq_true (Option.filter_eq_some_iff.mp h).2).1

/-- The entries, listed, are listed in the same order again. -/
theorem entries_of_rows {env env' : Env} (h : env'.rows = entries env) :
    entries env' = entries env := by
  have hsorted : ∀ e ∈ Keyset.orderBy (fun e : Entry => (index? e.1).getD 0)
      (env.rows.filter fun e => (index? e.1).isSome), (index? e.1).isSome = true :=
    fun e he => (List.mem_filter.mp (Keyset.mem_orderBy.mp he)).2
  have hothers : ∀ e ∈ env.rows.filter (fun e => !(index? e.1).isSome),
      (index? e.1).isSome = false :=
    fun e he => (Bool.not_eq_true' _).mp (List.mem_filter.mp he).2
  have hkeys : ((env.rows.filter fun e => (index? e.1).isSome).map
      fun e => (index? e.1).getD 0).Nodup := by
    refine List.Nodup.map_on (fun e he e' he' hindex => ?_)
      ((List.Nodup.of_map _ env.keysNodup).filter _)
    obtain ⟨hmem, hsome⟩ := List.mem_filter.mp he
    obtain ⟨hmem', hsome'⟩ := List.mem_filter.mp he'
    obtain ⟨n, hn⟩ := Option.isSome_iff_exists.mp hsome
    obtain ⟨n', hn'⟩ := Option.isSome_iff_exists.mp hsome'
    rw [hn, hn'] at hindex
    obtain rfl : n = n' := hindex
    exact env.eq_of_key_eq hmem hmem' ((index?_eq_some hn).symm.trans (index?_eq_some hn'))
  have hnone : (env.rows.filter fun e => !(index? e.1).isSome).filter
      (fun e => (index? e.1).isSome) = [] := by
    refine List.filter_eq_nil_iff.mpr fun e he => ?_
    rw [hothers e he]
    exact Bool.false_ne_true
  have hnone' : (Keyset.orderBy (fun e : Entry => (index? e.1).getD 0)
      (env.rows.filter fun e => (index? e.1).isSome)).filter
      (fun e => !(index? e.1).isSome) = [] := by
    refine List.filter_eq_nil_iff.mpr fun e he => ?_
    rw [hsorted e he]
    exact Bool.false_ne_true
  have hfirst : (entries env).filter (fun e => (index? e.1).isSome)
      = Keyset.orderBy (fun e => (index? e.1).getD 0)
          (env.rows.filter fun e => (index? e.1).isSome) := by
    rw [entries, List.filter_append, List.filter_eq_self.mpr hsorted, hnone, List.append_nil]
  have hlast : (entries env).filter (fun e => !(index? e.1).isSome)
      = env.rows.filter fun e => !(index? e.1).isSome := by
    rw [entries, List.filter_append, hnone', List.nil_append, List.filter_filter]
    simp only [Bool.and_self]
  rw [entries, h, hfirst, hlast,
    Keyset.orderBy_eq_of_perm (List.Perm.refl _) (Keyset.orderBy_strict hkeys), ← entries]

theorem overlay_empty (env : Env) : overlay env (.empty _) = env := rfl

theorem loadEnvDeploy_some (text : String) : loadEnvDeploy (some text) = ofText text := rfl

/-- A save that has nothing to add leaves a saved file as it is. -/
theorem save_again (file : Option String) {update : Env} (h : ∀ e ∈ update.rows, Saveable e) :
    saveEnvDeploy (some (saveEnvDeploy file update)) (.empty _) = saveEnvDeploy file update := by
  have hrows := rows_body (@saveable_overlay file update h)
  rw [saveEnvDeploy, overlay_empty, loadEnvDeploy_some]
  rw [body, saveEnvDeploy, entries_of_rows hrows, ← body]

/-! ## The scripts -/

/-- The value of a key, unless it is falsy. -/
def held (env : Env) (key : String) : Option String :=
  (get? env key).filter (· ≠ "")

/-- `ensureKeypair` and `ensureScalar`: the object, and the text the secret
that is returned stands in. -/
def ensure (env : Env) (key fresh : String) : Env × String :=
  match held env key with
  | some text => (env, text)
  | none => (env.upsert (key, fresh), fresh)

/-- An auditor key in `deploy.mjs`, which writes a stored one in its own
spelling; one that is no number throws. -/
def auditorKey (env : Env) (key : String) (fresh : Int) : Option Env :=
  let scalar : Option Int :=
    match held env key with
    | some text => (Js.bigIntOfText text).toOption
    | none => some fresh
  scalar.map fun k => env.upsert (key, toHex32 k)

/-- The file, and the object of the script that runs. -/
structure Desk where
  file : Option String
  env : Option Env

inductive Op where
  /-- A script begins. The one before has ended, or stopped anywhere. -/
  | load
  | ensure (key fresh : String)
  | auditorKey (key : String) (fresh : Int)
  | save

def next (s : Desk) : Op → Option Desk
  | .load => some { s with env := some (loadEnvDeploy s.file) }
  | .ensure key fresh => s.env.map fun env => { s with env := some (ensure env key fresh).1 }
  | .auditorKey key fresh =>
      s.env.bind fun env =>
        (auditorKey env key fresh).map fun env' => { s with env := some env' }
  | .save => s.env.map fun env => { s with file := some (saveEnvDeploy s.file env) }

/-- The keys in the scripts and the secrets they make up are one line. -/
def OneLine (_ : Desk) : Op → Prop
  | .ensure key fresh => Saveable (key, fresh) ∧ fresh ≠ ""
  | .auditorKey key _ => Saveable (key, "")
  | _ => True

def step : Desk → Op → Desk → Prop :=
  Lts.ofNext OneLine next

/-- Whatever the file holds when the first script begins. -/
def Start (s : Desk) : Prop := s.env = none

/-- The same secret: the same text, or the number it stood for, printed as
a field element. -/
def Kept (v v' : String) : Prop :=
  v' = v ∨ ∃ k, Js.bigIntOfText v = .ok k ∧ v' = toHex32 k

/-- Every secret of `env` is one of `env'`. -/
def Grown (env env' : Env) : Prop :=
  ∀ key v, held env key = some v → ∃ v', held env' key = some v' ∧ Kept v v'

section Runs

variable {env env' : Env} {s s' t : Desk} {a : Op} {key v : String}

theorem Kept.refl (v : String) : Kept v v := Or.inl rfl

theorem Kept.trans {v v' v'' : String} (h : Kept v v') (h' : Kept v' v'') :
    Kept v v'' := by
  rcases h with rfl | ⟨k, hk, rfl⟩
  · exact h'
  · rcases h' with rfl | ⟨k', hk', rfl⟩
    · exact Or.inr ⟨k, hk, rfl⟩
    · rw [bigIntOfText_toHex32] at hk'
      obtain rfl := Except.ok.inj hk'
      exact Or.inr ⟨k, hk, toHex32_frMod k⟩

theorem Grown.refl (env : Env) : Grown env env := fun _ v h => ⟨v, h, .refl v⟩

theorem Grown.trans {env'' : Env} (h : Grown env env') (h' : Grown env' env'') :
    Grown env env'' := by
  intro key v hv
  obtain ⟨v', hv', hkept⟩ := h key v hv
  obtain ⟨v'', hv'', hkept'⟩ := h' key v' hv'
  exact ⟨v'', hv'', hkept.trans hkept'⟩

theorem held_eq_some : held env key = some v ↔ get? env key = some v ∧ v ≠ "" := by
  rw [held, Option.filter_eq_some_iff, decide_eq_true_eq]

theorem held_upsert (env : Env) (key v key' : String) :
    held (env.upsert (key, v)) key' =
      if key' = key then (some v).filter (· ≠ "") else held env key' := by
  rw [held, get?, Keyed.Table.find?_upsert]
  split
  · rfl
  · rfl

/-- Writing a secret over itself, or where there was none. -/
theorem grown_upsert (hv : v ≠ "") (h : ∀ old, held env key = some old → Kept old v) :
    Grown env (env.upsert (key, v)) := by
  intro key' old hold
  rw [held_upsert]
  split
  · rename_i hkey
    subst hkey
    exact ⟨v, Option.filter_some_pos (decide_eq_true hv), h old hold⟩
  · exact ⟨old, hold, .refl old⟩

theorem saveable_upsert {e : Entry} (h : ∀ x ∈ env.rows, Saveable x) (he : Saveable e) :
    ∀ x ∈ (env.upsert e).rows, Saveable x := by
  intro x hx
  rcases Keyed.Table.mem_upsert.mp hx with rfl | ⟨hx, -⟩
  · exact he
  · exact h x hx

theorem ensure_of_held {fresh text : String} (h : held env key = some text) :
    ensure env key fresh = (env, text) := by
  rw [ensure, h]

theorem grown_ensure {fresh : String} (hfresh : fresh ≠ "") :
    Grown env (ensure env key fresh).1 := by
  unfold ensure
  split
  · exact .refl env
  · rename_i hnone
    refine grown_upsert hfresh fun old hold => ?_
    rw [hnone] at hold
    cases hold

theorem saveable_ensure {fresh : String} (h : ∀ x ∈ env.rows, Saveable x)
    (hline : Saveable (key, fresh)) : ∀ x ∈ (ensure env key fresh).1.rows, Saveable x := by
  unfold ensure
  split
  · exact h
  · exact saveable_upsert h hline

theorem toHex32_isLine (k : Int) :
    toHex32 k ≠ "" ∧ ∀ c ∈ (toHex32 k).toList, isLineTerminator c = false := by
  refine ⟨fun h => ?_, fun c hc => ?_⟩
  · have hlist := congrArg String.toList h
    rw [toHex32, String.toList_ofList] at hlist
    cases hlist
  · have hblank := not_isWhitespace_toHex32 hc
    by_contra hline
    simp only [isLineTerminator, Bool.not_eq_false, Bool.or_eq_true, beq_iff_eq] at hline
    obtain ((rfl | rfl) | rfl) | rfl := hline <;> exact absurd hblank (by decide)

/-- The text an auditor key is written in. -/
theorem auditorKey_eq_some {fresh : Int} (h : auditorKey env key fresh = some env') :
    ∃ k, env' = env.upsert (key, toHex32 k) ∧
      ∀ old, held env key = some old → Kept old (toHex32 k) := by
  obtain ⟨k, hk, rfl⟩ := Option.map_eq_some_iff.mp h
  refine ⟨k, rfl, fun old hold => Or.inr ⟨k, ?_, rfl⟩⟩
  rw [hold] at hk
  have hread : (Js.bigIntOfText old).toOption = some k := hk
  cases hbig : Js.bigIntOfText old with
  | error message =>
      rw [hbig] at hread
      cases hread
  | ok n =>
      rw [hbig] at hread
      rw [Option.some.inj hread]

/-! ## The invariant -/

/-- What a script holds can be written, and has every secret of the file. -/
structure InHand (file : Option String) (env : Env) : Prop where
  saveable : ∀ e ∈ env.rows, Saveable e
  grown : Grown (loadEnvDeploy file) env

def DeskOk (s : Desk) : Prop :=
  ∀ env, s.env = some env → InHand s.file env

/-- After a save the secrets of the file are those in hand. -/
theorem held_saved {file : Option String} (h : InHand file env) (key : String) :
    held (loadEnvDeploy (some (saveEnvDeploy file env))) key = held env key := by
  have hget : get? (loadEnvDeploy (some (saveEnvDeploy file env))) key
      = (get? env key).or (get? (loadEnvDeploy file) key) := by
    rw [← get?_overlay]
    exact get?_body (saveable_overlay h.saveable) key
  rw [held, hget, held]
  cases hin : get? env key with
  | some v => rfl
  | none =>
      -- a secret of the file alone would not be in hand
      refine Option.filter_eq_none_iff.mpr fun v hv hne => ?_
      obtain ⟨v', hv', -⟩ := h.grown key v (held_eq_some.mpr ⟨hv, of_decide_eq_true hne⟩)
      rw [held, hin] at hv'
      cases hv'

theorem InHand.saved {file : Option String} (h : InHand file env) :
    InHand (some (saveEnvDeploy file env)) env where
  saveable := h.saveable
  grown key v hv := ⟨v, (held_saved h key).symm.trans hv, .refl v⟩

/-- One step keeps what is in hand in order, and the file's secrets. -/
theorem DeskOk.step (h : DeskOk s) (hstep : EnvDeploy.step s a t) :
    DeskOk t ∧ Grown (loadEnvDeploy s.file) (loadEnvDeploy t.file) := by
  obtain ⟨hline, hnext⟩ := hstep
  cases a with
  | load =>
      obtain rfl := Option.some.inj hnext
      refine ⟨fun env henv => ?_, .refl _⟩
      obtain rfl := Option.some.inj henv
      exact ⟨fun e he => saveable_of_loaded he, .refl _⟩
  | ensure key fresh =>
      obtain ⟨env, henv, rfl⟩ := Option.map_eq_some_iff.mp hnext
      refine ⟨fun env' henv' => ?_, .refl _⟩
      obtain rfl := Option.some.inj henv'
      exact ⟨saveable_ensure (h env henv).saveable hline.1,
        (h env henv).grown.trans (grown_ensure hline.2)⟩
  | auditorKey key fresh =>
      obtain ⟨env, henv, hkey⟩ := Option.bind_eq_some_iff.mp hnext
      obtain ⟨env', henv', rfl⟩ := Option.map_eq_some_iff.mp hkey
      refine ⟨fun env'' henv'' => ?_, .refl _⟩
      obtain rfl := Option.some.inj henv''
      obtain ⟨k, rfl, hkept⟩ := auditorKey_eq_some henv'
      obtain ⟨hne, hone⟩ := toHex32_isLine k
      exact ⟨saveable_upsert (h env henv).saveable ⟨hline.key, hline.keyChars, hone⟩,
        (h env henv).grown.trans (grown_upsert hne hkept)⟩
  | save =>
      obtain ⟨env, henv, rfl⟩ := Option.map_eq_some_iff.mp hnext
      have hsaved := (h env henv).saved
      refine ⟨fun env' henv' => ?_, fun key v hv => ?_⟩
      · obtain rfl := Option.some.inj (henv.symm.trans henv')
        exact hsaved
      · rw [held_saved (h env henv) key]
        exact (h env henv).grown key v hv

theorem deskOk_reach (h : Lts.Reach Start step s) : DeskOk s := by
  refine h.invariant (fun s hs env henv => ?_) fun s a t _ hs hstep => (hs.step hstep).1
  have hnone : s.env = none := hs
  rw [hnone] at henv
  cases henv

/-- A secret in the file stays in the file. -/
theorem grown_steps (hs : Lts.Reach Start step s) (h : Lts.Steps step s t) :
    Grown (loadEnvDeploy s.file) (loadEnvDeploy t.file) := by
  have hkept : DeskOk t ∧ Grown (loadEnvDeploy s.file) (loadEnvDeploy t.file) := by
    refine h.keeps (I := fun u => DeskOk u ∧
      Grown (loadEnvDeploy s.file) (loadEnvDeploy u.file)) (fun u a v hu hstep => ?_)
      ⟨deskOk_reach hs, .refl _⟩
    obtain ⟨hok, hgrown⟩ := hu.1.step hstep
    exact ⟨hok, hu.2.trans hgrown⟩
  exact hkept.2

end Runs

/-- **A saved secret is the secret.** What a script held under a key when
it saved is what every later script gets that ensures the key, in a run of
any scripts, each of which may stop anywhere. -/
theorem saved_for_good {s s' t : Desk} {env env' : Env} {key v : String}
    (hs : Lts.Reach Start step s) (henv : s.env = some env) (hheld : held env key = some v)
    (hsave : step s .save s') (hrun : Lts.Steps step s' t) (henv' : t.env = some env')
    (fresh : String) : Kept v (ensure env' key fresh).2 := by
  have hok := deskOk_reach hs
  have hs' := hs.step hsave
  have hfile : held (loadEnvDeploy s'.file) key = some v := by
    obtain ⟨env₁, henv₁, rfl⟩ := Option.map_eq_some_iff.mp hsave.2
    obtain rfl := Option.some.inj (henv.symm.trans henv₁)
    exact (held_saved (hok env henv) key).trans hheld
  obtain ⟨v₁, hv₁, hkept₁⟩ := grown_steps hs' hrun key v hfile
  obtain ⟨v₂, hv₂, hkept₂⟩ := (deskOk_reach (hs'.steps hrun) env' henv').grown key v₁ hv₁
  rw [ensure_of_held hv₂]
  exact hkept₁.trans hkept₂

/-- A file edited by hand. -/
def handFile : String := "CT_AUDITOR0_SECRET_HEX=0xB\r\nnote to self\n"

def handEnv : Env := loadEnvDeploy (some handFile)

/-- The file as a script writes it that adds nothing. -/
def handSaved : Option String := some (saveEnvDeploy (some handFile) handEnv)

/-- One script saves the file, and the next one spells the key its own way. -/
theorem saved_for_good_hand :
    ∃ env', Lts.Steps step ⟨some handFile, none⟩ ⟨handSaved, some env'⟩ ∧
      Kept "0xB" (ensure env' "CT_AUDITOR0_SECRET_HEX" "0x1").2 := by
  have hkey : (auditorKey (loadEnvDeploy handSaved)
      "CT_AUDITOR0_SECRET_HEX" 5).isSome = true := by
    decide +kernel
  obtain ⟨env', henv'⟩ := Option.isSome_iff_exists.mp hkey
  have hname : Saveable ("CT_AUDITOR0_SECRET_HEX", "") :=
    ⟨by decide, List.all_eq_true.mp (by decide), nofun⟩
  have hload : step ⟨some handFile, none⟩ .load ⟨some handFile, some handEnv⟩ :=
    ⟨trivial, rfl⟩
  have hsave : step ⟨some handFile, some handEnv⟩ .save ⟨handSaved, some handEnv⟩ :=
    ⟨trivial, rfl⟩
  have hagain : step ⟨handSaved, some handEnv⟩ .load
      ⟨handSaved, some (loadEnvDeploy handSaved)⟩ := ⟨trivial, rfl⟩
  have hspell : step ⟨handSaved, some (loadEnvDeploy handSaved)⟩
      (.auditorKey "CT_AUDITOR0_SECRET_HEX" 5) ⟨handSaved, some env'⟩ :=
    ⟨hname, by rw [next, Option.bind_some, henv', Option.map_some]⟩
  have hlater : Lts.Steps step ⟨handSaved, some handEnv⟩ ⟨handSaved, some env'⟩ :=
    (Relation.ReflTransGen.single ⟨_, hagain⟩).tail ⟨_, hspell⟩
  have hstart : Start ⟨some handFile, none⟩ := rfl
  have hreach := (Lts.Reach.init hstart).step hload
  refine ⟨env', .head ⟨_, hload⟩ (.head ⟨_, hsave⟩ hlater), ?_⟩
  exact saved_for_good hreach rfl (by decide +kernel) hsave hlater rfl "0x1"

end EnvDeploy

end RaizStack
