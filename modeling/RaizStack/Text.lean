import Mathlib.Algebra.Group.Int.Defs
import Mathlib.Algebra.Group.Nat.Defs
import Mathlib.Data.List.DropRight

/-!
# Text functions of the languages involved

The string operations the sources lean on, over lists of characters:
cutting at a separator, reading machine integers and printing JSON. The
number readers follow Rust's `str::parse`: a sign, at least one ASCII
digit, and no value outside the type.
-/

namespace Text

/-! ## Cutting -/

/-- The text before the first occurrence of a non-empty `pat`, and the
text after it when there is one. -/
def cut (pat : List Char) : List Char → List Char × Option (List Char)
  | [] => ([], none)
  | c :: cs =>
      if pat.isPrefixOf (c :: cs) then ([], some ((c :: cs).drop pat.length))
      else (c :: (cut pat cs).1, (cut pat cs).2)

/-- A text without the separator's character is cut right after it. -/
theorem cut_append {c : Char} {front rest : List Char} (h : c ∉ front) :
    cut [c] (front ++ c :: rest) = (front, some rest) := by
  induction front with
  | nil => simp [cut]
  | cons d front ih =>
      rw [List.mem_cons, not_or] at h
      have hpre : [c].isPrefixOf (d :: (front ++ c :: rest)) = false := by
        simp [List.isPrefixOf, h.1]
      rw [List.cons_append, cut, hpre, ih h.2]
      rfl

/-- A text without it is not cut. -/
theorem cut_of_not_mem {c : Char} {s : List Char} (h : c ∉ s) : cut [c] s = (s, none) := by
  induction s with
  | nil => rfl
  | cons d s ih =>
      rw [List.mem_cons, not_or] at h
      have hpre : [c].isPrefixOf (d :: s) = false := by
        simp [List.isPrefixOf, h.1]
      rw [cut, hpre, ih h.2]
      rfl

/-- `s.split(pat).nth(1)`: what stands between the first occurrence of
`pat` and the second, or the end. -/
def splitNth1 (pat s : List Char) : Option (List Char) :=
  (cut pat s).2.map fun tail => (cut pat tail).1

/-- `s.rsplit_once(c)`: what stands before and after the last `c`. -/
def rsplitOnce (c : Char) : List Char → Option (List Char × List Char)
  | [] => none
  | d :: s =>
      match rsplitOnce c s with
      | some (front, rest) => some (d :: front, rest)
      | none => if d = c then some ([], s) else none

theorem rsplitOnce_eq_none {c : Char} {s : List Char} : rsplitOnce c s = none ↔ c ∉ s := by
  induction s with
  | nil => simp [rsplitOnce]
  | cons d s ih =>
      rw [rsplitOnce, List.mem_cons, not_or, ← ih]
      cases rsplitOnce c s with
      | some p => simp
      | none => simp [eq_comm]

theorem rsplitOnce_eq_some {c : Char} {s front rest : List Char} :
    rsplitOnce c s = some (front, rest) ↔ s = front ++ c :: rest ∧ c ∉ rest := by
  induction s generalizing front with
  | nil => simp [rsplitOnce]
  | cons d s ih =>
      have hmem : ∀ {f : List Char}, s = f ++ c :: rest → c ∈ s := by
        rintro f rfl
        simp
      rw [rsplitOnce]
      cases hs : rsplitOnce c s with
      | some p =>
          have hc : c ∈ s := by
            by_contra hc
            rw [rsplitOnce_eq_none.mpr hc] at hs
            cases hs
          constructor
          · intro h
            obtain ⟨rfl, rfl⟩ := Prod.mk.inj (Option.some.inj h)
            obtain ⟨hsplit, hrest⟩ := ih.mp hs
            exact ⟨congrArg (d :: ·) hsplit, hrest⟩
          · rintro ⟨hsplit, hrest⟩
            cases front with
            | nil =>
                obtain ⟨rfl, rfl⟩ := List.cons.inj hsplit
                exact absurd hc hrest
            | cons e f =>
                obtain ⟨rfl, htail⟩ := List.cons.inj hsplit
                have hp : some p = some (f, rest) := hs.symm.trans (ih.mpr ⟨htail, hrest⟩)
                obtain rfl := Option.some.inj hp
                rfl
      | none =>
          have hc : c ∉ s := rsplitOnce_eq_none.mp hs
          constructor
          · intro h
            by_cases hd : d = c
            · rw [if_pos hd] at h
              obtain ⟨rfl, rfl⟩ := Prod.mk.inj (Option.some.inj h)
              exact ⟨congrArg (· :: s) hd, hc⟩
            · rw [if_neg hd] at h
              cases h
          · rintro ⟨hsplit, hrest⟩
            cases front with
            | nil =>
                obtain ⟨rfl, rfl⟩ := List.cons.inj hsplit
                exact if_pos rfl
            | cons e f => exact absurd (hmem (List.cons.inj hsplit).2) hc

/-! ## Blanks -/

/-- Kotlin's `Char.isWhitespace`. -/
def isWhitespace (c : Char) : Bool :=
  let n := c.toNat
  (9 ≤ n && n ≤ 13) || (28 ≤ n && n ≤ 32) || n == 0xA0 || n == 0x1680 ||
    (0x2000 ≤ n && n ≤ 0x200A) || n == 0x2028 || n == 0x2029 || n == 0x202F || n == 0x205F ||
    n == 0x3000

/-- Rust's `char::is_whitespace`. -/
def isWhiteSpace (c : Char) : Bool :=
  let n := c.toNat
  (9 ≤ n && n ≤ 13) || n == 32 || n == 0x85 || n == 0xA0 || n == 0x1680 ||
    (0x2000 ≤ n && n ≤ 0x200A) || n == 0x2028 || n == 0x2029 || n == 0x202F || n == 0x205F ||
    n == 0x3000

/-- Rust's `str::trim`. -/
def trimWhiteSpace (s : List Char) : List Char :=
  (s.dropWhile isWhiteSpace).rdropWhile isWhiteSpace

theorem rdropWhile_append (p : Char → Bool) (l m : List Char) :
    (l ++ m).rdropWhile p
      = if m.rdropWhile p = [] then l.rdropWhile p else l ++ m.rdropWhile p := by
  rw [List.rdropWhile, List.reverse_append, List.dropWhile_append]
  simp only [List.rdropWhile, List.isEmpty_iff, List.reverse_eq_nil_iff]
  split
  · rfl
  · rw [List.reverse_append, List.reverse_reverse]

theorem dropWhile_rdropWhile_self {p : Char → Bool} {l : List Char} (h : l.dropWhile p = l) :
    (l.rdropWhile p).dropWhile p = l.rdropWhile p := by
  obtain ⟨rest, hrest⟩ := l.rdropWhile_prefix p
  cases hfront : l.rdropWhile p with
  | nil => rfl
  | cons c front =>
      rw [hfront, List.cons_append] at hrest
      have hc : ¬ p c = true := by
        intro hc
        rw [← hrest, List.dropWhile_cons, if_pos hc] at h
        have hlen := (List.dropWhile_suffix (l := front ++ rest) p).length_le
        rw [h] at hlen
        exact absurd hlen (Nat.not_succ_le_self _)
      rw [List.dropWhile_cons, if_neg hc]

theorem trimWhiteSpace_trimWhiteSpace (s : List Char) :
    trimWhiteSpace (trimWhiteSpace s) = trimWhiteSpace s := by
  rw [trimWhiteSpace, trimWhiteSpace, dropWhile_rdropWhile_self (List.dropWhile_idempotent _ _),
    List.rdropWhile_idempotent]

section NothingToDrop

variable {p : Char → Bool} {s : List Char}

theorem dropWhile_of_forall (h : ∀ c ∈ s, p c = false) : s.dropWhile p = s :=
  List.dropWhile_eq_self_iff.mpr fun hl => by
    rw [h _ (List.getElem_mem hl)]
    exact Bool.false_ne_true

theorem rdropWhile_of_forall (h : ∀ c ∈ s, p c = false) : s.rdropWhile p = s :=
  List.rdropWhile_eq_self_iff.mpr fun hl => by
    rw [h _ (List.getLast_mem hl)]
    exact Bool.false_ne_true

end NothingToDrop

/-- Kotlin's `String.trim`. -/
def trim (s : List Char) : List Char :=
  (s.dropWhile isWhitespace).rdropWhile isWhitespace

/-- A text without blanks is trimmed to itself. -/
theorem trim_of_forall {s : List Char} (h : ∀ c ∈ s, isWhitespace c = false) : trim s = s := by
  rw [trim, dropWhile_of_forall h, rdropWhile_of_forall h]

/-! ## Case -/

/-- `eq_ignore_ascii_case`. -/
def eqIgnoreAsciiCase (s t : List Char) : Bool :=
  s.map Char.toLower == t.map Char.toLower

theorem toNat_toLower (c : Char) :
    c.toLower.toNat = if 65 ≤ c.toNat ∧ c.toNat ≤ 90 then c.toNat + 32 else c.toNat := by
  unfold Char.toLower
  by_cases h : c.val ≥ 'A'.val ∧ c.val ≤ 'Z'.val
  · have hupper : 65 ≤ c.toNat ∧ c.toNat ≤ 90 := by
      simpa [UInt32.le_iff_toNat_le] using h
    have hle : c.val.toNat ≤ 90 := hupper.2
    rw [dif_pos h, if_pos hupper]
    simp only [Char.toNat, UInt32.toNat_add]
    change (c.val.toNat + 32) % 2 ^ 32 = c.val.toNat + 32
    omega
  · have hother : ¬ (65 ≤ c.toNat ∧ c.toNat ≤ 90) := by
      simpa [UInt32.le_iff_toNat_le] using h
    rw [dif_neg h, if_neg hother]

/-! ## Order -/

/-- The UTF-16 code units of one character. -/
def charUnits (c : Char) : List Nat :=
  if c.toNat < 0x10000 then [c.toNat]
  else [0xD800 + (c.toNat - 0x10000) / 0x400, 0xDC00 + (c.toNat - 0x10000) % 0x400]

/-- The code units of a text, by which the JVM compares strings. -/
def codeUnits (s : String) : List Nat :=
  s.toList.flatMap charUnits

/-- A character is never a surrogate. -/
theorem toNat_scalar (c : Char) : c.toNat < 0xD800 ∨ 0xDFFF < c.toNat ∧ c.toNat < 0x110000 :=
  c.valid

/-- No character's code units begin another's. -/
theorem charUnits_append_inj {c d : Char} {x y : List Nat}
    (h : charUnits c ++ x = charUnits d ++ y) : c = d ∧ x = y := by
  have hc := toNat_scalar c
  have hd := toNat_scalar d
  unfold charUnits at h
  split at h <;> split at h <;> simp only [List.cons_append, List.nil_append, List.cons.injEq] at h
  · exact ⟨Char.toNat_inj.mp h.1, h.2⟩
  · omega
  · omega
  · exact ⟨Char.toNat_inj.mp (by omega), h.2.2⟩

theorem charUnits_ne_nil (c : Char) : charUnits c ≠ [] := by
  unfold charUnits
  split <;> exact List.cons_ne_nil _ _

theorem flatMap_charUnits_inj {s t : List Char} (h : s.flatMap charUnits = t.flatMap charUnits) :
    s = t := by
  induction s generalizing t with
  | nil =>
      cases t with
      | nil => rfl
      | cons d t => exact absurd (List.append_eq_nil_iff.mp h.symm).1 (charUnits_ne_nil d)
  | cons c s ih =>
      cases t with
      | nil => exact absurd (List.append_eq_nil_iff.mp h).1 (charUnits_ne_nil c)
      | cons d t =>
          obtain ⟨rfl, hrest⟩ := charUnits_append_inj h
          rw [ih hrest]

theorem codeUnits_injective : Function.Injective codeUnits :=
  fun _ _ h => String.toList_inj.mp (flatMap_charUnits_inj h)

/-- The first `n` code units, with half a pair printed as `\uFFFD`. -/
def takeUnits : Nat → List Char → List Char
  | 0, _ => []
  | _, [] => []
  | n + 1, c :: cs =>
      if c.toNat < 0x10000 then c :: takeUnits n cs
      else if n = 0 then ['\uFFFD'] else c :: takeUnits (n - 1) cs

/-- The last `n` code units. -/
def lastUnits (n : Nat) (s : List Char) : List Char :=
  (takeUnits n s.reverse).reverse

/-! ## Integers -/

def isDigit (c : Char) : Bool := '0' ≤ c && c ≤ '9'

/-- The decimal number a digit string denotes. -/
def digitsValue (ds : List Char) : Nat :=
  ds.foldl (fun n c => 10 * n + (c.toNat - '0'.toNat)) 0

/-- A non-empty string of ASCII digits as a number. -/
def parseDigits (ds : List Char) : Option Nat :=
  if ds ≠ [] ∧ ds.all isDigit then some (digitsValue ds) else none

/-- `parse::<u64>()`. -/
def parseU64 (s : List Char) : Option Nat :=
  let ds := match s with
    | '+' :: rest => rest
    | _ => s
  (parseDigits ds).filter (· < 2 ^ 64)

theorem parseU64_of_digits {ds : List Char} {n : Nat} (hds : parseDigits ds = some n)
    (hn : n < 2 ^ 64) : parseU64 ds = some n := by
  have hsign : ∀ rest, ds ≠ '+' :: rest := by
    rintro rest rfl
    simp [parseDigits, isDigit] at hds
  unfold parseU64
  split
  · exact absurd rfl (hsign _)
  · dsimp only
    rw [hds, Option.filter_some, if_pos (decide_eq_true hn)]

/-- `parse::<i64>()`. -/
def parseI64 : List Char → Option Int
  | '-' :: ds => ((parseDigits ds).filter (· ≤ 2 ^ 63)).map fun n => -(n : Int)
  | '+' :: ds => ((parseDigits ds).filter (· < 2 ^ 63)).map fun n => (n : Int)
  | ds => ((parseDigits ds).filter (· < 2 ^ 63)).map fun n => (n : Int)

/-- A sign is not a digit. -/
theorem parseDigits_sign {c : Char} (hc : isDigit c = false) (ds : List Char) :
    parseDigits (c :: ds) = none := by
  simp [parseDigits, hc]

/-- The positive numbers `parse::<i64>()` reads. -/
theorem parseI64_eq_pos {s : List Char} {n : Nat} (hn : 0 < n) :
    parseI64 s = some (n : Int)
      ↔ ∃ ds, (s = ds ∨ s = '+' :: ds) ∧ parseDigits ds = some n ∧ n < 2 ^ 63 := by
  have hread : ∀ ds,
      (((parseDigits ds).filter (· < 2 ^ 63)).map fun m => (m : Int)) = some (n : Int)
        ↔ parseDigits ds = some n ∧ n < 2 ^ 63 := by
    intro ds
    cases parseDigits ds with
    | none => simp
    | some m =>
        rw [Option.filter_some]
        split
        · next hm =>
            have hm' : m < 2 ^ 63 := of_decide_eq_true hm
            simp only [Option.pure_def, Option.bind_eq_bind, Option.bind_some, Option.map_some,
              Option.some.injEq, Int.ofNat_inj]
            exact ⟨fun h => ⟨h, h ▸ hm'⟩, fun h => h.1⟩
        · next hm =>
            have hm' : ¬ m < 2 ^ 63 := fun h => hm (decide_eq_true h)
            refine iff_of_false (by simp) ?_
            rintro ⟨h, hn⟩
            exact hm' (Option.some.inj h ▸ hn)
  unfold parseI64
  split
  · next ds =>
      refine iff_of_false (fun h => ?_) ?_
      · cases hd : (parseDigits ds).filter (· ≤ 2 ^ 63) with
        | none =>
            rw [hd] at h
            cases h
        | some m =>
            simp only [hd, Option.pure_def, Option.bind_eq_bind, Option.bind_some, Option.map_some,
              Option.some.injEq] at h
            omega
      · rintro ⟨ds', rfl | hs, hds, -⟩
        · rw [parseDigits_sign (by decide)] at hds
          cases hds
        · exact absurd (List.cons.inj hs).1 (by decide)
  · next ds =>
      rw [hread]
      constructor
      · exact fun h => ⟨ds, .inr rfl, h⟩
      · rintro ⟨ds', rfl | hs, hds⟩
        · rw [parseDigits_sign (by decide)] at hds
          cases hds.1
        · obtain rfl := (List.cons.inj hs).2
          exact hds
  · next hplus =>
      rw [hread]
      constructor
      · exact fun h => ⟨s, .inl rfl, h⟩
      · rintro ⟨ds', rfl | hs, hds⟩
        · exact hds
        · exact absurd hs (hplus ds')

/-- The printed form of a number reads back. -/
theorem parseDigits_repr (n : Nat) : parseDigits n.repr.toList = some n := by
  have hall : (Nat.toDigits 10 n).all isDigit = true := by
    refine List.all_eq_true.mpr fun c hc => ?_
    exact Nat.isDigit_of_mem_toDigits (by decide) (by decide) hc
  rw [Nat.toList_repr, parseDigits, if_pos ⟨Nat.toDigits_ne_nil, hall⟩]
  exact congrArg some Nat.ofDigitChars_ten_toDigits

theorem parseI64_of_digits {ds : List Char} {n : Nat} (hds : parseDigits ds = some n)
    (hn : n < 2 ^ 63) : parseI64 ds = some (n : Int) := by
  unfold parseI64
  split
  · simp [parseDigits, isDigit] at hds
  · simp [parseDigits, isDigit] at hds
  · rw [hds, Option.filter_some, if_pos (decide_eq_true hn)]
    rfl

theorem toList_toString_negSucc (m : Nat) :
    (toString (Int.negSucc m)).toList = '-' :: (m + 1).repr.toList := by
  change ("-" ++ (m + 1).repr).toList = _
  rw [String.toList_append]
  rfl

/-- What is printed of a 64-bit integer reads back. -/
theorem parseI64_toString {n : Int} (hlo : -2 ^ 63 ≤ n) (hhi : n < 2 ^ 63) :
    parseI64 (toString n).toList = some n := by
  cases n with
  | ofNat m =>
      have hm : (m : Int) < 2 ^ 63 := hhi
      exact parseI64_of_digits (parseDigits_repr m) (by omega)
  | negSucc m =>
      rw [toList_toString_negSucc, parseI64, parseDigits_repr, Option.filter_some,
        if_pos (decide_eq_true (by omega))]
      rfl

theorem repr_inj {n m : Nat} (h : n.repr.toList = m.repr.toList) : n = m := by
  have hread := congrArg parseDigits h
  rw [parseDigits_repr, parseDigits_repr] at hread
  exact Option.some.inj hread

/-- A sign is not a digit. -/
theorem repr_ne_minus {n : Nat} {ds : List Char} : n.repr.toList ≠ '-' :: ds := by
  intro h
  have hread := parseDigits_repr n
  rw [h] at hread
  simp [parseDigits, isDigit] at hread

/-- Integers that print alike are equal. -/
theorem toString_int_inj {n m : Int} (h : toString n = toString m) : n = m := by
  have hlist := congrArg String.toList h
  cases n with
  | ofNat n =>
      cases m with
      | ofNat m => exact congrArg Int.ofNat (repr_inj hlist)
      | negSucc m => exact absurd (hlist.trans (toList_toString_negSucc m)) repr_ne_minus
  | negSucc n =>
      rw [toList_toString_negSucc] at hlist
      cases m with
      | ofNat m => exact absurd hlist.symm repr_ne_minus
      | negSucc m =>
          rw [toList_toString_negSucc] at hlist
          have hsucc := repr_inj (List.cons.inj hlist).2
          exact congrArg Int.negSucc (Nat.succ.inj hsucc)

end Text

/-! ## JSON values -/

/-- A JSON value. A number keeps the text it is printed with. -/
inductive Json where
  | null
  | bool (b : Bool)
  | num (text : String)
  | str (s : String)
  | arr (items : List Json)
  | obj (fields : List (String × Json))

namespace Json

/-- `Value::get` with a key: the field of an object, nothing elsewhere. -/
def get? (j : Json) (name : String) : Option Json :=
  match j with
  | .obj fields => fields.lookup name
  | _ => none

/-- `Value::as_str`. -/
def asStr? : Json → Option String
  | .str s => some s
  | _ => none

def hexDigit (n : Nat) : Char :=
  if n < 10 then Char.ofNat ('0'.toNat + n) else Char.ofNat ('a'.toNat + (n - 10))

/-- How `serde_json` writes one character of a string. -/
def escapeChar (c : Char) : List Char :=
  if c = '"' then ['\\', '"']
  else if c = '\\' then ['\\', '\\']
  else if c = '\x08' then ['\\', 'b']
  else if c = '\x0c' then ['\\', 'f']
  else if c = '\n' then ['\\', 'n']
  else if c = '\r' then ['\\', 'r']
  else if c = '\t' then ['\\', 't']
  else if c.toNat < 32 then
    ['\\', 'u', '0', '0', hexDigit (c.toNat / 16), hexDigit (c.toNat % 16)]
  else [c]

def quote (s : String) : List Char :=
  ['"'] ++ s.toList.flatMap escapeChar ++ ['"']

mutual

/-- `serde_json::to_string`, the compact form. -/
def print : Json → List Char
  | .null => "null".toList
  | .bool b => if b then "true".toList else "false".toList
  | .num text => text.toList
  | .str s => quote s
  | .arr items => ['['] ++ printItems items ++ [']']
  | .obj fields => ['{'] ++ printFields fields ++ ['}']

def printItems : List Json → List Char
  | [] => []
  | [j] => print j
  | j :: js => print j ++ [','] ++ printItems js

def printFields : List (String × Json) → List Char
  | [] => []
  | [(k, j)] => quote k ++ [':'] ++ print j
  | (k, j) :: fs => quote k ++ [':'] ++ print j ++ [','] ++ printFields fs

end

def toText (j : Json) : String := String.ofList (print j)

end Json
