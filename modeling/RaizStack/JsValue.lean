import RaizStack.Text

/-!
# What JavaScript makes of a JSON value

A script that reads a JSON file works on whatever stands there: it takes
properties of values that are no objects, prints them into templates and
gives them to `BigInt`. Each of these either converts or throws. The
values come from `JSON.parse`, so there is no function among them, and
`none` is `undefined`.
-/

namespace Js

/-! ## Properties and texts -/

/-- `v.name`, for a name that no prototype has. -/
def prop (v : Option Json) (name : String) : Except String (Option Json) :=
  match v with
  | none => .error ("Cannot read properties of undefined (reading '" ++ name ++ "')")
  | some .null => .error ("Cannot read properties of null (reading '" ++ name ++ "')")
  | some j => .ok (j.get? name)

mutual

/-- `String(j)`. A field named `toString` stands before the method and is
no function, and `valueOf` gives no primitive either. -/
def toText : Json → Except String String
  | .null => .ok "null"
  | .bool b => .ok (if b then "true" else "false")
  | .num text => .ok text
  | .str s => .ok s
  | .arr items => joinItems items
  | .obj fields =>
      if (fields.lookup "toString").isSome then .error "Cannot convert object to primitive value"
      else .ok "[object Object]"

/-- `items.join(",")`, where `null` is left empty. -/
def joinItems : List Json → Except String String
  | [] => .ok ""
  | [.null] => .ok ""
  | [j] => toText j
  | .null :: js => do
      let rest ← joinItems js
      .ok ("," ++ rest)
  | j :: js => do
      let first ← toText j
      let rest ← joinItems js
      .ok (first ++ "," ++ rest)

end

/-- `v === text`. -/
def isText (v : Option Json) (text : String) : Bool :=
  match v with
  | some (.str s) => s == text
  | _ => false

/-- What a template prints of a value. -/
def template : Option Json → Except String String
  | none => .ok "undefined"
  | some j => toText j

/-- What a template prints of `v.slice(0, n)`, where `v` is written `expr`. -/
def slice (expr : String) (v : Option Json) (n : Nat) : Except String String :=
  match v with
  | none => .error "Cannot read properties of undefined (reading 'slice')"
  | some .null => .error "Cannot read properties of null (reading 'slice')"
  | some (.str s) => .ok (String.ofList (Text.takeUnits n s.toList))
  | some (.arr items) => joinItems (items.take n)
  | some _ => .error (expr ++ ".slice is not a function")

theorem prop_eq_ok {v w : Option Json} {name : String} :
    prop v name = .ok w ↔ ∃ j, v = some j ∧ j ≠ .null ∧ j.get? name = w := by
  unfold prop
  split
  · simp
  · simp
  · rename_i j hj
    constructor
    · rintro ⟨⟩
      exact ⟨j, rfl, hj, rfl⟩
    · rintro ⟨j', ⟨⟩, -, rfl⟩
      rfl

/-- A value with a field is no `null`. -/
theorem prop_of_field {j w : Json} {field : String} (h : j.get? field = some w) (name : String) :
    prop (some j) name = .ok (j.get? name) := by
  refine prop_eq_ok.mpr ⟨j, rfl, ?_, rfl⟩
  rintro rfl
  cases h

theorem isText_eq_true {v : Option Json} {text : String} :
    isText v text = true ↔ v = some (.str text) := by
  unfold isText
  split
  · simp
  · rename_i hne
    simpa using fun h => hne text h

/-! ## `BigInt` -/

/-- White space and line ends of the language. -/
def isWhitespace (c : Char) : Bool :=
  let n := c.toNat
  (9 ≤ n && n ≤ 13) || n == 32 || n == 0xA0 || n == 0x1680 || (0x2000 ≤ n && n ≤ 0x200A) ||
    n == 0x2028 || n == 0x2029 || n == 0x202F || n == 0x205F || n == 0x3000 || n == 0xFEFF

def trim (s : List Char) : List Char :=
  (s.dropWhile isWhitespace).rdropWhile isWhitespace

/-- The radix a literal `0x`, `0o` or `0b` names. -/
def radixOf : Char → Option Nat
  | 'x' | 'X' => some 16
  | 'o' | 'O' => some 8
  | 'b' | 'B' => some 2
  | _ => none

def digitValue (c : Char) : Nat :=
  if Text.isDigit c then c.toNat - '0'.toNat
  else if 'a' ≤ c ∧ c ≤ 'f' then c.toNat - 'a'.toNat + 10
  else if 'A' ≤ c ∧ c ≤ 'F' then c.toNat - 'A'.toNat + 10
  else 16

def parseRadix (r : Nat) (ds : List Char) : Option Nat :=
  if ds ≠ [] ∧ ds.all fun c => digitValue c < r then
    some (ds.foldl (fun n c => r * n + digitValue c) 0)
  else none

/-- The integer a text denotes: a sign in front of decimals only, and
nothing at all for 0. -/
def parseBigInt (s : List Char) : Option Int :=
  match trim s with
  | [] => some 0
  | '-' :: ds => (Text.parseDigits ds).map fun n : Nat => -(n : Int)
  | '+' :: ds => (Text.parseDigits ds).map fun n : Nat => (n : Int)
  | '0' :: c :: ds =>
      match radixOf c with
      | some r => (parseRadix r ds).map fun n : Nat => (n : Int)
      | none => (Text.parseDigits ('0' :: c :: ds)).map fun n : Nat => (n : Int)
  | ds => (Text.parseDigits ds).map fun n : Nat => (n : Int)

/-- A natural number as a double: 53 bits, ties to even. -/
def roundDouble (n : Nat) : Nat :=
  if n < 2 ^ 53 then n
  else
    let unit := 2 ^ (n.log2 - 52)
    let up := unit < 2 * (n % unit) ∨ 2 * (n % unit) = unit ∧ n / unit % 2 = 1
    (if up then n / unit + 1 else n / unit) * unit

/-- The exponent of a printed number: what follows its `e`. -/
def exponent : Option (List Char) → Option Int
  | none => some 0
  | some ('-' :: ds) => (Text.parseDigits ds).map fun n : Nat => -(n : Int)
  | some ('+' :: ds) => (Text.parseDigits ds).map fun n : Nat => (n : Int)
  | some ds => (Text.parseDigits ds).map fun n : Nat => (n : Int)

/-- `mantissa · 10 ^ e`, when it is an integer. -/
def integerOf (mantissa : Nat) (e : Int) : Option Nat :=
  if 0 ≤ e then some (mantissa * 10 ^ e.toNat)
  else if mantissa % 10 ^ (-e).toNat = 0 then some (mantissa / 10 ^ (-e).toNat)
  else none

/-- The size of the integer a printed number without sign stands for. -/
def magnitude (text : List Char) : Option Nat := do
  let (mantissa, exp) := Text.cut ['e'] text
  let (whole, frac) := Text.cut ['.'] mantissa
  let digits ← Text.parseDigits (whole ++ frac.getD [])
  let e ← exponent exp
  let n ← integerOf digits (e - (frac.getD []).length)
  some (roundDouble n)

/-- The integer a number stands for, read off its printed text. -/
def integerValue (text : List Char) : Option Int :=
  match text with
  | '-' :: rest => (magnitude rest).map fun n : Nat => -(n : Int)
  | _ => (magnitude text).map fun n : Nat => (n : Int)

def bigIntOfText (s : String) : Except String Int :=
  match parseBigInt s.toList with
  | some n => .ok n
  | none => .error ("Cannot convert " ++ s ++ " to a BigInt")

/-- `BigInt(v)`. -/
def bigInt : Option Json → Except String Int
  | none => .error "Cannot convert undefined to a BigInt"
  | some .null => .error "Cannot convert null to a BigInt"
  | some (.bool b) => .ok (if b then 1 else 0)
  | some (.num text) =>
      match integerValue text.toList with
      | some n => .ok n
      | none =>
          .error ("The number " ++ text
            ++ " cannot be converted to a BigInt because it is not an integer")
  | some (.str s) => bigIntOfText s
  | some (.arr items) => do bigIntOfText (← toText (.arr items))
  | some (.obj fields) => do bigIntOfText (← toText (.obj fields))

/-! ## Printed integers read back -/

theorem isWhitespace_digit {c : Char} (h : Text.isDigit c = true) : isWhitespace c = false := by
  have hlo : 48 ≤ c.toNat := by
    simp only [Text.isDigit, Bool.and_eq_true, decide_eq_true_eq] at h
    exact h.1
  have hhi : c.toNat ≤ 57 := by
    simp only [Text.isDigit, Bool.and_eq_true, decide_eq_true_eq] at h
    exact h.2
  simp only [isWhitespace, Bool.or_eq_false_iff, Bool.and_eq_false_iff, decide_eq_false_iff_not,
    beq_eq_false_iff_ne]
  omega

/-- A text that neither begins nor ends with a blank is trimmed to itself. -/
theorem trim_of_ends {s : List Char} (hhead : ∀ c, s.head? = some c → isWhitespace c = false)
    (hlast : ∀ c, s.getLast? = some c → isWhitespace c = false) : trim s = s := by
  have hdrop : ∀ {l : List Char}, (∀ c, l.head? = some c → isWhitespace c = false) →
      l.dropWhile isWhitespace = l := by
    intro l hl
    cases l with
    | nil => rfl
    | cons c cs => rw [List.dropWhile_cons, hl c rfl]; rfl
  rw [trim, hdrop hhead, List.rdropWhile, hdrop, List.reverse_reverse]
  intro c hc
  rw [List.head?_reverse] at hc
  exact hlast c hc

theorem isWhitespace_of_digits {ds : List Char} {n : Nat} (h : Text.parseDigits ds = some n)
    {c : Char} (hc : c ∈ ds) : isWhitespace c = false := by
  unfold Text.parseDigits at h
  split at h
  · rename_i hds
    exact isWhitespace_digit (List.all_eq_true.mp hds.2 c hc)
  · cases h

theorem trim_digits {ds : List Char} {n : Nat} (h : Text.parseDigits ds = some n) : trim ds = ds :=
  trim_of_ends (fun _ hc => isWhitespace_of_digits h (List.mem_of_mem_head? hc))
    fun _ hc => isWhitespace_of_digits h (List.mem_of_getLast? hc)

/-- Decimal digits are read as decimals, a leading zero included. -/
theorem parseBigInt_digits {ds : List Char} {n : Nat} (h : Text.parseDigits ds = some n) :
    parseBigInt ds = some (n : Int) := by
  have hdigit : ∀ c ∈ ds, Text.isDigit c = true := by
    unfold Text.parseDigits at h
    split at h
    · rename_i hds
      exact List.all_eq_true.mp hds.2
    · cases h
  unfold parseBigInt
  rw [trim_digits h]
  split
  · cases h
  · exact absurd (hdigit '-' List.mem_cons_self) (by decide)
  · exact absurd (hdigit '+' List.mem_cons_self) (by decide)
  · rename_i c ds
    have hradix : radixOf c = none := by
      have hc := hdigit c (by simp)
      unfold radixOf
      split <;> first | rfl | exact absurd hc (by decide)
    rw [hradix]
    dsimp only
    rw [h]
    rfl
  · rw [h]
    rfl

/-- What a script prints of a `BigInt`, `BigInt` reads back. -/
theorem bigInt_toString (n : Int) : bigInt (some (.str (toString n))) = .ok n := by
  have hparse : parseBigInt (toString n).toList = some n := by
    cases n with
    | ofNat n => exact parseBigInt_digits (Text.parseDigits_repr n)
    | negSucc n =>
        have hdigits := Text.parseDigits_repr (n + 1)
        have htrim : trim ('-' :: (n + 1).repr.toList) = '-' :: (n + 1).repr.toList := by
          refine trim_of_ends (fun c hc => ?_) fun c hc => ?_
          · obtain rfl := Option.some.inj hc
            decide
          · rcases List.mem_cons.mp (List.mem_of_getLast? hc) with rfl | hmem
            · decide
            · exact isWhitespace_of_digits hdigits hmem
        rw [Text.toList_toString_negSucc, parseBigInt, htrim]
        show (Text.parseDigits (n + 1).repr.toList).map _ = _
        rw [hdigits]
        rfl
  rw [bigInt, bigIntOfText, hparse]

example : bigInt (some (.arr [.str " 0xFf\n"])) = .ok 255 := by decide

example : bigInt (some (.num "1e+21")) = .ok (10 ^ 21) := by decide

/-! ## Hexadecimals read back -/

/-- `s.padStart(w, c)`. -/
def padStart (w : Nat) (c : Char) (s : List Char) : List Char :=
  List.replicate (w - s.length) c ++ s

theorem digitValue_digitChar {d : Nat} (h : d < 16) : digitValue d.digitChar = d := by
  have hall : ∀ d : Fin 16, digitValue (Nat.digitChar d) = d := by decide
  exact hall ⟨d, h⟩

theorem isWhitespace_of_digitValue {c : Char} (h : digitValue c < 16) : isWhitespace c = false := by
  have hrange : 48 ≤ c.toNat ∧ c.toNat ≤ 102 := by
    unfold digitValue at h
    split at h
    · rename_i hdigit
      simp only [Text.isDigit, Bool.and_eq_true, decide_eq_true_eq] at hdigit
      have hlo : 48 ≤ c.toNat := hdigit.1
      have hhi : c.toNat ≤ 57 := hdigit.2
      omega
    · split at h
      · rename_i hlower
        have hlo : 97 ≤ c.toNat := hlower.1
        have hhi : c.toNat ≤ 102 := hlower.2
        omega
      · split at h
        · rename_i hupper
          have hlo : 65 ≤ c.toNat := hupper.1
          have hhi : c.toNat ≤ 70 := hupper.2
          omega
        · omega
  simp only [isWhitespace, Bool.or_eq_false_iff, Bool.and_eq_false_iff, decide_eq_false_iff_not,
    beq_eq_false_iff_ne]
  omega

theorem parseRadix_eq_some {r n : Nat} {ds : List Char} :
    parseRadix r ds = some n ↔ ds ≠ [] ∧ (∀ c ∈ ds, digitValue c < r) ∧
      ds.foldl (fun n c => r * n + digitValue c) 0 = n := by
  unfold parseRadix
  split
  · rename_i h
    have hall : ∀ c ∈ ds, digitValue c < r := fun c hc =>
      of_decide_eq_true (List.all_eq_true.mp h.2 c hc)
    exact ⟨fun hn => ⟨h.1, hall, Option.some.inj hn⟩, fun hn => congrArg some hn.2.2⟩
  · rename_i h
    refine iff_of_false nofun fun ⟨hne, hall, _⟩ => h ⟨hne, List.all_eq_true.mpr fun c hc => ?_⟩
    exact decide_eq_true (hall c hc)

theorem parseRadix_toDigits (n : Nat) : parseRadix 16 (Nat.toDigits 16 n) = some n := by
  induction n using Nat.strongRecOn with
  | _ n ih =>
      by_cases hn : n < 16
      · rw [Nat.toDigits_of_lt_base hn, parseRadix_eq_some]
        simp [digitValue_digitChar hn, hn]
      · have hlt : n / 16 < n := Nat.div_lt_self (by omega) (by decide)
        obtain ⟨hne, hall, hfold⟩ := parseRadix_eq_some.mp (ih _ hlt)
        have hlast := digitValue_digitChar (Nat.mod_lt n (by decide : 0 < 16))
        rw [Nat.toDigits_of_base_le (by decide) (by omega), parseRadix_eq_some]
        refine ⟨by simp, fun c hc => ?_, ?_⟩
        · rcases List.mem_append.mp hc with hc | hc
          · exact hall c hc
          · rw [List.mem_singleton.mp hc, hlast]
            exact Nat.mod_lt n (by decide)
        · rw [List.foldl_append, hfold, List.foldl_cons, List.foldl_nil, hlast]
          exact Nat.div_add_mod n 16

/-- Zeros in front change nothing. -/
theorem parseRadix_padStart {r n : Nat} {ds : List Char} (hr : 0 < r) (w : Nat)
    (h : parseRadix r ds = some n) : parseRadix r (padStart w '0' ds) = some n := by
  obtain ⟨hne, hall, hfold⟩ := parseRadix_eq_some.mp h
  have hzeros : ∀ k : Nat,
      (List.replicate k '0').foldl (fun n c => r * n + digitValue c) 0 = 0 := by
    intro k
    induction k with
    | zero => rfl
    | succ k ih =>
        have hzero : digitValue '0' = 0 := by decide
        rw [List.replicate_succ, List.foldl_cons, hzero, Nat.mul_zero]
        exact ih
  refine parseRadix_eq_some.mpr ⟨by simp [padStart, hne], fun c hc => ?_, ?_⟩
  · rcases List.mem_append.mp hc with hc | hc
    · rw [List.eq_of_mem_replicate hc]
      exact hr
    · exact hall c hc
  · rw [padStart, List.foldl_append, hzeros, hfold]

theorem parseBigInt_hex {ds : List Char} {n : Nat} (h : parseRadix 16 ds = some n) :
    parseBigInt ('0' :: 'x' :: ds) = some (n : Int) := by
  obtain ⟨hne, hall, -⟩ := parseRadix_eq_some.mp h
  have htrim : trim ('0' :: 'x' :: ds) = '0' :: 'x' :: ds := by
    refine trim_of_ends (fun c hc => ?_) fun c hc => ?_
    · obtain rfl := Option.some.inj hc
      decide
    · rw [List.getLast?_cons_cons, List.getLast?_cons, List.getLast?_eq_some_getLast hne] at hc
      obtain rfl := Option.some.inj hc
      exact isWhitespace_of_digitValue (hall _ (List.getLast_mem hne))
  rw [parseBigInt, htrim]
  change (parseRadix 16 ds).map _ = _
  rw [h]
  rfl

end Js
