import RaizStack.Binary64
import RaizStack.JsValue
import RaizStack.SobreVm

/-!
# The amount in the field

`parseXlmToStroops` reads what was typed as a double, multiplies it by ten
million, and rounds. Two roundings of the format stand between the text
and the stroops; `stroops_near` bounds them. Below 2^51 stroops the result
is a nearest number of stroops to the decimal in the field, so the very
amount when it has no more than seven decimals. Above, it need not be.
-/

namespace RaizStack

namespace Formato

/-! ## Numbers of the JVM -/

/-- What stands before the first character of a kind, and what follows it. -/
def cutAt (p : Char → Bool) (s : List Char) : List Char × Option (List Char) :=
  match s.dropWhile fun c => !p c with
  | [] => (s, none)
  | _ :: rest => (s.takeWhile fun c => !p c, some rest)

def exponent : List Char → Option Int
  | '-' :: ds => (Text.parseDigits ds).map fun n => -(n : Int)
  | '+' :: ds => (Text.parseDigits ds).map fun n => (n : Int)
  | ds => (Text.parseDigits ds).map fun n => (n : Int)

/-- Digits around at most one point, and how many stand behind it. -/
def mantissa (digits : List Char → Option Nat) (s : List Char) : Option (Nat × Nat) :=
  match cutAt (· == '.') s with
  | (whole, none) => (digits whole).map fun n => (n, 0)
  | (whole, some frac) => (digits (whole ++ frac)).map fun n => (n, frac.length)

def decimal (s : List Char) : Option ℚ :=
  match cutAt (fun c => c == 'e' || c == 'E') s with
  | (m, none) => (mantissa Text.parseDigits m).map fun (n, f) => n / 10 ^ f
  | (m, some e) => do
      let (n, f) ← mantissa Text.parseDigits m
      let e ← exponent e
      some (n * 10 ^ (e - f))

/-- What follows `0x`; the exponent is of two, and not left out. -/
def hexadecimal (s : List Char) : Option ℚ :=
  match cutAt (fun c => c == 'p' || c == 'P') s with
  | (_, none) => none
  | (m, some e) => do
      let (n, f) ← mantissa (Js.parseRadix 16) m
      let e ← exponent e
      some (n * 2 ^ (e - 4 * f))

/-- The suffix of a literal, which changes nothing. -/
def unsuffixed (s : List Char) : List Char :=
  match s.getLast? with
  | some 'f' | some 'F' | some 'd' | some 'D' => s.dropLast
  | _ => s

def number (s : List Char) : Option ℚ :=
  match unsuffixed s with
  | '0' :: 'x' :: rest | '0' :: 'X' :: rest => hexadecimal rest
  | s => decimal s

def sign : List Char → Bool × List Char
  | '-' :: s => (true, s)
  | '+' :: s => (false, s)
  | s => (false, s)

/-- `String.toDoubleOrNull`: a literal of the language, with blanks and
control characters around it. -/
def toDoubleOrNull (s : List Char) : Option Binary64.Value :=
  let trimmed := (s.dropWhile fun c => c.toNat ≤ 32).rdropWhile fun c => c.toNat ≤ 32
  let (negative, s) := sign trimmed
  if s = "NaN".toList then some .nan
  else if s = "Infinity".toList then some (.infinity negative)
  else (number s).map fun x => Binary64.round (if negative then -x else x)

/-- `Math.round`. -/
def mathRound : Binary64.Value → Int
  | .finite x => max (-2 ^ 63) (min (2 ^ 63 - 1) ⌊x + 1 / 2⌋)
  | .infinity true => -2 ^ 63
  | .infinity false => 2 ^ 63 - 1
  | .nan => 0

/-! ## The field -/

/-- The text with points for commas. -/
def pointed (s : List Char) : List Char :=
  s.map fun c => if c = ',' then '.' else c

/-- What becomes of a number of XLM. -/
def stroopsOf : Binary64.Value → Option Int
  | .finite units =>
      if units ≤ 0 then none
      else
        let stroops := mathRound (Binary64.mul (.finite units) (.finite 10000000))
        if stroops ≤ 0 then none else some stroops
  | _ => none

def parseXlmToStroops (raw : String) : Option Int :=
  let cleaned := pointed (Text.trim raw.toList)
  if cleaned = [] then none else (toDoubleOrNull cleaned).bind stroopsOf

/-- The decimal a text shows: `n` of the `f`-th place behind the point. -/
def shown (text : String) : Option (Nat × Nat) :=
  mantissa Text.parseDigits (pointed text.toList)

example : parseXlmToStroops " 12,5 " = some 125000000 := by decide +kernel

/-- One stroop less than what was typed. -/
example : parseXlmToStroops "681337223.06" = some 6813372230599999 := by decide +kernel

/-! ## What the keyboard gives -/

/-- Digits and points. Digits of other scripts are digits to the field, but
not to the reader. -/
def plain (c : Char) : Bool :=
  Text.isDigit c || c == '.' || decide (128 ≤ c.toNat)

section Plain

variable {s : List Char}

theorem ne_of_plain {c d : Char} (hc : plain c = true) (hd : plain d = false) : c ≠ d := by
  rintro rfl
  rw [hc] at hd
  cases hd

theorem visible_of_plain {c : Char} (hc : plain c = true) : ¬ c.toNat ≤ 32 := by
  simp only [plain, Bool.or_eq_true, beq_iff_eq, decide_eq_true_eq, Text.isDigit,
    Bool.and_eq_true] at hc
  rcases hc with (⟨hlo, -⟩ | rfl) | hhi
  · have hlo : 48 ≤ c.toNat := hlo
    omega
  · decide
  · omega

theorem cutAt_of_forall {p : Char → Bool} (h : ∀ c ∈ s, p c = false) :
    cutAt p s = (s, none) := by
  have hnil : s.dropWhile (fun c => !p c) = [] :=
    List.dropWhile_eq_nil_iff.mpr fun c hc => by rw [h c hc]; rfl
  rw [cutAt, hnil]

theorem length_of_cutAt {p : Char → Bool} {front rest : List Char}
    (h : cutAt p s = (front, some rest)) : s.length = front.length + rest.length + 1 := by
  unfold cutAt at h
  split at h
  · cases h
  · rename_i c tail hdrop
    obtain ⟨rfl, hrest⟩ := Prod.mk.inj h
    obtain rfl := Option.some.inj hrest
    have hsplit : s.takeWhile (fun c => !p c) ++ s.dropWhile (fun c => !p c) = s :=
      List.takeWhile_append_dropWhile
    have hlength := congrArg List.length hsplit
    rw [hdrop, List.length_append, List.length_cons] at hlength
    omega

theorem sign_plain (h : ∀ c ∈ s, plain c = true) : sign s = (false, s) := by
  unfold sign
  split
  · exact absurd rfl (ne_of_plain (h '-' List.mem_cons_self) (by decide : plain '-' = false))
  · exact absurd rfl (ne_of_plain (h '+' List.mem_cons_self) (by decide : plain '+' = false))
  · rfl

theorem unsuffixed_plain (h : ∀ c ∈ s, plain c = true) : unsuffixed s = s := by
  have hlast : ∀ d, plain d = false → s.getLast? ≠ some d := fun d hd hs =>
    ne_of_plain (h d (List.mem_of_getLast? hs)) hd rfl
  unfold unsuffixed
  split
  · rename_i hs
    exact absurd hs (hlast 'f' (by decide))
  · rename_i hs
    exact absurd hs (hlast 'F' (by decide))
  · rename_i hs
    exact absurd hs (hlast 'd' (by decide))
  · rename_i hs
    exact absurd hs (hlast 'D' (by decide))
  · rfl

theorem number_plain (h : ∀ c ∈ s, plain c = true) :
    number s = (mantissa Text.parseDigits s).map fun (n, f) => (n : ℚ) / 10 ^ f := by
  have hexp : ∀ c ∈ s, (c == 'e' || c == 'E') = false := fun c hc => by
    simp [ne_of_plain (h c hc) (by decide : plain 'e' = false),
      ne_of_plain (h c hc) (by decide : plain 'E' = false)]
  have hdecimal : number s = decimal s := by
    rw [number, unsuffixed_plain h]
    split
    · exact absurd rfl (ne_of_plain (h 'x' (by simp)) (by decide : plain 'x' = false))
    · exact absurd rfl (ne_of_plain (h 'X' (by simp)) (by decide : plain 'X' = false))
    · rfl
  rw [hdecimal, decimal, cutAt_of_forall hexp]

theorem toDoubleOrNull_plain (h : ∀ c ∈ s, plain c = true) :
    toDoubleOrNull s = (mantissa Text.parseDigits s).map fun (n, f) =>
      Binary64.round ((n : ℚ) / 10 ^ f) := by
  have hvisible : ∀ c ∈ s, (decide (c.toNat ≤ 32)) = false := fun c hc =>
    decide_eq_false (visible_of_plain (h c hc))
  have hword : ∀ word : List Char, 'N' ∈ word ∨ 'I' ∈ word → s ≠ word := by
    rintro word hmem rfl
    rcases hmem with hmem | hmem
    · exact ne_of_plain (h 'N' hmem) (by decide : plain 'N' = false) rfl
    · exact ne_of_plain (h 'I' hmem) (by decide : plain 'I' = false) rfl
  rw [toDoubleOrNull, Text.dropWhile_of_forall hvisible, Text.rdropWhile_of_forall hvisible]
  simp only [sign_plain h]
  rw [if_neg (hword _ (by decide)), if_neg (hword _ (by decide)), number_plain h, Option.map_map]
  rfl

end Plain

/-- A character of the field: a digit of any script, a point or a comma. -/
def typed (c : Char) : Bool :=
  Text.isDigit c || c == '.' || c == ',' || (decide (128 ≤ c.toNat) && !Text.isWhitespace c)

section Typed

variable {raw : String}

theorem plain_pointed {s : List Char} (h : ∀ c ∈ s, typed c = true) :
    ∀ c ∈ pointed s, plain c = true := by
  intro c hc
  obtain ⟨d, hd, rfl⟩ := List.mem_map.mp hc
  have hd := h d hd
  split
  · decide
  · rename_i hcomma
    simp only [typed, plain, Bool.or_eq_true, Bool.and_eq_true, beq_iff_eq] at hd ⊢
    rcases hd with ((hd | hd) | hd) | hd
    · exact .inl (.inl hd)
    · exact .inl (.inr hd)
    · exact absurd hd hcomma
    · exact .inr hd.1

theorem isWhitespace_typed {c : Char} (h : typed c = true) : Text.isWhitespace c = false := by
  simp only [typed, Bool.or_eq_true, Bool.and_eq_true, beq_iff_eq, Bool.not_eq_true',
    Text.isDigit, decide_eq_true_eq] at h
  rcases h with ((⟨hlo, hhi⟩ | rfl) | rfl) | ⟨-, h⟩
  · have hlo : 48 ≤ c.toNat := hlo
    have hhi : c.toNat ≤ 57 := hhi
    simp only [Text.isWhitespace, Bool.or_eq_false_iff, Bool.and_eq_false_iff,
      decide_eq_false_iff_not, beq_eq_false_iff_ne]
    omega
  · decide
  · decide
  · exact h

/-- What is typed is a decimal or nothing. -/
theorem parseXlmToStroops_typed (h : ∀ c ∈ raw.toList, typed c = true) :
    parseXlmToStroops raw
      = (shown raw).bind fun (n, f) => stroopsOf (Binary64.round ((n : ℚ) / 10 ^ f)) := by
  have htrim : Text.trim raw.toList = raw.toList :=
    Text.trim_of_forall fun c hc => isWhitespace_typed (h c hc)
  rw [parseXlmToStroops, htrim, shown]
  split
  · rename_i hempty
    rw [hempty]
    rfl
  · rw [toDoubleOrNull_plain (plain_pointed h), Option.bind_map]
    rfl

theorem digitsValue_lt {ds : List Char} (h : ∀ c ∈ ds, Text.isDigit c = true) :
    Text.digitsValue ds < 10 ^ ds.length := by
  have hfold : ∀ v : Nat, ds.foldl (fun n c => 10 * n + (c.toNat - '0'.toNat)) v
      < (v + 1) * 10 ^ ds.length := by
    induction ds with
    | nil => simp
    | cons c cs ih =>
        intro v
        have hdigit := h c List.mem_cons_self
        simp only [Text.isDigit, Bool.and_eq_true, decide_eq_true_eq] at hdigit
        have hhi : c.toNat ≤ 57 := hdigit.2
        have hstep := ih (fun d hd => h d (List.mem_cons_of_mem c hd))
          (10 * v + (c.toNat - '0'.toNat))
        have hnine : c.toNat - '0'.toNat ≤ 9 := by
          have hzero : '0'.toNat = 48 := rfl
          omega
        calc (c :: cs).foldl (fun n c => 10 * n + (c.toNat - '0'.toNat)) v
            < (10 * v + (c.toNat - '0'.toNat) + 1) * 10 ^ cs.length := hstep
          _ ≤ ((v + 1) * 10) * 10 ^ cs.length := Nat.mul_le_mul_right _ (by omega)
          _ = (v + 1) * 10 ^ (c :: cs).length := by rw [List.length_cons, Nat.pow_succ']; ring
  simpa [Text.digitsValue] using hfold 0

theorem parseDigits_lt {ds : List Char} {n : Nat} (h : Text.parseDigits ds = some n) :
    n < 10 ^ ds.length := by
  unfold Text.parseDigits at h
  split at h
  · rename_i hdigits
    obtain rfl := Option.some.inj h
    exact digitsValue_lt (List.all_eq_true.mp hdigits.2)
  · cases h

/-- A point takes the room of a digit. -/
theorem shown_lt {n f : Nat} (h : shown raw = some (n, f)) :
    f = 0 ∨ f < raw.toList.length ∧ n < 10 ^ (raw.toList.length - 1) := by
  have hlength : (pointed raw.toList).length = raw.toList.length := List.length_map _
  rw [shown, mantissa] at h
  split at h
  · rename_i whole hcut
    obtain ⟨m, -, hm⟩ := Option.map_eq_some_iff.mp h
    exact .inl (Prod.mk.inj hm).2.symm
  · rename_i whole frac hcut
    obtain ⟨m, hm, hmf⟩ := Option.map_eq_some_iff.mp h
    obtain ⟨rfl, rfl⟩ := Prod.mk.inj hmf
    have hparts := length_of_cutAt hcut
    have hlt := parseDigits_lt hm
    rw [List.length_append] at hlt
    refine .inr ⟨by omega, ?_⟩
    rwa [← hlength, hparts, Nat.add_sub_cancel]

end Typed

/-! ## Two roundings -/

/-- The integer nearest to a number is nearest to `a / 10 ^ j` as well, if
that lies close to it. -/
theorem nearest_of_close {a : ℚ} {j : Nat} {x : ℚ} {b : ℤ} (hb : a = b)
    (hclose : |x - a / 10 ^ j| < 1 / (2 * 10 ^ j)) :
    |(⌊x + 1 / 2⌋ : ℚ) - a / 10 ^ j| ≤ 1 / 2 := by
  have hscale : (0 : ℚ) < 10 ^ j := by positivity
  have hlo := Int.floor_le (x + 1 / 2)
  have hhi := Int.lt_floor_add_one (x + 1 / 2)
  generalize ⌊x + 1 / 2⌋ = k at hlo hhi ⊢
  -- what is left is a question of integers: `|2 * 10 ^ j * k - 2 * a|` is below `10 ^ j + 1`
  have hfar : |(k : ℚ) - a / 10 ^ j| < 1 / 2 + 1 / (2 * 10 ^ j) := by
    obtain ⟨hl, hr⟩ := abs_lt.mp hclose
    rw [abs_lt]
    constructor <;> linarith
  have hint : |2 * 10 ^ j * k - 2 * b| < 10 ^ j + 1 := by
    have hmul : |2 * 10 ^ j * (k : ℚ) - 2 * a| < 10 ^ j + 1 := by
      have heq : 2 * 10 ^ j * (k : ℚ) - 2 * a = (2 * 10 ^ j) * (k - a / 10 ^ j) := by
        field_simp
      rw [heq, abs_mul, abs_of_pos (by positivity)]
      calc 2 * 10 ^ j * |(k : ℚ) - a / 10 ^ j|
          < 2 * 10 ^ j * (1 / 2 + 1 / (2 * 10 ^ j)) := by gcongr
        _ = 10 ^ j + 1 := by field_simp
    rw [hb] at hmul
    exact_mod_cast hmul
  have hle : |2 * 10 ^ j * (k : ℚ) - 2 * a| ≤ 10 ^ j := by
    rw [hb]
    exact_mod_cast Int.lt_add_one_iff.mp hint
  have heq : (k : ℚ) - a / 10 ^ j = (2 * 10 ^ j * k - 2 * a) / (2 * 10 ^ j) := by
    field_simp
  rw [heq, abs_div, abs_of_pos (by positivity : (0 : ℚ) < 2 * 10 ^ j), div_le_iff₀ (by positivity)]
  linarith

/-- A number of stroops below 2^51, given with up to `7 + j` decimals of
XLM, goes through both roundings. -/
theorem stroops_near {q : ℚ} {a j : Nat} (hq : q * 10000000 = a / 10 ^ j) (hpos : 0 < a)
    (ha : a < 2 ^ 51) (hj : j ≤ 10) :
    ∃ x, Binary64.round q = .finite x ∧ 0 < x ∧
      |(mathRound (Binary64.mul (.finite x) (.finite 10000000)) : ℚ) - q * 10000000| ≤ 1 / 2 := by
  have hscale : (0 : ℚ) < 1 / 10 ^ j := by positivity
  have hscale_le : (10 : ℚ) ^ j ≤ 10 ^ 10 := pow_le_pow_right₀ (by norm_num) hj
  have haq : (1 : ℚ) ≤ a := by exact_mod_cast hpos
  have haq' : (a : ℚ) + 1 ≤ 2 ^ 51 := by exact_mod_cast ha
  have hlo : 1 / 10 ^ 10 ≤ q * 10000000 := by
    rw [hq]
    gcongr
  have hhi : q * 10000000 ≤ (2 ^ 51 - 1) * (1 / 10 ^ j) := by
    rw [hq, div_eq_mul_one_div]
    gcongr
    linarith
  have hscale_one : (1 : ℚ) / 10 ^ j ≤ 1 := (div_le_one (by positivity)).mpr
    (one_le_pow₀ (by norm_num))
  have htiny : (2 : ℚ) ^ (-1022 : ℤ) ≤ 1 / 10 ^ 18 :=
    (zpow_le_zpow_right₀ (by norm_num) (by norm_num : (-1022 : ℤ) ≤ -60)).trans (by norm_num)
  have hhuge : (2 : ℚ) ^ 52 < 2 ^ 1023 := pow_lt_pow_right₀ (by norm_num) (by norm_num)
  have hq_le : q ≤ 2 ^ 52 := by linarith
  obtain ⟨x, hx, hxq⟩ := Binary64.round_near (by linarith) (hq_le.trans_lt hhuge)
  obtain ⟨hxl, hxr⟩ := abs_le.mp hxq
  have hprod_le : x * 10000000 ≤ 2 ^ 52 := by linarith
  obtain ⟨z, hz, hzp⟩ := Binary64.round_near (by linarith) (hprod_le.trans_lt hhuge)
  obtain ⟨hzl, hzr⟩ := abs_le.mp hzp
  have hclose : |z - a / 10 ^ j| < 1 / (2 * 10 ^ j) := by
    have hhalf : (1 : ℚ) / (2 * 10 ^ j) = 1 / 10 ^ j / 2 := by field_simp
    rw [← hq, hhalf, abs_lt]
    constructor <;> linarith
  have hnear := nearest_of_close (b := (a : ℤ)) (by push_cast; rfl) hclose
  rw [← hq] at hnear
  obtain ⟨hnl, hnr⟩ := abs_le.mp hnear
  have hlong : -2 ^ 63 ≤ ⌊z + 1 / 2⌋ ∧ ⌊z + 1 / 2⌋ ≤ 2 ^ 63 - 1 := by
    constructor
    · have h : (-2 ^ 63 : ℚ) ≤ ⌊z + 1 / 2⌋ := by linarith
      exact_mod_cast h
    · have h : (⌊z + 1 / 2⌋ : ℚ) ≤ 2 ^ 63 - 1 := by linarith
      exact_mod_cast h
  refine ⟨x, hx, by linarith, ?_⟩
  rw [Binary64.mul, hz, mathRound, min_eq_right hlong.2, max_eq_right hlong.1]
  exact hnear

/-! ## The amount -/

/-- What the field shows, in stroops. -/
def exactStroops (n f : Nat) : ℚ :=
  n * 10000000 / 10 ^ f

/-- An amount with no more decimals than a stroop has is the only one near
itself. -/
theorem eq_of_nearest {n f : Nat} {k : ℤ} (h : |k - exactStroops n f| ≤ 1 / 2) (hf : f ≤ 7) :
    k = n * 10 ^ (7 - f) := by
  have hscale : (10 : ℚ) ^ (7 - f) * 10 ^ f = 10000000 := by
    rw [← pow_add, Nat.sub_add_cancel hf]
    norm_num
  have hexact : exactStroops n f = ((n * 10 ^ (7 - f) : ℤ) : ℚ) := by
    rw [exactStroops, ← hscale]
    push_cast
    field_simp
  rw [hexact, ← Int.cast_sub, ← Int.cast_abs] at h
  have hlt : |k - n * 10 ^ (7 - f)| < 1 := by
    have hcast : ((|k - n * 10 ^ (7 - f)| : ℤ) : ℚ) < 1 := by linarith
    exact_mod_cast hcast
  exact sub_eq_zero.mp (Int.abs_lt_one_iff.mp hlt)

theorem stroopsOf_near {n f a j : Nat} (hq : (n : ℚ) / 10 ^ f * 10000000 = a / 10 ^ j)
    (hpos : 0 < a) (ha : a < 2 ^ 51) (hj : j ≤ 10) :
    ∃ k : ℤ, |k - exactStroops n f| ≤ 1 / 2 ∧
      stroopsOf (Binary64.round ((n : ℚ) / 10 ^ f)) = if k ≤ 0 then none else some k := by
  obtain ⟨x, hround, hx, hnear⟩ := stroops_near hq hpos ha hj
  refine ⟨_, ?_, by rw [hround, stroopsOf, if_neg (not_le.mpr hx)]⟩
  rwa [exactStroops, ← div_mul_eq_mul_div]

/-- **What is typed is what is sent.** A text of at most twelve characters
that shows a decimal below 2^51 stroops is read as a nearest number of
stroops; there is none to read when that is 0. -/
theorem parse_nearest {raw : String} (htyped : ∀ c ∈ raw.toList, typed c = true)
    (hlen : raw.toList.length ≤ 12) {n f : Nat} (hshown : shown raw = some (n, f))
    (hbound : n * 10 ^ 7 < 2 ^ 51 * 10 ^ f) :
    ∃ k : ℤ, |k - exactStroops n f| ≤ 1 / 2 ∧
      parseXlmToStroops raw = if k ≤ 0 then none else some k := by
  rw [parseXlmToStroops_typed htyped, hshown, Option.bind_some]
  dsimp only
  rcases Nat.eq_zero_or_pos n with rfl | hpos
  · refine ⟨0, by norm_num [exactStroops], ?_⟩
    have hzero : Binary64.round 0 = .finite 0 := by decide +kernel
    rw [Nat.cast_zero, zero_div, hzero]
    rfl
  · rcases Nat.lt_or_ge 7 f with hf | hf
    · -- more decimals than a stroop has: the field has no room for a large amount
      obtain ⟨hplaces, hdigits⟩ : f < raw.toList.length ∧ n < 10 ^ (raw.toList.length - 1) := by
        rcases shown_lt hshown with h | h
        · omega
        · exact h
      obtain ⟨j, rfl⟩ := Nat.exists_eq_add_of_lt hf
      have hsmall : n < 2 ^ 51 :=
        calc n < 10 ^ (raw.toList.length - 1) := hdigits
          _ ≤ 10 ^ 11 := Nat.pow_le_pow_right (by decide) (by omega)
          _ < 2 ^ 51 := by norm_num
      refine stroopsOf_near (j := j + 1) ?_ hpos hsmall (by omega)
      rw [show 7 + j + 1 = 7 + (j + 1) by omega, pow_add]
      field_simp
      norm_num
    · obtain ⟨j, hj⟩ := Nat.exists_eq_add_of_le hf
      have hten : (10 : ℚ) ^ j * 10 ^ f = 10000000 := by
        rw [← pow_add, add_comm, ← hj]
        norm_num
      have hsmall : n * 10 ^ j < 2 ^ 51 := by
        refine Nat.lt_of_mul_lt_mul_right (a := 10 ^ f) ?_
        rwa [Nat.mul_assoc, ← pow_add, add_comm j f, ← hj]
      refine stroopsOf_near (a := n * 10 ^ j) (j := 0) ?_ (by positivity) hsmall (by omega)
      rw [← hten]
      push_cast
      field_simp

end Formato

end RaizStack
