import RaizStack.Decimal
import RaizStack.MemRpc

/-!
# Paging tokens

The ids and cursors a live RPC hands out: 19 digits of TOID, a dash, 10
digits of event index. They are compared as text, by the store and by
the RPC alike, and the ledger is read back out of them.
-/

namespace RaizStack

def pagingToken (toid index : Nat) : String :=
  String.ofList (Decimal.fixedDigits 19 toid ++ '-' :: Decimal.fixedDigits 10 index)

/-! ## Text order -/

/-- Tokens are ordered as the pairs they are written from. -/
theorem pagingToken_lt_iff {toid toid' index index' : Nat} (ht : toid < 10 ^ 19)
    (ht' : toid' < 10 ^ 19) (hi : index < 10 ^ 10) (hi' : index' < 10 ^ 10) :
    pagingToken toid index < pagingToken toid' index' ↔
      toid < toid' ∨ toid = toid' ∧ index < index' := by
  have hwidth : (Decimal.fixedDigits 19 toid).length = (Decimal.fixedDigits 19 toid').length := by
    rw [Decimal.length_fixedDigits, Decimal.length_fixedDigits]
  have heq : Decimal.fixedDigits 19 toid = Decimal.fixedDigits 19 toid' ↔ toid = toid' := by
    refine ⟨fun h => ?_, congrArg _⟩
    rw [← Decimal.digitsValue_fixedDigits ht, h, Decimal.digitsValue_fixedDigits ht']
  rw [pagingToken, pagingToken, String.lt_iff_toList_lt, String.toList_ofList,
    String.toList_ofList, Decimal.append_lt_append_iff hwidth, Decimal.fixedDigits_lt_iff ht ht',
    heq, List.cons_lt_cons_self, Decimal.fixedDigits_lt_iff hi hi']

/-- Within one TOID, tokens are ordered by their event index. -/
theorem pagingToken_lt_iff_index (toid : Nat) {i j : Nat} (hi : i < 10 ^ 10) (hj : j < 10 ^ 10) :
    pagingToken toid i < pagingToken toid j ↔ i < j := by
  have hirr : ¬ Decimal.fixedDigits 19 toid < Decimal.fixedDigits 19 toid := lt_irrefl _
  rw [pagingToken, pagingToken, String.lt_iff_toList_lt, String.toList_ofList,
    String.toList_ofList, Decimal.append_lt_append_iff rfl, List.cons_lt_cons_self,
    Decimal.fixedDigits_lt_iff hi hj]
  tauto

theorem pagingToken_le_iff_index (toid : Nat) {i j : Nat} (hi : i < 10 ^ 10) (hj : j < 10 ^ 10) :
    pagingToken toid i ≤ pagingToken toid j ↔ i ≤ j := by
  rw [← not_lt, pagingToken_lt_iff_index toid hj hi, not_lt]

/-- What `memcmp` is given of a text. -/
def memcmpBytes (s : String) : List UInt8 :=
  s.toUTF8.data.toList

theorem memcmpBytes_ofList {l : List Char} (h : ∀ c ∈ l, c.toNat < 128) :
    memcmpBytes (String.ofList l) = l.map fun c => UInt8.ofNat c.toNat := by
  have hchars : l.flatMap String.utf8EncodeChar = l.map fun c => UInt8.ofNat c.toNat := by
    induction l with
    | nil => rfl
    | cons c l ih =>
        have hsize : c.utf8Size = 1 :=
          Char.utf8Size_eq_one_iff.mpr (UInt32.le_iff_toNat_le.mpr
            (Nat.le_of_lt_succ (h c List.mem_cons_self)))
        rw [List.flatMap_cons, ih fun d hd => h d (List.mem_cons_of_mem c hd),
          String.utf8EncodeChar_eq_singleton hsize]
        rfl
  unfold memcmpBytes
  rw [String.toUTF8_eq_toByteArray, String.toByteArray_ofList, List.utf8Encode, hchars]
  simp

/-- Of ASCII texts, bytes and characters give one order. -/
theorem memcmpBytes_lt_iff {l l' : List Char} (h : ∀ c ∈ l, c.toNat < 128)
    (h' : ∀ c ∈ l', c.toNat < 128) :
    memcmpBytes (String.ofList l) < memcmpBytes (String.ofList l')
      ↔ String.ofList l < String.ofList l' := by
  rw [memcmpBytes_ofList h, memcmpBytes_ofList h', String.lt_iff_toList_lt, String.toList_ofList,
    String.toList_ofList]
  induction l generalizing l' with
  | nil => cases l' <;> simp
  | cons c l ih =>
      cases l' with
      | nil => simp
      | cons c' l' =>
          have hc := h c List.mem_cons_self
          have hc' := h' c' List.mem_cons_self
          have hlt : UInt8.ofNat c.toNat < UInt8.ofNat c'.toNat ↔ c < c' := by
            rw [UInt8.lt_iff_toNat_lt, UInt8.toNat_ofNat', UInt8.toNat_ofNat',
              Nat.mod_eq_of_lt (by omega), Nat.mod_eq_of_lt (by omega)]
            rfl
          have heq : UInt8.ofNat c.toNat = UInt8.ofNat c'.toNat ↔ c = c' := by
            rw [← UInt8.toNat_inj, UInt8.toNat_ofNat', UInt8.toNat_ofNat',
              Nat.mod_eq_of_lt (by omega), Nat.mod_eq_of_lt (by omega), Char.toNat_inj]
          rw [List.map_cons, List.map_cons, List.cons_lt_cons_iff, List.cons_lt_cons_iff, hlt, heq,
            ih (fun d hd => h d (List.mem_cons_of_mem c hd))
              fun d hd => h' d (List.mem_cons_of_mem c' hd)]

/-- The characters of a token are ASCII. -/
theorem ascii_of_token {toid index : Nat} {c : Char}
    (hc : c ∈ Decimal.fixedDigits 19 toid ++ '-' :: Decimal.fixedDigits 10 index) :
    c.toNat < 128 := by
  have hdigit : ∀ w n, c ∈ Decimal.fixedDigits w n → c.toNat < 128 := by
    intro w n hmem
    have hle := Decimal.isDigit_of_mem hmem
    simp only [Text.isDigit, Bool.and_eq_true, decide_eq_true_eq] at hle
    have hnine : c.toNat ≤ '9'.toNat := hle.2
    exact lt_of_le_of_lt hnine (by decide)
  rcases List.mem_append.mp hc with hmem | hmem
  · exact hdigit _ _ hmem
  · rcases List.mem_cons.mp hmem with rfl | hmem
    · decide
    · exact hdigit _ _ hmem

/-! ## The ledger -/

/-- The ledger of a token is the upper half of its TOID. -/
theorem cursorLedger_of_token {toid : Nat} (h : toid < 10 ^ 19) (index : Nat) :
    cursorLedger (pagingToken toid index) = some ((toid >>> 32 : Nat) : Int) := by
  have hdash : '-' ∉ Decimal.fixedDigits 19 toid := by
    intro hmem
    have hdigit := Decimal.isDigit_of_mem hmem
    exact absurd hdigit (by decide)
  have hparse : Text.parseU64 (Decimal.fixedDigits 19 toid) = some toid :=
    Text.parseU64_of_digits (Decimal.parseDigits_fixedDigits (by decide) h)
      (lt_of_lt_of_le h (by decide))
  rw [cursorLedger, pagingToken, String.toList_ofList, Text.cut_append hdash, hparse]
  rfl

/-- **Text order is chain order.** The bytes of two tokens compare as the
pairs they are written from, and so do the texts the store's statements
are modelled on; the ledger that is read back grows along that order, and
is the one a TOID was made of. -/
theorem pagingToken_order {toid toid' index index' : Nat} (ht : toid < 10 ^ 19)
    (ht' : toid' < 10 ^ 19) (hi : index < 10 ^ 10) (hi' : index' < 10 ^ 10) :
    (memcmpBytes (pagingToken toid index) < memcmpBytes (pagingToken toid' index') ↔
      toid < toid' ∨ toid = toid' ∧ index < index') ∧
    (pagingToken toid index < pagingToken toid' index' ↔
      toid < toid' ∨ toid = toid' ∧ index < index') ∧
    cursorLedger (pagingToken toid index) = some ((toid >>> 32 : Nat) : Int) ∧
    (pagingToken toid index ≤ pagingToken toid' index' →
      ∃ l l', cursorLedger (pagingToken toid index) = some l ∧
        cursorLedger (pagingToken toid' index') = some l' ∧ l ≤ l') ∧
    ∀ ledger k : Nat, k < 2 ^ 32 → toid = ledger * 2 ^ 32 + k →
      cursorLedger (pagingToken toid index) = some (ledger : Int) := by
  have hlt := pagingToken_lt_iff ht ht' hi hi'
  have hledger := cursorLedger_of_token ht index
  refine ⟨?_, hlt, hledger, fun hle => ?_, ?_⟩
  · rw [← hlt]
    exact memcmpBytes_lt_iff (fun _ => ascii_of_token) fun _ => ascii_of_token
  · refine ⟨_, _, hledger, cursorLedger_of_token ht' index', ?_⟩
    have htoid : toid ≤ toid' := by
      by_contra hgt
      exact absurd ((pagingToken_lt_iff ht' ht hi' hi).mpr (.inl (not_le.mp hgt))) (not_lt.mpr hle)
    rw [Int.ofNat_le, Nat.shiftRight_eq_div_pow, Nat.shiftRight_eq_div_pow]
    exact Nat.div_le_div_right htoid
  · rintro ledger k hk rfl
    rw [hledger, Nat.shiftRight_eq_div_pow]
    congr 2
    omega

/-- The second event of ledger 100 and the first of ledger 200. -/
theorem pagingToken_order_ledgers :
    memcmpBytes (pagingToken (100 * 2 ^ 32) 1) < memcmpBytes (pagingToken (200 * 2 ^ 32) 0) ∧
      cursorLedger (pagingToken (100 * 2 ^ 32) 1) = some 100 := by
  have ht : 100 * 2 ^ 32 < 10 ^ 19 := by decide
  have ht' : 200 * 2 ^ 32 < 10 ^ 19 := by decide
  have hi : 1 < 10 ^ 10 := by decide
  have hi' : 0 < 10 ^ 10 := by decide
  obtain ⟨hbytes, -, -, -, hledger⟩ := pagingToken_order ht ht' hi hi'
  exact ⟨hbytes.mpr (.inl (by decide)), hledger 100 0 (by decide) rfl⟩

end RaizStack
