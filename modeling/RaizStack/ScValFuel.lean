import RaizStack.ScVal

/-!
# The decoder never runs out of fuel

The source's reader recurses without a bound. The model counts down, and
this is why that changes nothing: no reader gives bytes back, a level of
nesting takes a discriminant before it recurses, so two counts that both
reach the bytes left give the same answer.
-/

namespace RaizStack.XdrReader

open Reading

variable {α : Type}

/-! ## No reader gives bytes back -/

theorem fixed_eq_ok {n : Nat} {s t : Input UInt8} {bs : List UInt8} (h : fixed n s = .ok (bs, t)) :
    n + t.rest.length = s.rest.length := by
  unfold fixed at h
  split at h
  · cases h
  · cases h
    simp only [List.length_drop]
    omega

theorem noGrow_fixed (n : Nat) : NoGrow (fixed n) := by
  intro s bs t h
  have := fixed_eq_ok h
  omega

theorem noGrow_fail (msg : String) : NoGrow (fail msg : Xdr α) := by
  intro s a t h
  cases h

theorem noGrow_u32 : NoGrow u32 :=
  (noGrow_fixed 4).bind fun bs => .pure (word bs)

theorem noGrow_i64 : NoGrow i64 :=
  (noGrow_fixed 8).bind fun _ => .pure _

theorem noGrow_u64Unsigned : NoGrow u64Unsigned :=
  (noGrow_fixed 8).bind fun _ => .pure _

theorem noGrow_parts128 {hi : Xdr Int} (h : NoGrow hi) : NoGrow (parts128 hi) :=
  h.bind fun _ => noGrow_u64Unsigned.bind fun _ => .pure _

theorem noGrow_parts256 (signedHigh : Bool) : NoGrow (parts256 signedHigh) := by
  have hhigh : NoGrow (highLimb signedHigh) := by
    unfold highLimb
    split
    · exact noGrow_i64
    · exact noGrow_u64Unsigned
  exact hhigh.bind fun _ => noGrow_u64Unsigned.bind fun _ =>
    noGrow_u64Unsigned.bind fun _ => noGrow_u64Unsigned.bind fun _ => .pure _

theorem noGrow_body (n : Int) : NoGrow (body n) := by
  intro s bs t h
  obtain ⟨left, s', hleft, hrest⟩ := bind_eq_ok h
  cases hleft
  split at hrest
  · cases hrest
  · exact ((noGrow_fixed _).bind fun out => (noGrow_fixed _).bind fun _ => .pure out) _ _ _ hrest

theorem noGrow_listOf {p : Xdr α} (n : Int) (h : NoGrow p) : NoGrow (listOf n p) := by
  unfold listOf
  split
  · exact fun s a t hst => by cases hst
  · exact h.times _

theorem noGrow_optionalList {p : Xdr α} (h : NoGrow p) : NoGrow (optionalList p) := by
  refine noGrow_u32.bind fun present => ?_
  split
  · exact .pure []
  · exact noGrow_u32.bind fun _ => noGrow_listOf _ h

theorem noGrow_address : NoGrow address := by
  refine noGrow_u32.bind fun t => ?_
  split
  · refine noGrow_u32.bind fun keyType => ?_
    split
    · exact noGrow_fail _
    · exact (noGrow_fixed 32).bind fun _ => .pure _
  · split
    · exact (noGrow_fixed 32).bind fun _ => .pure _
    · exact noGrow_fail _

theorem noGrow_as {p : Xdr α} (h : NoGrow p) (f : α → ScVal) : NoGrow (as p f) :=
  h.bind fun _ => .pure _

theorem noGrow_sized (f : List UInt8 → ScVal) : NoGrow (sized f) :=
  noGrow_u32.bind fun _ => (noGrow_body _).bind fun _ => .pure _

theorem noGrow_arm (lossy : List UInt8 → String) {item : Xdr ScVal} (h : NoGrow item) (t : Int) :
    NoGrow (arm lossy item t) := by
  unfold arm
  split
  case h_2 => exact .pure _
  case h_3 => exact noGrow_u32.bind fun _ => noGrow_u32.bind fun _ => .pure _
  case h_14 => exact noGrow_sized _
  case h_15 => exact noGrow_sized _
  case h_16 => exact noGrow_sized _
  case h_17 => exact noGrow_as (noGrow_optionalList h) _
  case h_18 =>
    exact noGrow_as (noGrow_optionalList (h.bind fun _ => h.bind fun _ => .pure _)) _
  case h_19 => exact noGrow_as noGrow_address _
  case h_20 =>
    intro s a u hst
    obtain ⟨pos, s', -, hfail⟩ := bind_eq_ok hst
    cases hfail
  all_goals
    first
      | exact noGrow_as noGrow_u32 _
      | exact noGrow_as noGrow_u64Unsigned _
      | exact noGrow_as noGrow_i64 _
      | exact noGrow_as (noGrow_parts128 noGrow_u64Unsigned) _
      | exact noGrow_as (noGrow_parts128 noGrow_i64) _
      | exact noGrow_as (noGrow_parts256 _) _

theorem noGrow_scVal (lossy : List UInt8 → String) (fuel : Nat) : NoGrow (scVal lossy fuel) := by
  induction fuel with
  | zero => exact noGrow_fail _
  | succ fuel ih => exact noGrow_u32.bind fun _ => noGrow_arm lossy ih _

/-! ## The count does not matter -/

variable (lossy : List UInt8 → String)

theorem optionalList_congr {p q : Xdr α} {k : Nat} (hp : NoGrow p)
    (h : ∀ s, s.rest.length ≤ k → p s = q s) {s : Input UInt8} (hs : s.rest.length ≤ k) :
    optionalList p s = optionalList q s := by
  refine bind_congr rfl fun present t ht => ?_
  have hst := noGrow_u32 _ _ _ ht
  split
  · rfl
  · refine bind_congr rfl fun n u hu => ?_
    have htu := noGrow_u32 _ _ _ hu
    unfold listOf
    split
    · rfl
    · exact times_congr hp h _ (by omega)

theorem arm_congr {p q : Xdr ScVal} {k : Nat} (hp : NoGrow p)
    (h : ∀ s, s.rest.length ≤ k → p s = q s) (t : Int) {s : Input UInt8} (hs : s.rest.length ≤ k) :
    arm lossy p t s = arm lossy q t s := by
  unfold arm
  split
  case h_17 => exact bind_congr (optionalList_congr hp h hs) fun _ _ _ => rfl
  case h_18 =>
    refine bind_congr (optionalList_congr ?_ ?_ hs) fun _ _ _ => rfl
    · exact hp.bind fun _ => hp.bind fun _ => .pure _
    · intro u hu
      refine bind_congr (h u hu) fun key u' hkey => ?_
      have hle := hp _ _ _ hkey
      exact bind_congr (h u' (by omega)) fun _ _ _ => rfl
  all_goals rfl

/-- On an input without bytes the discriminant fails, fuel or not. -/
theorem scVal_nil (fuel : Nat) {s : Input UInt8} (hs : s.rest = []) :
    scVal lossy fuel s = scVal lossy 0 s := by
  cases fuel with
  | zero => rfl
  | succ fuel =>
      obtain ⟨pos, rest⟩ := s
      obtain rfl : rest = [] := hs
      have hfour : fixed 4 ⟨pos, []⟩ =
          .error (.scVal "truncated: need 4 more bytes, have 0" none) := by
        simp [fixed]
        decide
      exact bind_of_error (bind_of_error hfour)

/-- **Fuel that reaches the bytes left is never felt.** -/
theorem scVal_fuel {n m : Nat} {s : Input UInt8} (hn : s.rest.length ≤ n) (hm : s.rest.length ≤ m) :
    scVal lossy n s = scVal lossy m s := by
  induction n generalizing m s with
  | zero =>
      have hs : s.rest = [] := List.length_eq_zero_iff.mp (by omega)
      exact (scVal_nil lossy m hs).symm
  | succ n ih =>
      cases m with
      | zero =>
          have hs : s.rest = [] := List.length_eq_zero_iff.mp (by omega)
          exact scVal_nil lossy (n + 1) hs
      | succ m =>
          refine bind_congr rfl fun t u hu => ?_
          have hfour : 4 + u.rest.length = s.rest.length := by
            obtain ⟨bs, u', hbs, hpure⟩ := bind_eq_ok hu
            cases hpure
            exact fixed_eq_ok hbs
          refine arm_congr lossy (noGrow_scVal lossy n) (k := u.rest.length) ?_ _ le_rfl
          intro v hv
          exact ih (by omega) (by omega)

end RaizStack.XdrReader
