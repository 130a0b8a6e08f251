import Mathlib.Data.List.Basic

/-!
# Readers over a list of tokens

A reader is a state over what is left of its input, with the position it
stands at, that may fail. Three notions carry proofs about readers:

- `Reads p ts a` - on any input that starts with `ts`, `p` takes exactly
  `ts` and yields `a`. It composes (`Reads.bind`, `Reads.times`), so the
  round trip of a format is one such fact for each of its pieces;
- `NoGrow p` - `p` never gives input back, so a reader that recurses
  after it took something can count the input that is left as its fuel
  (`times_congr`);
- `Takes p R` - whatever `p` took and yielded is related by `R`. It
  composes like `Reads`, in the other direction: it says what a reader
  can have accepted.
-/

namespace Reading

variable {β ε α γ : Type}

/-- The position, and the input from there on. -/
structure Input (β : Type) where
  pos : Nat
  rest : List β

abbrev Reader (β ε α : Type) := StateT (Input β) (Except ε) α

/-- `p` takes the tokens `ts` and yields `a`, whatever follows. -/
def Reads (p : Reader β ε α) (ts : List β) (a : α) : Prop :=
  ∀ pos rest, p ⟨pos, ts ++ rest⟩ = .ok (a, ⟨pos + ts.length, rest⟩)

/-- `n` times the same reader. -/
def times : Nat → Reader β ε α → Reader β ε (List α)
  | 0, _ => pure []
  | n + 1, p => do
      let a ← p
      let as ← times n p
      pure (a :: as)

/-! ## What is read -/

theorem bind_of_ok {p : Reader β ε α} {f : α → Reader β ε γ} {s t : Input β} {a : α}
    (h : p s = .ok (a, t)) : (p >>= f) s = f a t := by
  show (p s >>= fun x => f x.1 x.2) = _
  rw [h]
  rfl

theorem bind_of_error {p : Reader β ε α} {f : α → Reader β ε γ} {s : Input β} {e : ε}
    (h : p s = .error e) : (p >>= f) s = .error e := by
  show (p s >>= fun x => f x.1 x.2) = _
  rw [h]
  rfl

theorem Reads.pure (a : α) : Reads (Pure.pure a : Reader β ε α) [] a :=
  fun _ _ => rfl

theorem Reads.bind {p : Reader β ε α} {f : α → Reader β ε γ} {ts us : List β} {a : α} {c : γ}
    (hp : Reads p ts a) (hf : Reads (f a) us c) : Reads (p >>= f) (ts ++ us) c := by
  intro pos rest
  rw [List.append_assoc, bind_of_ok (hp pos (us ++ rest)), hf, List.length_append, Nat.add_assoc]

/-- The last reader of a chain, and a value made of what was read. -/
theorem Reads.map {p : Reader β ε α} {ts : List β} {a : α} (hp : Reads p ts a) (g : α → γ) :
    Reads (p >>= fun x => Pure.pure (g x)) ts (g a) := by
  have h := hp.bind (f := fun x => Pure.pure (g x)) (Reads.pure (g a))
  rwa [List.append_nil] at h

theorem Reads.times {p : Reader β ε α} {δ : Type} (enc : δ → List β) (val : δ → α) {xs : List δ}
    (h : ∀ x ∈ xs, Reads p (enc x) (val x)) :
    Reads (Reading.times xs.length p) (xs.flatMap enc) (xs.map val) := by
  induction xs with
  | nil => exact Reads.pure []
  | cons x xs ih =>
      have hx : Reads p (enc x) (val x) := h x List.mem_cons_self
      have hxs := ih fun y hy => h y (List.mem_cons_of_mem x hy)
      exact hx.bind (hxs.map (val x :: ·))

/-! ## What is left -/

def NoGrow (p : Reader β ε α) : Prop :=
  ∀ s a t, p s = .ok (a, t) → t.rest.length ≤ s.rest.length

theorem NoGrow.pure (a : α) : NoGrow (Pure.pure a : Reader β ε α) := by
  intro s b t h
  cases h
  exact Nat.le_refl _

/-- What a chain of two readers did, when it succeeded. -/
theorem bind_eq_ok {p : Reader β ε α} {f : α → Reader β ε γ} {s u : Input β} {c : γ}
    (h : (p >>= f) s = .ok (c, u)) : ∃ a t, p s = .ok (a, t) ∧ f a t = .ok (c, u) := by
  cases hp : p s with
  | error e => simp [bind_of_error hp] at h
  | ok at' => exact ⟨at'.1, at'.2, rfl, by rwa [bind_of_ok hp] at h⟩

theorem NoGrow.bind {p : Reader β ε α} {f : α → Reader β ε γ} (hp : NoGrow p)
    (hf : ∀ a, NoGrow (f a)) : NoGrow (p >>= f) := by
  intro s c u h
  obtain ⟨a, t, ha, hc⟩ := bind_eq_ok h
  exact Nat.le_trans (hf a t c u hc) (hp s a t ha)

theorem NoGrow.times {p : Reader β ε α} (hp : NoGrow p) (n : Nat) : NoGrow (times n p) := by
  induction n with
  | zero => exact NoGrow.pure []
  | succ n ih => exact hp.bind fun a => ih.bind fun as => NoGrow.pure (a :: as)

/-- Chains of readers that agree step by step. -/
theorem bind_congr {p q : Reader β ε α} {f g : α → Reader β ε γ} {s : Input β} (hpq : p s = q s)
    (hfg : ∀ a t, p s = .ok (a, t) → f a t = g a t) : (p >>= f) s = (q >>= g) s := by
  cases hp : p s with
  | error e => rw [bind_of_error hp, bind_of_error (hpq.symm.trans hp)]
  | ok at' => rw [bind_of_ok hp, bind_of_ok (hpq.symm.trans hp), hfg _ _ hp]

/-- Two readers that agree on short inputs agree when they are repeated. -/
theorem times_congr {p q : Reader β ε α} {k : Nat} (hp : NoGrow p)
    (h : ∀ s, s.rest.length ≤ k → p s = q s) (n : Nat) {s : Input β} (hs : s.rest.length ≤ k) :
    Reading.times n p s = Reading.times n q s := by
  induction n generalizing s with
  | zero => rfl
  | succ n ih =>
      refine bind_congr (h s hs) fun a t ht => ?_
      exact bind_congr (ih (Nat.le_trans (hp s a t ht) hs)) fun _ _ _ => rfl

/-! ## What was taken -/

/-- A successful run of `p` took tokens `ts` and yielded an `a` that are
related by `R`, and left the rest. -/
def Takes (p : Reader β ε α) (R : List β → α → Prop) : Prop :=
  ∀ s a t, p s = .ok (a, t) → ∃ ts, s.rest = ts ++ t.rest ∧ R ts a

theorem Takes.pure (a : α) : Takes (Pure.pure a : Reader β ε α) fun ts b => ts = [] ∧ b = a := by
  intro s b t h
  cases h
  exact ⟨[], rfl, rfl, rfl⟩

theorem Takes.mono {p : Reader β ε α} {R S : List β → α → Prop} (h : Takes p R)
    (hRS : ∀ ts a, R ts a → S ts a) : Takes p S := by
  intro s a t hp
  obtain ⟨ts, hts, hR⟩ := h s a t hp
  exact ⟨ts, hts, hRS ts a hR⟩

theorem Takes.bind {p : Reader β ε α} {f : α → Reader β ε γ} {R : List β → α → Prop}
    {S : α → List β → γ → Prop} (hp : Takes p R) (hf : ∀ a, Takes (f a) (S a)) :
    Takes (p >>= f) fun ts c => ∃ us vs a, ts = us ++ vs ∧ R us a ∧ S a vs c := by
  intro s c u h
  obtain ⟨a, t, ha, hc⟩ := bind_eq_ok h
  obtain ⟨us, hus, hR⟩ := hp s a t ha
  obtain ⟨vs, hvs, hS⟩ := hf a t c u hc
  exact ⟨us ++ vs, by rw [hus, hvs, List.append_assoc], us, vs, a, rfl, hR, hS⟩

/-- The last reader of a chain, and a value made of what was read. -/
theorem Takes.map {p : Reader β ε α} {R : List β → α → Prop} (hp : Takes p R) (g : α → γ) :
    Takes (p >>= fun x => Pure.pure (g x)) fun ts c => ∃ a, R ts a ∧ c = g a := by
  refine (hp.bind fun a => Takes.pure (g a)).mono ?_
  rintro ts c ⟨us, vs, a, rfl, hR, rfl, rfl⟩
  exact ⟨a, by rwa [List.append_nil], rfl⟩

theorem Takes.times {p : Reader β ε α} {δ : Type} (enc : δ → List β) (val : δ → α)
    (hp : Takes p fun ts a => ∃ x, ts = enc x ∧ a = val x) (n : Nat) :
    Takes (Reading.times n p) fun ts as =>
      ∃ xs : List δ, xs.length = n ∧ ts = xs.flatMap enc ∧ as = xs.map val := by
  induction n with
  | zero =>
      refine (Takes.pure []).mono ?_
      rintro ts as ⟨rfl, rfl⟩
      exact ⟨[], rfl, rfl, rfl⟩
  | succ n ih =>
      refine (hp.bind fun a => ih.map (a :: ·)).mono ?_
      rintro ts as ⟨us, vs, a, rfl, ⟨x, rfl, rfl⟩, as, ⟨xs, hlen, rfl, rfl⟩, rfl⟩
      exact ⟨x :: xs, by rw [List.length_cons, hlen], rfl, rfl⟩

/-- A run that took tokens `p` is known to read yields what it reads. -/
theorem Takes.of_reads {p : Reader β ε α} {δ : Type} {R : List β → α → Prop} {enc : δ → List β}
    {val : δ → α} (hp : Takes p R) (h : ∀ ts a, R ts a → ∃ x, ts = enc x)
    (hreads : ∀ x, Reads p (enc x) (val x)) :
    Takes p fun ts a => ∃ x, ts = enc x ∧ a = val x := by
  intro s a t hs
  obtain ⟨ts, hts, hR⟩ := hp s a t hs
  obtain ⟨x, rfl⟩ := h ts a hR
  refine ⟨enc x, hts, x, rfl, ?_⟩
  have hread := hreads x s.pos t.rest
  rw [← hts] at hread
  rw [show p s = _ from hread] at hs
  exact (Prod.mk.inj (Except.ok.inj hs)).1.symm

/-- `p` takes `k` tokens. -/
def Eats (p : Reader β ε α) (k : Nat) : Prop :=
  Takes p fun ts _ => ts.length = k

theorem Eats.bind {p : Reader β ε α} {f : α → Reader β ε γ} {j k : Nat} (hp : Eats p j)
    (hf : ∀ a, Eats (f a) k) : Eats (p >>= f) (j + k) := by
  refine (Takes.bind hp hf).mono ?_
  rintro ts c ⟨us, vs, a, rfl, rfl, rfl⟩
  exact List.length_append

theorem Eats.map {p : Reader β ε α} {k : Nat} (hp : Eats p k) (g : α → γ) :
    Eats (p >>= fun x => Pure.pure (g x)) k := by
  refine (Takes.map hp g).mono ?_
  rintro ts c ⟨a, hlen, -⟩
  exact hlen

/-! ## What failed -/

/-- Where a chain of two readers failed. -/
theorem bind_eq_error {p : Reader β ε α} {f : α → Reader β ε γ} {s : Input β} {e : ε}
    (h : (p >>= f) s = .error e) : p s = .error e ∨ ∃ a t, p s = .ok (a, t) ∧ f a t = .error e := by
  cases hp : p s with
  | error e' =>
      rw [bind_of_error hp] at h
      cases h
      exact .inl rfl
  | ok at' => exact .inr ⟨at'.1, at'.2, rfl, by rwa [bind_of_ok hp] at h⟩

/-- Repeated readers fail in one of the runs, after those before it. -/
theorem times_eq_error {p : Reader β ε α} {n : Nat} {s : Input β} {e : ε}
    (h : Reading.times n p s = .error e) :
    ∃ k < n, ∃ as t, Reading.times k p s = .ok (as, t) ∧ p t = .error e := by
  induction n generalizing s with
  | zero => cases h
  | succ n ih =>
      rcases bind_eq_error h with hp | ⟨a, t, ha, h⟩
      · exact ⟨0, Nat.succ_pos n, [], s, rfl, hp⟩
      rcases bind_eq_error h with hn | ⟨as, u, -, hpure⟩
      · obtain ⟨k, hk, as, u, hu, hfail⟩ := ih hn
        refine ⟨k + 1, Nat.succ_lt_succ hk, a :: as, u, ?_, hfail⟩
        show (p >>= _) s = _
        rw [bind_of_ok ha, bind_of_ok hu]
        rfl
      · cases hpure

theorem times_of_error {p : Reader β ε α} {k n : Nat} {s t : Input β} {as : List α} {e : ε}
    (hk : k < n) (h : Reading.times k p s = .ok (as, t)) (hfail : p t = .error e) :
    Reading.times n p s = .error e := by
  induction n generalizing k s as with
  | zero => cases hk
  | succ n ih =>
      cases k with
      | zero =>
          cases h
          exact bind_of_error hfail
      | succ k =>
          obtain ⟨a, u, ha, h⟩ := bind_eq_ok h
          obtain ⟨as', v, hv, hpure⟩ := bind_eq_ok h
          cases hpure
          show (p >>= _) s = _
          rw [bind_of_ok ha]
          exact bind_of_error (ih (Nat.lt_of_succ_lt_succ hk) hv)

/-- Every failure of `p` is an `E`. -/
def Fails (p : Reader β ε α) (E : ε → Prop) : Prop :=
  ∀ s e, p s = .error e → E e

theorem Fails.pure {E : ε → Prop} (a : α) : Fails (Pure.pure a : Reader β ε α) E := by
  intro s e h
  cases h

theorem Fails.bind {E : ε → Prop} {p : Reader β ε α} {f : α → Reader β ε γ} (hp : Fails p E)
    (hf : ∀ a, Fails (f a) E) : Fails (p >>= f) E := by
  intro s e h
  rcases bind_eq_error h with hp' | ⟨a, t, -, hf'⟩
  · exact hp s e hp'
  · exact hf a t e hf'

end Reading
