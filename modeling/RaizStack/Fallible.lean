import Mathlib.Data.List.Forall2

/-!
# Computations that may fail

What a successful `Except` computation went through. A proof about one
takes it apart bind by bind with `bind_eq_ok` and never looks at the
failing paths.
-/

namespace Fallible

variable {ε α β : Type}

theorem bind_eq_ok {x : Except ε α} {f : α → Except ε β} {b : β} :
    (x >>= f) = .ok b ↔ ∃ a, x = .ok a ∧ f a = .ok b := by
  cases x with
  | error e => simp [bind, Except.bind]
  | ok a => simp [bind, Except.bind]

@[simp] theorem ok_bind (a : α) (f : α → Except ε β) : (Except.ok a >>= f) = f a := rfl

theorem mapError_eq_ok {ε' : Type} {g : ε → ε'} {x : Except ε α} {a : α} :
    x.mapError g = .ok a ↔ x = .ok a := by
  cases x with
  | error e => simp [Except.mapError]
  | ok a => simp [Except.mapError]

theorem map_eq_ok {γ : Type} {g : α → γ} {x : Except ε α} {c : γ} :
    x.map g = .ok c ↔ ∃ a, x = .ok a ∧ g a = c := by
  cases x with
  | error e => simp [Except.map]
  | ok a => simp [Except.map]

/-- Results that look alike through `g` are the same failure, or values
that look alike. -/
theorem map_eq_map {γ : Type} {g : α → γ} {x y : Except ε α} (h : x.map g = y.map g) :
    (∃ e, x = .error e ∧ y = .error e) ∨ ∃ a b, x = .ok a ∧ y = .ok b ∧ g a = g b := by
  cases x with
  | error e =>
      cases y with
      | error e' => exact .inl ⟨e, rfl, by simpa [Except.map] using h.symm⟩
      | ok b => simp [Except.map] at h
  | ok a =>
      cases y with
      | error e' => simp [Except.map] at h
      | ok b => exact .inr ⟨a, b, rfl, rfl, by simpa [Except.map] using h⟩

/-! ## Over a list -/

theorem mapM_nil (f : α → Except ε β) : ([] : List α).mapM f = .ok [] := rfl

theorem mapM_cons (f : α → Except ε β) (a : α) (l : List α) :
    (a :: l).mapM f = (f a >>= fun b => l.mapM f >>= fun bs => .ok (b :: bs)) := by
  rw [List.mapM_cons]
  rfl

theorem mapM_map {γ : Type} (g : γ → α) (f : α → Except ε β) (l : List γ) :
    (l.map g).mapM f = l.mapM fun c => f (g c) := by
  induction l with
  | nil => rfl
  | cons c l ih => rw [List.map_cons, mapM_cons, mapM_cons, ih]

/-- A computation that never fails on a list returns what it returns. -/
theorem mapM_eq_ok {f : α → Except ε β} {g : α → β} {l : List α} (h : ∀ a ∈ l, f a = .ok (g a)) :
    l.mapM f = .ok (l.map g) := by
  induction l with
  | nil => rfl
  | cons a l ih =>
      rw [mapM_cons, h a List.mem_cons_self, ih fun b hb => h b (List.mem_cons_of_mem a hb)]
      rfl

theorem exists_mapM_eq_ok {f : α → Except ε β} {l : List α} (h : ∀ a ∈ l, ∃ b, f a = .ok b) :
    ∃ bs, l.mapM f = .ok bs := by
  induction l with
  | nil => exact ⟨[], rfl⟩
  | cons a l ih =>
      obtain ⟨b, hb⟩ := h a List.mem_cons_self
      obtain ⟨bs, hbs⟩ := ih fun c hc => h c (List.mem_cons_of_mem a hc)
      exact ⟨b :: bs, by rw [mapM_cons, hb, hbs]; rfl⟩

theorem length_of_mapM {f : α → Except ε β} {l : List α} {bs : List β} (h : l.mapM f = .ok bs) :
    bs.length = l.length := by
  induction l generalizing bs with
  | nil =>
      cases h
      rfl
  | cons a l ih =>
      rw [mapM_cons] at h
      obtain ⟨b, -, h⟩ := bind_eq_ok.mp h
      obtain ⟨bs', hbs', h⟩ := bind_eq_ok.mp h
      cases h
      rw [List.length_cons, List.length_cons, ih hbs']

theorem mapM_append_eq_ok {f : α → Except ε β} {l l' : List α} {bs bs' : List β}
    (h : l.mapM f = .ok bs) (h' : l'.mapM f = .ok bs') : (l ++ l').mapM f = .ok (bs ++ bs') := by
  induction l generalizing bs with
  | nil =>
      cases h
      exact h'
  | cons a l ih =>
      rw [mapM_cons] at h
      obtain ⟨b, hb, h⟩ := bind_eq_ok.mp h
      obtain ⟨rest, hrest, h⟩ := bind_eq_ok.mp h
      cases h
      rw [List.cons_append, mapM_cons, hb, ok_bind, ih hrest]
      rfl

/-- Each element was computed. -/
theorem of_mapM_eq_ok {f : α → Except ε β} {l : List α} {bs : List β} (h : l.mapM f = .ok bs)
    {a : α} (ha : a ∈ l) : ∃ b, f a = .ok b := by
  induction l generalizing bs with
  | nil => cases ha
  | cons c l ih =>
      rw [mapM_cons] at h
      obtain ⟨b, hb, h⟩ := bind_eq_ok.mp h
      obtain ⟨bs', hbs', -⟩ := bind_eq_ok.mp h
      rcases List.mem_cons.mp ha with rfl | hmem
      · exact ⟨b, hb⟩
      · exact ih hbs' hmem

/-- What a list of results holds. -/
theorem mem_of_mapM {f : α → Except ε β} {l : List α} {bs : List β} {b : β}
    (h : l.mapM f = .ok bs) : b ∈ bs ↔ ∃ a ∈ l, f a = .ok b := by
  induction l generalizing bs with
  | nil =>
      cases h
      simp
  | cons a l ih =>
      rw [mapM_cons] at h
      obtain ⟨b', hb', h⟩ := bind_eq_ok.mp h
      obtain ⟨bs', hbs', h⟩ := bind_eq_ok.mp h
      cases h
      rw [List.mem_cons, ih hbs']
      constructor
      · rintro (rfl | ⟨c, hc, hfc⟩)
        · exact ⟨a, List.mem_cons_self, hb'⟩
        · exact ⟨c, List.mem_cons_of_mem a hc, hfc⟩
      · rintro ⟨c, hc, hfc⟩
        rcases List.mem_cons.mp hc with rfl | hc
        · exact .inl (Except.ok.inj (hfc.symm.trans hb'))
        · exact .inr ⟨c, hc, hfc⟩

/-- Two computations that agree element by element, agree over the list. -/
theorem map_eq_of_mapM {ε' γ δ : Type} {f : α → Except ε β} {g : α → Except ε' γ} {u : β → δ}
    {v : γ → δ} {l : List α} {bs : List β} {cs : List γ}
    (hf : l.mapM f = .ok bs) (hg : l.mapM g = .ok cs)
    (h : ∀ a ∈ l, ∀ b c, f a = .ok b → g a = .ok c → u b = v c) : bs.map u = cs.map v := by
  induction l generalizing bs cs with
  | nil =>
      cases hf
      cases hg
      rfl
  | cons a l ih =>
      rw [mapM_cons] at hf hg
      obtain ⟨b, hb, hf⟩ := bind_eq_ok.mp hf
      obtain ⟨bs, hbs, hf⟩ := bind_eq_ok.mp hf
      obtain ⟨c, hc, hg⟩ := bind_eq_ok.mp hg
      obtain ⟨cs, hcs, hg⟩ := bind_eq_ok.mp hg
      cases hf
      cases hg
      rw [List.map_cons, List.map_cons, h a List.mem_cons_self b c hb hc,
        ih hbs hcs fun x hx => h x (List.mem_cons_of_mem a hx)]

/-- Two lists whose elements look alike through `g` give results that look
alike through `g`, or fail alike. -/
theorem map_mapM_congr {γ : Type} {f : α → Except ε β} {g : β → γ} {l l' : List α}
    (h : List.Forall₂ (fun a a' => (f a).map g = (f a').map g) l l') :
    (l.mapM f).map (List.map g) = (l'.mapM f).map (List.map g) := by
  induction h with
  | nil => rfl
  | @cons a a' l l' hhead _ ih =>
      rw [mapM_cons, mapM_cons]
      rcases map_eq_map hhead with ⟨e, ha, ha'⟩ | ⟨b, b', ha, ha', hb⟩
      · rw [ha, ha']
        rfl
      · rw [ha, ha']
        rcases map_eq_map ih with ⟨e, hl, hl'⟩ | ⟨bs, bs', hl, hl', hbs⟩
        · simp only [ok_bind, hl, hl']
          rfl
        · simp only [ok_bind, hl, hl', Except.map, List.map_cons, hb, hbs]

/-! ## Two computations in step -/

/-- Both fail, or both return, and what they return is related. -/
inductive Both {δ : Type} (Rel : α → β → Prop) : Except ε α → Except δ β → Prop where
  | error (e : ε) (d : δ) : Both Rel (.error e) (.error d)
  | ok {a : α} {b : β} (h : Rel a b) : Both Rel (.ok a) (.ok b)

namespace Both

variable {δ γ γ' : Type} {Rel : α → β → Prop} {Rel' : γ → γ' → Prop}

theorem refl (x : Except ε α) : Both (· = ·) x x := by
  cases x with
  | error e => exact .error e e
  | ok a => exact .ok rfl

theorem bind {x : Except ε α} {y : Except δ β} {f : α → Except ε γ} {g : β → Except δ γ'}
    (h : Both Rel x y) (hf : ∀ a b, Rel a b → Both Rel' (f a) (g b)) :
    Both Rel' (x >>= f) (y >>= g) := by
  cases h with
  | error e d => exact .error e d
  | ok h => exact hf _ _ h

/-- Loops whose steps keep the relation keep it. -/
theorem foldlM {σ : Type} {f : α → σ → Except ε α} {g : β → σ → Except δ β}
    (hstep : ∀ a b s, Rel a b → Both Rel (f a s) (g b s)) (l : List σ) {a : α} {b : β}
    (h : Rel a b) : Both Rel (l.foldlM f a) (l.foldlM g b) := by
  induction l generalizing a b with
  | nil => exact .ok h
  | cons s l ih =>
      rw [List.foldlM_cons, List.foldlM_cons]
      exact (hstep a b s h).bind fun _ _ => ih

theorem exists_left {x : Except ε α} {y : Except δ β} {b : β} (h : Both Rel x y) (hy : y = .ok b) :
    ∃ a, x = .ok a ∧ Rel a b := by
  subst hy
  cases h with
  | ok h => exact ⟨_, rfl, h⟩

theorem exists_right {x : Except ε α} {y : Except δ β} {a : α} (h : Both Rel x y)
    (hx : x = .ok a) : ∃ b, y = .ok b ∧ Rel a b := by
  subst hx
  cases h with
  | ok h => exact ⟨_, rfl, h⟩

end Both

end Fallible
