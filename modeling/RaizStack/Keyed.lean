import Mathlib.Data.List.Nodup

/-!
# Tables with a primary key

A relation as a list of rows, together with the proof that no two rows
share their key, so that a table with a duplicate cannot be built. The
three writes a key gives meaning to are here: insert-or-ignore, upsert
and an update of the row of one key. Each comes with the lemma that
says what every key's row is afterwards, and nothing outside this
module looks at the lists underneath.
-/

namespace Keyed

variable {ρ κ : Type*}

/-- Rows with pairwise different keys. -/
structure Table (key : ρ → κ) where
  rows : List ρ
  keysNodup : (rows.map key).Nodup

namespace Table

variable {key : ρ → κ}

def empty (key : ρ → κ) : Table key := ⟨[], List.nodup_nil⟩

theorem eq_of_key_eq (T : Table key) {r r' : ρ} (hr : r ∈ T.rows) (hr' : r' ∈ T.rows)
    (h : key r = key r') : r = r' :=
  List.inj_on_of_nodup_map T.keysNodup hr hr' h

variable [DecidableEq κ]

/-! ## Lookup -/

/-- The row of key `k`. -/
def find? (T : Table key) (k : κ) : Option ρ :=
  T.rows.find? fun r => decide (key r = k)

@[simp] theorem find?_empty (k : κ) : (empty key).find? k = none := rfl

theorem find?_eq_some {T : Table key} {k : κ} {r : ρ} :
    T.find? k = some r ↔ r ∈ T.rows ∧ key r = k := by
  constructor
  · intro h
    exact ⟨List.mem_of_find?_eq_some h, by simpa using List.find?_some h⟩
  · rintro ⟨hr, rfl⟩
    cases hf : T.find? (key r) with
    | none =>
        have := List.find?_eq_none.mp hf r hr
        simp at this
    | some r' =>
        have hmem := List.mem_of_find?_eq_some hf
        have hkey : key r' = key r := by simpa using List.find?_some hf
        rw [T.eq_of_key_eq hmem hr hkey]

theorem find?_eq_none {T : Table key} {k : κ} :
    T.find? k = none ↔ ∀ r ∈ T.rows, key r ≠ k := by
  simp [find?, List.find?_eq_none]

/-- A list without duplicates, all of whose members are `r`. -/
theorem eq_singleton_of_forall {r : ρ} {l : List ρ} (hl : l.Nodup) (hr : r ∈ l)
    (h : ∀ x ∈ l, x = r) : l = [r] := by
  obtain ⟨n, rfl⟩ : ∃ n, l = List.replicate n r :=
    ⟨l.length, List.eq_replicate_of_mem h⟩
  have hn : n ≤ 1 := List.nodup_replicate.mp hl
  have hpos : n ≠ 0 := fun h0 => by simp [h0] at hr
  obtain rfl : n = 1 := by omega
  rfl

/-- The rows with the key of a row are that row, once. -/
theorem filter_key (T : Table key) {r : ρ} (hr : r ∈ T.rows) :
    T.rows.filter (fun x => decide (key x = key r)) = [r] := by
  refine eq_singleton_of_forall ((List.Nodup.of_map key T.keysNodup).filter _) ?_ ?_
  · simpa using hr
  · intro x hx
    obtain ⟨hxT, hkey⟩ := List.mem_filter.mp hx
    exact T.eq_of_key_eq hxT hr (by simpa using hkey)

/-! ## Insert or ignore -/

/-- `INSERT OR IGNORE`: a row whose key is taken is dropped. -/
def insertOrIgnore (T : Table key) (r : ρ) : Table key :=
  if h : key r ∈ T.rows.map key then T
  else ⟨T.rows ++ [r], by
    rw [List.map_append, List.nodup_append]
    refine ⟨T.keysNodup, List.nodup_singleton _, ?_⟩
    intro a ha b hb
    obtain rfl := List.mem_singleton.mp hb
    exact fun hab => h (hab ▸ ha)⟩

theorem mem_insertOrIgnore {T : Table key} {r x : ρ} :
    x ∈ (T.insertOrIgnore r).rows
      ↔ x ∈ T.rows ∨ (x = r ∧ ∀ y ∈ T.rows, key y ≠ key r) := by
  unfold insertOrIgnore
  split
  · rename_i h
    obtain ⟨y, hy, hkey⟩ := List.mem_map.mp h
    exact ⟨Or.inl, fun hx => hx.elim id fun hx' => absurd hkey (hx'.2 y hy)⟩
  · rename_i h
    have hfresh : ∀ y ∈ T.rows, key y ≠ key r := fun y hy hkey =>
      h (List.mem_map.mpr ⟨y, hy, hkey⟩)
    simp only [List.mem_append, List.mem_singleton]
    exact ⟨fun hx => hx.imp id fun hx' => ⟨hx', hfresh⟩,
      fun hx => hx.imp id fun hx' => hx'.1⟩

theorem mem_insertOrIgnore_of_mem {T : Table key} {r x : ρ} (hx : x ∈ T.rows) :
    x ∈ (T.insertOrIgnore r).rows :=
  mem_insertOrIgnore.mpr (Or.inl hx)

/-- After the insert the key has a row: the one just written, or the one
that was there before. -/
theorem exists_key_insertOrIgnore (T : Table key) (r : ρ) :
    ∃ x ∈ (T.insertOrIgnore r).rows, key x = key r := by
  by_cases h : ∃ y ∈ T.rows, key y = key r
  · obtain ⟨y, hy, hkey⟩ := h
    exact ⟨y, mem_insertOrIgnore_of_mem hy, hkey⟩
  · exact ⟨r, mem_insertOrIgnore.mpr (Or.inr ⟨rfl, fun y hy hkey => h ⟨y, hy, hkey⟩⟩), rfl⟩

/-- Rows of another kind do not see the insert. -/
theorem filter_insertOrIgnore_of_neg {T : Table key} {r : ρ} {p : ρ → Bool} (hr : p r = false) :
    (T.insertOrIgnore r).rows.filter p = T.rows.filter p := by
  unfold insertOrIgnore
  split
  · rfl
  · simp [hr]

/-- An insert whose key only rows of the kind `p` can hold depends on the
rows of that kind alone. -/
theorem filter_insertOrIgnore_congr {T T' : Table key} {r : ρ} {p : ρ → Bool}
    (hT : ∀ y ∈ T.rows, key y = key r → p y = true)
    (hT' : ∀ y ∈ T'.rows, key y = key r → p y = true)
    (h : T.rows.filter p = T'.rows.filter p) :
    (T.insertOrIgnore r).rows.filter p = (T'.insertOrIgnore r).rows.filter p := by
  have htaken : ∀ {S : Table key}, (∀ y ∈ S.rows, key y = key r → p y = true) →
      (key r ∈ S.rows.map key ↔ key r ∈ (S.rows.filter p).map key) := by
    intro S hS
    simp only [List.mem_map, List.mem_filter]
    constructor
    · rintro ⟨y, hy, hkey⟩
      exact ⟨y, ⟨hy, hS y hy hkey⟩, hkey⟩
    · rintro ⟨y, ⟨hy, -⟩, hkey⟩
      exact ⟨y, hy, hkey⟩
  have hiff : key r ∈ T.rows.map key ↔ key r ∈ T'.rows.map key := by
    rw [htaken hT, htaken hT', h]
  unfold insertOrIgnore
  by_cases hmem : key r ∈ T.rows.map key
  · rw [dif_pos hmem, dif_pos (hiff.mp hmem)]
    exact h
  · rw [dif_neg hmem, dif_neg fun h' => hmem (hiff.mpr h')]
    simp only [List.filter_append, h]

/-! ## Upsert -/

/-- `INSERT .. ON CONFLICT DO UPDATE` of every column. -/
def upsert (T : Table key) (r : ρ) : Table key :=
  if h : key r ∈ T.rows.map key then
    ⟨T.rows.map fun x => if key x = key r then r else x, by
      have hkeys : (T.rows.map fun x => if key x = key r then r else x).map key
          = T.rows.map key := by
        rw [List.map_map]
        refine List.map_congr_left ?_
        intro x _
        by_cases hx : key x = key r <;> simp [hx]
      rw [hkeys]
      exact T.keysNodup⟩
  else T.insertOrIgnore r

theorem mem_upsert {T : Table key} {r x : ρ} :
    x ∈ (T.upsert r).rows ↔ x = r ∨ (x ∈ T.rows ∧ key x ≠ key r) := by
  unfold upsert
  split
  · rename_i h
    obtain ⟨y, hy, hkey⟩ := List.mem_map.mp h
    simp only [List.mem_map]
    constructor
    · rintro ⟨z, hz, rfl⟩
      by_cases hzr : key z = key r
      · exact Or.inl (if_pos hzr)
      · exact Or.inr (by rw [if_neg hzr]; exact ⟨hz, hzr⟩)
    · rintro (rfl | ⟨hx, hne⟩)
      · exact ⟨y, hy, if_pos hkey⟩
      · exact ⟨x, hx, if_neg hne⟩
  · rename_i h
    have hfresh : ∀ y ∈ T.rows, key y ≠ key r := fun y hy hkey =>
      h (List.mem_map.mpr ⟨y, hy, hkey⟩)
    rw [mem_insertOrIgnore]
    constructor
    · rintro (hx | ⟨rfl, -⟩)
      · exact Or.inr ⟨hx, hfresh x hx⟩
      · exact Or.inl rfl
    · rintro (rfl | ⟨hx, -⟩)
      · exact Or.inr ⟨rfl, hfresh⟩
      · exact Or.inl hx

theorem find?_upsert (T : Table key) (r : ρ) (k : κ) :
    (T.upsert r).find? k = if k = key r then some r else T.find? k := by
  split
  · rename_i h
    exact find?_eq_some.mpr ⟨mem_upsert.mpr (Or.inl rfl), h.symm⟩
  · rename_i h
    refine Option.ext fun x => ?_
    rw [find?_eq_some, find?_eq_some, mem_upsert]
    constructor
    · rintro ⟨rfl | ⟨hx, -⟩, rfl⟩
      · exact absurd rfl h
      · exact ⟨hx, rfl⟩
    · rintro ⟨hx, rfl⟩
      exact ⟨Or.inr ⟨hx, h⟩, rfl⟩

/-- Many rows written, none of them twice: each is there, and where there
is none of a key the old row stays. -/
theorem find?_foldl_upsert {rs : List ρ} (hrs : (rs.map key).Nodup) (T : Table key) (k : κ) :
    (rs.foldl upsert T).find? k = (rs.find? fun r => decide (key r = k)).or (T.find? k) := by
  induction rs generalizing T with
  | nil => rfl
  | cons r rs ih =>
      rw [List.map_cons, List.nodup_cons] at hrs
      rw [List.foldl_cons, ih hrs.2, find?_upsert, List.find?_cons]
      by_cases hk : key r = k
      · have hnone : (rs.find? fun x => decide (key x = k)) = none := by
          refine List.find?_eq_none.mpr fun x hx hxk => hrs.1 ?_
          rw [hk, ← of_decide_eq_true hxk]
          exact List.mem_map_of_mem hx
        rw [hnone, decide_eq_true hk, if_pos hk.symm]
        rfl
      · rw [decide_eq_false hk, if_neg (Ne.symm hk)]

/-- Rows with different keys, written to an empty table, are its rows. -/
theorem rows_foldl_upsert {rs : List ρ} {T : Table key} (h : ((T.rows ++ rs).map key).Nodup) :
    (rs.foldl upsert T).rows = T.rows ++ rs := by
  induction rs generalizing T with
  | nil => exact (List.append_nil _).symm
  | cons r rs ih =>
      have hfresh : key r ∉ T.rows.map key := by
        rw [List.map_append, List.map_cons, List.nodup_append] at h
        exact fun hmem => h.2.2 _ hmem _ List.mem_cons_self rfl
      have hrows : (T.upsert r).rows = T.rows ++ [r] := by
        rw [upsert, dif_neg hfresh, insertOrIgnore, dif_neg hfresh]
      rw [List.foldl_cons, ih, hrows, List.append_assoc]
      · rfl
      · rw [hrows, List.append_assoc]
        exact h

/-! ## Update -/

/-- `UPDATE .. WHERE key = k` of columns outside the key. -/
def update (T : Table key) (k : κ) (f : ρ → ρ) (hf : ∀ r, key (f r) = key r) : Table key :=
  ⟨T.rows.map fun x => if key x = k then f x else x, by
    have hkeys : (T.rows.map fun x => if key x = k then f x else x).map key
        = T.rows.map key := by
      rw [List.map_map]
      refine List.map_congr_left ?_
      intro x _
      by_cases hx : key x = k <;> simp [hx, hf]
    rw [hkeys]
    exact T.keysNodup⟩

theorem find?_update (T : Table key) (k : κ) (f : ρ → ρ) (hf : ∀ r, key (f r) = key r)
    (k' : κ) :
    (T.update k f hf).find? k' = if k' = k then (T.find? k').map f else T.find? k' := by
  refine Option.ext fun x => ?_
  simp only [update, find?_eq_some, List.mem_map]
  split
  · rename_i h
    subst h
    rw [Option.map_eq_some_iff]
    constructor
    · rintro ⟨⟨y, hy, rfl⟩, hkey⟩
      by_cases hyk : key y = k'
      · exact ⟨y, find?_eq_some.mpr ⟨hy, hyk⟩, (if_pos hyk).symm⟩
      · rw [if_neg hyk] at hkey
        exact absurd hkey hyk
    · rintro ⟨y, hy, rfl⟩
      obtain ⟨hyT, hyk⟩ := find?_eq_some.mp hy
      exact ⟨⟨y, hyT, if_pos hyk⟩, by rw [hf, hyk]⟩
  · rename_i h
    constructor
    · rintro ⟨⟨y, hy, rfl⟩, hkey⟩
      by_cases hyk : key y = k
      · rw [if_pos hyk, hf] at hkey
        exact absurd (hkey.symm.trans hyk) h
      · rw [if_neg hyk] at hkey ⊢
        exact find?_eq_some.mpr ⟨hy, hkey⟩
    · intro hx
      obtain ⟨hxT, hxk⟩ := find?_eq_some.mp hx
      exact ⟨⟨x, hxT, if_neg fun hk => h (hxk.symm.trans hk)⟩, hxk⟩

end Table

end Keyed
