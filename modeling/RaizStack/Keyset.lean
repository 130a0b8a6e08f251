import Mathlib.Data.List.Sort

/-!
# Pages of an ordered relation

`SELECT .. ORDER BY key ASC LIMIT n` over rows with pairwise different
keys. A page is a downward-closed part of the rows that match: it lists
them in strictly increasing key order, holds every match that is not
past one of its rows, and, when it is shorter than its limit, holds every
match there is. Those three facts are all a reader who pages by the last
key ever needs.
-/

namespace Keyset

variable {ρ κ : Type*} [LinearOrder κ] (key : ρ → κ)

/-! ## The two clauses -/

/-- `ORDER BY key ASC`. -/
def orderBy (rows : List ρ) : List ρ :=
  rows.insertionSort fun a b => key a ≤ key b

/-- `LIMIT n`: a negative limit is no limit. -/
def limit (n : Int) (rows : List ρ) : List ρ :=
  if n < 0 then rows else rows.take n.toNat

variable {key} {rows : List ρ} {n : Int} {r x : ρ}

@[simp] theorem mem_orderBy : r ∈ orderBy key rows ↔ r ∈ rows :=
  List.mem_insertionSort _

theorem orderBy_perm : (orderBy key rows).Perm rows :=
  List.perm_insertionSort _ rows

theorem limit_of_nonneg (h : 0 ≤ n) : limit n rows = rows.take n.toNat :=
  if_neg (not_lt.mpr h)

theorem limit_initial : limit n rows <+: rows := by
  unfold limit
  split
  · exact List.prefix_rfl
  · exact List.take_prefix _ _

theorem orderBy_pairwise : (orderBy key rows).Pairwise fun a b => key a ≤ key b := by
  have : Std.Total fun a b : ρ => key a ≤ key b := ⟨fun a b => le_total (key a) (key b)⟩
  have : IsTrans ρ fun a b : ρ => key a ≤ key b := ⟨fun _ _ _ => le_trans⟩
  exact List.pairwise_insertionSort _ rows

theorem orderBy_strict (hkeys : (rows.map key).Nodup) :
    (orderBy key rows).Pairwise fun a b => key a < key b := by
  have hnodup : ((orderBy key rows).map key).Nodup :=
    (((List.perm_insertionSort _ rows).map key).nodup_iff).mpr hkeys
  have hne : (orderBy key rows).Pairwise fun a b => key a ≠ key b :=
    List.pairwise_map.mp hnodup
  exact (orderBy_pairwise.and hne).imp fun h => lt_of_le_of_ne h.1 h.2

/-- Rows listed in strict key order are determined by which rows they are. -/
theorem eq_of_mem_iff {l l' : List ρ} (hl : l.Pairwise fun a b => key a < key b)
    (hl' : l'.Pairwise fun a b => key a < key b) (h : ∀ r, r ∈ l ↔ r ∈ l') : l = l' := by
  have : Std.Irrefl fun a b : ρ => key a < key b := ⟨fun a => lt_irrefl (key a)⟩
  have : Std.Antisymm fun a b : ρ => key a < key b :=
    ⟨fun _ _ hab hba => absurd hab (lt_asymm hba)⟩
  exact List.Pairwise.eq_of_mem_iff hl hl' h

/-! ## Ordering and selecting -/

/-- Rows whose order is known. -/
theorem orderBy_eq_of_perm {l : List ρ} (hperm : rows.Perm l)
    (hl : l.Pairwise fun a b => key a < key b) : orderBy key rows = l := by
  have hkeys : (rows.map key).Nodup :=
    (hperm.map key).nodup_iff.mpr (List.pairwise_map.mpr (hl.imp fun h => ne_of_lt h))
  refine eq_of_mem_iff (orderBy_strict hkeys) hl fun r => ?_
  exact (orderBy_perm.trans hperm).mem_iff

/-- A row goes into an ordered list where it goes into the selected part
of it. -/
theorem filter_orderedInsert {l : List ρ} (p : ρ → Bool)
    (hl : l.Pairwise fun a b => key a ≤ key b) :
    (l.orderedInsert (fun a b => key a ≤ key b) x).filter p
      = if p x then (l.filter p).orderedInsert (fun a b => key a ≤ key b) x else l.filter p := by
  induction l with
  | nil => simp [List.filter_cons]
  | cons y l ih =>
      rw [List.pairwise_cons] at hl
      by_cases hxy : key x ≤ key y
      · rw [List.orderedInsert_cons_of_le (fun a b => key a ≤ key b) l hxy, List.filter_cons]
        have hall : ∀ z ∈ (y :: l).filter p, key x ≤ key z := by
          intro z hz
          rcases List.mem_cons.mp (List.mem_of_mem_filter hz) with rfl | hz
          · exact hxy
          · exact le_trans hxy (hl.1 z hz)
        cases hrest : (y :: l).filter p with
        | nil => rfl
        | cons z rest =>
            have hz : key x ≤ key z := hall z (by rw [hrest]; exact List.mem_cons_self)
            rw [List.orderedInsert_cons_of_le (fun a b => key a ≤ key b) rest hz]
      · rw [List.orderedInsert_of_not_le (fun a b => key a ≤ key b) l hxy, List.filter_cons,
          List.filter_cons, ih hl.2]
        cases p x <;> cases p y <;> simp [hxy]

/-- Selecting commutes with ordering, rows with equal keys included. -/
theorem filter_orderBy (p : ρ → Bool) :
    (orderBy key rows).filter p = orderBy key (rows.filter p) := by
  induction rows with
  | nil => rfl
  | cons x rows ih =>
      have hinsert : (orderBy key (x :: rows)).filter p
          = if p x then ((orderBy key rows).filter p).orderedInsert (fun a b => key a ≤ key b) x
            else (orderBy key rows).filter p :=
        filter_orderedInsert p orderBy_pairwise
      rw [hinsert, ih, List.filter_cons]
      cases p x <;> rfl

/-- A map that keeps the keys commutes with ordering. -/
theorem map_orderBy {σ : Type*} {key' : σ → κ} (f : ρ → σ) (h : ∀ r, key' (f r) = key r) :
    (orderBy key rows).map f = orderBy key' (rows.map f) := by
  refine List.map_insertionSort _ _ f rows fun a _ b _ => ?_
  rw [h, h]

/-! ## What a page holds -/

/-- A prefix of a strictly ordered list is closed downwards. -/
theorem mem_prefix_of_le {l p : List ρ} (hl : l.Pairwise fun a b => key a < key b)
    (hp : p <+: l) (hr : r ∈ l) (hx : x ∈ p) (hle : key r ≤ key x) : r ∈ p := by
  obtain ⟨rest, rfl⟩ := hp
  rcases List.mem_append.mp hr with hin | hin
  · exact hin
  · have hlt := (List.pairwise_append.mp hl).2.2 x hx r hin
    exact absurd hle (not_le_of_gt hlt)

variable (key rows n)

/-- The page of the first `n` rows in key order. -/
def page : List ρ :=
  limit n (orderBy key rows)

variable {key rows n}

theorem mem_of_mem_page (hr : r ∈ page key rows n) : r ∈ rows :=
  mem_orderBy.mp (limit_initial.subset hr)

theorem page_strict (hkeys : (rows.map key).Nodup) :
    (page key rows n).Pairwise fun a b => key a < key b :=
  (orderBy_strict hkeys).sublist limit_initial.sublist

/-- A page misses no row up to its last one. -/
theorem mem_page_of_le (hkeys : (rows.map key).Nodup) (hr : r ∈ rows)
    (hx : x ∈ page key rows n) (hle : key r ≤ key x) : r ∈ page key rows n :=
  mem_prefix_of_le (orderBy_strict hkeys) limit_initial (mem_orderBy.mpr hr) hx hle

/-- A page shorter than its limit holds every row. -/
theorem mem_page_of_short (hshort : ((page key rows n).length : Int) < n) (hr : r ∈ rows) :
    r ∈ page key rows n := by
  have hn : 0 ≤ n := le_trans (Int.natCast_nonneg _) (le_of_lt hshort)
  have hall : page key rows n = orderBy key rows := by
    unfold page at hshort ⊢
    rw [limit_of_nonneg hn] at hshort ⊢
    rw [List.length_take] at hshort
    exact List.take_of_length_le (by omega)
  rw [hall]
  exact mem_orderBy.mpr hr

/-- The last row of a page carries its largest key. -/
theorem key_le_getLast (hkeys : (rows.map key).Nodup) (hlast : (page key rows n).getLast? = some x)
    (hr : r ∈ page key rows n) : key r ≤ key x := by
  obtain ⟨front, hfront⟩ := List.getLast?_eq_some_iff.mp hlast
  have hstrict : (page key rows n).Pairwise fun a b => key a < key b := page_strict hkeys
  rw [hfront] at hr hstrict
  rcases List.mem_append.mp hr with hin | hin
  · exact le_of_lt ((List.pairwise_append.mp hstrict).2.2 r hin x (List.mem_singleton_self x))
  · exact le_of_eq (congrArg key (List.mem_singleton.mp hin))

/-! ## Pages put together -/

theorem page_natCast (k : Nat) : page key rows k = (orderBy key rows).take k := by
  rw [page, limit_of_nonneg (Int.natCast_nonneg k), Int.toNat_natCast]

theorem length_page_le (k : Nat) : (page key rows k).length ≤ k := by
  rw [page_natCast]
  exact List.length_take_le _ _

/-- A short page is as good as a longer one. -/
theorem page_of_short {k : Nat} (m : Nat) (hshort : (page key rows k).length < k) :
    page key rows k = page key rows (k + m : Nat) := by
  rw [page_natCast] at hshort ⊢
  rw [List.length_take] at hshort
  rw [page_natCast, List.take_of_length_le (by omega), List.take_of_length_le (by omega)]

/-- A page and the page of what comes after its last row are one page. -/
theorem page_append (hkeys : (rows.map key).Nodup) {k : Nat} (m : Nat)
    (hlast : (page key rows k).getLast? = some x) :
    page key rows k ++ page key (rows.filter fun r => key x < key r) m
      = page key rows (k + m : Nat) := by
  have hstrict := orderBy_strict hkeys
  have hsplit : orderBy key rows = page key rows k ++ (orderBy key rows).drop k := by
    rw [page_natCast, List.take_append_drop]
  have hfront : ∀ r ∈ page key rows k, ¬ key x < key r :=
    fun r hr => not_lt_of_ge (key_le_getLast hkeys hlast hr)
  have hback : ∀ r ∈ (orderBy key rows).drop k, key x < key r := by
    rw [hsplit] at hstrict
    exact (List.pairwise_append.mp hstrict).2.2 x (List.mem_of_getLast? hlast)
  have hrest : orderBy key (rows.filter fun r => key x < key r) = (orderBy key rows).drop k := by
    have hnone : (page key rows k).filter (fun r => decide (key x < key r)) = [] :=
      List.filter_eq_nil_iff.mpr fun r hr => by simpa using hfront r hr
    have hall : ((orderBy key rows).drop k).filter (fun r => decide (key x < key r))
        = (orderBy key rows).drop k :=
      List.filter_eq_self.mpr fun r hr => by simpa using hback r hr
    rw [← filter_orderBy, hsplit, List.filter_append, hnone, List.nil_append, ← hsplit, hall]
  rw [page_natCast m, hrest, page_natCast, page_natCast, List.take_add]

/-! ## Pages by counting -/

/-- A row is on the page of the first `k` exactly when fewer than `k` rows
come before it. -/
theorem mem_page_iff_count (hkeys : (rows.map key).Nodup) (hr : r ∈ rows) (k : Nat) :
    r ∈ page key rows k ↔ (rows.filter fun s => key s < key r).length < k := by
  obtain ⟨front, back, hsplit⟩ := List.append_of_mem (mem_orderBy.mpr hr : r ∈ orderBy key rows)
  have hstrict := orderBy_strict hkeys
  rw [hsplit, List.pairwise_append, List.pairwise_cons] at hstrict
  obtain ⟨-, ⟨hback, -⟩, hfront⟩ := hstrict
  have hcount : (rows.filter fun s => key s < key r).length = front.length := by
    have hall : front.filter (fun s => decide (key s < key r)) = front :=
      List.filter_eq_self.mpr fun s hs => by
        simpa using hfront s hs r List.mem_cons_self
    have hnone : (r :: back).filter (fun s => decide (key s < key r)) = [] := by
      refine List.filter_eq_nil_iff.mpr fun s hs => ?_
      rcases List.mem_cons.mp hs with rfl | hs
      · simp
      · simpa using le_of_lt (hback s hs)
    have hperm : (orderBy key rows).Perm rows := orderBy_perm
    rw [← (hperm.filter _).length_eq, hsplit, List.filter_append, hall, hnone, List.append_nil]
  rw [hcount, page_natCast, hsplit]
  constructor
  · intro htake
    by_contra hle
    rw [List.take_append_of_le_length (not_lt.mp hle)] at htake
    exact lt_irrefl _ (hfront r (List.mem_of_mem_take htake) r List.mem_cons_self)
  · intro hlt
    obtain ⟨m, rfl⟩ := Nat.exists_eq_add_of_lt hlt
    rw [Nat.add_assoc, List.take_length_add_append]
    exact List.mem_append_right _ List.mem_cons_self

/-- As many rows lie up to the last row of a page as the page holds. -/
theorem length_filter_le_getLast (hkeys : (rows.map key).Nodup)
    (hlast : (page key rows n).getLast? = some x) :
    (rows.filter fun s => key s ≤ key x).length = (page key rows n).length := by
  have hmem : ∀ s, s ∈ rows.filter (fun s => key s ≤ key x) ↔ s ∈ page key rows n := by
    intro s
    rw [List.mem_filter, decide_eq_true_eq]
    constructor
    · rintro ⟨hs, hle⟩
      exact mem_page_of_le hkeys hs (List.mem_of_getLast? hlast) hle
    · intro hs
      exact ⟨mem_of_mem_page hs, key_le_getLast hkeys hlast hs⟩
  have hrows : rows.Nodup := List.Nodup.of_map key hkeys
  have hpage : (page key rows n).Nodup := (page_strict hkeys).imp fun h heq => by
    rw [heq] at h
    exact lt_irrefl _ h
  exact ((List.perm_ext_iff_of_nodup (hrows.filter _) hpage).mpr hmem).length_eq

/-! ## Pages compared -/

variable (key) in
/-- How many rows come before `r`. -/
def countBelow (rows : List ρ) (r : ρ) : Nat :=
  (rows.filter fun s => key s < key r).length

variable {k : Nat} {rows' : List ρ}

theorem mem_page_iff (hkeys : (rows.map key).Nodup) :
    r ∈ page key rows k ↔ r ∈ rows ∧ countBelow key rows r < k :=
  ⟨fun h => ⟨mem_of_mem_page h, (mem_page_iff_count hkeys (mem_of_mem_page h) k).mp h⟩,
    fun h => (mem_page_iff_count hkeys h.1 k).mpr h.2⟩

theorem countBelow_mono (h : key x ≤ key r) : countBelow key rows x ≤ countBelow key rows r := by
  refine (List.monotone_filter_right rows fun s hs => ?_).length_le
  rw [decide_eq_true_eq] at hs ⊢
  exact lt_of_lt_of_le hs h

theorem length_page (k : Nat) : (page key rows k).length = min k rows.length := by
  rw [page_natCast, List.length_take, orderBy_perm.length_eq]

/-- A row with a page of rows before it has at least as many before it in
any rows that hold the page. -/
theorem le_countBelow_of_page (hkeys : (rows.map key).Nodup)
    (hsub : ∀ x ∈ page key rows k, x ∈ rows') (hk : k ≤ countBelow key rows r) :
    k ≤ countBelow key rows' r := by
  have hlen : (page key rows k).length = k := by
    have hle : countBelow key rows r ≤ rows.length := List.length_filter_le _ _
    rw [length_page]
    omega
  have hnodup : (page key rows k).Nodup := (page_strict hkeys).imp fun h heq => by
    rw [heq] at h
    exact lt_irrefl _ h
  have hbelow : page key rows k ⊆ rows'.filter fun s => key s < key r := by
    intro x hx
    have hcount := ((mem_page_iff hkeys).mp hx).2
    refine List.mem_filter.mpr ⟨hsub x hx, decide_eq_true (lt_of_not_ge fun hle => ?_)⟩
    have hmono : countBelow key rows r ≤ countBelow key rows x := countBelow_mono hle
    omega
  calc k = (page key rows k).length := hlen.symm
    _ ≤ countBelow key rows' r := (List.subperm_of_subset hnodup hbelow).length_le

/-- **Two selections with the same first page.** They agree on every row
with less than a page of the second one before it. -/
theorem page_filter_eq_iff {all : List ρ} (hkeys : (all.map key).Nodup) (p q : ρ → Bool)
    (k : Nat) :
    page key (all.filter p) k = page key (all.filter q) k ↔
      ∀ r ∈ all, countBelow key (all.filter q) r < k → p r = q r := by
  have hkeys' : ∀ p : ρ → Bool, ((all.filter p).map key).Nodup :=
    fun p => hkeys.sublist (List.filter_sublist.map key)
  have hmem : ∀ (p : ρ → Bool) (r : ρ), r ∈ page key (all.filter p) k ↔
      (r ∈ all ∧ p r = true) ∧ countBelow key (all.filter p) r < k := fun p r => by
    rw [mem_page_iff (hkeys' p), List.mem_filter]
  constructor
  · intro heq r hr hcount
    cases hq : q r with
    | true =>
        have hin := (hmem q r).mpr ⟨⟨hr, hq⟩, hcount⟩
        rw [← heq] at hin
        exact ((hmem p r).mp hin).1.2
    | false =>
        by_contra hp
        rw [Bool.not_eq_false] at hp
        -- a row of `p` alone is past the common page
        have hpast : k ≤ countBelow key (all.filter p) r := by
          by_contra hlt
          have hin := (hmem p r).mpr ⟨⟨hr, hp⟩, by omega⟩
          rw [heq, hmem, hq] at hin
          exact Bool.false_ne_true hin.1.2
        have hcount' : k ≤ countBelow key (all.filter q) r :=
          le_countBelow_of_page (hkeys' p) (fun x hx => mem_of_mem_page (heq ▸ hx)) hpast
        omega
  · intro hagree
    have hsame : ∀ r ∈ all, countBelow key (all.filter q) r < k →
        countBelow key (all.filter p) r = countBelow key (all.filter q) r := by
      intro r hr hcount
      unfold countBelow
      rw [List.filter_filter, List.filter_filter]
      refine congrArg List.length (List.filter_congr fun s hs => ?_)
      by_cases hsr : key s < key r
      · rw [hagree s hs (lt_of_le_of_lt (countBelow_mono hsr.le) hcount)]
      · rw [decide_eq_false hsr, Bool.false_and, Bool.false_and]
    refine eq_of_mem_iff (page_strict (hkeys' p)) (page_strict (hkeys' q)) fun r => ?_
    rw [hmem, hmem]
    constructor
    · rintro ⟨⟨hr, hp⟩, hcount⟩
      have hq : countBelow key (all.filter q) r < k := by
        by_contra hpast
        -- the first page of `q` is in `p`, so it is before `r` there too
        have hsub : ∀ x ∈ page key (all.filter q) k, x ∈ all.filter p := by
          intro x hx
          obtain ⟨⟨hx, hqx⟩, hcx⟩ := (hmem q x).mp hx
          exact List.mem_filter.mpr ⟨hx, (hagree x hx hcx).trans hqx⟩
        have hcount' : k ≤ countBelow key (all.filter p) r :=
          le_countBelow_of_page (hkeys' q) hsub (not_lt.mp hpast)
        omega
      exact ⟨⟨hr, (hagree r hr hq).symm.trans hp⟩, hq⟩
    · rintro ⟨⟨hr, hq⟩, hcount⟩
      rw [hsame r hr hcount]
      exact ⟨⟨hr, (hagree r hr hcount).trans hq⟩, hcount⟩

/-- What the walk comes to, below its first page. -/
theorem page_walk_first {all : List ρ} (hkeys : (all.map key).Nodup) (p q : ρ → Bool) (k : Nat) :
    page key (all.filter fun r => p r || q r && k ≤ countBelow key (all.filter p) r) k
      = page key (all.filter p) k := by
  rw [page_filter_eq_iff hkeys]
  intro r _ hcount
  rw [decide_eq_false (not_le_of_gt hcount), Bool.and_false, Bool.or_false]

/-- **A walk is one page.** A full first page of the rows in `p`, then the
rows of a larger `q` past its last row, are the first rows of what the
walk comes to: the rows in `p`, and those in `q` with a page of `p` before
them. -/
theorem page_append_filter {all : List ρ} (hkeys : (all.map key).Nodup) {p q : ρ → Bool}
    (hpq : ∀ r, p r = true → q r = true) {k : Nat} (m : Nat)
    (hlast : (page key (all.filter p) k).getLast? = some x)
    (hfull : (page key (all.filter p) k).length = k) :
    page key (all.filter p) k ++ page key ((all.filter q).filter fun r => key x < key r) m
      = page key (all.filter fun r => p r || q r && k ≤ countBelow key (all.filter p) r)
          (k + m : Nat) := by
  have hkeys' : ∀ p : ρ → Bool, ((all.filter p).map key).Nodup :=
    fun p => hkeys.sublist (List.filter_sublist.map key)
  have hupto : ((all.filter p).filter fun s => key s ≤ key x).length = k :=
    (length_filter_le_getLast (hkeys' p) hlast).trans hfull
  have hfirst := page_walk_first hkeys p q k
  have hrest : (all.filter q).filter (fun r => decide (key x < key r))
      = (all.filter fun r => p r || q r && k ≤ countBelow key (all.filter p) r).filter
          fun r => decide (key x < key r) := by
    rw [List.filter_filter, List.filter_filter]
    refine List.filter_congr fun r _ => ?_
    by_cases hxr : key x < key r
    · have hpage : k ≤ countBelow key (all.filter p) r := by
        rw [← hupto]
        refine (List.monotone_filter_right _ fun s hs => ?_).length_le
        rw [decide_eq_true_eq] at hs ⊢
        exact lt_of_le_of_lt hs hxr
      rw [decide_eq_true hpage, Bool.and_true]
      cases hp : p r with
      | true => rw [hpq r hp, Bool.or_true]
      | false => rw [Bool.false_or]
    · rw [decide_eq_false hxr, Bool.false_and, Bool.false_and]
  rw [hrest, ← hfirst]
  rw [← hfirst] at hlast
  exact page_append (hkeys' _) m hlast

/-! ## Walking from page to page -/

/-- `seen` is what `M` holds up to `c`, in key order. -/
structure Seen (key : ρ → κ) (M : ρ → Prop) (seen : List ρ) (c : κ) : Prop where
  strict : seen.Pairwise fun a b => key a < key b
  sound : ∀ r ∈ seen, M r ∧ key r ≤ c
  complete : ∀ r, M r → key r ≤ c → r ∈ seen

variable {M M' : ρ → Prop} {seen : List ρ} {c : κ}

/-- Rows that appear past the walk do not concern what was walked. -/
theorem Seen.grow (h : Seen key M seen c) (hsub : ∀ r, M r → M' r)
    (hnew : ∀ r, M' r → M r ∨ c < key r) : Seen key M' seen c where
  strict := h.strict
  sound := fun r hr => ⟨hsub r (h.sound r hr).1, (h.sound r hr).2⟩
  complete := fun r hr hle =>
    (hnew r hr).elim (fun hM => h.complete r hM hle) fun hlt => absurd hle (not_le_of_gt hlt)

/-- The first page of a walk. -/
theorem Seen.first (hkeys : (rows.map key).Nodup) (hrows : ∀ r, r ∈ rows ↔ M r)
    (hlast : (page key rows n).getLast? = some x) : Seen key M (page key rows n) (key x) where
  strict := page_strict hkeys
  sound := fun r hr => ⟨(hrows r).mp (mem_of_mem_page hr), key_le_getLast hkeys hlast hr⟩
  complete := fun r hr hle =>
    mem_page_of_le hkeys ((hrows r).mpr hr) (List.mem_of_getLast? hlast) hle

theorem Seen.strict_append (h : Seen key M seen c) (hkeys : (rows.map key).Nodup)
    (hrows : ∀ r, r ∈ rows ↔ M r ∧ c < key r) :
    (seen ++ page key rows n).Pairwise fun a b => key a < key b := by
  refine List.pairwise_append.mpr ⟨h.strict, page_strict hkeys, ?_⟩
  intro a ha b hb
  have hb' := (hrows b).mp (mem_of_mem_page hb)
  exact lt_of_le_of_lt (h.sound a ha).2 hb'.2

theorem Seen.sound_append (h : Seen key M seen c) (hrows : ∀ r, r ∈ rows ↔ M r ∧ c < key r) :
    ∀ r ∈ seen ++ page key rows n, M r := by
  intro r hr
  rcases List.mem_append.mp hr with hin | hin
  · exact (h.sound r hin).1
  · exact ((hrows r).mp (mem_of_mem_page hin)).1

/-- A page of the rows past `c` takes the walk to the page's last key. -/
theorem Seen.append (h : Seen key M seen c) (hkeys : (rows.map key).Nodup)
    (hrows : ∀ r, r ∈ rows ↔ M r ∧ c < key r)
    (hlast : (page key rows n).getLast? = some x) :
    Seen key M (seen ++ page key rows n) (key x) where
  strict := h.strict_append hkeys hrows
  sound := by
    intro r hr
    have hx := (hrows x).mp (mem_of_mem_page (List.mem_of_getLast? hlast))
    refine ⟨h.sound_append hrows r hr, ?_⟩
    rcases List.mem_append.mp hr with hin | hin
    · exact le_of_lt (lt_of_le_of_lt (h.sound r hin).2 hx.2)
    · exact key_le_getLast hkeys hlast hin
  complete := by
    intro r hr hle
    rcases le_or_gt (key r) c with hold | hnew
    · exact List.mem_append_left _ (h.complete r hr hold)
    · exact List.mem_append_right _
        (mem_page_of_le hkeys ((hrows r).mpr ⟨hr, hnew⟩) (List.mem_of_getLast? hlast) hle)

/-- A page shorter than its limit ends the walk with nothing left. -/
theorem Seen.append_short (h : Seen key M seen c)
    (hrows : ∀ r, r ∈ rows ↔ M r ∧ c < key r) (hshort : ((page key rows n).length : Int) < n) :
    ∀ r, M r → r ∈ seen ++ page key rows n := by
  intro r hr
  rcases le_or_gt (key r) c with hold | hnew
  · exact List.mem_append_left _ (h.complete r hr hold)
  · exact List.mem_append_right _ (mem_page_of_short hshort ((hrows r).mpr ⟨hr, hnew⟩))

end Keyset
