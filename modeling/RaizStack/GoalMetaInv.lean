import RaizStack.Fallible
import RaizStack.Register
import RaizStack.GoalMeta

/-!
# The registry is one list that only grows

Read through `Register.Represents`, the three storage keys of the
contract are a list of goals with pairwise different accounts. A call
that returns appends one valid goal or changes no value at all
(`Outcome`); a call that faults, a later ledger and a restoration change
none either. Everything said about ids, accounts and immutability is said
of the list.
-/

namespace RaizStack

variable {Addr : Type}

/-! ## The list behind the storage -/

/-- What a stored goal had to pass. -/
structure Goal.Valid (g : Goal Addr) : Prop where
  viewKey : g.viewKey.length = viewKeyLen
  target : 0 < g.target
  deadline : g.createdAt < g.deadline

/-- The storage stands for the list `gs`. -/
structure Registry (c : GoalMeta Addr) (gs : List (Goal Addr)) : Prop where
  represents : Register.Represents Goal.goalAccount c.goal? c.idOf? c.goalCount gs
  valid : ∀ g ∈ gs, g.Valid

/-- Two contracts with the same values. -/
structure SameValues (c c' : GoalMeta Addr) : Prop where
  goal_eq : c'.goal? = c.goal?
  idOf_eq : c'.idOf? = c.idOf?
  count_eq : c'.goalCount = c.goalCount

theorem Registry.congr {c c' : GoalMeta Addr} {gs : List (Goal Addr)} (h : Registry c gs)
    (hsame : SameValues c c') : Registry c' gs where
  represents := by
    rw [hsame.goal_eq, hsame.idOf_eq, hsame.count_eq]
    exact h.represents
  valid := h.valid

/-- The list behind the storage continues `gs`. -/
def Grows (gs : List (Goal Addr)) (c : GoalMeta Addr) : Prop :=
  ∃ gs', gs <+: gs' ∧ Registry c gs'

theorem Registry.grows {c : GoalMeta Addr} {gs : List (Goal Addr)} (h : Registry c gs) :
    Grows gs c :=
  ⟨gs, List.prefix_rfl, h⟩

/-- The three storage keys agree with each other and every goal is valid. -/
structure Consistent (c : GoalMeta Addr) : Prop where
  ids : ∀ i, (c.goal? i).isSome ↔ i < c.goalCount
  index : ∀ a i, c.idOf? a = some i ↔ ∃ g, c.goal? i = some g ∧ g.goalAccount = a
  unique : ∀ i j g g', c.goal? i = some g → c.goal? j = some g' →
    g.goalAccount = g'.goalAccount → i = j
  valid : ∀ i g, c.goal? i = some g →
    g.viewKey.length = 64 ∧ 0 < g.target ∧ g.createdAt < g.deadline

theorem Registry.consistent {c : GoalMeta Addr} {gs : List (Goal Addr)} (h : Registry c gs) :
    Consistent c where
  ids := h.represents.isSome_iff
  index := h.represents.index_get
  unique := fun _ _ _ _ hg hg' => h.represents.key_inj hg hg'
  valid := by
    intro i g hg
    rw [h.represents.get_eq] at hg
    have hvalid := h.valid g (List.mem_of_getElem? hg)
    exact ⟨hvalid.viewKey, hvalid.target, hvalid.deadline⟩

/-! ## What the operations do -/

variable [DecidableEq Addr] {cfg : Rent.Config} {now : Ledger}

/-- Rent changes no value. -/
theorem sameValues_extendAll {c c' : GoalMeta Addr} {id : Nat} {a : Addr}
    (h : c.extendAll cfg now id a = .ok c') : SameValues c c' := by
  obtain ⟨goals, hgoals, hrest⟩ := Fallible.bind_eq_ok.mp h
  obtain ⟨index, hindex, hok⟩ := Fallible.bind_eq_ok.mp hrest
  obtain rfl := Except.ok.inj hok
  exact ⟨Rent.value_extendTtl (Fallible.mapError_eq_ok.mp hgoals),
    Rent.value_extendTtl (Fallible.mapError_eq_ok.mp hindex), rfl⟩

/-- The writes of a new goal, at the next id. -/
theorem store_ok {c c' : GoalMeta Addr} {g : Goal Addr} {id : Nat}
    (h : c.store cfg now g = .ok (id, c')) :
    id = c.goalCount ∧ c'.goalCount = c.goalCount + 1
      ∧ c'.goal? = Function.update c.goal? c.goalCount (some g)
      ∧ c'.idOf? = Function.update c.idOf? g.goalAccount (some c.goalCount) := by
  obtain ⟨goals, hgoals, hrest⟩ := Fallible.bind_eq_ok.mp h
  obtain ⟨index, hindex, hrest⟩ := Fallible.bind_eq_ok.mp hrest
  split at hrest
  · cases hrest
  · obtain ⟨c₁, hext, hok⟩ := Fallible.bind_eq_ok.mp hrest
    have hsame := sameValues_extendAll hext
    obtain ⟨rfl, rfl⟩ := Prod.mk.inj (Except.ok.inj hok)
    refine ⟨rfl, hsame.count_eq, ?_, ?_⟩
    · exact hsame.goal_eq.trans (Rent.value_write (Fallible.mapError_eq_ok.mp hgoals))
    · exact hsame.idOf_eq.trans (Rent.value_write (Fallible.mapError_eq_ok.mp hindex))

/-- A call that created a goal: every guard passed and its account had none. -/
theorem createGoal_ok {auths : Addr → Bool} {c c' : GoalMeta Addr} {admin account : Addr}
    {name : String} {target : Int} {deadline id : Nat} {viewKey : List UInt8}
    (h : c.createGoal cfg now auths admin name target deadline account viewKey = .ok (id, c')) :
    ∃ g : Goal Addr, g.Valid ∧ g.goalAccount = account ∧ auths admin = true
      ∧ c.idOf? account = none ∧ c.store cfg now g = .ok (id, c') := by
  unfold GoalMeta.createGoal at h
  split at h
  · cases h
  split at h
  · cases h
  split at h
  · cases h
  split at h
  · cases h
  rename_i hauth hkey hdeadline htarget
  obtain ⟨r, hread, hrest⟩ := Fallible.bind_eq_ok.mp h
  cases r with
  | some i => cases hrest
  | none =>
      refine ⟨_, ⟨?_, ?_, ?_⟩, rfl, ?_, ?_, hrest⟩
      · exact not_not.mp hkey
      · dsimp only
        omega
      · dsimp only
        omega
      · exact not_not.mp hauth
      · exact (Rent.read_eq_value (Fallible.mapError_eq_ok.mp hread)).symm

theorem recordHarvest_ok {auths : Addr → Bool} {c c' : GoalMeta Addr} {id : Nat} {memo : String}
    (h : c.recordHarvest cfg now auths id memo = .ok c') : SameValues c c' := by
  obtain ⟨g, -, hrest⟩ := Fallible.bind_eq_ok.mp h
  split at hrest
  · cases hrest
  · obtain ⟨c₁, hext, hok⟩ := Fallible.bind_eq_ok.mp hrest
    obtain rfl := Except.ok.inj hok
    have hsame := sameValues_extendAll hext
    exact ⟨hsame.goal_eq, hsame.idOf_eq, hsame.count_eq⟩

/-! ## The list only grows -/

/-- A call that returned is one of the two operations, returned. -/
theorem run_ok {auths : Addr → Bool} {s : GoalChain Addr} {call : GoalCall Addr}
    {c : GoalMeta Addr} (h : s.run cfg auths call = .ok c) :
    (∃ admin name target deadline account viewKey id,
      call = .createGoal admin name target deadline account viewKey
        ∧ s.contract.createGoal cfg s.ledger auths admin name target deadline account viewKey
          = .ok (id, c))
      ∨ ∃ id memo, call = .recordHarvest id memo
          ∧ s.contract.recordHarvest cfg s.ledger auths id memo = .ok c := by
  unfold GoalChain.run at h
  split at h
  · cases h
  cases call with
  | createGoal admin name target deadline account viewKey =>
      obtain ⟨⟨id, c'⟩, hcreate, rfl⟩ := Fallible.map_eq_ok.mp h
      exact .inl ⟨admin, name, target, deadline, account, viewKey, id, rfl, hcreate⟩
  | recordHarvest id memo => exact .inr ⟨id, memo, rfl, h⟩

theorem Registry.run {auths : Addr → Bool} {s : GoalChain Addr} {call : GoalCall Addr}
    {gs : List (Goal Addr)} {c : GoalMeta Addr} (h : Registry s.contract gs)
    (hrun : s.run cfg auths call = .ok c) : Grows gs c := by
  rcases run_ok hrun with ⟨_, _, _, _, _, _, id, -, hcreate⟩ | ⟨id, memo, -, hharvest⟩
  · obtain ⟨g, hvalid, rfl, -, hfresh, hstore⟩ := createGoal_ok hcreate
    obtain ⟨-, hcount, hgoal, hid⟩ := store_ok hstore
    refine ⟨gs ++ [g], List.prefix_append _ _, ?_, ?_⟩
    · rw [hcount, hgoal, hid]
      exact h.represents.append hfresh
    · intro x hx
      rcases List.mem_append.mp hx with hold | hnew
      · exact h.valid x hold
      · obtain rfl := List.mem_singleton.mp hnew
        exact hvalid
  · exact (h.congr (recordHarvest_ok hharvest)).grows

theorem Registry.step {s t : GoalChain Addr} {act : GoalAct Addr} {gs : List (Goal Addr)}
    (h : Registry s.contract gs) (hst : s.next cfg act = some t) : Grows gs t.contract := by
  cases act with
  | call auths call =>
      simp only [GoalChain.next] at hst
      split at hst
      · rename_i c hrun
        obtain rfl := Option.some.inj hst
        exact h.run hrun
      · obtain rfl := Option.some.inj hst
        exact h.grows
  | close ledger =>
      simp only [GoalChain.next] at hst
      split at hst
      · obtain rfl := Option.some.inj hst
        exact h.grows
      · cases hst
  | restoreGoal id =>
      obtain rfl := Option.some.inj hst
      have hsame : SameValues s.contract { s.contract with
          goals := Rent.restore cfg s.ledger.sequence s.contract.goals id } :=
        ⟨Rent.value_restore _ _ _ _, rfl, rfl⟩
      exact (h.congr hsame).grows
  | restoreIndex a =>
      obtain rfl := Option.some.inj hst
      have hsame : SameValues s.contract { s.contract with
          goalByAccount := Rent.restore cfg s.ledger.sequence s.contract.goalByAccount a } :=
        ⟨rfl, Rent.value_restore _ _ _ _, rfl⟩
      exact (h.congr hsame).grows
  | restoreInstance =>
      obtain rfl := Option.some.inj hst
      exact ⟨gs, List.prefix_rfl, h.represents, h.valid⟩

/-- The steps of a chain with the contract on it. -/
def goalStep (cfg : Rent.Config) : GoalChain Addr → GoalAct Addr → GoalChain Addr → Prop :=
  Lts.ofNext (fun _ _ => True) fun s act => s.next cfg act

/-- A chain on which the contract was just deployed. -/
def Deployed (s : GoalChain Addr) : Prop :=
  ∃ n, s.contract = .deployed n

theorem registry_reach {s : GoalChain Addr} (h : Lts.Reach Deployed (goalStep cfg) s) :
    ∃ gs, Registry s.contract gs := by
  refine h.invariant (I := fun s => ∃ gs, Registry s.contract gs) ?_ ?_
  · rintro s ⟨n, hdep⟩
    refine ⟨[], ?_, nofun⟩
    rw [hdep]
    exact Register.Represents.empty
  · rintro s act t - ⟨gs, hreg⟩ ⟨-, hst⟩
    obtain ⟨gs', -, hreg'⟩ := hreg.step hst
    exact ⟨gs', hreg'⟩

theorem grows_steps {s t : GoalChain Addr} (hs : Lts.Reach Deployed (goalStep cfg) s)
    {gs : List (Goal Addr)} (hreg : Registry s.contract gs) (h : Lts.Steps (goalStep cfg) s t) :
    Grows gs t.contract := by
  refine h.invariant (I := fun t => Grows gs t.contract) ?_ hs hreg.grows
  rintro s act t - ⟨gs₁, hle, hreg₁⟩ ⟨-, hst⟩
  obtain ⟨gs₂, hle', hreg₂⟩ := hreg₁.step hst
  exact ⟨gs₂, hle.trans hle', hreg₂⟩

/-- **The registry.** In every state of every run of calls by anyone, with
any arguments and signatures, the ids with a goal are those below the
counter, accounts and ids determine each other, every goal is valid, and
a goal once stored is the same in every later state. -/
theorem registry_consistent {s : GoalChain Addr}
    (h : Lts.Reach Deployed (goalStep cfg) s) :
    Consistent s.contract
      ∧ ∀ t, Lts.Steps (goalStep cfg) s t → ∀ i g, s.contract.goal? i = some g →
          t.contract.goal? i = some g := by
  obtain ⟨gs, hreg⟩ := registry_reach h
  refine ⟨hreg.consistent, ?_⟩
  intro t ht i g hg
  obtain ⟨gs', hle, hreg'⟩ := grows_steps h hreg ht
  exact hreg.represents.get_of_initial hreg'.represents hle hg

/-- Two goals of two admins on a testnet-like chain, and between them a
second goal for the account of the first, which is turned down. -/
theorem registry_consistent_two :
    ∃ s : GoalChain Nat, Lts.Reach Deployed (goalStep ⟨120960, 3110400⟩) s
      ∧ s.contract.goalCount = 2 ∧ s.contract.idOf? 42 = some 0 ∧ s.contract.idOf? 43 = some 1
      ∧ Consistent s.contract
      ∧ ∀ t, Lts.Steps (goalStep ⟨120960, 3110400⟩) s t →
          (t.contract.goal? 0).map Goal.admin = some 7
            ∧ (t.contract.goal? 1).map Goal.admin = some 9 := by
  have hstart : Lts.Reach Deployed (goalStep ⟨120960, 3110400⟩)
      ({ ledger := ⟨3950042, 1785789293⟩, contract := .deployed 4468442 } : GoalChain Nat) :=
    .init ⟨4468442, rfl⟩
  have hreach := hstart
    |>.next (.call (fun a => a = 7)
      (.createGoal 7 "Techo" 5000 1790000000 42 (List.replicate 64 1))) trivial rfl
    |>.next (.call (fun a => a = 9)
      (.createGoal 9 "Otro techo" 900 1790000000 42 (List.replicate 64 2))) trivial rfl
    |>.next (.call (fun a => a = 9)
      (.createGoal 9 "Pozo" 800 1790000000 43 (List.replicate 64 2))) trivial rfl
  obtain ⟨hcons, hlater⟩ := registry_consistent hreach
  refine ⟨_, hreach, rfl, rfl, rfl, hcons, ?_⟩
  intro t ht
  rw [hlater t ht 0 _ rfl, hlater t ht 1 _ rfl]
  exact ⟨rfl, rfl⟩

end RaizStack
