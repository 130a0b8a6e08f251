import RaizStack.GoalMetaInv

/-!
# The rent of the registry

Three storage entries carry a goal: the goal, its account's entry in the
index, and the shared instance. If one of them expired before the others
an account could be reused or a goal become unreadable, so the invariant
relates the three lifetimes over all goals at once: the two entries of a
goal always end together, and not after the instance. What an operation
does to a lifetime is `Rent.extended` and nothing else (`extendAll_live`,
`store_live`); the invariant needs of it only that it is monotone under
the policy's constants.
-/

namespace RaizStack

variable {Addr : Type}

/-! ## The policy -/

/-- The network the constants were chosen for: a fresh entry is below the
threshold, and an extension reaches its target. -/
structure TtlPolicy (cfg : Rent.Config) : Prop where
  minimum : cfg.minPersistentTtl ≤ ttlExtendTo
  maximum : ttlExtendTo ≤ cfg.maxEntryTtl
  raises : ∀ now n, n - now ≤ ttlThreshold →
    Rent.extended cfg now ttlThreshold ttlExtendTo n = now + ttlExtendTo

/-- Nobody restores an entry; an extension from outside is no action at all. -/
def Unaided (_ : GoalChain Addr) : GoalAct Addr → Prop
  | .call _ _ => True
  | .close _ => True
  | .restoreGoal _ => False
  | .restoreIndex _ => False
  | .restoreInstance => False

/-- A lifetime after the bump both operations make. -/
def bumped (cfg : Rent.Config) (now : Ledger) (n : Nat) : Nat :=
  Rent.extended cfg now.sequence ttlThreshold ttlExtendTo n

section Policy

variable {cfg : Rent.Config} {now : Ledger}

theorem TtlPolicy.bumped_eq (h : TtlPolicy cfg) (n : Nat) :
    bumped cfg now n = max n (now.sequence + ttlExtendTo) := by
  unfold bumped
  by_cases hn : n - now.sequence ≤ ttlThreshold
  · rw [h.raises _ _ hn]
    unfold ttlThreshold at hn
    omega
  · rw [Rent.extended, if_neg hn]
    unfold ttlThreshold at hn
    omega

/-- A fresh entry ends exactly at the target. -/
theorem TtlPolicy.bumped_fresh (h : TtlPolicy cfg) :
    bumped cfg now (now.sequence + cfg.minPersistentTtl - 1) = now.sequence + ttlExtendTo := by
  have hmin := h.minimum
  rw [h.bumped_eq]
  omega

theorem TtlPolicy.bumped_mono (h : TtlPolicy cfg) {n m : Nat} (hle : n ≤ m) :
    bumped cfg now n ≤ bumped cfg now m := by
  rw [h.bumped_eq, h.bumped_eq]
  omega

theorem TtlPolicy.le_bumped (h : TtlPolicy cfg) (n : Nat) :
    now.sequence + 518400 ≤ bumped cfg now n := by
  rw [h.bumped_eq]
  exact Nat.le_max_right _ _

end Policy

/-! ## What the operations do to the lifetimes -/

variable [DecidableEq Addr] {cfg : Rent.Config} {now : Ledger}

/-- The bump reaches the goal, its index entry and the instance. -/
theorem extendAll_live {c c' : GoalMeta Addr} {id : Nat} {a : Addr}
    (h : c.extendAll cfg now id a = .ok c') :
    ∃ n m, Rent.liveUntil c.goals id = some n ∧ Rent.liveUntil c.goalByAccount a = some m
      ∧ Rent.liveUntil c'.goals
          = Function.update (Rent.liveUntil c.goals) id (some (bumped cfg now n))
      ∧ Rent.liveUntil c'.goalByAccount
          = Function.update (Rent.liveUntil c.goalByAccount) a (some (bumped cfg now m))
      ∧ c'.instanceLiveUntil = bumped cfg now c.instanceLiveUntil := by
  obtain ⟨goals, hgoals, hrest⟩ := Fallible.bind_eq_ok.mp h
  obtain ⟨index, hindex, hok⟩ := Fallible.bind_eq_ok.mp hrest
  obtain rfl := Except.ok.inj hok
  obtain ⟨n, hn, hlive⟩ := Rent.liveUntil_extendTtl (Fallible.mapError_eq_ok.mp hgoals)
  obtain ⟨m, hm, hlive'⟩ := Rent.liveUntil_extendTtl (Fallible.mapError_eq_ok.mp hindex)
  exact ⟨n, m, hn, hm, hlive, hlive', rfl⟩

/-- A new goal's two entries get the bumped lifetime of a fresh entry. -/
theorem store_live {c c' : GoalMeta Addr} {g : Goal Addr} {id : Nat}
    (h : c.store cfg now g = .ok (id, c')) (hgoal : c.goal? c.goalCount = none)
    (hindex : c.idOf? g.goalAccount = none) :
    Rent.liveUntil c'.goals = Function.update (Rent.liveUntil c.goals) c.goalCount
        (some (bumped cfg now (now.sequence + cfg.minPersistentTtl - 1)))
      ∧ Rent.liveUntil c'.goalByAccount
        = Function.update (Rent.liveUntil c.goalByAccount) g.goalAccount
            (some (bumped cfg now (now.sequence + cfg.minPersistentTtl - 1)))
      ∧ c'.instanceLiveUntil = bumped cfg now c.instanceLiveUntil := by
  obtain ⟨goals, hgoals, hrest⟩ := Fallible.bind_eq_ok.mp h
  obtain ⟨index, hidx, hrest⟩ := Fallible.bind_eq_ok.mp hrest
  split at hrest
  · cases hrest
  · obtain ⟨c₁, hext, hok⟩ := Fallible.bind_eq_ok.mp hrest
    obtain ⟨rfl, rfl⟩ := Prod.mk.inj (Except.ok.inj hok)
    obtain ⟨n, m, hn, hm, hlive, hlive', hinst⟩ := extendAll_live hext
    have hwrite := Rent.liveUntil_write (Fallible.mapError_eq_ok.mp hgoals)
    have hwrite' := Rent.liveUntil_write (Fallible.mapError_eq_ok.mp hidx)
    rw [Rent.liveUntil_eq_none hgoal, Option.getD_none] at hwrite
    rw [Rent.liveUntil_eq_none hindex, Option.getD_none] at hwrite'
    -- both writes made a fresh entry, so both bumps start from its lifetime
    rw [hwrite, Function.update_self] at hn
    rw [hwrite', Function.update_self] at hm
    obtain rfl := Option.some.inj hn
    obtain rfl := Option.some.inj hm
    refine ⟨?_, ?_, hinst⟩
    · rw [show (c₁.publish _).goals = c₁.goals from rfl, hlive, hwrite, Function.update_idem]
    · rw [show (c₁.publish _).goalByAccount = c₁.goalByAccount from rfl, hlive', hwrite',
        Function.update_idem]

/-- A harvest of a stored goal bumps the entries of that goal. -/
theorem recordHarvest_live {auths : Addr → Bool} {c c' : GoalMeta Addr} {id : Nat} {memo : String}
    (h : c.recordHarvest cfg now auths id memo = .ok c') :
    ∃ g c₁, c.goal? id = some g ∧ c.extendAll cfg now id g.goalAccount = .ok c₁
      ∧ c' = c₁.publish { kind := "harvest", id := id, data := .memo memo } := by
  obtain ⟨g, hget, hrest⟩ := Fallible.bind_eq_ok.mp h
  split at hrest
  · cases hrest
  · obtain ⟨c₁, hext, hok⟩ := Fallible.bind_eq_ok.mp hrest
    refine ⟨g, c₁, ?_, hext, (Except.ok.inj hok).symm⟩
    obtain ⟨r, hread, hr⟩ := Fallible.bind_eq_ok.mp hget
    have hvalue := Rent.read_eq_value (Fallible.mapError_eq_ok.mp hread)
    cases r with
    | none => cases hr
    | some g' =>
        obtain rfl := Except.ok.inj hr
        exact hvalue.symm

/-! ## Nothing is shortened -/

/-- Every entry of `c` is in `c'` and ends no earlier there. -/
structure NoneShortened (c c' : GoalMeta Addr) : Prop where
  goals : Rent.Outlived c.goals c'.goals
  index : Rent.Outlived c.goalByAccount c'.goalByAccount
  instance_le : c.instanceLiveUntil ≤ c'.instanceLiveUntil

omit [DecidableEq Addr] in
theorem NoneShortened.refl (c : GoalMeta Addr) : NoneShortened c c :=
  ⟨.refl _, .refl _, Nat.le_refl _⟩

omit [DecidableEq Addr] in
theorem NoneShortened.trans {c c' c'' : GoalMeta Addr} (h : NoneShortened c c')
    (h' : NoneShortened c' c'') : NoneShortened c c'' :=
  ⟨h.goals.trans h'.goals, h.index.trans h'.index, Nat.le_trans h.instance_le h'.instance_le⟩

theorem NoneShortened.extendAll {c c' : GoalMeta Addr} {id : Nat} {a : Addr}
    (h : c.extendAll cfg now id a = .ok c') : NoneShortened c c' := by
  obtain ⟨goals, hgoals, hrest⟩ := Fallible.bind_eq_ok.mp h
  obtain ⟨index, hindex, hok⟩ := Fallible.bind_eq_ok.mp hrest
  obtain rfl := Except.ok.inj hok
  exact ⟨.extendTtl (Fallible.mapError_eq_ok.mp hgoals),
    .extendTtl (Fallible.mapError_eq_ok.mp hindex), Rent.le_extended _ _ _ _ _⟩

theorem NoneShortened.store {c c' : GoalMeta Addr} {g : Goal Addr} {id : Nat}
    (h : c.store cfg now g = .ok (id, c')) : NoneShortened c c' := by
  obtain ⟨goals, hgoals, hrest⟩ := Fallible.bind_eq_ok.mp h
  obtain ⟨index, hindex, hrest⟩ := Fallible.bind_eq_ok.mp hrest
  split at hrest
  · cases hrest
  · obtain ⟨c₁, hext, hok⟩ := Fallible.bind_eq_ok.mp hrest
    obtain ⟨rfl, rfl⟩ := Prod.mk.inj (Except.ok.inj hok)
    have hext := NoneShortened.extendAll hext
    exact ⟨Rent.Outlived.trans (.write (Fallible.mapError_eq_ok.mp hgoals)) hext.goals,
      Rent.Outlived.trans (.write (Fallible.mapError_eq_ok.mp hindex)) hext.index,
      hext.instance_le⟩

theorem NoneShortened.run {auths : Addr → Bool} {s : GoalChain Addr} {call : GoalCall Addr}
    {c : GoalMeta Addr} (h : s.run cfg auths call = .ok c) : NoneShortened s.contract c := by
  rcases run_ok h with ⟨_, _, _, _, _, _, id, -, hcreate⟩ | ⟨id, memo, -, hharvest⟩
  · obtain ⟨g, -, -, -, -, hstore⟩ := createGoal_ok hcreate
    exact .store hstore
  · obtain ⟨g, c₁, -, hext, rfl⟩ := recordHarvest_live hharvest
    have hext := NoneShortened.extendAll hext
    exact ⟨hext.goals, hext.index, hext.instance_le⟩

/-! ## In step -/

/-- The two entries of goal `i` of account `a` end together at `n`, and
the instance does not end before them. -/
structure EndTogether (c : GoalMeta Addr) (i : Nat) (a : Addr) (n : Nat) : Prop where
  goal : Rent.liveUntil c.goals i = some n
  index : Rent.liveUntil c.goalByAccount a = some n
  instance_le : n ≤ c.instanceLiveUntil

/-- Every stored goal's entries end together. -/
def RentInStep (c : GoalMeta Addr) : Prop :=
  ∀ i g, c.goal? i = some g → ∃ n, EndTogether c i g.goalAccount n

/-- The bump sets the two lifetimes of its goal, keeps those of the others
and moves the instance along. -/
theorem RentInStep.bump {c c' : GoalMeta Addr} {id : Nat} {a : Addr} {n : Nat}
    (hpolicy : TtlPolicy cfg) (h : RentInStep c)
    (hn : n ≤ c.instanceLiveUntil ∨ bumped cfg now n = now.sequence + ttlExtendTo)
    (hother : ∀ i g, c'.goal? i = some g → i ≠ id → c.goal? i = some g ∧ g.goalAccount ≠ a)
    (hself : ∀ g, c'.goal? id = some g → g.goalAccount = a)
    (hgoals : Rent.liveUntil c'.goals
      = Function.update (Rent.liveUntil c.goals) id (some (bumped cfg now n)))
    (hindex : Rent.liveUntil c'.goalByAccount
      = Function.update (Rent.liveUntil c.goalByAccount) a (some (bumped cfg now n)))
    (hinst : c'.instanceLiveUntil = bumped cfg now c.instanceLiveUntil) :
    RentInStep c' ∧ EndTogether c' id a (bumped cfg now n) := by
  have hle : bumped cfg now n ≤ c'.instanceLiveUntil := by
    rw [hinst]
    rcases hn with hn | hn
    · exact hpolicy.bumped_mono hn
    · rw [hn]
      exact hpolicy.le_bumped _
  have htogether : EndTogether c' id a (bumped cfg now n) :=
    ⟨by rw [hgoals, Function.update_self], by rw [hindex, Function.update_self], hle⟩
  refine ⟨?_, htogether⟩
  intro i g hg
  by_cases hi : i = id
  · subst hi
    exact ⟨_, hself g hg ▸ htogether⟩
  · obtain ⟨hold, hne⟩ := hother i g hg hi
    obtain ⟨m, hm⟩ := h i g hold
    refine ⟨m, ?_, ?_, ?_⟩
    · rw [hgoals, Function.update_of_ne hi]
      exact hm.goal
    · rw [hindex, Function.update_of_ne hne]
      exact hm.index
    · rw [hinst]
      exact Nat.le_trans hm.instance_le (Rent.le_extended _ _ _ _ _)

/-- A created goal's entries join the others in step. -/
theorem RentInStep.createGoal {auths : Addr → Bool} {c c' : GoalMeta Addr} {admin account : Addr}
    {name : String} {target : Int} {deadline id : Nat} {viewKey : List UInt8}
    {gs : List (Goal Addr)} (hpolicy : TtlPolicy cfg) (hreg : Registry c gs) (h : RentInStep c)
    (hcreate : c.createGoal cfg now auths admin name target deadline account viewKey
      = .ok (id, c')) :
    RentInStep c' ∧ EndTogether c' id account (now.sequence + ttlExtendTo) := by
  obtain ⟨g, -, rfl, -, hfresh, hstore⟩ := createGoal_ok hcreate
  have hfree : c.goal? c.goalCount = none := by
    rw [Option.eq_none_iff_forall_ne_some]
    intro g' hg'
    have hlt := (hreg.consistent.ids c.goalCount).mp (by rw [hg']; rfl)
    omega
  obtain ⟨rfl, -, hgoal, -⟩ := store_ok hstore
  obtain ⟨hlive, hlive', hinst⟩ := store_live hstore hfree hfresh
  have hbump := RentInStep.bump hpolicy h (.inr hpolicy.bumped_fresh) ?_ ?_ hlive hlive' hinst
  · rwa [hpolicy.bumped_fresh] at hbump
  · intro i g' hg' hi
    rw [hgoal, Function.update_of_ne hi] at hg'
    refine ⟨hg', ?_⟩
    intro hsame
    -- the account was free, so no stored goal has it
    have hindexed := (hreg.consistent.index g.goalAccount i).mpr ⟨g', hg', hsame⟩
    rw [hfresh] at hindexed
    cases hindexed
  · intro g' hg'
    rw [hgoal, Function.update_self] at hg'
    obtain rfl := Option.some.inj hg'
    rfl

/-- A harvest renews one goal's entries together. -/
theorem RentInStep.recordHarvest {auths : Addr → Bool} {c c' : GoalMeta Addr} {id : Nat}
    {memo : String} {gs : List (Goal Addr)} (hpolicy : TtlPolicy cfg) (hreg : Registry c gs)
    (h : RentInStep c) (hharvest : c.recordHarvest cfg now auths id memo = .ok c') :
    RentInStep c' ∧ ∃ g n, c'.goal? id = some g ∧ EndTogether c' id g.goalAccount n
      ∧ now.sequence + ttlExtendTo ≤ n := by
  have hvalues := (recordHarvest_ok hharvest).goal_eq
  obtain ⟨g, c₁, hg, hext, rfl⟩ := recordHarvest_live hharvest
  obtain ⟨n, m, hn, hm, hlive, hlive', hinst⟩ := extendAll_live hext
  obtain ⟨n', hn'⟩ := h id g hg
  -- the entries were in step, so both bumps start from one lifetime
  obtain rfl := Option.some.inj (hn.symm.trans hn'.goal)
  obtain rfl := Option.some.inj (hm.symm.trans hn'.index)
  have hbump := RentInStep.bump hpolicy h (.inl hn'.instance_le) ?_ ?_ hlive hlive' hinst
  · -- publishing the event changes no entry
    exact ⟨fun i g' hg' => (hbump.1 i g' hg').imp fun _ h => ⟨h.goal, h.index, h.instance_le⟩,
      g, _, hvalues ▸ hg, ⟨hbump.2.goal, hbump.2.index, hbump.2.instance_le⟩,
      hpolicy.le_bumped _⟩
  · intro i g' hg' hi
    have hold : c.goal? i = some g' := hvalues ▸ hg'
    exact ⟨hold, fun hsame => hi (hreg.consistent.unique i id g' g hold hg hsame)⟩
  · intro g' hg'
    have hold : c.goal? id = some g' := hvalues ▸ hg'
    obtain rfl := Option.some.inj (hg.symm.trans hold)
    rfl

theorem RentInStep.run {auths : Addr → Bool} {s : GoalChain Addr} {call : GoalCall Addr}
    {c : GoalMeta Addr} {gs : List (Goal Addr)} (hpolicy : TtlPolicy cfg)
    (hreg : Registry s.contract gs) (h : RentInStep s.contract)
    (hrun : s.run cfg auths call = .ok c) : RentInStep c := by
  rcases run_ok hrun with ⟨_, _, _, _, _, _, id, -, hcreate⟩ | ⟨id, memo, -, hharvest⟩
  · exact (h.createGoal hpolicy hreg hcreate).1
  · exact (h.recordHarvest hpolicy hreg hharvest).1

/-! ## Over a run -/

theorem registry_unaided {s : GoalChain Addr}
    (h : Lts.Reach Deployed (Lts.During Unaided (goalStep cfg)) s) :
    ∃ gs, Registry s.contract gs :=
  registry_reach h.of_during

/-- One step leaves the entries in step and shortens none. -/
theorem rentInStep_next {s t : GoalChain Addr} {act : GoalAct Addr} {gs : List (Goal Addr)}
    (hpolicy : TtlPolicy cfg) (hreg : Registry s.contract gs) (h : RentInStep s.contract)
    (hact : Unaided s act) (hst : s.next cfg act = some t) :
    RentInStep t.contract ∧ NoneShortened s.contract t.contract := by
  cases act with
  | call auths call =>
      simp only [GoalChain.next] at hst
      split at hst
      · rename_i c hrun
        obtain rfl := Option.some.inj hst
        exact ⟨h.run hpolicy hreg hrun, .run hrun⟩
      · obtain rfl := Option.some.inj hst
        exact ⟨h, .refl _⟩
  | close ledger =>
      simp only [GoalChain.next] at hst
      split at hst
      · obtain rfl := Option.some.inj hst
        exact ⟨h, .refl _⟩
      · cases hst
  | restoreGoal id => exact hact.elim
  | restoreIndex a => exact hact.elim
  | restoreInstance => exact hact.elim

theorem rentInStep_reach (hpolicy : TtlPolicy cfg) {s : GoalChain Addr}
    (h : Lts.Reach Deployed (Lts.During Unaided (goalStep cfg)) s) : RentInStep s.contract := by
  refine h.invariant (I := fun s => RentInStep s.contract) ?_ ?_
  · rintro s ⟨n, hdep⟩ i g hg
    rw [hdep] at hg
    cases hg
  · rintro s act t hreach hin ⟨hact, -, hst⟩
    obtain ⟨gs, hreg⟩ := registry_unaided hreach
    exact (rentInStep_next hpolicy hreg hin hact hst).1

theorem noneShortened_steps (hpolicy : TtlPolicy cfg) {s t : GoalChain Addr}
    (hs : Lts.Reach Deployed (Lts.During Unaided (goalStep cfg)) s)
    (h : Lts.Steps (Lts.During Unaided (goalStep cfg)) s t) :
    NoneShortened s.contract t.contract := by
  refine h.invariant (I := fun t => NoneShortened s.contract t.contract) ?_ hs (.refl _)
  rintro u act v hreach hle ⟨hact, -, hst⟩
  obtain ⟨gs, hreg⟩ := registry_unaided hreach
  exact hle.trans (rentInStep_next hpolicy hreg (rentInStep_reach hpolicy hreach) hact hst).2

/-- **Rent.** In every state of every run of calls at later and later
ledgers, a goal and its index entry end at the same ledger and the
instance no earlier; a call that created or harvested a goal leaves all
three more than a month to live; and no later state has any entry ending
earlier. -/
theorem rent_in_step (hpolicy : TtlPolicy cfg) {s : GoalChain Addr}
    (hs : Lts.Reach Deployed (Lts.During Unaided (goalStep cfg)) s) :
    RentInStep s.contract
      ∧ (∀ auths admin name target deadline account viewKey id c,
          s.contract.createGoal cfg s.ledger auths admin name target deadline account viewKey
            = .ok (id, c) →
          ∃ n, EndTogether c id account n ∧ s.ledger.sequence + 518400 ≤ n)
      ∧ (∀ auths id memo c, s.contract.recordHarvest cfg s.ledger auths id memo = .ok c →
          ∃ g n, c.goal? id = some g ∧ EndTogether c id g.goalAccount n
            ∧ s.ledger.sequence + 518400 ≤ n)
      ∧ ∀ t, Lts.Steps (Lts.During Unaided (goalStep cfg)) s t →
          NoneShortened s.contract t.contract := by
  obtain ⟨gs, hreg⟩ := registry_unaided hs
  have hin := rentInStep_reach hpolicy hs
  refine ⟨hin, ?_, ?_, fun t => noneShortened_steps hpolicy hs⟩
  · intro auths admin name target deadline account viewKey id c hcreate
    exact ⟨_, (hin.createGoal hpolicy hreg hcreate).2, Nat.le_refl _⟩
  · intro auths id memo c hharvest
    exact (hin.recordHarvest hpolicy hreg hharvest).2

/-- The testnet's configuration. -/
theorem ttlPolicy_testnet : TtlPolicy ⟨120960, 3110400⟩ where
  minimum := by decide
  maximum := by decide
  raises := by
    intro now n hn
    rw [Rent.extended, if_pos hn]
    simp only [ttlThreshold, ttlExtendTo] at hn ⊢
    omega

/-- A goal created at ledger 100 and harvested 50 000 ledgers later. -/
theorem rent_in_step_harvested :
    ∃ s : GoalChain Nat,
      Lts.Reach Deployed (Lts.During Unaided (goalStep ⟨120960, 3110400⟩)) s
        ∧ RentInStep s.contract ∧ EndTogether s.contract 0 42 568500 := by
  have hstart : Lts.Reach Deployed (Lts.During Unaided (goalStep ⟨120960, 3110400⟩))
      ({ ledger := ⟨100, 1785789293⟩, contract := .deployed 121059 } : GoalChain Nat) :=
    .init ⟨121059, rfl⟩
  have hcreated := hstart.next_during (.call (fun a => a = 7)
    (.createGoal 7 "Techo" 5000 1790000000 42 (List.replicate 64 1))) trivial trivial rfl
  have hlater := hcreated.next_during (.close ⟨50100, 1786039293⟩) trivial trivial rfl
  have hharvested := hlater.next_during (.call (fun a => a = 7) (.recordHarvest 0 "cosecha"))
    trivial trivial rfl
  refine ⟨_, hharvested, (rent_in_step ttlPolicy_testnet hharvested).1, ?_⟩
  exact ⟨rfl, rfl, by decide⟩

end RaizStack
