import Mathlib.Data.List.Induction
import RaizStack.GoalMetaInv

/-!
# The events of `goal_meta` tell the registry

Storage is archived, the ledger forgets, the events stay: who reads the
log from its beginning knows how many goals there are and the account of
each, because `readLog` takes every event the contract ever publishes
(`registry_from_events`). No event is published without the signature of
the admin of its goal (`events_signed`).

One fact carries both: what a call that returned appends (`Publishes`).
-/

namespace RaizStack

variable {Addr : Type}

/-! ## Reading the log -/

/-- The accounts known so far, by id, and one more event. -/
def readEvent (accounts : List Addr) (e : GoalEvent Addr) : Option (List Addr) :=
  match e.data with
  | .account a =>
      if e.kind = "created" ∧ e.id = accounts.length then some (accounts ++ [a]) else none
  | .memo _ => if e.kind = "harvest" ∧ e.id < accounts.length then some accounts else none

def readLog (events : List (GoalEvent Addr)) : Option (List Addr) :=
  events.foldlM readEvent []

theorem readLog_concat {events : List (GoalEvent Addr)} {e : GoalEvent Addr}
    {accounts : List Addr} (h : readLog events = some accounts) :
    readLog (events ++ [e]) = readEvent accounts e := by
  rw [readLog, List.foldlM_append, ← readLog, h]
  simp

/-- The event of a new goal. -/
def createdEvent (id : Nat) (account : Addr) : GoalEvent Addr :=
  { kind := "created", id := id, data := .account account }

def harvestEventOf (id : Nat) (memo : String) : GoalEvent Addr :=
  { kind := "harvest", id := id, data := .memo memo }

theorem readEvent_created (accounts : List Addr) (a : Addr) :
    readEvent accounts (createdEvent accounts.length a) = some (accounts ++ [a]) :=
  if_pos ⟨rfl, rfl⟩

theorem readEvent_harvest {accounts : List Addr} {id : Nat} (memo : String)
    (h : id < accounts.length) : readEvent accounts (harvestEventOf id memo) = some accounts :=
  if_pos ⟨rfl, h⟩

/-! ## What a call appends -/

variable [DecidableEq Addr] {cfg : Rent.Config} {now : Ledger}

theorem events_extendAll {c c' : GoalMeta Addr} {id : Nat} {a : Addr}
    (h : c.extendAll cfg now id a = .ok c') : c'.events = c.events := by
  obtain ⟨goals, -, hrest⟩ := Fallible.bind_eq_ok.mp h
  obtain ⟨index, -, hok⟩ := Fallible.bind_eq_ok.mp hrest
  obtain rfl := Except.ok.inj hok
  rfl

/-- The writes of a new goal fit the counter and end with its event. -/
theorem events_store {c c' : GoalMeta Addr} {g : Goal Addr} {id : Nat}
    (h : c.store cfg now g = .ok (id, c')) :
    c.goalCount + 1 ≤ u32Max
      ∧ c'.events = c.events ++ [createdEvent c.goalCount g.goalAccount] := by
  obtain ⟨goals, -, hrest⟩ := Fallible.bind_eq_ok.mp h
  obtain ⟨index, -, hrest⟩ := Fallible.bind_eq_ok.mp hrest
  split at hrest
  · cases hrest
  · rename_i hfits
    obtain ⟨c₁, hext, hok⟩ := Fallible.bind_eq_ok.mp hrest
    obtain ⟨-, rfl⟩ := Prod.mk.inj (Except.ok.inj hok)
    refine ⟨Nat.le_of_not_lt hfits, ?_⟩
    rw [GoalMeta.publish, events_extendAll hext]
    rfl

omit [DecidableEq Addr] in
theorem getGoal_ok {c : GoalMeta Addr} {id : Nat} {g : Goal Addr}
    (h : c.getGoal now id = .ok g) : c.goal? id = some g := by
  obtain ⟨r, hread, hrest⟩ := Fallible.bind_eq_ok.mp h
  have hvalue := Rent.read_eq_value (Fallible.mapError_eq_ok.mp hread)
  cases r with
  | none => cases hrest
  | some g' =>
      cases hrest
      exact hvalue.symm

/-- The goal that `create_goal` stores is its caller's. -/
theorem createGoal_admin {auths : Addr → Bool} {c c' : GoalMeta Addr} {admin account : Addr}
    {name : String} {target : Int} {deadline id : Nat} {viewKey : List UInt8}
    (h : c.createGoal cfg now auths admin name target deadline account viewKey = .ok (id, c')) :
    ∃ g, c'.goal? c.goalCount = some g ∧ auths g.admin = true := by
  unfold GoalMeta.createGoal at h
  split at h
  · cases h
  split at h
  · cases h
  split at h
  · cases h
  split at h
  · cases h
  rename_i hauth _ _ _
  obtain ⟨r, hread, hstore⟩ := Fallible.bind_eq_ok.mp h
  cases r with
  | some i => cases hstore
  | none =>
      obtain ⟨-, -, hgoal, -⟩ := store_ok hstore
      have hnew := congrFun hgoal c.goalCount
      rw [Function.update_self] at hnew
      exact ⟨_, hnew, not_not.mp hauth⟩

/-- A call that returned: the event `e`, of one of the two kinds, signed by
the admin of its goal. -/
structure Publishes (auths : Addr → Bool) (c c' : GoalMeta Addr) (e : GoalEvent Addr) : Prop where
  events : c'.events = c.events ++ [e]
  signed : ∃ g, c'.goal? e.id = some g ∧ auths g.admin = true
  told : ∀ gs, Registry c gs → ∃ gs', Registry c' gs'
    ∧ readEvent (gs.map Goal.goalAccount) e = some (gs'.map Goal.goalAccount)
  fits : c.goalCount ≤ u32Max → c'.goalCount ≤ u32Max

theorem createGoal_publishes {auths : Addr → Bool} {c c' : GoalMeta Addr} {admin account : Addr}
    {name : String} {target : Int} {deadline id : Nat} {viewKey : List UInt8}
    (h : c.createGoal cfg now auths admin name target deadline account viewKey = .ok (id, c')) :
    Publishes auths c c' (createdEvent c.goalCount account) := by
  obtain ⟨g, hvalid, rfl, -, hfresh, hstore⟩ := createGoal_ok h
  obtain ⟨-, hcount, hgoal, hid⟩ := store_ok hstore
  obtain ⟨hfits, hevents⟩ := events_store hstore
  refine ⟨hevents, createGoal_admin h, fun gs hreg => ⟨gs ++ [g], ⟨?_, ?_⟩, ?_⟩, fun _ => ?_⟩
  · rw [hcount, hgoal, hid]
    exact hreg.represents.append hfresh
  · intro x hx
    rcases List.mem_append.mp hx with hold | hnew
    · exact hreg.valid x hold
    · obtain rfl := List.mem_singleton.mp hnew
      exact hvalid
  · have hlen : c.goalCount = (gs.map Goal.goalAccount).length := by
      rw [List.length_map]
      exact hreg.represents.count_eq
    rw [hlen, readEvent_created, List.map_append]
    rfl
  · rw [hcount]
    exact hfits

theorem recordHarvest_publishes {auths : Addr → Bool} {c c' : GoalMeta Addr} {id : Nat}
    {memo : String} (h : c.recordHarvest cfg now auths id memo = .ok c') :
    Publishes auths c c' (harvestEventOf id memo) := by
  have hsame := recordHarvest_ok h
  obtain ⟨g, hget, hrest⟩ := Fallible.bind_eq_ok.mp h
  have hg := getGoal_ok hget
  split at hrest
  · cases hrest
  rename_i hauth
  obtain ⟨c₁, hext, hok⟩ := Fallible.bind_eq_ok.mp hrest
  refine ⟨?_, ⟨g, ?_, not_not.mp hauth⟩, fun gs hreg => ⟨gs, hreg.congr hsame, ?_⟩, fun hfits => ?_⟩
  · rw [← Except.ok.inj hok, GoalMeta.publish, events_extendAll hext]
    rfl
  · rw [hsame.goal_eq]
    exact hg
  · refine readEvent_harvest memo ?_
    rw [List.length_map, ← hreg.represents.count_eq, ← hreg.represents.isSome_iff, hg]
    rfl
  · rw [hsame.count_eq]
    exact hfits

omit [DecidableEq Addr] in
/-- The event says what the call was. -/
def GoalCall.Tells : GoalCall Addr → GoalEvent Addr → Prop
  | .createGoal _ _ _ _ account _, e => ∃ id, e = createdEvent id account
  | .recordHarvest id memo, e => e = harvestEventOf id memo

theorem run_publishes {auths : Addr → Bool} {s : GoalChain Addr} {call : GoalCall Addr}
    {c : GoalMeta Addr} (h : s.run cfg auths call = .ok c) :
    ∃ e, call.Tells e ∧ Publishes auths s.contract c e := by
  rcases run_ok h with ⟨_, _, _, _, _, _, _, rfl, hcreate⟩ | ⟨id, memo, rfl, hharvest⟩
  · exact ⟨_, ⟨_, rfl⟩, createGoal_publishes hcreate⟩
  · exact ⟨_, rfl, recordHarvest_publishes hharvest⟩

/-- A step is a call that publishes, or leaves values and events alone. -/
theorem next_events {s t : GoalChain Addr} {act : GoalAct Addr} (h : s.next cfg act = some t) :
    (∃ auths call e, act = .call auths call ∧ call.Tells e
        ∧ Publishes auths s.contract t.contract e)
      ∨ (SameValues s.contract t.contract ∧ t.contract.events = s.contract.events) := by
  cases act with
  | call auths call =>
      simp only [GoalChain.next] at h
      split at h
      · rename_i c hrun
        obtain rfl := Option.some.inj h
        obtain ⟨e, htells, he⟩ := run_publishes hrun
        exact .inl ⟨auths, call, e, rfl, htells, he⟩
      · obtain rfl := Option.some.inj h
        exact .inr ⟨⟨rfl, rfl, rfl⟩, rfl⟩
  | close ledger =>
      simp only [GoalChain.next] at h
      split at h
      · obtain rfl := Option.some.inj h
        exact .inr ⟨⟨rfl, rfl, rfl⟩, rfl⟩
      · cases h
  | restoreGoal id =>
      obtain rfl := Option.some.inj h
      exact .inr ⟨⟨Rent.value_restore _ _ _ _, rfl, rfl⟩, rfl⟩
  | restoreIndex a =>
      obtain rfl := Option.some.inj h
      exact .inr ⟨⟨rfl, Rent.value_restore _ _ _ _, rfl⟩, rfl⟩
  | restoreInstance =>
      obtain rfl := Option.some.inj h
      exact .inr ⟨⟨rfl, rfl, rfl⟩, rfl⟩

/-! ## Runs -/

/-- The log of a contract reads as the list behind its storage. -/
structure LogTells (c : GoalMeta Addr) (gs : List (Goal Addr)) : Prop where
  registry : Registry c gs
  read : readLog c.events = some (gs.map Goal.goalAccount)
  fits : c.goalCount ≤ u32Max

theorem LogTells.step {s t : GoalChain Addr} {act : GoalAct Addr} {gs : List (Goal Addr)}
    (h : LogTells s.contract gs) (hst : s.next cfg act = some t) :
    ∃ gs', LogTells t.contract gs' := by
  rcases next_events hst with ⟨auths, call, e, -, -, hpub⟩ | ⟨hsame, hevents⟩
  · obtain ⟨gs', hreg, hread⟩ := hpub.told gs h.registry
    refine ⟨gs', hreg, ?_, hpub.fits h.fits⟩
    rw [hpub.events, readLog_concat h.read, hread]
  · refine ⟨gs, h.registry.congr hsame, ?_, ?_⟩
    · rw [hevents, h.read]
    · rw [hsame.count_eq]
      exact h.fits

theorem logTells_reach {s : GoalChain Addr} (h : Lts.Reach Deployed (goalStep cfg) s) :
    ∃ gs, LogTells s.contract gs := by
  refine h.invariant (I := fun s => ∃ gs, LogTells s.contract gs) ?_ ?_
  · rintro s ⟨n, hdep⟩
    rw [hdep]
    exact ⟨[], ⟨Register.Represents.empty, nofun⟩, rfl, Nat.zero_le _⟩
  · rintro s act t - ⟨gs, hlog⟩ ⟨-, hst⟩
    exact hlog.step hst

/-- **The log tells the registry.** In every state of every run the events
published so far, read in order, are the accounts of the goals by id: as
many as the counter says, each the account stored under its id, none
twice, and the ids those of the index by account. -/
theorem registry_from_events {s : GoalChain Addr} (h : Lts.Reach Deployed (goalStep cfg) s) :
    ∃ accounts, readLog s.contract.events = some accounts ∧ accounts.Nodup
      ∧ s.contract.goalCount = accounts.length
      ∧ (∀ i, (s.contract.goal? i).map Goal.goalAccount = accounts[i]?)
      ∧ ∀ a i, s.contract.idOf? a = some i ↔ accounts[i]? = some a := by
  obtain ⟨gs, hlog⟩ := logTells_reach h
  have hrep := hlog.registry.represents
  have hindex : ∀ a i,
      s.contract.idOf? a = some i ↔ (gs.map Goal.goalAccount)[i]? = some a := by
    intro a i
    rw [hrep.index_iff, List.getElem?_map, Option.map_eq_some_iff]
  refine ⟨_, hlog.read, ?_, ?_, fun i => ?_, hindex⟩
  · refine List.nodup_iff_getElem?_ne_getElem?.mpr fun i j hij hj heq => ?_
    have ha := List.getElem?_eq_getElem hj
    have hi := (hindex _ i).mpr (heq.trans ha)
    rw [(hindex _ j).mpr ha, Option.some.injEq] at hi
    omega
  · rw [List.length_map]
    exact hrep.count_eq
  · rw [hrep.get_eq, List.getElem?_map]

/-- A goal of account 42, harvested once. -/
theorem harvested_reach :
    ∃ s : GoalChain Nat, Lts.Reach Deployed (goalStep ⟨120960, 3110400⟩) s
      ∧ s.contract.events = [createdEvent 0 42, harvestEventOf 0 "cosecha"] := by
  have hstart : Lts.Reach Deployed (goalStep ⟨120960, 3110400⟩)
      ({ ledger := ⟨3950042, 1785789293⟩, contract := .deployed 4468442 } : GoalChain Nat) :=
    .init ⟨4468442, rfl⟩
  have hreach := hstart
    |>.next (.call (fun a => a = 7)
      (.createGoal 7 "Techo" 5000 1790000000 42 (List.replicate 64 1))) trivial rfl
    |>.next (.call (fun a => a = 7) (.recordHarvest 0 "cosecha")) trivial rfl
  exact ⟨_, hreach, rfl⟩

theorem registry_from_events_harvested :
    ∃ s : GoalChain Nat, s.contract.goalCount = 1 ∧ s.contract.idOf? 42 = some 0 := by
  obtain ⟨s, hreach, hevents⟩ := harvested_reach
  obtain ⟨accounts, hread, -, hcount, -, hindex⟩ := registry_from_events hreach
  rw [hevents] at hread
  obtain rfl : [42] = accounts := Option.some.inj hread
  exact ⟨s, hcount, (hindex 42 0).mpr rfl⟩

/-! ## Who signed -/

/-- Event number `k` was published by this call of the run `acts`. -/
def PublishedBy (cfg : Rent.Config) (start : GoalChain Addr) (acts : List (GoalAct Addr)) (k : Nat)
    (e : GoalEvent Addr) (auths : Addr → Bool) (call : GoalCall Addr) : Prop :=
  ∃ done rest before after, acts = done ++ .call auths call :: rest
    ∧ Lts.exec (GoalChain.next cfg) start done = some before
    ∧ before.next cfg (.call auths call) = some after
    ∧ before.contract.events.length = k ∧ after.contract.events = before.contract.events ++ [e]

theorem PublishedBy.append {start : GoalChain Addr} {acts : List (GoalAct Addr)} {k : Nat}
    {e : GoalEvent Addr} {auths : Addr → Bool} {call : GoalCall Addr}
    (h : PublishedBy cfg start acts k e auths call) (more : List (GoalAct Addr)) :
    PublishedBy cfg start (acts ++ more) k e auths call := by
  obtain ⟨done, rest, before, after, rfl, hdone, hstep, hk, hevents⟩ := h
  refine ⟨done, rest ++ more, before, after, ?_, hdone, hstep, hk, hevents⟩
  rw [List.append_assoc, List.cons_append]

/-- A stored goal is there after the next step. -/
theorem goal_next {s t : GoalChain Addr} {act : GoalAct Addr} {i : Nat} {g : Goal Addr}
    (h : Lts.Reach Deployed (goalStep cfg) s) (hst : s.next cfg act = some t)
    (hg : s.contract.goal? i = some g) : t.contract.goal? i = some g := by
  obtain ⟨gs, hreg⟩ := registry_reach h
  obtain ⟨gs', hle, hreg'⟩ := hreg.step hst
  exact hreg.represents.get_of_initial hreg'.represents hle hg

/-- **Every event was signed.** In a run of the listed acts each event on the
log was published at its place by one call of the list, which the event
retells, and among the addresses that signed that very call is the admin of
its goal, as the goal is stored at the end. -/
theorem events_signed {start s : GoalChain Addr} {acts : List (GoalAct Addr)}
    (hstart : Deployed start) (h : Lts.exec (GoalChain.next cfg) start acts = some s) :
    ∀ k e, s.contract.events[k]? = some e → ∃ auths call,
      PublishedBy cfg start acts k e auths call ∧ call.Tells e ∧
      ∃ g, s.contract.goal? e.id = some g ∧ auths g.admin = true := by
  induction acts using List.reverseRecOn generalizing s with
  | nil =>
      obtain rfl := Option.some.inj h
      obtain ⟨n, hdep⟩ := hstart
      intro k e hk
      rw [hdep] at hk
      cases hk
  | append_singleton acts act ih =>
      rw [Lts.exec_append] at h
      obtain ⟨t, ht, h⟩ := Option.bind_eq_some_iff.mp h
      have hst : t.next cfg act = some s := by
        rw [Lts.exec_cons] at h
        obtain ⟨s', hs', h⟩ := Option.bind_eq_some_iff.mp h
        obtain rfl := Option.some.inj h
        exact hs'
      have hreach : Lts.Reach Deployed (goalStep cfg) t :=
        Lts.Reach.exec (.init hstart) acts ht
      intro k e hk
      have hold : t.contract.events[k]? = some e → ∃ auths call,
          PublishedBy cfg start (acts ++ [act]) k e auths call ∧ call.Tells e ∧
          ∃ g, s.contract.goal? e.id = some g ∧ auths g.admin = true := by
        intro hk
        obtain ⟨auths, call, hpub, htells, g, hg, hsigned⟩ := ih ht k e hk
        exact ⟨auths, call, hpub.append [act], htells, g, goal_next hreach hst hg, hsigned⟩
      rcases next_events hst with ⟨auths, call, e', rfl, htells, hpub⟩ | ⟨-, hevents⟩
      · rw [hpub.events] at hk
        rcases Register.getElem?_concat_iff.mp hk with hk | ⟨rfl, rfl⟩
        · exact hold hk
        · exact ⟨auths, call, ⟨acts, [], t, s, rfl, ht, hst, rfl, hpub.events⟩, htells,
            hpub.signed⟩
      · rw [hevents] at hk
        exact hold hk

/-- The admins 7 and 9 and a goal of each; 7 may not harvest the goal of 9. -/
def twoAdmins : List (GoalAct Nat) :=
  [ .call (fun a => a = 7) (.createGoal 7 "Techo" 5000 1790000000 42 (List.replicate 64 1)),
    .call (fun a => a = 9) (.createGoal 9 "Pozo" 800 1790000000 43 (List.replicate 64 2)),
    .call (fun a => a = 7) (.recordHarvest 1 "ajena"),
    .call (fun a => a = 9) (.recordHarvest 1 "cosecha") ]

theorem events_signed_twoAdmins :
    ∃ auths call,
      PublishedBy ⟨120960, 3110400⟩ { ledger := ⟨3950042, 1785789293⟩, contract := .deployed 4468442 }
        twoAdmins 2 (harvestEventOf 1 "cosecha") auths call ∧
      call.Tells (harvestEventOf 1 "cosecha") ∧ auths 9 = true := by
  have hrun : ∃ s, Lts.exec (GoalChain.next ⟨120960, 3110400⟩)
      { ledger := ⟨3950042, 1785789293⟩, contract := .deployed 4468442 } twoAdmins = some s ∧
      s.contract.events[2]? = some (harvestEventOf 1 "cosecha") ∧
      (s.contract.goal? 1).map Goal.admin = some 9 := ⟨_, rfl, rfl, rfl⟩
  obtain ⟨s, hexec, hevent, hadmin⟩ := hrun
  obtain ⟨auths, call, hpub, htells, g, hg, hsigned⟩ :=
    events_signed ⟨4468442, rfl⟩ hexec 2 _ hevent
  have hnine : g.admin = 9 := by
    change s.contract.goal? 1 = some g at hg
    rw [hg] at hadmin
    exact Option.some.inj hadmin
  exact ⟨auths, call, hpub, htells, hnine ▸ hsigned⟩

end RaizStack
