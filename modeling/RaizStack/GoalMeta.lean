import Mathlib.Algebra.Group.Nat.Defs
import RaizStack.Lts
import RaizStack.Rent

/-!
# The `goal_meta` contract

The two operations of the registry over the host's storage: a counter in
instance storage, a goal per id and an id per goal account in persistent
storage. A call either returns with all its writes done or faults, and a
fault leaves nothing behind. Addresses are opaque; who signed a call is an
argument of the call.
-/

namespace RaizStack

/-! ## Storage -/

/-- The errors the contract declares. -/
inductive GoalError where
  | goalNotFound
  | invalidViewKey
  | invalidDeadline
  | duplicateGoalAccount
  | invalidTarget
  deriving DecidableEq, Repr

/-- Their numbers in the ABI. -/
def GoalError.code : GoalError → Nat
  | .goalNotFound => 1
  | .invalidViewKey => 2
  | .invalidDeadline => 3
  | .duplicateGoalAccount => 4
  | .invalidTarget => 5

/-- Why a call did not return. -/
inductive CallFault where
  | contract (e : GoalError)
  | host (f : Rent.Fault)
  | auth
  | overflow
  deriving DecidableEq, Repr

structure Goal (Addr : Type) where
  name : String
  target : Int
  deadline : Nat
  goalAccount : Addr
  viewKey : List UInt8
  admin : Addr
  createdAt : Nat

/-- The data of a published event. -/
inductive GoalEventData (Addr : Type) where
  | account (a : Addr)
  | memo (s : String)

/-- A published event: topics `("goal", kind, id)` and its data. -/
structure GoalEvent (Addr : Type) where
  kind : String
  id : Nat
  data : GoalEventData Addr

structure GoalMeta (Addr : Type) where
  goals : Rent.Store Nat (Goal Addr)
  goalByAccount : Rent.Store Addr Nat
  /-- `Count`, in instance storage. -/
  count : Option Nat
  instanceLiveUntil : Nat
  events : List (GoalEvent Addr)

/-- The ledger a call executes in. -/
structure Ledger where
  sequence : Nat
  timestamp : Nat

def ttlExtendTo : Nat := 518400

def ttlThreshold : Nat := ttlExtendTo

def viewKeyLen : Nat := 64

def u32Max : Nat := 2 ^ 32 - 1

namespace GoalMeta

variable {Addr : Type}

/-- A contract just deployed. -/
def deployed (instanceLiveUntil : Nat) : GoalMeta Addr :=
  { goals := fun _ => none
    goalByAccount := fun _ => none
    count := none
    instanceLiveUntil := instanceLiveUntil
    events := [] }

/-- The stored goal of an id. -/
def goal? (c : GoalMeta Addr) (id : Nat) : Option (Goal Addr) :=
  Rent.value c.goals id

/-- The stored id of a goal account. -/
def idOf? (c : GoalMeta Addr) (a : Addr) : Option Nat :=
  Rent.value c.goalByAccount a

def goalCount (c : GoalMeta Addr) : Nat :=
  c.count.getD 0

/-! ## Operations -/

variable [DecidableEq Addr] (cfg : Rent.Config) (now : Ledger)

def host {α : Type} (x : Except Rent.Fault α) : Except CallFault α :=
  x.mapError .host

/-- The three `extend_ttl` calls both operations end with. -/
def extendAll (c : GoalMeta Addr) (id : Nat) (account : Addr) :
    Except CallFault (GoalMeta Addr) := do
  let goals ← host (Rent.extendTtl cfg now.sequence ttlThreshold ttlExtendTo c.goals id)
  let index ← host
    (Rent.extendTtl cfg now.sequence ttlThreshold ttlExtendTo c.goalByAccount account)
  .ok { c with
    goals := goals
    goalByAccount := index
    instanceLiveUntil :=
      Rent.extended cfg now.sequence ttlThreshold ttlExtendTo c.instanceLiveUntil }

def publish (c : GoalMeta Addr) (e : GoalEvent Addr) : GoalMeta Addr :=
  { c with events := c.events ++ [e] }

/-- The writes of `create_goal`, once its arguments passed. The counter
is a `u32` and its increment is checked. -/
def store (c : GoalMeta Addr) (g : Goal Addr) : Except CallFault (Nat × GoalMeta Addr) := do
  let id := c.goalCount
  let goals ← host (Rent.write cfg now.sequence c.goals id g)
  let index ← host (Rent.write cfg now.sequence c.goalByAccount g.goalAccount id)
  if u32Max < id + 1 then .error .overflow
  else
    let c ← extendAll cfg now
      { c with goals := goals, goalByAccount := index, count := some (id + 1) }
      id g.goalAccount
    .ok (id, publish c { kind := "created", id := id, data := .account g.goalAccount })

/-- `create_goal`. -/
def createGoal (auths : Addr → Bool) (c : GoalMeta Addr) (admin : Addr) (name : String)
    (target : Int) (deadline : Nat) (goalAccount : Addr) (viewKey : List UInt8) :
    Except CallFault (Nat × GoalMeta Addr) :=
  if ¬ auths admin then .error .auth
  else if viewKey.length ≠ viewKeyLen then .error (.contract .invalidViewKey)
  else if deadline ≤ now.timestamp then .error (.contract .invalidDeadline)
  else if target ≤ 0 then .error (.contract .invalidTarget)
  else do
    match ← host (Rent.read now.sequence c.goalByAccount goalAccount) with
    | some _ => .error (.contract .duplicateGoalAccount)
    | none =>
        store cfg now c
          { name := name, target := target, deadline := deadline, goalAccount := goalAccount
            viewKey := viewKey, admin := admin, createdAt := now.timestamp }

/-- `get_goal`. -/
def getGoal (c : GoalMeta Addr) (id : Nat) : Except CallFault (Goal Addr) := do
  match ← host (Rent.read now.sequence c.goals id) with
  | some g => .ok g
  | none => .error (.contract .goalNotFound)

/-- `record_harvest`. -/
def recordHarvest (auths : Addr → Bool) (c : GoalMeta Addr) (id : Nat) (memo : String) :
    Except CallFault (GoalMeta Addr) := do
  let g ← getGoal now c id
  if ¬ auths g.admin then .error .auth
  else
    let c ← extendAll cfg now c id g.goalAccount
    .ok (publish c { kind := "harvest", id := id, data := .memo memo })

end GoalMeta

/-! ## The contract on a chain -/

inductive GoalCall (Addr : Type) where
  | createGoal (admin : Addr) (name : String) (target : Int) (deadline : Nat)
      (goalAccount : Addr) (viewKey : List UInt8)
  | recordHarvest (id : Nat) (memo : String)

structure GoalChain (Addr : Type) where
  ledger : Ledger
  contract : GoalMeta Addr

/-- What can happen to the contract: a call with the addresses that
signed it, a later ledger, or the restoration of what was archived. -/
inductive GoalAct (Addr : Type) where
  | call (auths : Addr → Bool) (c : GoalCall Addr)
  | close (ledger : Ledger)
  | restoreGoal (id : Nat)
  | restoreIndex (a : Addr)
  | restoreInstance

namespace GoalChain

variable {Addr : Type} [DecidableEq Addr] (cfg : Rent.Config)

/-- A call as the host executes it: an archived instance refuses it. -/
def run (auths : Addr → Bool) (s : GoalChain Addr) : GoalCall Addr →
    Except CallFault (GoalMeta Addr)
  | call =>
      if s.contract.instanceLiveUntil < s.ledger.sequence then .error (.host .archived)
      else
        match call with
        | .createGoal admin name target deadline account viewKey =>
            (s.contract.createGoal cfg s.ledger auths admin name target deadline account
              viewKey).map Prod.snd
        | .recordHarvest id memo => s.contract.recordHarvest cfg s.ledger auths id memo

/-- A faulting call is rolled back; time does not run backwards. -/
def next (s : GoalChain Addr) : GoalAct Addr → Option (GoalChain Addr)
  | .call auths call =>
      match s.run cfg auths call with
      | .ok c => some { s with contract := c }
      | .error _ => some s
  | .close ledger =>
      if s.ledger.sequence ≤ ledger.sequence ∧ s.ledger.timestamp ≤ ledger.timestamp then
        some { s with ledger := ledger }
      else none
  | .restoreGoal id =>
      some { s with contract := { s.contract with
        goals := Rent.restore cfg s.ledger.sequence s.contract.goals id } }
  | .restoreIndex a =>
      some { s with contract := { s.contract with
        goalByAccount := Rent.restore cfg s.ledger.sequence s.contract.goalByAccount a } }
  | .restoreInstance =>
      some { s with contract := { s.contract with
        instanceLiveUntil :=
          max s.contract.instanceLiveUntil (s.ledger.sequence + cfg.minPersistentTtl - 1) } }

end GoalChain

end RaizStack
