import Mathlib.Logic.Function.Basic
import RaizStack.Commit

/-!
# The confidential token wrapper, as far as it is relied on

The wrapper itself is vendored and not part of this repository. What the
replay assumes of it is a transition relation on two commitments per
account - one spendable, one receiving - and an event for each
transaction. The values are ghosts of the points (`Commit.Opened`); the
events carry amounts only where the wrapper publishes them.
-/

namespace RaizStack

/-! ## Events -/

/-- Where an event was emitted. -/
structure EventAt where
  ledger : Int
  txHash : String
  ledgerClosedAt : Option String
  deriving DecidableEq, Repr

/-- An event of the wrapper; `C` is what it carries encrypted. -/
inductive ConfidentialEvent (C : Type) where
  | register (info : EventAt) (account : String)
  | deposit (info : EventAt) (sender recipient : String) (amount : Int)
  | merge (info : EventAt) (account : String)
  | transfer (info : EventAt) (sender recipient : String) (data : C)
  | withdraw (info : EventAt) (sender recipient : String) (amount : Int) (data : C)

/-- A transaction with its plaintext: the amount and randomness of a
transfer, and the randomness an outflow leaves the sender with. -/
inductive Tx (R C : Type) where
  | register (info : EventAt) (account : String)
  | deposit (info : EventAt) (sender recipient : String) (amount : Int)
  | merge (info : EventAt) (account : String)
  | transfer (info : EventAt) (sender recipient : String) (amount : Int) (rTx rNew : R) (data : C)
  | withdraw (info : EventAt) (sender recipient : String) (amount : Int) (rNew : R) (data : C)

variable {R P C : Type}

/-- What the world sees of a transaction. -/
def Tx.event : Tx R C → ConfidentialEvent C
  | .register info account => .register info account
  | .deposit info sender recipient amount => .deposit info sender recipient amount
  | .merge info account => .merge info account
  | .transfer info sender recipient _ _ _ data => .transfer info sender recipient data
  | .withdraw info sender recipient amount _ data => .withdraw info sender recipient amount data

/-! ## An account's part in a transaction -/

/-- Transactions in which an account has a part. -/
def Tx.Touches (goal : String) : Tx R C → Prop
  | .register _ _ => False
  | .deposit _ _ recipient _ => recipient = goal
  | .merge _ account => account = goal
  | .transfer _ sender recipient _ _ _ _ => sender = goal ∨ recipient = goal
  | .withdraw _ sender _ _ _ _ => sender = goal

/-- Outflows of an account. -/
def Tx.Outflow (goal : String) : Tx R C → Prop
  | .transfer _ sender _ _ _ _ _ => sender = goal
  | .withdraw _ sender _ _ _ _ => sender = goal
  | _ => False

/-- A transfer of a non-zero amount from an account to itself. -/
def Tx.SelfMoves (goal : String) : Tx R C → Prop
  | .transfer _ sender recipient amount _ _ _ => sender = goal ∧ recipient = goal ∧ amount ≠ 0
  | _ => False

/-! ## Balances -/

section Wrapper

variable [AddMonoid R] [Add P] {S : Commit.Scheme R P}

/-- The two commitments of an account. -/
structure CtAccount (S : Commit.Scheme R P) where
  spendable : Commit.Opened S
  receiving : Commit.Opened S

abbrev Wallets (S : Commit.Scheme R P) := String → CtAccount S

/-- Nothing committed yet. -/
def Wallets.genesis (S : Commit.Scheme R P) : Wallets S :=
  fun _ => { spendable := .ofOpening S 0 0, receiving := .ofOpening S 0 0 }

/-- An amount arrives in the receiving balance. -/
def CtAccount.credit (a : CtAccount S) (v : Int) (r : R) : CtAccount S :=
  { a with receiving := a.receiving.add (.ofOpening S v r) }

/-- An amount leaves the spendable balance, which its owner commits anew. -/
def CtAccount.debit (a : CtAccount S) (v : Int) (rNew : R) : CtAccount S :=
  { a with spendable := .ofOpening S (a.spendable.value - v) rNew }

/-- The receiving balance moves into the spendable one. -/
def CtAccount.merged (a : CtAccount S) : CtAccount S :=
  { spendable := a.spendable.add a.receiving, receiving := .ofOpening S 0 0 }

@[simp] theorem CtAccount.credit_spendable (a : CtAccount S) (v : Int) (r : R) :
    (a.credit v r).spendable = a.spendable := rfl

@[simp] theorem CtAccount.credit_receiving (a : CtAccount S) (v : Int) (r : R) :
    (a.credit v r).receiving = a.receiving.add (.ofOpening S v r) := rfl

@[simp] theorem CtAccount.debit_spendable (a : CtAccount S) (v : Int) (r : R) :
    (a.debit v r).spendable = .ofOpening S (a.spendable.value - v) r := rfl

@[simp] theorem CtAccount.debit_receiving (a : CtAccount S) (v : Int) (r : R) :
    (a.debit v r).receiving = a.receiving := rfl

@[simp] theorem CtAccount.merged_spendable (a : CtAccount S) :
    a.merged.spendable = a.spendable.add a.receiving := rfl

/-- One transaction. A transfer debits its sender, then credits its
recipient, also when they are the same account. -/
def Wallets.apply (w : Wallets S) : Tx R C → Wallets S
  | .register _ _ => w
  | .deposit _ _ recipient amount => Function.update w recipient ((w recipient).credit amount 0)
  | .merge _ account => Function.update w account (w account).merged
  | .transfer _ sender recipient amount rTx rNew _ =>
      let debited := Function.update w sender ((w sender).debit amount rNew)
      Function.update debited recipient ((debited recipient).credit amount rTx)
  | .withdraw _ sender _ amount rNew _ =>
      Function.update w sender ((w sender).debit amount rNew)

/-- The balances after a history. -/
def Wallets.run (w : Wallets S) (txs : List (Tx R C)) : Wallets S :=
  txs.foldl Wallets.apply w

@[simp] theorem Wallets.run_nil (w : Wallets S) : w.run ([] : List (Tx R C)) = w := rfl

theorem Wallets.run_append (w : Wallets S) (txs txs' : List (Tx R C)) :
    w.run (txs ++ txs') = (w.run txs).run txs' := by
  simp [Wallets.run]

/-! ## What one transaction does to one account -/

variable {goal : String}

@[simp] theorem Wallets.apply_deposit_self (w : Wallets S) (info : EventAt) (sender : String)
    (v : Int) :
    w.apply (.deposit info sender goal v : Tx R C) goal = (w goal).credit v 0 :=
  Function.update_self ..

@[simp] theorem Wallets.apply_merge_self (w : Wallets S) (info : EventAt) :
    w.apply (.merge info goal : Tx R C) goal = (w goal).merged :=
  Function.update_self ..

@[simp] theorem Wallets.apply_withdraw_self (w : Wallets S) (info : EventAt) (recipient : String)
    (v : Int) (rNew : R) (data : C) :
    w.apply (.withdraw info goal recipient v rNew data) goal = (w goal).debit v rNew :=
  Function.update_self ..

@[simp] theorem Wallets.apply_transfer_self (w : Wallets S) (info : EventAt) (v : Int)
    (rTx rNew : R) (data : C) :
    w.apply (.transfer info goal goal v rTx rNew data) goal
      = ((w goal).debit v rNew).credit v rTx := by
  simp only [Wallets.apply, Function.update_self]

theorem Wallets.apply_transfer_in (w : Wallets S) (info : EventAt) {sender : String} (v : Int)
    (rTx rNew : R) (data : C) (h : sender ≠ goal) :
    w.apply (.transfer info sender goal v rTx rNew data) goal = (w goal).credit v rTx := by
  simp only [Wallets.apply, Function.update_self, Function.update_of_ne (Ne.symm h)]

theorem Wallets.apply_transfer_out (w : Wallets S) (info : EventAt) {recipient : String} (v : Int)
    (rTx rNew : R) (data : C) (h : recipient ≠ goal) :
    w.apply (.transfer info goal recipient v rTx rNew data) goal = (w goal).debit v rNew := by
  simp only [Wallets.apply, Function.update_of_ne (Ne.symm h), Function.update_self]

theorem Wallets.apply_of_not_touches {w : Wallets S} {tx : Tx R C} (h : ¬ tx.Touches goal) :
    w.apply tx goal = w goal := by
  cases tx with
  | register info account => rfl
  | deposit info sender recipient amount => exact Function.update_of_ne (Ne.symm h) _ _
  | merge info account => exact Function.update_of_ne (Ne.symm h) _ _
  | transfer info sender recipient amount rTx rNew data =>
      simp only [Tx.Touches, not_or] at h
      simp only [Wallets.apply]
      rw [Function.update_of_ne (Ne.symm h.2), Function.update_of_ne (Ne.symm h.1)]
  | withdraw info sender recipient amount rNew data => exact Function.update_of_ne (Ne.symm h) _ _

theorem Wallets.run_of_not_touches {w : Wallets S} {txs : List (Tx R C)}
    (h : ∀ tx ∈ txs, ¬ tx.Touches goal) : w.run txs goal = w goal := by
  induction txs generalizing w with
  | nil => rfl
  | cons tx txs ih =>
      have hrest : ∀ tx ∈ txs, ¬ tx.Touches goal := fun t ht => h t (List.mem_cons_of_mem _ ht)
      have hrun : w.run (tx :: txs) = (w.apply tx).run txs := rfl
      rw [hrun, ih hrest, Wallets.apply_of_not_touches (h tx List.mem_cons_self)]

end Wrapper

end RaizStack
