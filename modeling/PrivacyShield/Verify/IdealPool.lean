import PrivacyShield.Lib.Posting
import PrivacyShield.Verify.Records

/-!
# The ideal pool

What the contract is for, said without storage, hashes or machine integers. The pool knows its asset
contract, an integer balance for each account, the transfers it made and, for each of them, the
viewing key that was last recorded. A request names a transfer by the transfer itself and opens a
disclosure with the key itself; there is nothing to collide.

A request is refused with the first of its guards that fails, and changes nothing then. A transfer
from an address to itself is a credit, as in the contract.
-/

namespace PrivacyShield.Contract

open PrivacyShield.Lib

variable {Address : Type}

/-- The state of the pool. -/
structure IdealPool (Address : Type) where
  assetContract : Option Address
  ledger : Ledger Address Int
  /-- The transfers made, oldest first. -/
  transfers : List (Transfer Address)
  /-- The viewing key recorded last for each transfer. -/
  viewingKey : Transfer Address → Option (BytesN 32)

/-- What the pool is asked for. A transfer that nobody ever asked for is `none`. -/
inductive Request (Address : Type) where
  | initializePool (assetContract : Address)
  | deposit (depositor : Address) (amount : Int)
  | withdraw (owner : Address) (amount : Int)
  | balance (owner : Address)
  | transfer (t : Transfer Address)
  | disclose (caller : Address) (t : Option (Transfer Address)) (viewingKey : BytesN 32)
  | verify (t : Option (Transfer Address)) (viewingKey : BytesN 32)

/-- What the pool answers. -/
inductive Answer (Address : Type) where
  | done
  | holding (owner : Address) (balance : Int)
  | noAccount
  | transferred (t : Transfer Address)
  | disclosed (t : Transfer Address) (viewingKey : BytesN 32)

/-- The largest balance an account can hold. -/
def maxBalance : Int := 2 ^ 127 - 1

/-! ## Guards -/

/-- A guard: refused unless the condition holds. -/
def ensure (c : Prop) [Decidable c] (f : Fault) : Except Fault Unit :=
  if c then .ok () else .error f

/-- Refused unless there is something. -/
def orRefuse {α : Type} (o : Option α) (f : Fault) : Except Fault α :=
  match o with
  | some a => .ok a
  | none => .error f

section Guards

variable {α β : Type} {c : Prop} [Decidable c] {f : Fault}

theorem ensure_bind_of_pos (h : c) (g : Unit → Except Fault β) : (ensure c f >>= g) = g () := by
  rw [ensure, if_pos h]
  rfl

theorem ensure_bind_of_neg (h : ¬c) (g : Unit → Except Fault β) :
    (ensure c f >>= g) = .error f := by
  rw [ensure, if_neg h]
  rfl

theorem orRefuse_some_bind (a : α) (g : α → Except Fault β) :
    (orRefuse (some a) f >>= g) = g a := rfl

theorem orRefuse_none_bind (g : α → Except Fault β) : (orRefuse none f >>= g) = .error f := rfl

end Guards

namespace IdealPool

/-- Nothing was ever asked of the pool. -/
def empty : IdealPool Address := ⟨none, fun _ => none, [], fun _ => none⟩

/-- The balance of an account, zero without one. -/
def balance (p : IdealPool Address) (a : Address) : Int := (p.ledger a).getD 0

variable [DecidableEq Address]

/-- The transfer, if it was made. -/
def made (p : IdealPool Address) (t : Option (Transfer Address)) : Option (Transfer Address) :=
  t.filter fun t => t ∈ p.transfers

/-- The transfer with the viewing key recorded for it, if there is one. -/
def disclosure (p : IdealPool Address) (t : Option (Transfer Address)) :
    Option (Transfer Address × BytesN 32) :=
  t.bind fun t => (p.viewingKey t).map fun vk => (t, vk)

/-- What a transfer posts. -/
def paid (p : IdealPool Address) (t : Transfer Address) : Ledger Address Int :=
  if t.fromAddr = t.toAddr then p.ledger.post (t.toAddr, t.amount.toInt)
  else (p.ledger.post (t.fromAddr, -t.amount.toInt)).post (t.toAddr, t.amount.toInt)

/-- The answer to a request and the pool after it. -/
def respond (p : IdealPool Address) (auth : Address → Bool) :
    Request Address → Except Fault (Answer Address × IdealPool Address)
  | .initializePool assetContract => do
    ensure (p.assetContract = none) (.err .alreadyInitialized)
    return (.done, { p with assetContract := some assetContract })
  | .deposit depositor amount => do
    ensure (p.assetContract ≠ none) (.err .notInitialized)
    ensure (auth depositor = true) (.trap .auth)
    ensure (0 < amount) (.err .insufficientBalance)
    ensure (p.balance depositor + amount ≤ maxBalance) (.err .insufficientBalance)
    return (.holding depositor (p.balance depositor + amount),
      { p with ledger := p.ledger.post (depositor, amount) })
  | .withdraw owner amount => do
    ensure (p.assetContract ≠ none) (.err .notInitialized)
    ensure (auth owner = true) (.trap .auth)
    ensure (0 < amount) (.err .insufficientBalance)
    let balance ← orRefuse (p.ledger owner) (.err .accountNotFound)
    ensure (amount ≤ balance) (.err .insufficientBalance)
    return (.holding owner (balance - amount),
      { p with ledger := p.ledger.post (owner, -amount) })
  | .balance owner =>
    match p.ledger owner with
    | some balance => return (.holding owner balance, p)
    | none => return (.noAccount, p)
  | .transfer t => do
    ensure (p.assetContract ≠ none) (.err .notInitialized)
    ensure (auth t.fromAddr = true) (.trap .auth)
    ensure (0 < t.amount.toInt) (.err .invalidProof)
    let balance ← orRefuse (p.ledger t.fromAddr) (.err .accountNotFound)
    ensure (t.amount.toInt ≤ balance) (.err .insufficientBalance)
    ensure (p.balance t.toAddr + t.amount.toInt ≤ maxBalance) (.err .insufficientBalance)
    return (.transferred t, { p with ledger := p.paid t, transfers := p.transfers ++ [t] })
  | .disclose caller t viewingKey => do
    ensure (auth caller = true) (.trap .auth)
    let t ← orRefuse (p.made t) (.err .transferNotFound)
    ensure (caller = t.fromAddr ∨ caller = t.toAddr) (.err .unauthorized)
    return (.done, { p with viewingKey := Function.update p.viewingKey t (some viewingKey) })
  | .verify t viewingKey => do
    let found ← orRefuse (p.disclosure t) (.err .disclosureNotFound)
    ensure (viewingKey = found.2) (.err .invalidDisclosureKey)
    return (.disclosed found.1 found.2, p)

end IdealPool

/-- The pool as a machine: a refused request leaves it as it was. -/
def idealPool [DecidableEq Address] :
    Machine (IdealPool Address) (Request Address × (Address → Bool))
      (Except Fault (Answer Address)) where
  step p i :=
    match p.respond i.2 i.1 with
    | .ok (answer, p') => (.ok answer, p')
    | .error f => (.error f, p)

end PrivacyShield.Contract
