import PrivacyShield.Contract.Disclosure
import PrivacyShield.Lib.Machine

/-!
# The contract's entry points and its runs

`lib.rs`. An `Invocation` is a call of one entry point with its arguments and the addresses that
authorized it; `shield host` is the machine that executes invocations one after the other. A run
starts from `Env.empty`.
-/

namespace PrivacyShield.Contract

open PrivacyShield.Lib

variable {Address : Type} [DecidableEq Address]

namespace ShieldContract

def requireInitialized : ContractM Address Unit := do
  if !(← storageHas .assetContract) then
    fail .notInitialized
  return ()

/-- The entry point `initialize`, a reserved word in Lean. Runs once. -/
def initializePool (assetContract : Address) : ContractM Address Unit := do
  if ← storageHas .assetContract then
    fail .alreadyInitialized
  storageSet .assetContract assetContract
  return ()

def deposit (depositor : Address) (amount : I128) :
    ContractM Address (ShieldedAccount Address) := do
  requireInitialized
  Contract.deposit depositor amount

def withdraw (owner : Address) (amount : I128) : ContractM Address (ShieldedAccount Address) := do
  requireInitialized
  Contract.withdraw owner amount

def balance (owner : Address) : ContractM Address (Option (ShieldedAccount Address)) :=
  readAccount owner

def confidentialTransfer (fromAddr toAddr : Address) (proof : ProofKind) :
    ContractM Address (BytesN 32) := do
  requireInitialized
  Contract.confidentialTransfer fromAddr toAddr proof

def recordDisclosureRequest (caller : Address) (key : DisclosureKey) : ContractM Address Unit :=
  Contract.recordDisclosureRequest caller key

def verifyDisclosure (key : DisclosureKey) : ContractM Address (DisclosureRecord Address) :=
  Contract.verifyDisclosure key

end ShieldContract

/-! ## Calls -/

/-- A call of a public entry point. -/
inductive Call (Address : Type) where
  | initializePool (assetContract : Address)
  | deposit (depositor : Address) (amount : I128)
  | withdraw (owner : Address) (amount : I128)
  | balance (owner : Address)
  | confidentialTransfer (fromAddr toAddr : Address) (proof : ProofKind)
  | recordDisclosureRequest (caller : Address) (key : DisclosureKey)
  | verifyDisclosure (key : DisclosureKey)
  deriving DecidableEq

/-- The value a successful call returns. -/
inductive Reply (Address : Type) where
  | unit
  | account (account : ShieldedAccount Address)
  | accountOpt (account : Option (ShieldedAccount Address))
  | transferId (transferId : BytesN 32)
  | disclosure (record : DisclosureRecord Address)
  deriving DecidableEq

/-- The entry point a call names, run on the call's arguments. -/
def dispatch : Call Address → ContractM Address (Reply Address)
  | .initializePool assetContract => do
    ShieldContract.initializePool assetContract
    return .unit
  | .deposit depositor amount => return .account (← ShieldContract.deposit depositor amount)
  | .withdraw owner amount => return .account (← ShieldContract.withdraw owner amount)
  | .balance owner => return .accountOpt (← ShieldContract.balance owner)
  | .confidentialTransfer fromAddr toAddr proof =>
    return .transferId (← ShieldContract.confidentialTransfer fromAddr toAddr proof)
  | .recordDisclosureRequest caller key => do
    ShieldContract.recordDisclosureRequest caller key
    return .unit
  | .verifyDisclosure key => return .disclosure (← ShieldContract.verifyDisclosure key)

/-- How a call ended. -/
abbrev Outcome (Address : Type) := Except Fault (Reply Address)

/-- A call and the addresses that authorized it. -/
structure Invocation (Address : Type) where
  call : Call Address
  auth : Address → Bool

/-- The deployed contract. -/
def shield (host : Host Address) :
    Machine (Env Address) (Invocation Address) (Outcome Address) where
  step env inv := exec (dispatch inv.call) ⟨host, inv.auth⟩ env

/-- The invocations of a run with their outcomes, oldest first. -/
abbrev History (Address : Type) := List (Invocation Address × Outcome Address)

/-- The environment after a run from empty storage. -/
def runOf (host : Host Address) (invs : List (Invocation Address)) : Env Address :=
  (shield host).run .empty invs

/-- The history of a run from empty storage. -/
def historyOf (host : Host Address) (invs : List (Invocation Address)) : History Address :=
  (shield host).trace .empty invs

end PrivacyShield.Contract
