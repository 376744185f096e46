import Mathlib.Data.Finmap
import PrivacyShield.Lib.SignedInt

/-!
# Data types of the shield contract

The types of `types.rs` and `errors.rs`. Addresses are host objects the contract only compares,
stores and serialises, so everything is generic in a type `Address`; a `BytesN n` is a byte vector
and an `i128` a 128-bit `SInt`.

The Rust fields `from` and `to` are `fromAddr` and `toAddr` here, `from` being a Lean keyword.
-/

namespace PrivacyShield.Contract

open PrivacyShield.Lib

abbrev I128 := SInt 128

abbrev Bytes := List UInt8

abbrev BytesN (n : Nat) := Vector UInt8 n

/-- A shielded account record. -/
structure ShieldedAccount (Address : Type) where
  owner : Address
  balance : I128
  deriving DecidableEq

/-- A record of a confidential transfer, stored under `DataKey.transfer`. -/
structure TransferRecord (Address : Type) where
  transferId : BytesN 32
  fromAddr : Address
  toAddr : Address
  amount : I128
  deriving DecidableEq

/-- A disclosure record, stored under `DataKey.disclosure`. Only the hash of the viewing key is
kept. -/
structure DisclosureRecord (Address : Type) where
  transferId : BytesN 32
  fromAddr : Address
  toAddr : Address
  amount : I128
  viewingKeyHash : BytesN 32
  deriving DecidableEq

/-- Keys of the contract's instance storage. -/
inductive DataKey (Address : Type) where
  | account (owner : Address)
  | assetContract
  | transfer (transferId : BytesN 32)
  | disclosure (transferId : BytesN 32)
  deriving DecidableEq

/-- The type of the value stored under a key. -/
@[reducible] def DataKey.Value {Address : Type} : DataKey Address → Type
  | .account _ => ShieldedAccount Address
  | .assetContract => Address
  | .transfer _ => TransferRecord Address
  | .disclosure _ => DisclosureRecord Address

/-- The placeholder proof of Phase 1: the amount in cleartext and a caller-chosen nonce. -/
structure MockProof where
  amount : I128
  nonce : BytesN 32
  deriving DecidableEq

/-- Phase 1 well-formedness check. The nonce is not looked at. -/
def MockProof.isWellFormed (self : MockProof) : Bool := 0 < self.amount

/-- A proof envelope; Phase 1 has one variant. -/
inductive ProofKind where
  | mock (proof : MockProof)
  deriving DecidableEq

/-- The identifier of a transfer and the viewing key a party shares for it. -/
structure DisclosureKey where
  transferId : BytesN 32
  viewingKey : BytesN 32
  deriving DecidableEq

/-! ## Errors -/

inductive ShieldError where
  | insufficientBalance
  | invalidProof
  | accountNotFound
  | unauthorized
  | alreadyInitialized
  | notInitialized
  | transferNotFound
  | disclosureNotFound
  | invalidDisclosureKey
  deriving DecidableEq

end PrivacyShield.Contract
