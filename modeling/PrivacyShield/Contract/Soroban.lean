import PrivacyShield.Contract.Host
import PrivacyShield.Lib.Sha256

/-!
# The deployed host

The host the contract runs on: addresses are accounts or contracts, an address is serialised as the
XDR of its `ScVal`, and hashes are SHA-256.
-/

namespace PrivacyShield.Contract

open PrivacyShield.Lib

/-- The address of an account (an Ed25519 key) or of a contract (a hash). -/
inductive ScAddress where
  | account (key : BytesN 32)
  | contract (hash : BytesN 32)
  deriving DecidableEq

namespace ScAddress

/-- The tags in front of an address: the `ScVal` kind, the kind of address and, for an account, the
kind of key. -/
def tags : ScAddress → Bytes
  | .account _ => beBytes 4 18 ++ beBytes 4 0 ++ beBytes 4 0
  | .contract _ => beBytes 4 18 ++ beBytes 4 1

/-- The key or the hash. -/
def body : ScAddress → BytesN 32
  | .account key => key
  | .contract hash => hash

/-- The XDR of the `ScVal` of an address. -/
def toXdr (a : ScAddress) : Bytes := a.tags ++ a.body.toList

theorem toList_prefixFree (n : Nat) : PrefixFree (Vector.toList : BytesN n → Bytes) :=
  .of_length (n := n) (fun v => v.length_toList) fun _ _ h => Vector.toList_inj.1 h

/-- The tags tell the two kinds of address apart although one is longer than the other. -/
theorem toXdr_prefixFree : PrefixFree toXdr := by
  intro a b hab
  cases a with
  | account key =>
    cases b with
    | account key' =>
      have hkey : key.toList <+: key'.toList := (List.prefix_append_right_inj _).1 hab
      rw [toList_prefixFree 32 key key' hkey]
    | contract hash =>
      obtain ⟨rest, h⟩ := hab
      simp [toXdr, tags, beBytes] at h
  | contract hash =>
    cases b with
    | account key =>
      obtain ⟨rest, h⟩ := hab
      simp [toXdr, tags, beBytes] at h
    | contract hash' =>
      have hhash : hash.toList <+: hash'.toList := (List.prefix_append_right_inj _).1 hab
      rw [toList_prefixFree 32 hash hash' hhash]

end ScAddress

/-- SHA-256 and the XDR of addresses. -/
def soroban : Host ScAddress := ⟨Sha256.digest, ScAddress.toXdr⟩

theorem soroban_xdrPrefixFree : soroban.XdrPrefixFree := ScAddress.toXdr_prefixFree

/-! ## Sample values for concrete runs -/

namespace Sample

def alice : ScAddress := .account (.replicate 32 1)

def bob : ScAddress := .contract (.replicate 32 2)

def carol : ScAddress := .account (.replicate 32 3)

/-- `i128::from`. -/
def amount (n : UInt64) : I128 :=
  ⟨n.toNat, by omega, by have := n.toNat_lt; omega⟩

/-- `i128::MAX`. -/
def maxAmount : I128 := ⟨2 ^ 127 - 1, by decide, by decide⟩

/-- A proof of `n` with a nonce that repeats one byte. -/
def proof (n : UInt64) (nonce : UInt8) : ProofKind := .mock ⟨amount n, .replicate 32 nonce⟩

end Sample

end PrivacyShield.Contract
