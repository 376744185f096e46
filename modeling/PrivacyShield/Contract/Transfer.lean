import PrivacyShield.Contract.Pool

/-!
# Proof checking and confidential transfers

`proof.rs` and `transfer.rs`. The transfer reads both accounts before it writes either, and the two
writes go to one key when sender and recipient are the same address.
-/

namespace PrivacyShield.Contract

open PrivacyShield.Lib

/-! ## Proof verification -/

/-- Performs no cryptographic verification. -/
def unsafeForProductionVerifyMock (proof : MockProof) : Bool := proof.isWellFormed

/-- Verifies a proof, by the verifier of its variant. -/
def verify : ProofKind → Bool
  | .mock mock => unsafeForProductionVerifyMock mock

theorem verify_mock_iff {mock : MockProof} : verify (.mock mock) = true ↔ 0 < mock.amount.toInt :=
  decide_eq_true_iff

/-! ## Transfers -/

variable {Address : Type}

/-- The `transfer_id` of a transfer: SHA-256 of
`xdr(from) || xdr(to) || nonce || amount` with the amount in big-endian bytes. -/
def transferIdFor (fromAddr toAddr : Address) (nonce : BytesN 32) (amount : I128) :
    ContractM Address (BytesN 32) := do
  let mut buf : Bytes := []
  buf := buf ++ (← toXdr fromAddr)
  buf := buf ++ (← toXdr toAddr)
  buf := buf ++ nonce.toList
  buf := buf ++ amount.toBeBytes
  sha256 buf

variable [DecidableEq Address]

/-- The transfer record committed under a `transfer_id`, if any. -/
def readTransferRecord (transferId : BytesN 32) :
    ContractM Address (Option (TransferRecord Address)) :=
  storageGet (.transfer transferId)

/-- Moves the proof's amount from one shielded account to another, records the transfer and
publishes its identifier, never the amount. -/
def confidentialTransfer (fromAddr toAddr : Address) (proof : ProofKind) :
    ContractM Address (BytesN 32) := do
  requireAuth fromAddr
  if !verify proof then
    fail .invalidProof
  let (amount, nonce) := match proof with
    | .mock mock => (mock.amount, mock.nonce)
  let mut fromAccount ← okOr (← readAccount fromAddr) .accountNotFound
  if fromAccount.balance < amount then
    fail .insufficientBalance
  let mut toAccount := (← readAccount toAddr).getD { owner := toAddr, balance := 0 }
  let debited ← subOrTrap fromAccount.balance amount
  fromAccount := { fromAccount with balance := debited }
  let credited ← okOr (toAccount.balance.checkedAdd amount) .insufficientBalance
  toAccount := { toAccount with balance := credited }
  storageSet (.account fromAddr) fromAccount
  storageSet (.account toAddr) toAccount
  let transferId ← transferIdFor fromAddr toAddr nonce amount
  storageSet (.transfer transferId) { transferId, fromAddr, toAddr, amount }
  publish ("transfer", fromAddr, toAddr) transferId
  return transferId

/-! ## Execution -/

/-- The bytes a transfer's identifier is the hash of. -/
def Host.transferPreimage (host : Host Address) (fromAddr toAddr : Address) (nonce : BytesN 32)
    (amount : I128) : Bytes :=
  host.toXdr fromAddr ++ host.toXdr toAddr ++ nonce.toList ++ amount.toBeBytes

/-- The value `transferIdFor` returns. -/
def Host.transferId (host : Host Address) (fromAddr toAddr : Address) (nonce : BytesN 32)
    (amount : I128) : BytesN 32 :=
  host.sha256 (host.transferPreimage fromAddr toAddr nonce amount)

variable {frame : Frame Address} {env env' : Env Address}

omit [DecidableEq Address] in
theorem transferIdFor_exec (fromAddr toAddr : Address) (nonce : BytesN 32) (amount : I128) :
    exec (transferIdFor fromAddr toAddr nonce amount) frame env =
      (.ok (frame.host.transferId fromAddr toAddr nonce amount), env) := by
  unfold transferIdFor
  simp only [exec_toXdr_bind]
  rfl

@[simp] theorem exec_readTransferRecord_bind {β : Type} (transferId : BytesN 32)
    (f : Option (TransferRecord Address) → ContractM Address β) :
    exec (readTransferRecord transferId >>= f) frame env =
      exec (f (env.lookup (.transfer transferId))) frame env :=
  exec_storageGet_bind (.transfer transferId) f

/-- The environment after the writes and the event of a transfer, in the code's order. -/
def Env.transferred (env : Env Address) (fromAddr toAddr : Address)
    (fromAccount toAccount : ShieldedAccount Address) (transferId : BytesN 32) (amount : I128) :
    Env Address :=
  (((env.put (.account fromAddr) fromAccount).put (.account toAddr) toAccount).put
    (.transfer transferId) ⟨transferId, fromAddr, toAddr, amount⟩).emit
    ⟨("transfer", fromAddr, toAddr), transferId⟩

section Transferred

variable (fromAddr toAddr : Address) (acc acc' : ShieldedAccount Address) (id : BytesN 32)
  (amount : I128)

@[simp] theorem lookup_transferred_account (a : Address) :
    (env.transferred fromAddr toAddr acc acc' id amount).lookup (.account a) =
      ((env.put (.account fromAddr) acc).put (.account toAddr) acc').lookup (.account a) := by
  rw [Env.transferred, Env.lookup_emit, Env.lookup_put_of_ne _ _ (by simp)]

theorem lookup_transferred_transfer (id' : BytesN 32) :
    (env.transferred fromAddr toAddr acc acc' id amount).lookup (.transfer id') =
      if id' = id then some ⟨id, fromAddr, toAddr, amount⟩ else env.lookup (.transfer id') := by
  rw [Env.transferred, Env.lookup_emit]
  split
  · next h =>
    subst h
    rw [Env.lookup_put_self]
  · next h =>
    rw [Env.lookup_put_of_ne _ _ (by simpa using h), Env.lookup_put_of_ne _ _ (by simp),
      Env.lookup_put_of_ne _ _ (by simp)]

end Transferred

theorem confidentialTransfer_exec (fromAddr toAddr : Address) (mock : MockProof) :
    exec (confidentialTransfer fromAddr toAddr (.mock mock)) frame env =
      if frame.auth fromAddr then
        if !verify (.mock mock) then (.error (.err .invalidProof), env)
        else
          match env.lookup (.account fromAddr) with
          | some fromAccount =>
            if fromAccount.balance < mock.amount then (.error (.err .insufficientBalance), env)
            else
              let toAccount := env.accountOr toAddr
              match fromAccount.balance.checkedSub mock.amount with
              | some debited =>
                match toAccount.balance.checkedAdd mock.amount with
                | some credited =>
                  let transferId :=
                    frame.host.transferId fromAddr toAddr mock.nonce mock.amount
                  (.ok transferId,
                    env.transferred fromAddr toAddr { fromAccount with balance := debited }
                      { toAccount with balance := credited } transferId mock.amount)
                | none => (.error (.err .insufficientBalance), env)
              | none => (.error (.trap .overflow), env)
          | none => (.error (.err .accountNotFound), env)
      else (.error (.trap .auth), env) := by
  unfold confidentialTransfer
  simp only [exec_requireAuth_bind, exec_ite, exec_fail_bind, exec_readAccount_bind,
    exec_okOr_bind, exec_subOrTrap_bind, exec_storageSet_bind, exec_publish_bind,
    exec_bind_of_ok (transferIdFor_exec _ _ _ _), exec_pure]
  split
  · split
    · rfl
    · cases env.lookup (.account fromAddr) with
      | none => rfl
      | some fromAccount =>
        dsimp only
        cases fromAccount.balance.checkedSub mock.amount with
        | none => rfl
        | some debited =>
          unfold Env.accountOr
          cases ((env.lookup (.account toAddr)).getD ⟨toAddr, 0⟩).balance.checkedAdd
            mock.amount <;> rfl
  · rfl

/-- When a transfer succeeds, and what it does. The recipient's balance is the one read before the
sender was debited. -/
theorem confidentialTransfer_ok_iff {fromAddr toAddr : Address} {mock : MockProof}
    {id : BytesN 32} :
    exec (confidentialTransfer fromAddr toAddr (.mock mock)) frame env = (.ok id, env') ↔
      frame.auth fromAddr = true ∧ 0 < mock.amount.toInt ∧
      id = frame.host.transferId fromAddr toAddr mock.nonce mock.amount ∧
      ∃ fromAccount fromAccount' toAccount', env.lookup (.account fromAddr) = some fromAccount ∧
        mock.amount.toInt ≤ fromAccount.balance.toInt ∧
        fromAccount'.owner = fromAccount.owner ∧
        fromAccount'.balance.toInt = fromAccount.balance.toInt - mock.amount.toInt ∧
        toAccount'.owner = (env.accountOr toAddr).owner ∧
        toAccount'.balance.toInt = (env.accountOr toAddr).balance.toInt + mock.amount.toInt ∧
        env' = env.transferred fromAddr toAddr fromAccount' toAccount' id mock.amount := by
  rw [confidentialTransfer_exec]
  constructor
  · intro h
    split at h
    · next hauth =>
      split at h
      · cases h
      · next hverify =>
        have hpos : 0 < mock.amount.toInt := verify_mock_iff.1 (by simpa using hverify)
        split at h
        · next fromAccount hacc =>
          split at h
          · cases h
          · next hle =>
            simp only at h
            split at h
            · next debited hsub =>
              split at h
              · next credited hadd =>
                cases h
                rw [SInt.checkedSub_eq_some_iff] at hsub
                rw [SInt.checkedAdd_eq_some_iff] at hadd
                exact ⟨hauth, hpos, rfl, fromAccount, ⟨fromAccount.owner, debited⟩,
                  ⟨(env.accountOr toAddr).owner, credited⟩, hacc, SInt.not_lt.1 hle, rfl, hsub,
                  rfl, hadd, rfl⟩
              · cases h
            · cases h
        · cases h
    · cases h
  · rintro ⟨hauth, hpos, rfl, fromAccount, ⟨fo, fb⟩, ⟨o, tb⟩, hacc, hle, hfo, hsub, ho,
      hadd, rfl⟩
    have hle' : ¬fromAccount.balance < mock.amount := SInt.not_lt.2 hle
    have hverify : ¬(!verify (.mock mock)) = true := by simp [verify_mock_iff.2 hpos]
    rw [if_pos hauth, if_neg hverify]
    simp only [hacc, if_neg hle', SInt.checkedSub_eq_some_iff.2 hsub,
      SInt.checkedAdd_eq_some_iff.2 hadd, ← hfo, ← ho]

/-- A transfer that does not succeed changes nothing. The amount is positive when the proof verifies
and at most the sender's balance at the subtraction, so no arithmetic trap ends it. -/
theorem confidentialTransfer_error {fromAddr toAddr : Address} {proof : ProofKind} {f : Fault}
    (h : exec (confidentialTransfer fromAddr toAddr proof) frame env = (.error f, env')) :
    env' = env ∧ f ≠ .trap .overflow := by
  obtain ⟨mock⟩ := proof
  rw [confidentialTransfer_exec] at h
  split at h
  · split at h
    · cases h; exact ⟨rfl, by simp⟩
    · next hverify =>
      have hpos : 0 < mock.amount.toInt := verify_mock_iff.1 (by simpa using hverify)
      split at h
      · next fromAccount hacc =>
        split at h
        · cases h; exact ⟨rfl, by simp⟩
        · next hle =>
          obtain ⟨z, hz⟩ := SInt.exists_checkedSub (le_of_lt hpos) (SInt.not_lt.1 hle)
          simp only [hz] at h
          split at h
          · cases h
          · cases h; exact ⟨rfl, by simp⟩
      · cases h; exact ⟨rfl, by simp⟩
  · cases h; exact ⟨rfl, by simp⟩

end PrivacyShield.Contract
