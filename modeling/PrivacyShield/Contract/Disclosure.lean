import PrivacyShield.Contract.Transfer

/-!
# Selective disclosure

`disclosure.rs`. A disclosure copies the transfer record at the time it is recorded and keeps the
hash of the viewing key, not the key.
-/

namespace PrivacyShield.Contract

variable {Address : Type} [DecidableEq Address]

/-- Records a disclosure for a transfer the caller is a party to. A second one for the same transfer
replaces the first. -/
def recordDisclosureRequest (caller : Address) (key : DisclosureKey) :
    ContractM Address Unit := do
  requireAuth caller
  let record ← okOr (← readTransferRecord key.transferId) .transferNotFound
  if caller ≠ record.fromAddr ∧ caller ≠ record.toAddr then
    fail .unauthorized
  let viewingKeyHash ← sha256 key.viewingKey.toList
  storageSet (.disclosure key.transferId)
    { transferId := key.transferId, fromAddr := record.fromAddr, toAddr := record.toAddr,
      amount := record.amount, viewingKeyHash }
  return ()

/-- The disclosure recorded for a transfer, if the viewing key hashes to the recorded value. -/
def verifyDisclosure (key : DisclosureKey) : ContractM Address (DisclosureRecord Address) := do
  let disclosure ← okOr (← storageGet (.disclosure key.transferId)) .disclosureNotFound
  let viewingKeyHash ← sha256 key.viewingKey.toList
  if viewingKeyHash ≠ disclosure.viewingKeyHash then
    fail .invalidDisclosureKey
  return disclosure

/-! ## Execution -/

variable {frame : Frame Address} {env env' : Env Address}

theorem recordDisclosureRequest_exec (caller : Address) (key : DisclosureKey) :
    exec (recordDisclosureRequest caller key) frame env =
      if frame.auth caller then
        match env.lookup (.transfer key.transferId) with
        | some record =>
          if caller ≠ record.fromAddr ∧ caller ≠ record.toAddr then
            (.error (.err .unauthorized), env)
          else
            (.ok (), env.put (.disclosure key.transferId)
              ⟨key.transferId, record.fromAddr, record.toAddr, record.amount,
                frame.host.sha256 key.viewingKey.toList⟩)
        | none => (.error (.err .transferNotFound), env)
      else (.error (.trap .auth), env) := by
  unfold recordDisclosureRequest
  simp only [exec_requireAuth_bind, exec_ite, exec_fail_bind, exec_readTransferRecord_bind,
    exec_okOr_bind, exec_sha256_bind, exec_storageSet_bind, exec_pure]
  split
  · cases env.lookup (.transfer key.transferId) <;> rfl
  · rfl

theorem verifyDisclosure_exec (key : DisclosureKey) :
    exec (verifyDisclosure key) frame env =
      match env.lookup (.disclosure key.transferId) with
      | some disclosure =>
        if frame.host.sha256 key.viewingKey.toList ≠ disclosure.viewingKeyHash then
          (.error (.err .invalidDisclosureKey), env)
        else (.ok disclosure, env)
      | none => (.error (.err .disclosureNotFound), env) := by
  unfold verifyDisclosure
  rw [exec_storageGet_bind (.disclosure key.transferId)]
  simp only [exec_ite, exec_fail_bind, exec_okOr_bind, exec_sha256_bind, exec_pure]
  cases env.lookup (.disclosure key.transferId) <;> rfl

/-- When a disclosure is recorded, and what it does. -/
theorem recordDisclosureRequest_ok_iff {caller : Address} {key : DisclosureKey} :
    exec (recordDisclosureRequest caller key) frame env = (.ok (), env') ↔
      frame.auth caller = true ∧
      ∃ record, env.lookup (.transfer key.transferId) = some record ∧
        (caller = record.fromAddr ∨ caller = record.toAddr) ∧
        env' = env.put (.disclosure key.transferId)
          ⟨key.transferId, record.fromAddr, record.toAddr, record.amount,
            frame.host.sha256 key.viewingKey.toList⟩ := by
  rw [recordDisclosureRequest_exec]
  constructor
  · intro h
    split at h
    · next hauth =>
      split at h
      · next record hrec =>
        split at h
        · cases h
        · next hparty =>
          cases h
          refine ⟨hauth, record, hrec, ?_, rfl⟩
          rw [← not_ne_iff, ← not_ne_iff, ← not_and_or]
          exact hparty
      · cases h
    · cases h
  · rintro ⟨hauth, record, hrec, hparty, rfl⟩
    have hparty' : ¬(caller ≠ record.fromAddr ∧ caller ≠ record.toAddr) := by
      rw [not_and_or, not_ne_iff, not_ne_iff]
      exact hparty
    rw [if_pos hauth]
    simp only [hrec, if_neg hparty']

theorem recordDisclosureRequest_error {caller : Address} {key : DisclosureKey} {f : Fault}
    (h : exec (recordDisclosureRequest caller key) frame env = (.error f, env')) :
    env' = env ∧ f ≠ .trap .overflow := by
  rw [recordDisclosureRequest_exec] at h
  split at h
  · split at h
    · split at h
      · cases h; exact ⟨rfl, by simp⟩
      · cases h
    · cases h; exact ⟨rfl, by simp⟩
  · cases h; exact ⟨rfl, by simp⟩

/-- When a disclosure key opens a disclosure. -/
theorem verifyDisclosure_ok_iff {key : DisclosureKey} {disclosure : DisclosureRecord Address} :
    exec (verifyDisclosure key) frame env = (.ok disclosure, env') ↔
      env.lookup (.disclosure key.transferId) = some disclosure ∧
      frame.host.sha256 key.viewingKey.toList = disclosure.viewingKeyHash ∧ env' = env := by
  rw [verifyDisclosure_exec]
  constructor
  · intro h
    split at h
    · next d hd =>
      split at h
      · cases h
      · next hhash =>
        cases h
        exact ⟨hd, not_ne_iff.1 hhash, rfl⟩
    · cases h
  · rintro ⟨hd, hhash, rfl⟩
    simp only [hd, if_neg (not_ne_iff.2 hhash)]

theorem verifyDisclosure_error {key : DisclosureKey} {f : Fault}
    (h : exec (verifyDisclosure key) frame env = (.error f, env')) :
    env' = env ∧ f ≠ .trap .overflow := by
  rw [verifyDisclosure_exec] at h
  split at h
  · split at h
    · cases h; exact ⟨rfl, by simp⟩
    · cases h
  · cases h; exact ⟨rfl, by simp⟩

end PrivacyShield.Contract
