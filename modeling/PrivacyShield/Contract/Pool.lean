import PrivacyShield.Contract.Host

/-!
# Pool: deposits and withdrawals

`pool.rs`. Each function comes with the equation `*_exec` of its execution, with the monad gone.
-/

namespace PrivacyShield.Contract

open PrivacyShield.Lib

variable {Address : Type} [DecidableEq Address]

/-- The shielded account of `owner`, if any. -/
def readAccount (owner : Address) : ContractM Address (Option (ShieldedAccount Address)) :=
  storageGet (.account owner)

/-- Deposits `amount` into `depositor`'s shielded balance. -/
def deposit (depositor : Address) (amount : I128) :
    ContractM Address (ShieldedAccount Address) := do
  requireAuth depositor
  if amount ≤ 0 then
    fail .insufficientBalance
  let mut account := (← readAccount depositor).getD { owner := depositor, balance := 0 }
  let balance ← okOr (account.balance.checkedAdd amount) .insufficientBalance
  account := { account with balance := balance }
  storageSet (.account depositor) account
  return account

/-- Withdraws `amount` from `owner`'s shielded balance. -/
def withdraw (owner : Address) (amount : I128) : ContractM Address (ShieldedAccount Address) := do
  requireAuth owner
  if amount ≤ 0 then
    fail .insufficientBalance
  let mut account ← okOr (← readAccount owner) .accountNotFound
  if account.balance < amount then
    fail .insufficientBalance
  let balance ← subOrTrap account.balance amount
  account := { account with balance := balance }
  storageSet (.account owner) account
  return account

/-! ## Execution -/

variable {frame : Frame Address} {env env' : Env Address}

/-- The stored account of `owner`, or the empty account the code puts in its place. -/
def Env.accountOr (env : Env Address) (owner : Address) : ShieldedAccount Address :=
  (env.lookup (.account owner)).getD ⟨owner, 0⟩

@[simp] theorem exec_readAccount_bind {β : Type} (owner : Address)
    (f : Option (ShieldedAccount Address) → ContractM Address β) :
    exec (readAccount owner >>= f) frame env = exec (f (env.lookup (.account owner))) frame env :=
  exec_storageGet_bind (.account owner) f

theorem deposit_exec (depositor : Address) (amount : I128) :
    exec (deposit depositor amount) frame env =
      if frame.auth depositor then
        if amount ≤ 0 then (.error (.err .insufficientBalance), env)
        else
          let account := env.accountOr depositor
          match account.balance.checkedAdd amount with
          | some balance =>
            (.ok { account with balance }, env.put (.account depositor) { account with balance })
          | none => (.error (.err .insufficientBalance), env)
      else (.error (.trap .auth), env) := by
  unfold deposit
  simp only [exec_requireAuth_bind, exec_ite, exec_fail_bind, exec_readAccount_bind,
    exec_okOr_bind, exec_storageSet_bind, exec_pure]
  split
  · split
    · rfl
    · unfold Env.accountOr
      cases ((env.lookup (.account depositor)).getD ⟨depositor, 0⟩).balance.checkedAdd
        amount <;> rfl
  · rfl

theorem withdraw_exec (owner : Address) (amount : I128) :
    exec (withdraw owner amount) frame env =
      if frame.auth owner then
        if amount ≤ 0 then (.error (.err .insufficientBalance), env)
        else
          match env.lookup (.account owner) with
          | some account =>
            if account.balance < amount then (.error (.err .insufficientBalance), env)
            else
              match account.balance.checkedSub amount with
              | some balance =>
                (.ok { account with balance }, env.put (.account owner) { account with balance })
              | none => (.error (.trap .overflow), env)
          | none => (.error (.err .accountNotFound), env)
      else (.error (.trap .auth), env) := by
  unfold withdraw
  simp only [exec_requireAuth_bind, exec_ite, exec_fail_bind, exec_readAccount_bind,
    exec_okOr_bind, exec_subOrTrap_bind, exec_storageSet_bind, exec_pure]
  split
  · split
    · rfl
    · cases env.lookup (.account owner) with
      | none => rfl
      | some account => cases account.balance.checkedSub amount <;> rfl
  · rfl

/-- When a deposit succeeds, and what it does. -/
theorem deposit_ok_iff {depositor : Address} {amount : I128} {r : ShieldedAccount Address} :
    exec (deposit depositor amount) frame env = (.ok r, env') ↔
      frame.auth depositor = true ∧ 0 < amount.toInt ∧
      r.owner = (env.accountOr depositor).owner ∧
      r.balance.toInt = (env.accountOr depositor).balance.toInt + amount.toInt ∧
      env' = env.put (.account depositor) r := by
  rw [deposit_exec]
  constructor
  · intro h
    split at h
    · next hauth =>
      split at h
      · cases h
      · next hpos =>
        simp only at h
        split at h
        · next balance hadd =>
          cases h
          rw [SInt.checkedAdd_eq_some_iff] at hadd
          exact ⟨hauth, SInt.not_le.1 hpos, rfl, hadd, rfl⟩
        · cases h
    · cases h
  · rintro ⟨hauth, hpos, howner, hadd, rfl⟩
    obtain ⟨owner, balance⟩ := r
    have hpos' : ¬amount ≤ 0 := SInt.not_le.2 hpos
    rw [if_pos hauth, if_neg hpos']
    simp only [SInt.checkedAdd_eq_some_iff.2 hadd, ← howner]

/-- A deposit that does not succeed changes nothing, and no arithmetic trap ends it. -/
theorem deposit_error {depositor : Address} {amount : I128} {f : Fault}
    (h : exec (deposit depositor amount) frame env = (.error f, env')) :
    env' = env ∧ f ≠ .trap .overflow := by
  rw [deposit_exec] at h
  split at h
  · split at h
    · cases h; exact ⟨rfl, by simp⟩
    · simp only at h
      split at h
      · cases h
      · cases h; exact ⟨rfl, by simp⟩
  · cases h; exact ⟨rfl, by simp⟩

/-- When a withdrawal succeeds, and what it does. -/
theorem withdraw_ok_iff {owner : Address} {amount : I128} {r : ShieldedAccount Address} :
    exec (withdraw owner amount) frame env = (.ok r, env') ↔
      frame.auth owner = true ∧ 0 < amount.toInt ∧
      ∃ account, env.lookup (.account owner) = some account ∧
        amount.toInt ≤ account.balance.toInt ∧ r.owner = account.owner ∧
        r.balance.toInt = account.balance.toInt - amount.toInt ∧
        env' = env.put (.account owner) r := by
  rw [withdraw_exec]
  constructor
  · intro h
    split at h
    · next hauth =>
      split at h
      · cases h
      · next hpos =>
        split at h
        · next account hacc =>
          split at h
          · cases h
          · next hle =>
            split at h
            · next balance hsub =>
              cases h
              rw [SInt.checkedSub_eq_some_iff] at hsub
              exact ⟨hauth, SInt.not_le.1 hpos, account, hacc, SInt.not_lt.1 hle, rfl, hsub, rfl⟩
            · cases h
        · cases h
    · cases h
  · rintro ⟨hauth, hpos, account, hacc, hle, howner, hsub, rfl⟩
    obtain ⟨o, balance⟩ := r
    have hpos' : ¬amount ≤ 0 := SInt.not_le.2 hpos
    have hle' : ¬account.balance < amount := SInt.not_lt.2 hle
    rw [if_pos hauth, if_neg hpos']
    simp only [hacc, if_neg hle', SInt.checkedSub_eq_some_iff.2 hsub, ← howner]

/-- A withdrawal that does not succeed changes nothing. The two guards before the subtraction keep
it in range, so no arithmetic trap ends it. -/
theorem withdraw_error {owner : Address} {amount : I128} {f : Fault}
    (h : exec (withdraw owner amount) frame env = (.error f, env')) :
    env' = env ∧ f ≠ .trap .overflow := by
  rw [withdraw_exec] at h
  split at h
  · split at h
    · cases h; exact ⟨rfl, by simp⟩
    · next hpos =>
      split at h
      · next account hacc =>
        split at h
        · cases h; exact ⟨rfl, by simp⟩
        · next hle =>
          obtain ⟨z, hz⟩ :=
            SInt.exists_checkedSub (le_of_lt (SInt.not_le.1 hpos)) (SInt.not_lt.1 hle)
          simp only [hz] at h
          cases h
      · cases h; exact ⟨rfl, by simp⟩
  · cases h; exact ⟨rfl, by simp⟩

end PrivacyShield.Contract
