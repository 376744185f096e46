import PrivacyShield.Verify.Accounts
import PrivacyShield.Verify.Order
import PrivacyShield.Verify.Supply

/-!
# Availability

* Nothing is locked in: from every reachable environment any holders can withdraw all they hold, one
  after the other and in any order. When everybody has, the sum of the balances is zero.
* Nobody is locked out: while all balances together fit in an `i128`, a recipient cannot block a
  payment. The overflow check of a credit then never fails.
-/

namespace PrivacyShield.Contract

open PrivacyShield.Lib

variable {Address : Type} [DecidableEq Address] (host : Host Address) {env : Env Address}

/-! ## Leaving the pool -/

/-- A holder withdraws its whole balance. -/
theorem exit_step {a : Address} {amount : I128} {auth : Address → Bool} (hinit : env.Initialized)
    (hauth : auth a = true) (hbalance : env.ledger a = some amount.toInt)
    (hpos : 0 < amount.toInt) :
    ∃ r env', (shield host).step env ⟨.withdraw a amount, auth⟩ = (.ok r, env') ∧
      env'.Initialized ∧ env'.ledger = env.ledger.post (a, -amount.toInt) ∧
      env'.totalBalance = env.totalBalance - amount.toInt := by
  have haccepts : Accepts host env ⟨.withdraw a amount, auth⟩ :=
    withdraw_accepted_iff.2 ⟨hinit, hauth, hpos, _, hbalance, Int.le_refl _⟩
  obtain ⟨r, env', hs⟩ := accepts_iff.1 haccepts
  refine ⟨r, env', step_ok_iff.2 hs, hs.initialized hinit, hs.ledger, ?_⟩
  rw [hs.totalBalance, sum_postings]
  simp only [amountDeposited, amountWithdrawn, amountSelfTransferred]
  omega

/-- The withdrawals of whole balances, in the order of the list. -/
def exits (amount : Address → I128) (auth : Address → Address → Bool) (holders : List Address) :
    List (Invocation Address) :=
  holders.map fun a => ⟨.withdraw a (amount a), auth a⟩

section Exits

variable {amount : Address → I128} {auth : Address → Address → Bool} {holders : List Address}

/-- Each exit leaves the balances of the holders after it alone. -/
theorem exits_run (hinit : env.Initialized) (hnodup : holders.Nodup)
    (hauth : ∀ a ∈ holders, auth a a = true)
    (hfunded : ∀ a ∈ holders, env.ledger a = some (amount a).toInt ∧ 0 < (amount a).toInt) :
    AllSucceed host env (exits amount auth holders) ∧
    (∀ a, ((shield host).run env (exits amount auth holders)).ledger a =
      if a ∈ holders then some 0 else env.ledger a) ∧
    ((shield host).run env (exits amount auth holders)).totalBalance =
      env.totalBalance - (holders.map fun a => (amount a).toInt).sum := by
  induction holders generalizing env with
  | nil =>
    refine ⟨fun e he => ?_, fun a => rfl, ?_⟩
    · cases he
    · exact (sub_zero _).symm
  | cons a holders ih =>
    obtain ⟨hnotMem, hnodup⟩ := List.nodup_cons.1 hnodup
    obtain ⟨hbalance, hpos⟩ := hfunded a List.mem_cons_self
    obtain ⟨r, env', hstep, hinit', hledger, htotal⟩ :=
      exit_step host hinit (hauth a List.mem_cons_self) hbalance hpos
    have hsame : ∀ b ∈ holders, env'.ledger b = env.ledger b := by
      intro b hb
      have hne : a ≠ b := fun hab => hnotMem (hab ▸ hb)
      rw [hledger, Ledger.post_apply, if_neg hne]
    obtain ⟨hall, hafter, hsum⟩ := ih hinit' hnodup
      (fun b hb => hauth b (List.mem_cons_of_mem a hb))
      (fun b hb => hsame b hb ▸ hfunded b (List.mem_cons_of_mem a hb))
    have htrace : (shield host).trace env (exits amount auth (a :: holders)) =
        (⟨.withdraw a (amount a), auth a⟩, .ok r) ::
          (shield host).trace env' (exits amount auth holders) := by
      rw [exits, List.map_cons, Machine.trace_cons, hstep]
      rfl
    have hrun : (shield host).run env (exits amount auth (a :: holders)) =
        (shield host).run env' (exits amount auth holders) := by
      rw [exits, List.map_cons, Machine.run_cons, hstep]
      rfl
    refine ⟨fun e he => ?_, fun b => ?_, ?_⟩
    · rw [htrace] at he
      rcases List.mem_cons.1 he with rfl | he
      · rfl
      · exact hall e he
    · rw [hrun, hafter b, hledger, Ledger.post_apply]
      by_cases hb : b ∈ holders
      · rw [if_pos hb, if_pos (List.mem_cons_of_mem a hb)]
      · by_cases hab : a = b
        · subst hab
          rw [if_neg hb, if_pos rfl, if_pos List.mem_cons_self, hbalance, Option.getD_some]
          exact congrArg some (Int.add_right_neg _)
        · have hnot : b ∉ a :: holders := by
            rw [List.mem_cons, not_or]
            exact ⟨Ne.symm hab, hb⟩
          rw [if_neg hb, if_neg hab, if_neg hnot]
    · rw [hrun, hsum, htotal, List.map_cons, List.sum_cons]
      omega

end Exits

/-- Balances that are all zero sum up to zero. -/
theorem totalBalance_eq_zero (h : ∀ a b, env.ledger a = some b → b = 0) : env.totalBalance = 0 := by
  refine Finmap.weigh_eq_zero entryBalance fun key value hkey => ?_
  cases key with
  | account a => exact h a _ (ledger_of_lookup hkey)
  | _ => rfl

/-- From every reachable initialized environment, holders who withdraw what they hold, in any order,
all succeed; their accounts are empty then and the others are as before. When nobody else holds
anything, nothing is left in the pool. -/
theorem everyone_can_exit (host : Host Address) (invs : List (Invocation Address))
    (holders : List Address) (amount : Address → I128) (auth : Address → Address → Bool)
    (hinit : (runOf host invs).Initialized) (hnodup : holders.Nodup)
    (hauth : ∀ a ∈ holders, auth a a = true)
    (hfunded : ∀ a ∈ holders,
      (runOf host invs).ledger a = some (amount a).toInt ∧ 0 < (amount a).toInt) :
    let env := runOf host invs
    let env' := (shield host).run env (exits amount auth holders)
    AllSucceed host env (exits amount auth holders) ∧
    (∀ a, env'.ledger a = if a ∈ holders then some 0 else env.ledger a) ∧
    env'.totalBalance = env.totalBalance - (holders.map fun a => (amount a).toInt).sum ∧
    ((∀ a b, env.ledger a = some b → 0 < b → a ∈ holders) → env'.totalBalance = 0) := by
  intro env env'
  obtain ⟨hall, hafter, hsum⟩ := exits_run host hinit hnodup hauth hfunded
  refine ⟨hall, hafter, hsum, fun hothers => ?_⟩
  refine totalBalance_eq_zero fun a b hb => ?_
  rw [hafter a] at hb
  split at hb
  · exact (Option.some.inj hb).symm
  · next hnotMem =>
    obtain ⟨account, hacc, rfl⟩ := exists_account_of_ledger hb
    have hnonneg := (runOf_wellFormed host invs).nonneg hacc
    have hnotPos : ¬0 < account.balance.toInt := fun hpos => hnotMem (hothers a _ hb hpos)
    omega

/-- Alice and Bob leave, Bob first: the pool is empty. -/
theorem alice_and_bob_exit :
    let invs : List (Invocation ScAddress) :=
      [⟨.initializePool Sample.bob, fun _ => true⟩,
        ⟨.deposit Sample.alice (Sample.amount 100), fun _ => true⟩,
        ⟨.confidentialTransfer Sample.alice Sample.bob (Sample.proof 30 7), fun _ => true⟩]
    let amount : ScAddress → I128 := fun a =>
      if a = Sample.alice then Sample.amount 70 else Sample.amount 30
    ((shield soroban).run (runOf soroban invs)
      (exits amount (fun a b => a == b) [Sample.bob, Sample.alice])).totalBalance = 0 := by
  intro invs amount
  have hfunded : ∀ a ∈ [Sample.bob, Sample.alice],
      (runOf soroban invs).ledger a = some (amount a).toInt ∧ 0 < (amount a).toInt := by
    decide
  obtain ⟨-, -, htotal, -⟩ := everyone_can_exit soroban invs [Sample.bob, Sample.alice] amount
    (fun a b => a == b) (by decide) (by decide) (by decide) hfunded
  rw [htotal]
  decide

/-! ## Credits that cannot overflow -/

theorem weightAt_account (env : Env Address) (a : Address) :
    Finmap.weightAt entryBalance env.storage (.account a) = (env.ledger a).getD 0 := by
  unfold Finmap.weightAt Env.ledger Env.lookup
  cases env.storage.lookup (.account a) <;> rfl

theorem Env.WellFormed.entryBalance_nonneg (h : env.WellFormed) (key : DataKey Address)
    (value : key.Value) (hkey : env.storage.lookup key = some value) :
    0 ≤ entryBalance key value := by
  cases key with
  | account a => exact h.nonneg hkey
  | _ => exact Int.le_refl 0

/-- Two accounts hold at most what all accounts hold. -/
theorem Env.WellFormed.add_le_totalBalance (h : env.WellFormed) {a b : Address} (hne : a ≠ b) :
    (env.ledger a).getD 0 + (env.ledger b).getD 0 ≤ env.totalBalance := by
  rw [← weightAt_account, ← weightAt_account]
  exact Finmap.weightAt_add_le_weigh entryBalance h.entryBalance_nonneg (by simpa using hne)

/-- One account holds at most what all accounts hold. -/
theorem Env.WellFormed.le_totalBalance (h : env.WellFormed) (a : Address) :
    (env.ledger a).getD 0 ≤ env.totalBalance := by
  rw [← weightAt_account]
  exact Finmap.weightAt_le_weigh entryBalance h.entryBalance_nonneg (.account a)

/-- In every reachable environment whose balances add up to at most `i128::MAX`: a payment to
somebody else depends on its sender alone, and a deposit with which the sum still fits succeeds. -/
theorem credits_never_blocked (host : Host Address) (invs : List (Invocation Address))
    (hsupply : (runOf host invs).totalBalance ≤ 2 ^ 127 - 1) :
    let env := runOf host invs
    (∀ f t mock auth, f ≠ t →
      (Accepts host env ⟨.confidentialTransfer f t (.mock mock), auth⟩ ↔
        env.Initialized ∧ auth f = true ∧ 0 < mock.amount.toInt ∧
        ∃ b, env.ledger f = some b ∧ mock.amount.toInt ≤ b)) ∧
    ∀ a (amount : I128) auth, env.totalBalance + amount.toInt ≤ 2 ^ 127 - 1 →
      (Accepts host env ⟨.deposit a amount, auth⟩ ↔
        env.Initialized ∧ auth a = true ∧ 0 < amount.toInt) := by
  intro env
  have hwf : env.WellFormed := runOf_wellFormed host invs
  have hsum : env.totalBalance ≤ 2 ^ 127 - 1 := hsupply
  refine ⟨fun f t mock auth hne => ?_, fun a amount auth hfits => ?_⟩
  · rw [transfer_accepted_iff]
    refine ⟨fun h => ⟨h.1, h.2.1, h.2.2.1, h.2.2.2.1⟩, fun h => ?_⟩
    obtain ⟨hinit, hauth, hpos, b, hb, hle⟩ := h
    refine ⟨hinit, hauth, hpos, ⟨b, hb, hle⟩, ?_⟩
    -- the amount is part of what the sender holds
    have hpair := hwf.add_le_totalBalance hne
    rw [hb, Option.getD_some] at hpair
    omega
  · rw [deposit_accepted_iff]
    refine ⟨fun h => ⟨h.1, h.2.1, h.2.2.1⟩, fun h => ?_⟩
    obtain ⟨hinit, hauth, hpos⟩ := h
    have hle := hwf.le_totalBalance a
    exact ⟨hinit, hauth, hpos, by omega⟩

/-- The whole of `i128::MAX` is in the pool, and Alice can pay Bob all of her half. -/
theorem full_pool_accepts_payment :
    let half : I128 := ⟨2 ^ 126, by decide, by decide⟩
    let rest : I128 := ⟨2 ^ 126 - 1, by decide, by decide⟩
    let invs : List (Invocation ScAddress) :=
      [⟨.initializePool Sample.carol, fun _ => true⟩, ⟨.deposit Sample.alice half, fun _ => true⟩,
        ⟨.deposit Sample.bob rest, fun _ => true⟩]
    Accepts soroban (runOf soroban invs)
      ⟨.confidentialTransfer Sample.alice Sample.bob (.mock ⟨half, .replicate 32 7⟩),
        fun _ => true⟩ := by
  intro half rest invs
  have hsupply : (runOf soroban invs).totalBalance ≤ 2 ^ 127 - 1 := by decide
  obtain ⟨htransfer, -⟩ := credits_never_blocked soroban invs hsupply
  refine (htransfer _ _ _ _ (by decide)).2 ⟨by decide, rfl, by decide, 2 ^ 126, by decide, ?_⟩
  decide

end PrivacyShield.Contract
