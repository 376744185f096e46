import PrivacyShield.Verify.Order
import PrivacyShield.Verify.Supply

/-!
# What self-transfers can mint

A transfer from an address to itself credits its amount and debits nothing, so it mints up to what
the address holds. A holder of a positive balance `b` reaches exactly the balances up to `2 ^ k * b`
with `k` self-transfers, as far as an `i128` can hold them (`self_transfers_mint_iff`): from a single
unit everything in 127 calls, without anybody else's balance changing.
-/

namespace PrivacyShield.Contract

open PrivacyShield.Lib

variable {Address : Type} [DecidableEq Address] {host : Host Address} {env : Env Address}
  {a : Address} {auth : Address → Bool} {nonce : BytesN 32}

/-- Transfers of `a` to itself. -/
def selfTransfers (a : Address) (auth : Address → Bool) (nonce : BytesN 32)
    (amounts : List I128) : List (Invocation Address) :=
  amounts.map fun amount => ⟨.confidentialTransfer a a (.mock ⟨amount, nonce⟩), auth⟩

/-- A self-transfer that succeeds adds its amount to the balance. -/
theorem Succeeds.of_selfTransfer {amount : I128} {env' : Env Address} {r : Reply Address}
    (h : Succeeds ⟨host, auth⟩ env (.confidentialTransfer a a (.mock ⟨amount, nonce⟩)) r env') :
    env'.ledger = env.ledger.post (a, amount.toInt) ∧
      env'.totalBalance = env.totalBalance + amount.toInt := by
  have hpostings : postings (.confidentialTransfer a a (.mock ⟨amount, nonce⟩)) =
      [(a, amount.toInt)] := if_pos rfl
  constructor
  · rw [h.ledger, hpostings]
    rfl
  · rw [h.totalBalance, hpostings]
    simp

/-- A stored balance fits in an `i128`. -/
theorem ledger_le {b : ℤ} (hb : env.ledger a = some b) : b ≤ 2 ^ 127 - 1 := by
  obtain ⟨account, -, rfl⟩ := exists_account_of_ledger hb
  have hup := account.balance.upper
  omega

/-- Transfers of `a` to itself, whatever their nonces and authorizations, move nobody else's balance.
Each at most doubles that of `a`. -/
theorem run_selfTransfers {invs : List (Invocation Address)} {b : ℤ}
    (hself : ∀ inv ∈ invs, ∃ mock, inv.call = .confidentialTransfer a a (.mock mock))
    (hall : AllSucceed host env invs) (hb : env.ledger a = some b) (hpos : 0 < b) :
    ∃ T, ((shield host).run env invs).ledger = env.ledger.post (a, T - b) ∧
      ((shield host).run env invs).totalBalance = env.totalBalance + (T - b) ∧
      b ≤ T ∧ T ≤ 2 ^ invs.length * b := by
  induction invs generalizing env b with
  | nil =>
    refine ⟨b, ?_, ?_, le_rfl, ?_⟩
    · rw [Machine.run_nil, sub_self, Ledger.post_zero hb]
    · rw [Machine.run_nil, sub_self, add_zero]
    · rw [List.length_nil, pow_zero, one_mul]
  | cons inv invs ih =>
    obtain ⟨call, auth⟩ := inv
    obtain ⟨⟨amount, nonce⟩, hcall⟩ := hself _ List.mem_cons_self
    dsimp only at hcall
    subst hcall
    obtain ⟨r, -, hs⟩ := step_of_isOk (hall _ List.mem_cons_self)
    obtain ⟨hledger, htotal⟩ := hs.of_selfTransfer
    obtain ⟨-, -, hamount, ⟨b', hb', hle⟩, -⟩ :=
      transfer_accepted_iff.1 (accepts_iff.2 ⟨r, _, hs⟩)
    rw [hb] at hb'
    cases hb'
    dsimp only at hamount hle
    have hnext : ((shield host).step env
        ⟨.confidentialTransfer a a (.mock ⟨amount, nonce⟩), auth⟩).2.ledger a =
        some (b + amount.toInt) := by
      rw [hledger, Ledger.post_apply, if_pos rfl, hb, Option.getD_some]
    obtain ⟨T, hrun, hsum, hlow, hhigh⟩ := ih (fun i hi => hself i (List.mem_cons_of_mem _ hi))
      (fun e he => hall e (List.mem_cons_of_mem _ he)) hnext (by omega)
    have hdouble : 2 ^ invs.length * (b + amount.toInt) ≤ 2 ^ (invs.length + 1) * b := by
      rw [pow_succ, mul_assoc]
      exact mul_le_mul_of_nonneg_left (by omega) (by positivity)
    refine ⟨T, ?_, ?_, by omega, hhigh.trans hdouble⟩
    · rw [Machine.run_cons, hrun, hledger, Ledger.post_post]
      congr 2
      omega
    · rw [Machine.run_cons, hsum, htotal]
      omega

/-- A self-transfer of what the holder has and the target leaves room for. -/
theorem selfTransfer_step (host : Host Address) (nonce : BytesN 32) {b x : ℤ} (hinit : env.Initialized)
    (hauth : auth a = true) (hb : env.ledger a = some b) (hpos : 0 < x) (hle : x ≤ b)
    (hmax : b + x ≤ 2 ^ 127 - 1) :
    ∃ (amount : I128) (r : Reply Address) (env' : Env Address),
      (shield host).step env ⟨.confidentialTransfer a a (.mock ⟨amount, nonce⟩), auth⟩ =
        (.ok r, env') ∧
      env'.Initialized ∧ env'.ledger = env.ledger.post (a, x) := by
  obtain ⟨amount, rfl⟩ : ∃ amount : I128, amount.toInt = x := ⟨⟨x, by omega, by omega⟩, rfl⟩
  have haccepts : Accepts host env
      ⟨.confidentialTransfer a a (.mock ⟨amount, nonce⟩), auth⟩ := by
    refine transfer_accepted_iff.2 ⟨hinit, hauth, hpos, ⟨b, hb, hle⟩, ?_⟩
    rwa [hb, Option.getD_some]
  obtain ⟨r, env', hs⟩ := accepts_iff.1 haccepts
  exact ⟨amount, r, env', step_ok_iff.2 hs, hs.initialized hinit, hs.of_selfTransfer.1⟩

/-- Doubling reaches every balance up to the bound. -/
theorem exists_selfTransfers (host : Host Address) (auth : Address → Bool) (nonce : BytesN 32)
    {b T : ℤ} {k : ℕ} (hinit : env.Initialized) (hauth : auth a = true)
    (hb : env.ledger a = some b) (hpos : 0 < b) (hle : b ≤ T) (hT : T ≤ 2 ^ k * b)
    (hmax : T ≤ 2 ^ 127 - 1) :
    ∃ amounts, amounts.length ≤ k ∧ AllSucceed host env (selfTransfers a auth nonce amounts) ∧
      ((shield host).run env (selfTransfers a auth nonce amounts)).ledger =
        env.ledger.post (a, T - b) := by
  induction k generalizing env b with
  | zero =>
    obtain rfl : b = T := by
      rw [pow_zero, one_mul] at hT
      omega
    have hempty : selfTransfers a auth nonce [] = [] := rfl
    refine ⟨[], le_rfl, ?_, ?_⟩
    · intro e he
      cases he
    · rw [hempty, Machine.run_nil, sub_self, Ledger.post_zero hb]
  | succ k ih =>
    rcases hle.eq_or_lt with rfl | hlt
    · obtain ⟨amounts, hlength, hreached⟩ := ih hinit hb hpos le_rfl
        (le_mul_of_one_le_left hpos.le (one_le_pow₀ (by decide)))
      exact ⟨amounts, Nat.le_succ_of_le hlength, hreached⟩
    · -- double the balance, or mint what is missing
      obtain ⟨x, hx, hxb, hxT, hrest⟩ : ∃ x, 0 < x ∧ x ≤ b ∧ b + x ≤ T ∧ T ≤ 2 ^ k * (b + x) := by
        by_cases hdouble : 2 * b ≤ T
        · refine ⟨b, hpos, le_rfl, by omega, ?_⟩
          rw [pow_succ, mul_assoc] at hT
          rwa [← two_mul]
        · refine ⟨T - b, by omega, by omega, by omega, ?_⟩
          rw [add_sub_cancel]
          exact le_mul_of_one_le_left (by omega) (one_le_pow₀ (by decide))
      obtain ⟨amount, r, env', hstep, hinit', hledger⟩ :=
        selfTransfer_step host nonce hinit hauth hb hx hxb (by omega)
      have hb' : env'.ledger a = some (b + x) := by
        rw [hledger, Ledger.post_apply, if_pos rfl, hb, Option.getD_some]
      obtain ⟨amounts, hlength, hall, hrun⟩ := ih hinit' hb' (by omega) hxT hrest
      have hcons : selfTransfers a auth nonce (amount :: amounts) =
          ⟨.confidentialTransfer a a (.mock ⟨amount, nonce⟩), auth⟩ ::
            selfTransfers a auth nonce amounts := rfl
      refine ⟨amount :: amounts, Nat.succ_le_succ hlength, ?_, ?_⟩
      · rw [hcons, AllSucceed, Machine.trace_cons, hstep]
        exact List.forall_mem_cons.2 ⟨rfl, hall⟩
      · rw [hcons, Machine.run_cons, hstep, hrun, hledger, Ledger.post_post]
        congr 2
        omega

/-- From any initialized environment and for the holder of `b`: successful self-transfers change
nobody else's balance, and the sum of all balances grows by what they mint. The balances that the
holder reaches with at most `k` of them are exactly those from `b` to `2 ^ k * b` that fit in an
`i128`. -/
theorem self_transfers_mint_iff (host : Host Address) (env : Env Address) (a : Address)
    (auth : Address → Bool) (nonce : BytesN 32) (b : ℤ) (hinit : env.Initialized)
    (hauth : auth a = true) (hb : env.ledger a = some b) (hpos : 0 < b) :
    (∀ invs : List (Invocation Address),
      (∀ inv ∈ invs, ∃ mock, inv.call = .confidentialTransfer a a (.mock mock)) →
      AllSucceed host env invs →
      let env' := (shield host).run env invs
      ∃ T, (∀ a', env'.ledger a' = if a' = a then some T else env.ledger a') ∧
        env'.totalBalance = env.totalBalance + (T - b) ∧
        b ≤ T ∧ T ≤ 2 ^ invs.length * b ∧ T ≤ 2 ^ 127 - 1) ∧
    ∀ (T : ℤ) (k : ℕ), (∃ amounts : List I128, amounts.length ≤ k ∧
      AllSucceed host env (selfTransfers a auth nonce amounts) ∧
      ((shield host).run env (selfTransfers a auth nonce amounts)).ledger a = some T) ↔
    b ≤ T ∧ T ≤ 2 ^ k * b ∧ T ≤ 2 ^ 127 - 1 := by
  refine ⟨fun invs hself hall => ?_, fun T k => ⟨?_, ?_⟩⟩
  · obtain ⟨T, hledger, htotal, hlow, hhigh⟩ := run_selfTransfers hself hall hb hpos
    have hafter : ∀ a', ((shield host).run env invs).ledger a' =
        if a' = a then some T else env.ledger a' := by
      intro a'
      rw [hledger, Ledger.post_apply_of_some hb, add_sub_cancel]
    exact ⟨T, hafter, htotal, hlow, hhigh, ledger_le ((hafter a).trans (if_pos rfl))⟩
  · rintro ⟨amounts, hlength, hall, hT⟩
    have hself : ∀ inv ∈ selfTransfers a auth nonce amounts,
        ∃ mock, inv.call = .confidentialTransfer a a (.mock mock) := by
      intro inv hinv
      obtain ⟨amount, -, rfl⟩ := List.mem_map.1 hinv
      exact ⟨_, rfl⟩
    obtain ⟨T', hledger, -, hlow, hhigh⟩ := run_selfTransfers hself hall hb hpos
    have hmax := ledger_le hT
    rw [hledger, Ledger.post_apply_of_some hb, if_pos rfl, add_sub_cancel] at hT
    cases hT
    have hpow : (2 : ℤ) ^ (selfTransfers a auth nonce amounts).length ≤ 2 ^ k := by
      rw [selfTransfers, List.length_map]
      exact pow_le_pow_right₀ (by decide) hlength
    exact ⟨hlow, hhigh.trans (mul_le_mul_of_nonneg_right hpow hpos.le), hmax⟩
  · rintro ⟨hle, hT, hmax⟩
    obtain ⟨amounts, hlength, hall, hledger⟩ :=
      exists_selfTransfers host auth nonce hinit hauth hb hpos hle hT hmax
    refine ⟨amounts, hlength, hall, ?_⟩
    rw [hledger, Ledger.post_apply_of_some hb, if_pos rfl, add_sub_cancel]

/-- With one unit in the pool, Alice holds the whole `i128` range after at most 127 transfers to
herself. -/
theorem alice_mints_everything :
    let env : Env ScAddress := runOf soroban
      [⟨.initializePool Sample.bob, fun _ => true⟩,
        ⟨.deposit Sample.alice (Sample.amount 1), fun _ => true⟩]
    ∃ amounts : List I128, amounts.length ≤ 127 ∧
      ((shield soroban).run env
        (selfTransfers Sample.alice (fun a => a == Sample.alice) (.replicate 32 7) amounts)).ledger
          Sample.alice = some (2 ^ 127 - 1) := by
  intro env
  obtain ⟨-, hreached⟩ := self_transfers_mint_iff soroban env Sample.alice
    (fun a => a == Sample.alice) (.replicate 32 7) 1 (by decide) (by decide) (by decide)
    (by decide)
  obtain ⟨amounts, hlength, -, hledger⟩ :=
    (hreached (2 ^ 127 - 1) 127).2 ⟨by decide, by decide, le_rfl⟩
  exact ⟨amounts, hlength, hledger⟩

end PrivacyShield.Contract
