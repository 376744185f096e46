import PrivacyShield.Contract.Soroban
import PrivacyShield.Lib.FinmapSum
import PrivacyShield.Verify.Ledger

/-!
# The shielded supply

The sum of all balances moves by what a call posts (`Succeeds.totalBalance`), so a run ends with its
deposits less its withdrawals plus what transfers from an address to itself added
(`totalBalance_runOf`). The supply is conserved exactly in the runs that make no such transfer.
-/

namespace PrivacyShield.Contract

open PrivacyShield.Lib

variable {Address : Type} [DecidableEq Address] {frame : Frame Address} {env env' : Env Address}

/-- What an entry of the storage holds: the balance of an account, nothing otherwise. -/
def entryBalance : (key : DataKey Address) → key.Value → Int
  | .account _, account => account.balance.toInt
  | .assetContract, _ => 0
  | .transfer _, _ => 0
  | .disclosure _, _ => 0

/-- The sum of the balances of all accounts. -/
def Env.totalBalance (env : Env Address) : Int := env.storage.weigh entryBalance

/-! ## Effect of the writes on the sum -/

theorem totalBalance_put_account (env : Env Address) (a : Address) (r : ShieldedAccount Address) :
    (env.put (.account a) r).totalBalance =
      env.totalBalance - (env.ledger a).getD 0 + r.balance.toInt := by
  have hweight : Finmap.weightAt entryBalance env.storage (.account a) =
      (env.ledger a).getD 0 := by
    unfold Finmap.weightAt Env.ledger Env.lookup
    cases env.storage.lookup (.account a) <;> rfl
  unfold Env.totalBalance Env.put
  rw [Finmap.weigh_insert, hweight]
  rfl

/-- Entries that are not accounts hold nothing. -/
theorem totalBalance_put_of_ne (env : Env Address) {key : DataKey Address} (value : key.Value)
    (h : ∀ a, DataKey.account a ≠ key) : (env.put key value).totalBalance = env.totalBalance := by
  have hzero : ∀ v : key.Value, entryBalance key v = 0 := by
    intro v
    cases key with
    | account a => exact absurd rfl (h a)
    | _ => rfl
  have hweight : Finmap.weightAt entryBalance env.storage key = 0 := by
    unfold Finmap.weightAt
    cases env.storage.lookup key with
    | none => rfl
    | some v => exact hzero v
  unfold Env.totalBalance Env.put
  rw [Finmap.weigh_insert, hweight, hzero, sub_zero, add_zero]

theorem totalBalance_transferred (f t : Address) (acc acc' : ShieldedAccount Address)
    (id : BytesN 32) (amount : I128) :
    (env.transferred f t acc acc' id amount).totalBalance =
      ((env.put (.account f) acc).put (.account t) acc').totalBalance :=
  totalBalance_put_of_ne _ _ (by simp)

/-- A successful call moves the sum of the balances by what it posts. -/
theorem Succeeds.totalBalance {call : Call Address} {r : Reply Address}
    (h : Succeeds frame env call r env') :
    env'.totalBalance = env.totalBalance + ((postings call).map Prod.snd).sum := by
  cases h with
  | initializePool hfresh =>
    rw [totalBalance_put_of_ne _ _ (by simp)]
    exact (add_zero _).symm
  | deposit hinit hauth hpos howner hadd =>
    rw [totalBalance_put_account, hadd, accountOr_balance]
    simp only [postings, List.map_cons, List.map_nil, List.sum_singleton]
    omega
  | withdraw hinit hauth hpos hacc hle howner hsub =>
    rw [totalBalance_put_account, hsub, ledger_of_lookup hacc, Option.getD_some]
    simp only [postings, List.map_cons, List.map_nil, List.sum_singleton]
    omega
  | balance => exact (add_zero _).symm
  | @confidentialTransfer f t mock id acc acc' acc'' hinit hauth hpos hid hacc hle hfrom hsub hto
      hadd =>
    rw [totalBalance_transferred, totalBalance_put_account, totalBalance_put_account, hadd, hsub,
      accountOr_balance, ledger_of_lookup hacc, Option.getD_some]
    by_cases heq : f = t
    · -- the second write replaces the first
      subst heq
      rw [ledger_of_lookup (env.lookup_put_self _ _), ledger_of_lookup hacc, Option.getD_some,
        Option.getD_some, hsub, postings, if_pos rfl]
      simp only [List.map_cons, List.map_nil, List.sum_singleton]
      omega
    · have hto : (env.put (.account f) acc').ledger t = env.ledger t := by
        unfold Env.ledger
        rw [Env.lookup_put_of_ne _ _ (by simpa using Ne.symm heq)]
      rw [hto, postings, if_neg heq]
      simp only [List.map_cons, List.map_nil, List.sum_cons, List.sum_nil]
      omega
  | recordDisclosureRequest hauth hrec hparty =>
    rw [totalBalance_put_of_ne _ _ (by simp)]
    exact (add_zero _).symm
  | verifyDisclosure hrec hhash => exact (add_zero _).symm

/-! ## Deposits, withdrawals and transfers to oneself -/

def amountDeposited : Call Address → Int
  | .deposit _ amount => amount.toInt
  | _ => 0

def amountWithdrawn : Call Address → Int
  | .withdraw _ amount => amount.toInt
  | _ => 0

/-- The amount of a transfer from an address to itself. -/
def amountSelfTransferred : Call Address → Int
  | .confidentialTransfer f t (.mock mock) => if f = t then mock.amount.toInt else 0
  | _ => 0

theorem sum_postings (call : Call Address) :
    ((postings call).map Prod.snd).sum =
      amountDeposited call - amountWithdrawn call + amountSelfTransferred call := by
  cases call with
  | confidentialTransfer f t proof =>
    obtain ⟨mock⟩ := proof
    simp only [postings, amountDeposited, amountWithdrawn, amountSelfTransferred]
    split
    · simp
    · simp
  | deposit => simp [postings, amountDeposited, amountWithdrawn, amountSelfTransferred]
  | withdraw => simp [postings, amountDeposited, amountWithdrawn, amountSelfTransferred]
  | _ => rfl

/-- Deposits less withdrawals, plus what self-transfers minted. -/
theorem totalBalance_runOf (host : Host Address) (invs : List (Invocation Address)) :
    (runOf host invs).totalBalance =
      sumOver (successesOf host invs) amountDeposited -
        sumOver (successesOf host invs) amountWithdrawn +
        sumOver (successesOf host invs) amountSelfTransferred := by
  refine successesOf_induction (P := fun l env => env.totalBalance = sumOver l amountDeposited -
    sumOver l amountWithdrawn + sumOver l amountSelfTransferred) rfl
    (fun l env inv r env' hP hs => ?_) invs
  rw [hs.totalBalance, hP, sum_postings, sumOver_concat, sumOver_concat, sumOver_concat]
  omega

/-! ## When the supply is conserved -/

/-- The invocation is a transfer from an address to itself, and none of the guards of the transfer
stops it. -/
def SelfTransferPasses (env : Env Address) (inv : Invocation Address) : Prop :=
  ∃ a mock, inv.call = .confidentialTransfer a a (.mock mock) ∧ env.Initialized ∧
    inv.auth a = true ∧ 0 < mock.amount.toInt ∧
    ∃ b, env.ledger a = some b ∧ mock.amount.toInt ≤ b ∧ b + mock.amount.toInt ≤ 2 ^ 127 - 1

/-- A self-transfer that passes the guards succeeds. -/
theorem SelfTransferPasses.accepts (host : Host Address) {inv : Invocation Address}
    (h : SelfTransferPasses env inv) : Accepts host env inv := by
  obtain ⟨call, auth⟩ := inv
  obtain ⟨a, mock, rfl, hinit, hauth, hpos, b, hb, hle, hup⟩ := h
  refine transfer_accepted_iff.2 ⟨hinit, hauth, hpos, ⟨b, hb, hle⟩, ?_⟩
  rw [hb, Option.getD_some]
  exact hup

/-- A successful call mints when it is a self-transfer, and never burns by transferring. -/
theorem Succeeds.amountSelfTransferred {host : Host Address} {inv : Invocation Address}
    {r : Reply Address} (h : Succeeds ⟨host, inv.auth⟩ env inv.call r env') :
    0 ≤ amountSelfTransferred inv.call ∧
      (amountSelfTransferred inv.call = 0 ↔ ¬SelfTransferPasses env inv) := by
  have haccepts : Accepts host env inv := accepts_iff.2 ⟨r, env', h⟩
  obtain ⟨call, auth⟩ := inv
  cases call with
  | confidentialTransfer f t proof =>
    obtain ⟨mock⟩ := proof
    obtain ⟨hinit, hauth, hpos, ⟨b, hb, hle⟩, hup⟩ := transfer_accepted_iff.1 haccepts
    by_cases heq : f = t
    · subst heq
      rw [hb, Option.getD_some] at hup
      have hpass : SelfTransferPasses env ⟨.confidentialTransfer f f (.mock mock), auth⟩ :=
        ⟨f, mock, rfl, hinit, hauth, hpos, b, hb, hle, hup⟩
      simp only [Contract.amountSelfTransferred, if_true]
      exact ⟨Int.le_of_lt hpos, fun h0 => by omega, fun hno => absurd hpass hno⟩
    · have hzero : Contract.amountSelfTransferred (.confidentialTransfer f t (.mock mock)) = 0 :=
        if_neg heq
      refine ⟨hzero.ge, fun _ hpass => ?_, fun _ => hzero⟩
      obtain ⟨a, mock', hcall, -⟩ := hpass
      cases hcall
      exact heq rfl
  | _ =>
    refine ⟨Int.le_refl 0, fun _ hpass => ?_, fun _ => rfl⟩
    obtain ⟨a, mock', hcall, -⟩ := hpass
    cases hcall

theorem amountSelfTransferred_nonneg {host : Host Address} {invs : List (Invocation Address)}
    {s : Invocation Address × Reply Address} (hs : s ∈ successesOf host invs) :
    0 ≤ amountSelfTransferred s.1.call := by
  obtain ⟨env, env', hsucc⟩ := exists_succeeds_of_mem hs
  exact hsucc.amountSelfTransferred.1

/-- A run mints nothing exactly when no self-transfer passes along it. -/
theorem minted_eq_zero_iff (host : Host Address) (invs : List (Invocation Address)) :
    sumOver (successesOf host invs) amountSelfTransferred = 0 ↔
      (shield host).Along (fun env inv => ¬SelfTransferPasses env inv) .empty invs := by
  rw [← forall_successesOf_iff_along (P := fun call => amountSelfTransferred call = 0)
    (fun h => h.accepts host) (fun hs => hs.amountSelfTransferred.2) invs]
  constructor
  · intro h s hs
    refine List.all_zero_of_le_zero_le_of_sum_eq_zero (fun x hx => ?_) h (List.mem_map_of_mem hs)
    obtain ⟨s, hs, rfl⟩ := List.mem_map.1 hx
    exact amountSelfTransferred_nonneg hs
  · intro h
    refine List.sum_eq_zero fun x hx => ?_
    obtain ⟨s, hs, rfl⟩ := List.mem_map.1 hx
    exact h s hs

/-- A run conserves the supply exactly when no transfer from an address to itself passes its guards
along it, and a successful transfer in any reachable environment leaves the sum of the balances
unchanged exactly when its parties differ. -/
theorem supply_conserved_iff (host : Host Address) (invs : List (Invocation Address)) :
    ((runOf host invs).totalBalance =
        sumOver (successesOf host invs) amountDeposited -
          sumOver (successesOf host invs) amountWithdrawn ↔
      (shield host).Along (fun env inv => ¬SelfTransferPasses env inv) .empty invs) ∧
    ∀ f t proof auth r env',
      (shield host).step (runOf host invs) ⟨.confidentialTransfer f t proof, auth⟩ = (.ok r, env') →
        (env'.totalBalance = (runOf host invs).totalBalance ↔ f ≠ t) := by
  refine ⟨?_, ?_⟩
  · rw [← minted_eq_zero_iff host invs, totalBalance_runOf]
    omega
  · intro f t proof auth r env' hstep
    obtain ⟨mock⟩ := proof
    have hs := step_ok_iff.1 hstep
    obtain ⟨-, -, hpos, -, -⟩ := transfer_accepted_iff.1 (accepts_iff.2 ⟨r, env', hs⟩)
    rw [hs.totalBalance, sum_postings]
    by_cases heq : f = t
    · simp only [amountDeposited, amountWithdrawn, amountSelfTransferred, if_pos heq]
      exact ⟨fun h0 => by omega, fun hne => absurd heq hne⟩
    · simp only [amountDeposited, amountWithdrawn, amountSelfTransferred, if_neg heq]
      exact ⟨fun _ => heq, fun _ => by omega⟩

/-- A transfer from Alice to Bob keeps the sum. -/
theorem transfer_to_bob_conserves :
    let invs : List (Invocation ScAddress) :=
      [⟨.initializePool Sample.bob, fun _ => true⟩,
        ⟨.deposit Sample.alice (Sample.amount 100), fun _ => true⟩]
    ((shield soroban).step (runOf soroban invs)
        ⟨.confidentialTransfer Sample.alice Sample.bob (Sample.proof 60 7), fun _ => true⟩
      ).2.totalBalance = (runOf soroban invs).totalBalance := by
  intro invs
  have haccepts : Accepts soroban (runOf soroban invs)
      ⟨.confidentialTransfer Sample.alice Sample.bob (Sample.proof 60 7), fun _ => true⟩ :=
    transfer_accepted_iff.2
      ⟨by decide, rfl, by decide, ⟨100, by decide, by decide⟩, by decide⟩
  obtain ⟨r, hr⟩ := haccepts
  obtain ⟨-, htransfer⟩ := supply_conserved_iff soroban invs
  exact (htransfer _ _ _ _ r _ (Prod.ext hr rfl)).2 (by decide)

/-- Alice deposits 100 and transfers 50 to herself: 150 are in the pool. -/
theorem self_transfer_breaks_conservation :
    let invs : List (Invocation ScAddress) :=
      [⟨.initializePool Sample.bob, fun _ => true⟩,
        ⟨.deposit Sample.alice (Sample.amount 100), fun _ => true⟩,
        ⟨.confidentialTransfer Sample.alice Sample.alice (Sample.proof 50 7), fun _ => true⟩]
    (runOf soroban invs).totalBalance = 150 ∧
      (runOf soroban invs).totalBalance ≠
        sumOver (successesOf soroban invs) amountDeposited -
          sumOver (successesOf soroban invs) amountWithdrawn := by
  decide

end PrivacyShield.Contract
