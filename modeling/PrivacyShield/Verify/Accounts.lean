import PrivacyShield.Contract.Soroban
import PrivacyShield.Verify.Ledger

/-!
# Accounts: well-formedness, arithmetic and protection

* In every reachable environment an account is stored under its owner and its balance is not
  negative (`Env.WellFormed`), and no call is ended by an arithmetic trap.
* A call that an address did not authorize cannot lower the balance of that address
  (`Succeeds.balance_mono`), so no run of such calls takes a possible withdrawal away.
-/

namespace PrivacyShield.Contract

open PrivacyShield.Lib

variable {Address : Type} [DecidableEq Address] {frame : Frame Address} {env env' : Env Address}

/-! ## Well-formed accounts -/

/-- Accounts are stored under their owners and hold no negative balance. -/
structure Env.WellFormed (env : Env Address) : Prop where
  owner_eq : ∀ {a account}, env.lookup (.account a) = some account → account.owner = a
  nonneg : ∀ {a account}, env.lookup (.account a) = some account → 0 ≤ account.balance.toInt

/-- What is stored after a write was written or was there before. -/
theorem lookup_put_account_cases {a b : Address} {r account : ShieldedAccount Address}
    (h : (env.put (.account a) r).lookup (.account b) = some account) :
    b = a ∧ account = r ∨ env.lookup (.account b) = some account := by
  by_cases hab : b = a
  · subst hab
    rw [Env.lookup_put_self] at h
    exact .inl ⟨rfl, (Option.some.inj h).symm⟩
  · rw [Env.lookup_put_of_ne _ _ (by simpa using hab)] at h
    exact .inr h

namespace Env.WellFormed

theorem empty : (Env.empty : Env Address).WellFormed := by
  refine ⟨?_, ?_⟩
  · intro a account h
    rw [Env.lookup_empty] at h
    cases h
  · intro a account h
    rw [Env.lookup_empty] at h
    cases h

theorem of_lookup_eq (h : env.WellFormed)
    (heq : ∀ a, env'.lookup (.account a) = env.lookup (.account a)) : env'.WellFormed :=
  ⟨fun hacc => h.owner_eq (heq _ ▸ hacc), fun hacc => h.nonneg (heq _ ▸ hacc)⟩

theorem put_account (h : env.WellFormed) {a : Address} {r : ShieldedAccount Address}
    (howner : r.owner = a) (hnonneg : 0 ≤ r.balance.toInt) :
    (env.put (.account a) r).WellFormed := by
  refine ⟨?_, ?_⟩
  · intro b account hacc
    rcases lookup_put_account_cases hacc with ⟨rfl, rfl⟩ | hold
    · exact howner
    · exact h.owner_eq hold
  · intro b account hacc
    rcases lookup_put_account_cases hacc with ⟨rfl, rfl⟩ | hold
    · exact hnonneg
    · exact h.nonneg hold

theorem accountOr_owner (h : env.WellFormed) (a : Address) : (env.accountOr a).owner = a := by
  cases hacc : env.lookup (.account a) with
  | none => rw [Env.accountOr, hacc, Option.getD_none]
  | some account => rw [accountOr_of_lookup hacc, h.owner_eq hacc]

theorem accountOr_nonneg (h : env.WellFormed) (a : Address) :
    0 ≤ (env.accountOr a).balance.toInt := by
  cases hacc : env.lookup (.account a) with
  | none =>
    rw [Env.accountOr, hacc, Option.getD_none]
    exact Int.le_refl 0
  | some account =>
    rw [accountOr_of_lookup hacc]
    exact h.nonneg hacc

/-- Every successful call keeps accounts well formed: the guard in front of each subtraction keeps
the difference non-negative. -/
theorem succeeds (h : env.WellFormed) {call : Call Address} {r : Reply Address}
    (hs : Succeeds frame env call r env') : env'.WellFormed := by
  cases hs with
  | initializePool hfresh => exact h.of_lookup_eq fun a => Env.lookup_put_of_ne _ _ (by simp)
  | @deposit depositor amount r hinit hauth hpos howner hadd =>
    have hbal := h.accountOr_nonneg depositor
    exact h.put_account (howner.trans (h.accountOr_owner depositor)) (by omega)
  | withdraw hinit hauth hpos hacc hle howner hsub =>
    exact h.put_account (howner.trans (h.owner_eq hacc)) (by omega)
  | balance => exact h
  | @confidentialTransfer fromAddr toAddr mock id fromAccount fromAccount' toAccount' hinit hauth
      hpos hid hacc hle hfrom hsub hto hadd =>
    have hbal := h.accountOr_nonneg toAddr
    have hdebit := h.put_account (hfrom.trans (h.owner_eq hacc)) (by omega)
    have hcredit := hdebit.put_account (hto.trans (h.accountOr_owner toAddr)) (by omega)
    exact hcredit.of_lookup_eq (lookup_transferred_account _ _ _ _ _ _)
  | recordDisclosureRequest hauth hrec hparty =>
    exact h.of_lookup_eq fun a => Env.lookup_put_of_ne _ _ (by simp)
  | verifyDisclosure hrec hhash => exact h

end Env.WellFormed

theorem runOf_wellFormed (host : Host Address) (invs : List (Invocation Address)) :
    (runOf host invs).WellFormed :=
  runOf_induction .empty (fun _ _ _ _ h hs => h.succeeds hs) invs

/-! ## Arithmetic -/

section Arithmetic

variable {host : Host Address} {auth : Address → Bool}

/-- A deposit that would leave the `i128` range is refused. -/
theorem deposit_overflow_refused {a : Address} {amount : I128} (hinit : env.Initialized)
    (hauth : auth a = true) (hpos : 0 < amount.toInt)
    (hover : 2 ^ 127 ≤ (env.ledger a).getD 0 + amount.toInt) :
    (shield host).step env ⟨.deposit a amount, auth⟩ =
      (.error (.err .insufficientBalance), env) := by
  have hpos' : ¬amount ≤ 0 := SInt.not_le.2 hpos
  have hnone : (env.accountOr a).balance.checkedAdd amount = none := by
    rw [SInt.checkedAdd_eq_none_iff (Int.le_of_lt hpos), accountOr_balance]
    exact hover
  refine (guards_deposit a amount).refused hinit ?_
  rw [deposit_exec, if_pos hauth, if_neg hpos']
  simp only [hnone]

/-- A transfer whose credit would leave the `i128` range is refused, although the sender's debit has
been computed by then. -/
theorem transfer_overflow_refused {f t : Address} {mock : MockProof} (hinit : env.Initialized)
    (hauth : auth f = true) (hpos : 0 < mock.amount.toInt)
    (hfunds : ∃ b, env.ledger f = some b ∧ mock.amount.toInt ≤ b)
    (hover : 2 ^ 127 ≤ (env.ledger t).getD 0 + mock.amount.toInt) :
    (shield host).step env ⟨.confidentialTransfer f t (.mock mock), auth⟩ =
      (.error (.err .insufficientBalance), env) := by
  obtain ⟨b, hb, hle⟩ := hfunds
  obtain ⟨account, hacc, rfl⟩ := exists_account_of_ledger hb
  obtain ⟨debited, hsub⟩ := SInt.exists_checkedSub (Int.le_of_lt hpos) hle
  have hverify : ¬(!verify (.mock mock)) = true := by simp [verify_mock_iff.2 hpos]
  have hle' : ¬account.balance < mock.amount := SInt.not_lt.2 hle
  have hnone : (env.accountOr t).balance.checkedAdd mock.amount = none := by
    rw [SInt.checkedAdd_eq_none_iff (Int.le_of_lt hpos), accountOr_balance]
    exact hover
  refine (guards_confidentialTransfer f t (.mock mock)).refused hinit ?_
  rw [confidentialTransfer_exec, if_pos hauth, if_neg hverify]
  simp only [hacc, if_neg hle', hsub, hnone]

/-- In every reachable environment: accounts are well formed and in range, no call is ended by an
arithmetic trap, every accepted call posts exact integers, and a credit that does not fit is refused
without effect. -/
theorem accounts_sound_arithmetic_exact (host : Host Address) (invs : List (Invocation Address)) :
    let env := runOf host invs
    (∀ a account, env.lookup (.account a) = some account →
      account.owner = a ∧ 0 ≤ account.balance.toInt ∧ account.balance.toInt ≤ 2 ^ 127 - 1) ∧
    (∀ inv, ((shield host).step env inv).1 ≠ .error (.trap .overflow)) ∧
    (∀ inv r env', (shield host).step env inv = (.ok r, env') →
      env'.ledger = env.ledger.postAll (postings inv.call)) ∧
    (∀ a (amount : I128) auth, env.Initialized → auth a = true → 0 < amount.toInt →
      2 ^ 127 ≤ (env.ledger a).getD 0 + amount.toInt →
      (shield host).step env ⟨.deposit a amount, auth⟩ =
        (.error (.err .insufficientBalance), env)) ∧
    ∀ f t mock auth, env.Initialized → auth f = true → 0 < mock.amount.toInt →
      (∃ b, env.ledger f = some b ∧ mock.amount.toInt ≤ b) →
      2 ^ 127 ≤ (env.ledger t).getD 0 + mock.amount.toInt →
      (shield host).step env ⟨.confidentialTransfer f t (.mock mock), auth⟩ =
        (.error (.err .insufficientBalance), env) := by
  intro env
  have hwf : env.WellFormed := runOf_wellFormed host invs
  refine ⟨?_, ?_, ?_, ?_, ?_⟩
  · intro a account hacc
    have hup := account.balance.upper
    exact ⟨hwf.owner_eq hacc, hwf.nonneg hacc, by omega⟩
  · intro inv htrap
    rcases step_cases host env inv with ⟨r, env', hstep, -⟩ | ⟨f, hstep, hf⟩
    · rw [hstep] at htrap
      cases htrap
    · rw [hstep] at htrap
      cases htrap
      exact hf rfl
  · intro inv r env' hstep
    exact (step_ok_iff.1 hstep).ledger
  · intro a amount auth hinit hauth hpos hover
    exact deposit_overflow_refused hinit hauth hpos hover
  · intro f t mock auth hinit hauth hpos hfunds hover
    exact transfer_overflow_refused hinit hauth hpos hfunds hover

/-- With `i128::MAX` in the account, one more unit is refused. -/
theorem deposit_beyond_max_refused :
    let invs : List (Invocation ScAddress) :=
      [⟨.initializePool Sample.bob, fun _ => true⟩,
        ⟨.deposit Sample.alice Sample.maxAmount, fun _ => true⟩]
    (shield soroban).step (runOf soroban invs)
        ⟨.deposit Sample.alice (Sample.amount 1), fun _ => true⟩ =
      (.error (.err .insufficientBalance), runOf soroban invs) := by
  intro invs
  obtain ⟨-, -, -, hdeposit, -⟩ := accounts_sound_arithmetic_exact soroban invs
  exact hdeposit Sample.alice (Sample.amount 1) (fun _ => true) (by decide) rfl (by decide)
    (by decide)

end Arithmetic

/-! ## Protection -/

/-- What an address did not authorize takes nothing from it. -/
theorem Succeeds.netPosted_nonneg {call : Call Address} {r : Reply Address} {a : Address}
    (h : Succeeds frame env call r env') (ha : frame.auth a = false) :
    0 ≤ netPosted (postings call) a := by
  have hne : ∀ b, frame.auth b = true → b ≠ a := by
    intro b hb hba
    rw [hba, ha] at hb
    cases hb
  cases h with
  | deposit hinit hauth hpos howner hadd =>
    rw [postings, netPosted_cons, if_neg (hne _ hauth)]
    exact Int.le_refl 0
  | withdraw hinit hauth hpos hacc hle howner hsub =>
    rw [postings, netPosted_cons, if_neg (hne _ hauth)]
    exact Int.le_refl 0
  | @confidentialTransfer fromAddr toAddr mock id _ _ _ hinit hauth hpos =>
    have hcredit : 0 ≤ (if toAddr = a then mock.amount.toInt else 0) := by
      split
      · exact Int.le_of_lt hpos
      · exact Int.le_refl 0
    rw [postings]
    split
    · rw [netPosted_cons, netPosted_nil, add_zero]
      exact hcredit
    · rw [netPosted_cons, netPosted_cons, netPosted_nil, add_zero, if_neg (hne _ hauth), zero_add]
      exact hcredit
  | _ => exact Int.le_refl 0

/-- A call that `a` did not authorize leaves the account of `a` in place with at least the balance
it had. -/
theorem Succeeds.balance_mono {call : Call Address} {r : Reply Address} {a : Address}
    (h : Succeeds frame env call r env') (ha : frame.auth a = false) {b : Int}
    (hb : env.ledger a = some b) : ∃ b', env'.ledger a = some b' ∧ b ≤ b' := by
  have hnet := h.netPosted_nonneg ha
  rw [h.ledger, Ledger.postAll_apply]
  split
  · refine ⟨_, rfl, ?_⟩
    rw [hb, Option.getD_some]
    omega
  · exact ⟨b, hb, Int.le_refl b⟩

/-- The asset contract is written once. -/
theorem Succeeds.initialized {call : Call Address} {r : Reply Address}
    (h : Succeeds frame env call r env') (hinit : env.Initialized) : env'.Initialized := by
  unfold Env.Initialized at hinit ⊢
  cases call with
  | initializePool assetContract =>
    cases h with
    | initializePool hfresh =>
      rw [hfresh] at hinit
      cases hinit
  | confidentialTransfer f t proof =>
    obtain ⟨mock⟩ := proof
    rwa [h.lookup_eq (by simp [Call.writes])]
  | _ => rwa [h.lookup_eq (by simp [Call.writes])]

section Protection

variable {host : Host Address} {a : Address} {after : List (Invocation Address)}

theorem run_balance_mono (hauth : ∀ inv ∈ after, inv.auth a = false) {b : Int}
    (hb : env.ledger a = some b) :
    ∃ b', ((shield host).run env after).ledger a = some b' ∧ b ≤ b' := by
  refine run_preserves (P := fun env => ∃ b', env.ledger a = some b' ∧ b ≤ b')
    (C := fun inv => inv.auth a = false) (fun env inv r env' ha hP hs => ?_)
    ⟨b, hb, Int.le_refl b⟩ hauth
  obtain ⟨b₁, hb₁, hle₁⟩ := hP
  obtain ⟨b₂, hb₂, hle₂⟩ := hs.balance_mono ha hb₁
  exact ⟨b₂, hb₂, Int.le_trans hle₁ hle₂⟩

theorem run_initialized (hinit : env.Initialized) : ((shield host).run env after).Initialized :=
  run_preserves (C := fun _ => True) (fun _ _ _ _ _ h hs => hs.initialized h) hinit
    fun _ _ => trivial

/-- Calls that `a` did not authorize, however many, leave `a` with at least the balance it had, and
every withdrawal that was possible for `a` before is possible after. -/
theorem balance_protected_without_auth (host : Host Address) (before : List (Invocation Address))
    (hauth : ∀ inv ∈ after, inv.auth a = false) :
    ((runOf host before).ledger a).getD 0 ≤ ((runOf host (before ++ after)).ledger a).getD 0 ∧
    (∀ account, (runOf host before).lookup (.account a) = some account →
      ∃ account', (runOf host (before ++ after)).lookup (.account a) = some account' ∧
        account.balance ≤ account'.balance) ∧
    ∀ amount auth, auth a = true → Accepts host (runOf host before) ⟨.withdraw a amount, auth⟩ →
      Accepts host (runOf host (before ++ after)) ⟨.withdraw a amount, auth⟩ := by
  have hmono : ∀ b, (runOf host before).ledger a = some b →
      ∃ b', ((shield host).run (runOf host before) after).ledger a = some b' ∧ b ≤ b' :=
    fun b hb => run_balance_mono hauth hb
  rw [runOf_append]
  refine ⟨?_, ?_, ?_⟩
  · cases hb : (runOf host before).ledger a with
    | none =>
      have hwf := runOf_append host before after ▸ runOf_wellFormed host (before ++ after)
      rw [Option.getD_none, ← accountOr_balance]
      exact hwf.accountOr_nonneg a
    | some b =>
      obtain ⟨b', hb', hle⟩ := hmono b hb
      rw [hb', Option.getD_some, Option.getD_some]
      exact hle
  · intro account hacc
    obtain ⟨b', hb', hle⟩ := hmono _ (ledger_of_lookup hacc)
    obtain ⟨account', hacc', rfl⟩ := exists_account_of_ledger hb'
    exact ⟨account', hacc', hle⟩
  · intro amount auth _ haccepts
    obtain ⟨hinit, ha, hpos, b, hb, hle⟩ := withdraw_accepted_iff.1 haccepts
    obtain ⟨b', hb', hle'⟩ := hmono b hb
    exact withdraw_accepted_iff.2
      ⟨run_initialized hinit, ha, hpos, b', hb', Int.le_trans hle hle'⟩

/-- After a failed theft and a transfer aimed at it by others, Alice's account still allows the
withdrawal of all it held. -/
theorem alice_withdraws_after_hostile_calls :
    let funded : List (Invocation ScAddress) :=
      [⟨.initializePool Sample.bob, fun _ => true⟩,
        ⟨.deposit Sample.alice (Sample.amount 100), fun _ => true⟩]
    let hostile : List (Invocation ScAddress) :=
      [⟨.withdraw Sample.alice (Sample.amount 1), fun a => a == Sample.bob⟩,
        ⟨.deposit Sample.bob (Sample.amount 5), fun a => a == Sample.bob⟩,
        ⟨.confidentialTransfer Sample.bob Sample.alice (Sample.proof 5 7),
          fun a => a == Sample.bob⟩]
    Accepts soroban (runOf soroban (funded ++ hostile))
      ⟨.withdraw Sample.alice (Sample.amount 100), fun _ => true⟩ := by
  intro funded hostile
  have hauth : ∀ inv ∈ hostile, inv.auth Sample.alice = false := by decide
  obtain ⟨-, -, hwithdraw⟩ := balance_protected_without_auth soroban funded hauth
  refine hwithdraw (Sample.amount 100) (fun _ => true) rfl (withdraw_accepted_iff.2 ?_)
  exact ⟨by decide, rfl, by decide, 100, by decide, by decide⟩

end Protection

end PrivacyShield.Contract
