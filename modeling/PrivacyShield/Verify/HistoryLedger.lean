import PrivacyShield.Verify.Accounts

/-!
# The ledger computed from the history

A ledger that knows nothing of the storage: an address has an account once a successful deposit or
transfer credited it, and its balance is what it deposited and received less what it withdrew and
sent (`historyLedger`). In runs without a successful transfer from an address to itself the
contract's storage refines this ledger, and it accepts exactly the calls this ledger allows.
-/

namespace PrivacyShield.Contract

open PrivacyShield.Lib

variable {Address : Type} [DecidableEq Address]

/-! ## The abstract ledger -/

section HistoryLedger

/-- The call credits the account of `a`. -/
def Credits (a : Address) : Call Address → Prop
  | .deposit depositor _ => depositor = a
  | .confidentialTransfer _ toAddr _ => toAddr = a
  | _ => False

instance (a : Address) : DecidablePred (Credits a)
  | .deposit depositor _ => inferInstanceAs (Decidable (depositor = a))
  | .confidentialTransfer _ toAddr _ => inferInstanceAs (Decidable (toAddr = a))
  | .initializePool _ => isFalse id
  | .withdraw _ _ => isFalse id
  | .balance _ => isFalse id
  | .recordDisclosureRequest _ _ => isFalse id
  | .verifyDisclosure _ => isFalse id

/-- A transfer from an address to itself. -/
def IsSelfTransfer : Call Address → Prop
  | .confidentialTransfer fromAddr toAddr _ => fromAddr = toAddr
  | _ => False

instance : DecidablePred (IsSelfTransfer : Call Address → Prop)
  | .confidentialTransfer fromAddr toAddr _ => inferInstanceAs (Decidable (fromAddr = toAddr))
  | .initializePool _ => isFalse id
  | .deposit _ _ => isFalse id
  | .withdraw _ _ => isFalse id
  | .balance _ => isFalse id
  | .recordDisclosureRequest _ _ => isFalse id
  | .verifyDisclosure _ => isFalse id

def amountDepositedBy (a : Address) : Call Address → Int
  | .deposit depositor amount => if depositor = a then amount.toInt else 0
  | _ => 0

def amountWithdrawnBy (a : Address) : Call Address → Int
  | .withdraw owner amount => if owner = a then amount.toInt else 0
  | _ => 0

def amountReceivedBy (a : Address) : Call Address → Int
  | .confidentialTransfer _ toAddr (.mock mock) => if toAddr = a then mock.amount.toInt else 0
  | _ => 0

def amountSentBy (a : Address) : Call Address → Int
  | .confidentialTransfer fromAddr _ (.mock mock) =>
    if fromAddr = a then mock.amount.toInt else 0
  | _ => 0

variable (l : List (Invocation Address × Reply Address)) (a : Address)

/-- One of the successful calls credited `a`. -/
def HasAccount : Prop := ∃ s ∈ l, Credits a s.1.call

instance : Decidable (HasAccount l a) := inferInstanceAs (Decidable (∃ s ∈ l, _))

/-- Deposits and transfers received, less withdrawals and transfers sent. -/
def historyBalance : Int :=
  sumOver l (amountDepositedBy a) + sumOver l (amountReceivedBy a) -
    sumOver l (amountWithdrawnBy a) - sumOver l (amountSentBy a)

/-- The ledger after the successful calls `l`. -/
def historyLedger : Ledger Address Int :=
  fun a => if HasAccount l a then some (historyBalance l a) else none

/-- None of the successful calls is a transfer from an address to itself. -/
def NoSelfTransfer : Prop := ∀ s ∈ l, ¬IsSelfTransfer s.1.call

instance : Decidable (NoSelfTransfer l) := inferInstanceAs (Decidable (∀ s ∈ l, _))

end HistoryLedger

/-! ## Refinement -/

/-- Between different parties a transfer posts what it sends and what is received. -/
theorem netPosted_postings {call : Call Address} (h : ¬IsSelfTransfer call) (a : Address) :
    netPosted (postings call) a =
      amountDepositedBy a call + amountReceivedBy a call - amountWithdrawnBy a call -
        amountSentBy a call := by
  cases call with
  | deposit depositor amount =>
    simp [postings, amountDepositedBy, amountReceivedBy, amountWithdrawnBy, amountSentBy]
  | withdraw owner amount =>
    simp only [postings, amountDepositedBy, amountReceivedBy, amountWithdrawnBy, amountSentBy,
      netPosted_cons, netPosted_nil]
    split
    · omega
    · omega
  | confidentialTransfer f t proof =>
    obtain ⟨mock⟩ := proof
    have hne : f ≠ t := h
    simp only [postings, if_neg hne, amountDepositedBy, amountReceivedBy, amountWithdrawnBy,
      amountSentBy, netPosted_cons, netPosted_nil]
    split
    · split
      · omega
      · omega
    · split
      · omega
      · omega
  | _ => rfl

theorem netPosted_postingsOf {l : List (Invocation Address × Reply Address)}
    (hself : NoSelfTransfer l) (a : Address) : netPosted (postingsOf l) a = historyBalance l a := by
  induction l with
  | nil => rfl
  | cons s l ih =>
    have hs := netPosted_postings (hself s List.mem_cons_self) a
    have hl := ih fun s' hs' => hself s' (List.mem_cons_of_mem _ hs')
    unfold historyBalance sumOver postingsOf at *
    simp only [List.flatMap_cons, netPosted_append, List.map_cons, List.sum_cons]
    omega

/-- The balances of a run without self-transfers are those of its history. -/
theorem getD_ledger_runOf {host : Host Address} {invs : List (Invocation Address)}
    (hself : NoSelfTransfer (successesOf host invs)) (a : Address) :
    ((runOf host invs).ledger a).getD 0 = historyBalance (successesOf host invs) a := by
  rw [ledger_runOf, Ledger.getD_postAll, Option.getD_none, zero_add, netPosted_postingsOf hself]

theorem mem_postings_transfer {f t a : Address} {mock : MockProof} :
    a ∈ (postings (.confidentialTransfer f t (.mock mock))).map Prod.fst ↔ a = f ∨ a = t := by
  by_cases heq : f = t
  · simp [postings, heq]
  · simp [postings, heq]

/-- Only a credit opens an account: what is debited is there already. -/
theorem Succeeds.isSome_ledger {frame : Frame Address} {env env' : Env Address}
    {call : Call Address} {r : Reply Address} (h : Succeeds frame env call r env') (a : Address) :
    (env'.ledger a).isSome = true ↔ (env.ledger a).isSome = true ∨ Credits a call := by
  rw [h.ledger, Ledger.postAll_apply]
  cases h with
  | @deposit depositor =>
    by_cases heq : depositor = a
    · simp [postings, Credits, heq]
    · simp [postings, Credits, heq, Ne.symm heq]
  | @withdraw owner _ _ _ _ _ _ hacc =>
    by_cases heq : owner = a
    · subst heq
      simp [postings, Credits, ledger_of_lookup hacc]
    · simp [postings, Credits, Ne.symm heq]
  | @confidentialTransfer f t mock _ _ _ _ hinit hauth hpos hid hacc =>
    simp only [mem_postings_transfer, Credits]
    by_cases ht : t = a
    · simp [ht]
    · by_cases hf : f = a
      · subst hf
        simp [ledger_of_lookup hacc]
      · simp [Ne.symm ht, Ne.symm hf, ht]
  | _ => simp [postings, Credits]

theorem isSome_ledger_runOf (host : Host Address) (invs : List (Invocation Address))
    (a : Address) :
    ((runOf host invs).ledger a).isSome = true ↔ HasAccount (successesOf host invs) a := by
  refine successesOf_induction
    (P := fun l env => (env.ledger a).isSome = true ↔ HasAccount l a) ?_
    (fun l env inv r env' hP hs => ?_) invs
  · simp [HasAccount]
  · rw [hs.isSome_ledger, hP]
    simp [HasAccount, or_and_right, exists_or]

theorem ledger_eq_historyLedger {host : Host Address} {invs : List (Invocation Address)}
    (hself : NoSelfTransfer (successesOf host invs)) :
    (runOf host invs).ledger = historyLedger (successesOf host invs) := by
  funext a
  have hsome := isSome_ledger_runOf host invs a
  have hget := getD_ledger_runOf hself a
  unfold historyLedger
  split
  · next hacc =>
    obtain ⟨b, hb⟩ := Option.isSome_iff_exists.1 (hsome.2 hacc)
    rw [hb, ← hget, hb, Option.getD_some]
  · next hacc =>
    rw [← hsome] at hacc
    exact Option.not_isSome_iff_eq_none.1 hacc

/-- In a run without a successful self-transfer the entry point `balance` answers from the ledger of
the history, and once initialized the next authorized deposit, withdrawal or transfer between
different parties is accepted exactly when this ledger allows it. -/
theorem contract_refines_historyLedger (host : Host Address) (invs : List (Invocation Address))
    (hself : NoSelfTransfer (successesOf host invs)) :
    let env := runOf host invs
    let l := successesOf host invs
    (∀ a auth, ∃ found, (shield host).step env ⟨.balance a, auth⟩ = (.ok (.accountOpt found), env) ∧
      (found = none ↔ ¬HasAccount l a) ∧
      ∀ account, found = some account →
        account.owner = a ∧ account.balance.toInt = historyBalance l a) ∧
    (∀ a, ¬HasAccount l a → historyBalance l a = 0) ∧
    (env.Initialized →
      (∀ a (amount : I128) auth, auth a = true →
        (Accepts host env ⟨.deposit a amount, auth⟩ ↔
          0 < amount.toInt ∧ historyBalance l a + amount.toInt ≤ 2 ^ 127 - 1)) ∧
      (∀ a (amount : I128) auth, auth a = true →
        (Accepts host env ⟨.withdraw a amount, auth⟩ ↔
          HasAccount l a ∧ 0 < amount.toInt ∧ amount.toInt ≤ historyBalance l a)) ∧
      ∀ f t mock auth, f ≠ t → auth f = true →
        (Accepts host env ⟨.confidentialTransfer f t (.mock mock), auth⟩ ↔
          0 < mock.amount.toInt ∧ HasAccount l f ∧ mock.amount.toInt ≤ historyBalance l f ∧
            historyBalance l t + mock.amount.toInt ≤ 2 ^ 127 - 1)) := by
  intro env l
  have hledger : env.ledger = historyLedger l := ledger_eq_historyLedger hself
  have hget : ∀ a, (env.ledger a).getD 0 = historyBalance l a := getD_ledger_runOf hself
  have hfunds : ∀ a (x : Int), (∃ b, env.ledger a = some b ∧ x ≤ b) ↔
      HasAccount l a ∧ x ≤ historyBalance l a := by
    intro a x
    rw [hledger, historyLedger]
    split
    · next hacc => simp [hacc]
    · next hacc => simp [hacc]
  refine ⟨?_, ?_, fun hinit => ⟨?_, ?_, ?_⟩⟩
  · intro a auth
    refine ⟨env.lookup (.account a), step_ok_iff.2 .balance, ?_, ?_⟩
    · rw [← isSome_ledger_runOf, Option.not_isSome_iff_eq_none]
      exact Option.map_eq_none_iff.symm
    · intro account hacc
      refine ⟨(runOf_wellFormed host invs).owner_eq hacc, ?_⟩
      rw [← hget, ledger_of_lookup hacc, Option.getD_some]
  · intro a hacc
    rw [← hget, hledger, historyLedger, if_neg hacc, Option.getD_none]
  · intro a amount auth hauth
    rw [deposit_accepted_iff, hget]
    simp only [hinit, hauth, true_and]
  · intro a amount auth hauth
    rw [withdraw_accepted_iff, hfunds]
    simp only [hinit, hauth, true_and]
    exact and_left_comm
  · intro f t mock auth hne hauth
    rw [transfer_accepted_iff, hfunds, hget]
    simp only [hinit, hauth, true_and, and_assoc]

/-- Alice deposits 100, sends 60 to Bob and withdraws the other 40: her account still exists, empty,
and the next withdrawal is refused. -/
theorem emptied_account_refuses_withdrawal :
    let invs : List (Invocation ScAddress) :=
      [⟨.initializePool Sample.bob, fun _ => true⟩,
        ⟨.deposit Sample.alice (Sample.amount 100), fun _ => true⟩,
        ⟨.confidentialTransfer Sample.alice Sample.bob (Sample.proof 60 7), fun _ => true⟩,
        ⟨.withdraw Sample.alice (Sample.amount 40), fun _ => true⟩]
    ¬Accepts soroban (runOf soroban invs)
      ⟨.withdraw Sample.alice (Sample.amount 1), fun _ => true⟩ := by
  intro invs
  have hself : NoSelfTransfer (successesOf soroban invs) := by decide
  obtain ⟨-, -, haccept⟩ := contract_refines_historyLedger soroban invs hself
  obtain ⟨-, hwithdraw, -⟩ := haccept (by decide)
  rw [hwithdraw Sample.alice (Sample.amount 1) (fun _ => true) rfl]
  decide

end PrivacyShield.Contract
