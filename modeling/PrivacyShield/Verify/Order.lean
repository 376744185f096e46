import PrivacyShield.Verify.Accounts
import PrivacyShield.Verify.Records

/-!
# Order independence of the money operations

Deposits, withdrawals and transfers that all succeed in two orders end in the same storage: their
postings commute, the `Transfer` entries depend on which transfers were made and not on their order,
and no other entry is touched.
-/

namespace PrivacyShield.Contract

open PrivacyShield.Lib

variable {Address : Type} [DecidableEq Address] {host : Host Address} {env env' : Env Address}

/-- A deposit, a withdrawal or a transfer. -/
def MovesMoney : Call Address → Prop
  | .deposit _ _ => True
  | .withdraw _ _ => True
  | .confidentialTransfer _ _ _ => True
  | _ => False

instance : DecidablePred (MovesMoney : Call Address → Prop)
  | .deposit _ _ => isTrue trivial
  | .withdraw _ _ => isTrue trivial
  | .confidentialTransfer _ _ _ => isTrue trivial
  | .initializePool _ => isFalse id
  | .balance _ => isFalse id
  | .recordDisclosureRequest _ _ => isFalse id
  | .verifyDisclosure _ => isFalse id

/-! ## What the money operations leave alone -/

/-- The entries that no money operation writes. -/
def SameOtherEntries (env env' : Env Address) : Prop :=
  env'.lookup .assetContract = env.lookup .assetContract ∧
    ∀ id, env'.lookup (.disclosure id) = env.lookup (.disclosure id)

theorem Succeeds.sameOtherEntries {frame : Frame Address} {call : Call Address}
    {r : Reply Address} (h : Succeeds frame env call r env') (hmoney : MovesMoney call) :
    SameOtherEntries env env' := by
  have hkey : .assetContract ∉ call.writes frame.host ∧
      ∀ id, .disclosure id ∉ call.writes frame.host := by
    cases call with
    | deposit => simp [Call.writes]
    | withdraw => simp [Call.writes]
    | confidentialTransfer f t proof =>
      obtain ⟨mock⟩ := proof
      simp [Call.writes]
    | _ => exact hmoney.elim
  exact ⟨h.lookup_eq hkey.1, fun id => h.lookup_eq (hkey.2 id)⟩

theorem run_sameOtherEntries {is : List (Invocation Address)}
    (hmoney : ∀ inv ∈ is, MovesMoney inv.call) :
    SameOtherEntries env ((shield host).run env is) := by
  refine run_preserves (P := SameOtherEntries env) (C := fun inv => MovesMoney inv.call)
    (fun env₁ inv r env₂ hC hP hs => ?_) ⟨rfl, fun _ => rfl⟩ hmoney
  obtain ⟨hasset, hdisclosure⟩ := hs.sameOtherEntries hC
  exact ⟨hasset.trans hP.1, fun id => (hdisclosure id).trans (hP.2 id)⟩

/-! ## What they write -/

/-- Every invocation of the list succeeds when they are executed in order from `env`. -/
def AllSucceed (host : Host Address) (env : Env Address) (is : List (Invocation Address)) : Prop :=
  ∀ e ∈ (shield host).trace env is, e.2.isOk = true

instance (host : Host Address) (env : Env Address) (is : List (Invocation Address)) :
    Decidable (AllSucceed host env is) :=
  inferInstanceAs (Decidable (∀ e ∈ (shield host).trace env is, e.2.isOk = true))

theorem step_of_isOk {inv : Invocation Address}
    (h : ((shield host).step env inv).1.isOk = true) :
    ∃ r, (shield host).step env inv = (.ok r, ((shield host).step env inv).2) ∧
      Succeeds ⟨host, inv.auth⟩ env inv.call r ((shield host).step env inv).2 := by
  rcases step_cases host env inv with ⟨r, env', hstep, hs⟩ | ⟨f, hstep, -⟩
  · rw [hstep]
    exact ⟨r, rfl, hs⟩
  · rw [hstep] at h
    cases h

/-- Postings commute, so the ledger does not depend on the order. -/
theorem ledger_run_perm {is js : List (Invocation Address)} (hperm : is.Perm js)
    (his : AllSucceed host env is) (hjs : AllSucceed host env js) :
    ((shield host).run env is).ledger = ((shield host).run env js).ledger := by
  refine Machine.observe_run_perm (fun o : Outcome Address => o.isOk = true) Env.ledger
    (fun l inv => l.postAll (postings inv.call)) (fun env inv hok => ?_) hperm
    (fun i _ j _ l => l.postAll_comm (postings i.call) (postings j.call)) his hjs
  obtain ⟨r, -, hs⟩ := step_of_isOk hok
  exact hs.ledger

/-- When all invocations succeed, the transfers made are the transfers asked for. -/
theorem transfersIn_of_allSucceed {is : List (Invocation Address)}
    (h : AllSucceed host env is) :
    transfersIn (History.successes ((shield host).trace env is)) =
      is.filterMap fun inv => inv.call.transfer? := by
  induction is generalizing env with
  | nil => rfl
  | cons inv is ih =>
    obtain ⟨r, hstep, -⟩ := step_of_isOk (h _ List.mem_cons_self)
    have htail := ih fun e he => h e (List.mem_cons_of_mem _ he)
    rw [Machine.trace_cons, hstep, List.filterMap_cons, ← htail]
    rfl

theorem transfersOf_of_allSucceed {before is : List (Invocation Address)}
    (h : AllSucceed host (runOf host before) is) :
    transfersOf host (before ++ is) =
      transfersOf host before ++ is.filterMap fun inv => inv.call.transfer? := by
  rw [transfersOf_append, transfersIn_of_allSucceed h]

/-- The ledger and the owners determine the `Account` entries. -/
theorem lookup_account_eq (h : env.WellFormed) (h' : env'.WellFormed) {a : Address}
    (heq : env.ledger a = env'.ledger a) :
    env.lookup (.account a) = env'.lookup (.account a) := by
  cases hacc : env.lookup (.account a) with
  | none =>
    rw [Env.ledger, hacc] at heq
    exact (Option.map_eq_none_iff.1 heq.symm).symm
  | some account =>
    rw [ledger_of_lookup hacc] at heq
    obtain ⟨account', hacc', hbal⟩ := exists_account_of_ledger heq.symm
    have howner : account'.owner = account.owner := by
      rw [h.owner_eq hacc, h'.owner_eq hacc']
    rw [hacc']
    obtain ⟨owner, balance⟩ := account
    obtain ⟨owner', balance'⟩ := account'
    obtain rfl : owner' = owner := howner
    obtain rfl : balance' = balance := SInt.ext hbal
    rfl

/-- Deposits, withdrawals and transfers that all succeed in two orders, from any reachable
environment, end in the same storage. -/
theorem storage_order_independent (host : Host Address) (hxdr : host.XdrPrefixFree)
    (before is js : List (Invocation Address)) (hmoney : ∀ inv ∈ is, MovesMoney inv.call)
    (hperm : is.Perm js) (his : AllSucceed host (runOf host before) is)
    (hjs : AllSucceed host (runOf host before) js)
    (hsha : host.NoCollision (transfersOf host (before ++ is))) :
    ((shield host).run (runOf host before) is).storage =
      ((shield host).run (runOf host before) js).storage := by
  have hother : ∀ ks : List (Invocation Address), ks ⊆ is →
      SameOtherEntries (runOf host before) ((shield host).run (runOf host before) ks) :=
    fun ks hks => run_sameOtherEntries fun inv hinv => hmoney inv (hks hinv)
  obtain ⟨hasset, hdisclosure⟩ := hother is (List.Subset.refl is)
  obtain ⟨hasset', hdisclosure'⟩ := hother js hperm.symm.subset
  have hledger := ledger_run_perm hperm his hjs
  have hmem : ∀ t, t ∈ transfersOf host (before ++ is) ↔ t ∈ transfersOf host (before ++ js) := by
    intro t
    rw [transfersOf_of_allSucceed his, transfersOf_of_allSucceed hjs]
    exact ((hperm.filterMap _).append_left _).mem_iff
  have hsha' : host.NoCollision (transfersOf host (before ++ js)) :=
    hsha.mono fun t ht => (hmem t).2 ht
  rw [← runOf_append, ← runOf_append] at *
  refine Env.storage_ext fun key => ?_
  cases key with
  | account a =>
    exact lookup_account_eq (runOf_wellFormed host _) (runOf_wellFormed host _)
      (congrFun hledger a)
  | assetContract => exact hasset.trans hasset'.symm
  | transfer id =>
    apply Option.ext
    intro r
    rw [lookup_transfer_iff hxdr hsha, lookup_transfer_iff hxdr hsha']
    simp only [hmem]
  | disclosure id => exact (hdisclosure id).trans (hdisclosure' id).symm

/-- Bob's account is opened by a transfer in one order and by a deposit in the other. -/
theorem swapped_payments_agree :
    let before : List (Invocation ScAddress) :=
      [⟨.initializePool Sample.bob, fun _ => true⟩,
        ⟨.deposit Sample.alice (Sample.amount 100), fun _ => true⟩]
    let pay : Invocation ScAddress :=
      ⟨.confidentialTransfer Sample.alice Sample.bob (Sample.proof 30 7), fun _ => true⟩
    let topUp : Invocation ScAddress := ⟨.deposit Sample.bob (Sample.amount 5), fun _ => true⟩
    let toSelf : Invocation ScAddress :=
      ⟨.confidentialTransfer Sample.alice Sample.alice (Sample.proof 20 7), fun _ => true⟩
    ((shield soroban).run (runOf soroban before) [pay, topUp, toSelf]).storage =
      ((shield soroban).run (runOf soroban before) [topUp, toSelf, pay]).storage := by
  intro before pay topUp toSelf
  have hmoney : ∀ inv ∈ [pay, topUp, toSelf], MovesMoney inv.call := by decide
  have hperm : ([pay] ++ [topUp, toSelf]).Perm ([topUp, toSelf] ++ [pay]) :=
    List.perm_append_comm
  have his : AllSucceed soroban (runOf soroban before) [pay, topUp, toSelf] := by decide
  have hjs : AllSucceed soroban (runOf soroban before) [topUp, toSelf, pay] := by decide
  have hsha : soroban.NoCollision (transfersOf soroban (before ++ [pay, topUp, toSelf])) := by
    decide +kernel
  exact storage_order_independent soroban soroban_xdrPrefixFree before _ _ hmoney hperm his hjs
    hsha

end PrivacyShield.Contract
