import PrivacyShield.Contract.Soroban
import PrivacyShield.Verify.Ledger
import PrivacyShield.Verify.Records
import PrivacyShield.Verify.Replay

/-!
# Why a call fails

`Refused frame env call f` lists the failures of a call with the check that failed, as `Succeeds`
lists its successes. Two results come from it. The errors that `docs/interface.md` names for an entry
point are exactly those it can return (`documented_errors_exact`). And what a call found once it
finds forever: a call that succeeded can later fail for lack of balance or room, for a rotated key or
for being a second initialization, and for nothing else (`success_can_be_repeated`).
-/

namespace PrivacyShield.Contract

open PrivacyShield.Lib

variable {Address : Type} [DecidableEq Address] {frame : Frame Address} {env env' : Env Address}

/-- The failures of a call, each with the check that failed. -/
inductive Refused (frame : Frame Address) (env : Env Address) : Call Address → Fault → Prop
  | initializedBefore {assetContract : Address} (hinit : env.Initialized) :
      Refused frame env (.initializePool assetContract) (.err .alreadyInitialized)
  | depositUninitialized {a : Address} {x : I128} (hinit : ¬env.Initialized) :
      Refused frame env (.deposit a x) (.err .notInitialized)
  | depositUnauthorized {a : Address} {x : I128} (hauth : ¬frame.auth a = true) :
      Refused frame env (.deposit a x) (.trap .auth)
  | depositNotPositive {a : Address} {x : I128} (hx : x.toInt ≤ 0) :
      Refused frame env (.deposit a x) (.err .insufficientBalance)
  | depositOverflow {a : Address} {x : I128}
      (hadd : (env.accountOr a).balance.checkedAdd x = none) :
      Refused frame env (.deposit a x) (.err .insufficientBalance)
  | withdrawUninitialized {a : Address} {x : I128} (hinit : ¬env.Initialized) :
      Refused frame env (.withdraw a x) (.err .notInitialized)
  | withdrawUnauthorized {a : Address} {x : I128} (hauth : ¬frame.auth a = true) :
      Refused frame env (.withdraw a x) (.trap .auth)
  | withdrawNotPositive {a : Address} {x : I128} (hx : x.toInt ≤ 0) :
      Refused frame env (.withdraw a x) (.err .insufficientBalance)
  | withdrawNoAccount {a : Address} {x : I128} (hacc : env.lookup (.account a) = none) :
      Refused frame env (.withdraw a x) (.err .accountNotFound)
  | withdrawOverdraft {a : Address} {x : I128} {account : ShieldedAccount Address}
      (hacc : env.lookup (.account a) = some account) (hlt : account.balance.toInt < x.toInt) :
      Refused frame env (.withdraw a x) (.err .insufficientBalance)
  | transferUninitialized {f t : Address} {mock : MockProof} (hinit : ¬env.Initialized) :
      Refused frame env (.confidentialTransfer f t (.mock mock)) (.err .notInitialized)
  | transferUnauthorized {f t : Address} {mock : MockProof} (hauth : ¬frame.auth f = true) :
      Refused frame env (.confidentialTransfer f t (.mock mock)) (.trap .auth)
  | transferNotPositive {f t : Address} {mock : MockProof} (hx : mock.amount.toInt ≤ 0) :
      Refused frame env (.confidentialTransfer f t (.mock mock)) (.err .invalidProof)
  | transferNoAccount {f t : Address} {mock : MockProof}
      (hacc : env.lookup (.account f) = none) :
      Refused frame env (.confidentialTransfer f t (.mock mock)) (.err .accountNotFound)
  | transferOverdraft {f t : Address} {mock : MockProof} {account : ShieldedAccount Address}
      (hacc : env.lookup (.account f) = some account)
      (hlt : account.balance.toInt < mock.amount.toInt) :
      Refused frame env (.confidentialTransfer f t (.mock mock)) (.err .insufficientBalance)
  | transferOverflow {f t : Address} {mock : MockProof}
      (hadd : (env.accountOr t).balance.checkedAdd mock.amount = none) :
      Refused frame env (.confidentialTransfer f t (.mock mock)) (.err .insufficientBalance)
  | recordUnauthorized {caller : Address} {key : DisclosureKey}
      (hauth : ¬frame.auth caller = true) :
      Refused frame env (.recordDisclosureRequest caller key) (.trap .auth)
  | recordNoTransfer {caller : Address} {key : DisclosureKey}
      (hrec : env.lookup (.transfer key.transferId) = none) :
      Refused frame env (.recordDisclosureRequest caller key) (.err .transferNotFound)
  | recordOutsider {caller : Address} {key : DisclosureKey} {record : TransferRecord Address}
      (hrec : env.lookup (.transfer key.transferId) = some record)
      (hparty : caller ≠ record.fromAddr ∧ caller ≠ record.toAddr) :
      Refused frame env (.recordDisclosureRequest caller key) (.err .unauthorized)
  | verifyNoDisclosure {key : DisclosureKey}
      (hrec : env.lookup (.disclosure key.transferId) = none) :
      Refused frame env (.verifyDisclosure key) (.err .disclosureNotFound)
  | verifyOtherKey {key : DisclosureKey} {record : DisclosureRecord Address}
      (hrec : env.lookup (.disclosure key.transferId) = some record)
      (hhash : frame.host.sha256 key.viewingKey.toList ≠ record.viewingKeyHash) :
      Refused frame env (.verifyDisclosure key) (.err .invalidDisclosureKey)

/-- Every failure is one of these. -/
theorem refused_of_error {call : Call Address} {f : Fault}
    (h : exec (dispatch call) frame env = (.error f, env')) : Refused frame env call f := by
  have htrap := (dispatch_error h).2
  cases call with
  | initializePool assetContract =>
    rw [dispatch, exec_reply_error_iff, initializePool_exec] at h
    split at h
    · next hinit =>
      cases h
      exact .initializedBefore hinit
    · cases h
  | deposit a x =>
    rw [dispatch, exec_reply_error_iff, ShieldContract.deposit, exec_requireInitialized_bind,
      deposit_exec] at h
    split at h
    · split at h
      · split at h
        · next hx =>
          cases h
          exact .depositNotPositive hx
        · dsimp only at h
          split at h
          · cases h
          · next hadd =>
            cases h
            exact .depositOverflow hadd
      · next hauth =>
        cases h
        exact .depositUnauthorized hauth
    · next hinit =>
      cases h
      exact .depositUninitialized hinit
  | withdraw a x =>
    rw [dispatch, exec_reply_error_iff, ShieldContract.withdraw, exec_requireInitialized_bind,
      withdraw_exec] at h
    split at h
    · split at h
      · split at h
        · next hx =>
          cases h
          exact .withdrawNotPositive hx
        · split at h
          · next hacc =>
            split at h
            · next hlt =>
              cases h
              exact .withdrawOverdraft hacc hlt
            · split at h
              · cases h
              · cases h
                exact absurd rfl htrap
          · next hacc =>
            cases h
            exact .withdrawNoAccount hacc
      · next hauth =>
        cases h
        exact .withdrawUnauthorized hauth
    · next hinit =>
      cases h
      exact .withdrawUninitialized hinit
  | balance owner =>
    rw [dispatch, exec_reply_error_iff] at h
    cases h
  | confidentialTransfer f t proof =>
    obtain ⟨mock⟩ := proof
    rw [dispatch, exec_reply_error_iff, ShieldContract.confidentialTransfer,
      exec_requireInitialized_bind, confidentialTransfer_exec] at h
    split at h
    · split at h
      · split at h
        · next hproof =>
          cases h
          refine .transferNotPositive (not_lt.1 fun hpos => ?_)
          simp [verify_mock_iff.2 hpos] at hproof
        · split at h
          · next hacc =>
            split at h
            · next hlt =>
              cases h
              exact .transferOverdraft hacc hlt
            · dsimp only at h
              split at h
              · split at h
                · cases h
                · next hadd =>
                  cases h
                  exact .transferOverflow hadd
              · cases h
                exact absurd rfl htrap
          · next hacc =>
            cases h
            exact .transferNoAccount hacc
      · next hauth =>
        cases h
        exact .transferUnauthorized hauth
    · next hinit =>
      cases h
      exact .transferUninitialized hinit
  | recordDisclosureRequest caller key =>
    rw [dispatch, exec_reply_error_iff, ShieldContract.recordDisclosureRequest,
      recordDisclosureRequest_exec] at h
    split at h
    · split at h
      · next hrec =>
        split at h
        · next hparty =>
          cases h
          exact .recordOutsider hrec hparty
        · cases h
      · next hrec =>
        cases h
        exact .recordNoTransfer hrec
    · next hauth =>
      cases h
      exact .recordUnauthorized hauth
  | verifyDisclosure key =>
    rw [dispatch, exec_reply_error_iff, ShieldContract.verifyDisclosure,
      verifyDisclosure_exec] at h
    split at h
    · next hrec =>
      split at h
      · next hhash =>
        cases h
        exact .verifyOtherKey hrec hhash
      · cases h
    · next hrec =>
      cases h
      exact .verifyNoDisclosure hrec

/-! ## The documented errors -/

/-- The entry points of the contract. -/
inductive EntryPoint where
  | initializePool
  | deposit
  | withdraw
  | balance
  | confidentialTransfer
  | recordDisclosureRequest
  | verifyDisclosure
  deriving DecidableEq

def Call.entryPoint : Call Address → EntryPoint
  | .initializePool _ => .initializePool
  | .deposit _ _ => .deposit
  | .withdraw _ _ => .withdraw
  | .balance _ => .balance
  | .confidentialTransfer _ _ _ => .confidentialTransfer
  | .recordDisclosureRequest _ _ => .recordDisclosureRequest
  | .verifyDisclosure _ => .verifyDisclosure

/-- The errors that the interface reference lists for an entry point. -/
def EntryPoint.errors : EntryPoint → List ShieldError
  | .initializePool => [.alreadyInitialized]
  | .deposit => [.notInitialized, .insufficientBalance]
  | .withdraw => [.notInitialized, .accountNotFound, .insufficientBalance]
  | .balance => []
  | .confidentialTransfer =>
    [.notInitialized, .invalidProof, .accountNotFound, .insufficientBalance]
  | .recordDisclosureRequest => [.transferNotFound, .unauthorized]
  | .verifyDisclosure => [.disclosureNotFound, .invalidDisclosureKey]

theorem Refused.documented {call : Call Address} {f : Fault}
    (h : Refused frame env call f) :
    f = .trap .auth ∨ ∃ e ∈ call.entryPoint.errors, f = .err e := by
  cases h <;> simp [Call.entryPoint, EntryPoint.errors]

/-- Calls that fail, each after a run. -/
def refusals : List (List (Invocation ScAddress) × Call ScAddress × ShieldError) :=
  let auth : ScAddress → Bool := fun _ => true
  let opened : List (Invocation ScAddress) :=
    [⟨.initializePool Sample.bob, auth⟩, ⟨.deposit Sample.alice (Sample.amount 100), auth⟩]
  let id := soroban.idOf ⟨Sample.alice, Sample.bob, .replicate 32 7, Sample.amount 30⟩
  let paid := opened ++
    [⟨.confidentialTransfer Sample.alice Sample.bob (Sample.proof 30 7), auth⟩]
  let disclosed := paid ++
    [⟨.recordDisclosureRequest Sample.alice ⟨id, .replicate 32 1⟩, auth⟩]
  [(opened, .initializePool Sample.carol, .alreadyInitialized),
    ([], .deposit Sample.alice (Sample.amount 1), .notInitialized),
    (opened, .deposit Sample.alice 0, .insufficientBalance),
    ([], .withdraw Sample.alice (Sample.amount 1), .notInitialized),
    (opened, .withdraw Sample.bob (Sample.amount 1), .accountNotFound),
    (opened, .withdraw Sample.alice (Sample.amount 101), .insufficientBalance),
    ([], .confidentialTransfer Sample.alice Sample.bob (Sample.proof 30 7), .notInitialized),
    (opened, .confidentialTransfer Sample.alice Sample.bob (Sample.proof 0 7), .invalidProof),
    (opened, .confidentialTransfer Sample.bob Sample.alice (Sample.proof 30 7), .accountNotFound),
    (opened, .confidentialTransfer Sample.alice Sample.bob (Sample.proof 101 7),
      .insufficientBalance),
    (opened, .recordDisclosureRequest Sample.alice ⟨id, .replicate 32 1⟩, .transferNotFound),
    (paid, .recordDisclosureRequest Sample.carol ⟨id, .replicate 32 1⟩, .unauthorized),
    (paid, .verifyDisclosure ⟨id, .replicate 32 1⟩, .disclosureNotFound),
    (disclosed, .verifyDisclosure ⟨id, .replicate 32 2⟩, .invalidDisclosureKey)]

/-- The interface reference lists exactly the errors of each entry point: from no environment does a
call fail with another one, the only trap being a missing authorization; and on Soroban each of them
is what some call fails with, all calls being authorized. -/
theorem documented_errors_exact :
    (∀ (host : Host Address) (env : Env Address) (inv : Invocation Address) (f : Fault),
      ((shield host).step env inv).1 = .error f →
        f = .trap .auth ∨ ∃ e ∈ inv.call.entryPoint.errors, f = .err e) ∧
    ∀ (p : EntryPoint), ∀ e ∈ p.errors, ∃ (invs : List (Invocation ScAddress))
      (call : Call ScAddress), call.entryPoint = p ∧
        ((shield soroban).step (runOf soroban invs) ⟨call, fun _ => true⟩).1 =
          .error (.err e) := by
  constructor
  · intro host env inv f h
    exact (refused_of_error (Prod.ext h rfl)).documented
  · have hlisted : ∀ p : EntryPoint, ∀ e ∈ p.errors,
        ∃ x ∈ refusals, x.2.1.entryPoint = p ∧ x.2.2 = e := by
      intro p
      cases p <;> decide
    have hrefused : ∀ x ∈ refusals,
        ((shield soroban).step (runOf soroban x.1) ⟨x.2.1, fun _ => true⟩).1 =
          .error (.err x.2.2) := by
      decide +kernel
    intro p e he
    obtain ⟨x, hx, hp, rfl⟩ := hlisted p e he
    exact ⟨x.1, x.2.1, hp, hrefused x hx⟩

/-! ## Repeating a call -/

/-- How a call can fail after it has succeeded. -/
def Call.retryFaults : Call Address → List Fault
  | .initializePool _ => [.err .alreadyInitialized]
  | .deposit _ _ | .withdraw _ _ | .confidentialTransfer _ _ _ => [.err .insufficientBalance]
  | .balance _ | .recordDisclosureRequest _ _ => []
  | .verifyDisclosure _ => [.err .invalidDisclosureKey]

/-- In an environment with at least the entries, and the same transfer records, a call that succeeded
before fails as `retryFaults` says. -/
theorem Refused.mem_retryFaults {env₀ env₁ : Env Address} {call : Call Address} {f : Fault}
    {r : Reply Address} (h : Refused frame env call f) (hs : Succeeds frame env₀ call r env₁)
    (hkept : ∀ key, (env₀.lookup key).isSome = true → (env.lookup key).isSome = true)
    (hrecords : ∀ id record, env₀.lookup (.transfer id) = some record →
      env.lookup (.transfer id) = some record) :
    f ∈ call.retryFaults := by
  have hgone : ∀ {key : DataKey Address} {value : key.Value}, env₀.lookup key = some value →
      env.lookup key ≠ none := by
    intro key value hvalue hnone
    have hsome := hkept key (by rw [hvalue]; rfl)
    rw [hnone] at hsome
    cases hsome
  cases h with
  | depositUninitialized hinit =>
    cases hs with
    | deposit hinit₀ => exact absurd (hkept _ hinit₀) hinit
  | depositUnauthorized hauth =>
    cases hs with
    | deposit hinit₀ hauth₀ => exact absurd hauth₀ hauth
  | withdrawUninitialized hinit =>
    cases hs with
    | withdraw hinit₀ => exact absurd (hkept _ hinit₀) hinit
  | withdrawUnauthorized hauth =>
    cases hs with
    | withdraw hinit₀ hauth₀ => exact absurd hauth₀ hauth
  | withdrawNoAccount hacc =>
    cases hs with
    | withdraw hinit₀ hauth₀ hpos hacc₀ => exact absurd hacc (hgone hacc₀)
  | transferUninitialized hinit =>
    cases hs with
    | confidentialTransfer hinit₀ => exact absurd (hkept _ hinit₀) hinit
  | transferUnauthorized hauth =>
    cases hs with
    | confidentialTransfer hinit₀ hauth₀ => exact absurd hauth₀ hauth
  | transferNotPositive hx =>
    cases hs with
    | confidentialTransfer hinit₀ hauth₀ hpos => exact absurd hx (not_le.2 hpos)
  | transferNoAccount hacc =>
    cases hs with
    | confidentialTransfer hinit₀ hauth₀ hpos hid hacc₀ => exact absurd hacc (hgone hacc₀)
  | recordUnauthorized hauth =>
    cases hs with
    | recordDisclosureRequest hauth₀ => exact absurd hauth₀ hauth
  | recordNoTransfer hrec =>
    cases hs with
    | recordDisclosureRequest hauth₀ hrec₀ => exact absurd hrec (hgone hrec₀)
  | recordOutsider hrec hparty =>
    cases hs with
    | recordDisclosureRequest hauth₀ hrec₀ hparty₀ =>
      rw [hrecords _ _ hrec₀] at hrec
      cases hrec
      rcases hparty₀ with hfrom | hto
      · exact absurd hfrom hparty.1
      · exact absurd hto hparty.2
  | verifyNoDisclosure hrec =>
    cases hs with
    | verifyDisclosure hrec₀ => exact absurd hrec (hgone hrec₀)
  | _ => simp [Call.retryFaults]

/-- A call that succeeds at some point of a run can fail at any later point, if at all, only as
`retryFaults` says: for lack of balance or room, for a rotated key, for being a second
initialization. So queries of balances and requests to disclose then always succeed. -/
theorem success_can_be_repeated (host : Host Address) (hxdr : host.XdrPrefixFree)
    (before after : List (Invocation Address)) (inv : Invocation Address)
    (hsha : host.NoCollision (transfersOf host (before ++ after)))
    (hok : Accepts host (runOf host before) inv) :
    ∀ f, ((shield host).step (runOf host (before ++ after)) inv).1 = .error f →
      f ∈ inv.call.retryFaults := by
  intro f hf
  obtain ⟨r, env', hs⟩ := accepts_iff.1 hok
  refine (refused_of_error (Prod.ext hf rfl)).mem_retryFaults hs (fun key hkey => ?_)
    fun id record hrec => lookup_transfer_of_prefix hxdr hsha hrec
  exact isSome_lookup_of_prefix host before after hkey

/-- Alice's request to disclose her payment can be made again after Bob has made his. -/
theorem alice_discloses_again :
    let t : Transfer ScAddress :=
      ⟨Sample.alice, Sample.bob, .replicate 32 7, Sample.amount 30⟩
    let before : List (Invocation ScAddress) :=
      [⟨.initializePool Sample.bob, fun _ => true⟩,
        ⟨.deposit Sample.alice (Sample.amount 100), fun _ => true⟩,
        ⟨.confidentialTransfer t.fromAddr t.toAddr (.mock ⟨t.amount, t.nonce⟩), fun _ => true⟩]
    let after : List (Invocation ScAddress) :=
      [⟨.recordDisclosureRequest Sample.bob ⟨soroban.idOf t, .replicate 32 2⟩, fun _ => true⟩,
        ⟨.withdraw Sample.alice (Sample.amount 70), fun _ => true⟩]
    let request : Invocation ScAddress :=
      ⟨.recordDisclosureRequest Sample.alice ⟨soroban.idOf t, .replicate 32 1⟩, fun _ => true⟩
    ∀ f, ((shield soroban).step (runOf soroban (before ++ after)) request).1 ≠ .error f := by
  intro t before after request f hf
  have hsha : soroban.NoCollision (transfersOf soroban (before ++ after)) := by decide +kernel
  have hok : Accepts soroban (runOf soroban before) request := ⟨.unit, by decide +kernel⟩
  have hmem := success_can_be_repeated soroban soroban_xdrPrefixFree before after request hsha hok
    f hf
  cases hmem

end PrivacyShield.Contract
