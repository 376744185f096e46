import PrivacyShield.Verify.Accounts
import PrivacyShield.Verify.Records

/-!
# What the guards of the entry points achieve

* A call that ends in an error has changed nothing, from any environment and without the host's
  rollback (`failed_call_leaves_no_update`): a caller that handles the error goes on from where the
  call began.
* Nothing is stored before the pool is initialized although the disclosure entry points do not ask
  for it (`InitializedFirst`): they write only next to a transfer record, and there is none yet.
* The proof check looks at the amount only. A transfer with the all-zero nonce, which the type
  documents as ill formed, succeeds whenever the other guards let it (`ZeroNoncePasses`).
-/

namespace PrivacyShield.Contract

open PrivacyShield.Lib

variable {Address : Type} [DecidableEq Address] {frame : Frame Address} {env env' : Env Address}

/-! ## Failed calls -/

/-- A call that ends in an error leaves the storage and the events exactly as they were, and a
caller that handles the error runs its handler from the environment before the call. -/
theorem failed_call_leaves_no_update (frame : Frame Address) (env : Env Address)
    (call : Call Address) (f : Fault) (h : (exec (dispatch call) frame env).1 = .error f) :
    (exec (dispatch call) frame env).2 = env ∧
    ∀ handler : Fault → ContractM Address (Reply Address),
      exec (try dispatch call catch f => handler f) frame env = exec (handler f) frame env := by
  have hexec : exec (dispatch call) frame env = (.error f, (exec (dispatch call) frame env).2) :=
    Prod.ext h rfl
  obtain ⟨henv, -⟩ := dispatch_error hexec
  refine ⟨henv, fun handler => ?_⟩
  rw [henv] at hexec
  rw [exec_tryCatch, hexec]

/-- Bob's account is full, so his credit overflows after Alice's debit was computed. No run reaches
this storage, and a caller that handles the error still finds Alice's 100. -/
theorem overflowing_credit_leaves_no_update :
    let env : Env ScAddress := ((Env.empty.put .assetContract Sample.carol).put
      (.account Sample.alice) ⟨Sample.carol, Sample.amount 100⟩).put
      (.account Sample.bob) ⟨Sample.bob, Sample.maxAmount⟩
    let frame : Frame ScAddress := ⟨soroban, fun _ => true⟩
    let call : Call ScAddress :=
      .confidentialTransfer Sample.alice Sample.bob (Sample.proof 60 7)
    (exec (dispatch call) frame env).2 = env ∧
    (exec (try dispatch call catch _ => dispatch (.balance Sample.alice)) frame env).1 =
      .ok (.accountOpt (some ⟨Sample.carol, Sample.amount 100⟩)) := by
  intro env frame call
  have hfail : (exec (dispatch call) frame env).1 = .error (.err .insufficientBalance) := by
    decide +kernel
  obtain ⟨henv, hcaller⟩ := failed_call_leaves_no_update frame env call _ hfail
  refine ⟨henv, ?_⟩
  rw [hcaller fun _ => dispatch (.balance Sample.alice)]
  decide +kernel

/-! ## Initialization -/

/-- The asset contract that a call asks for. -/
def Call.assetContract? : Call Address → Option Address
  | .initializePool assetContract => some assetContract
  | _ => none

/-- A success stores the asset contract it asks for, and only where there was none. -/
theorem Succeeds.lookup_assetContract {call : Call Address} {r : Reply Address}
    (h : Succeeds frame env call r env') :
    env'.lookup .assetContract = (env.lookup .assetContract).or call.assetContract? := by
  cases call with
  | initializePool assetContract =>
    cases h with
    | initializePool hfresh =>
      rw [Env.lookup_put_self, hfresh]
      rfl
  | confidentialTransfer f t proof =>
    obtain ⟨mock⟩ := proof
    rw [h.lookup_eq (by simp [Call.writes])]
    exact Option.or_none.symm
  | _ =>
    rw [h.lookup_eq (by simp [Call.writes])]
    exact Option.or_none.symm

/-- On empty storage only `initialize` has an effect: every other entry point that writes needs the
asset contract or a record. -/
theorem Succeeds.of_lookup_eq_none {call : Call Address} {r : Reply Address}
    (h : Succeeds frame env call r env') (hnone : ∀ key, env.lookup key = none)
    (hcall : ∀ assetContract, call ≠ .initializePool assetContract) : env' = env := by
  have huninit : ¬env.Initialized := by
    unfold Env.Initialized
    rw [hnone]
    simp
  cases h with
  | initializePool => exact absurd rfl (hcall _)
  | deposit hinit => exact absurd hinit huninit
  | withdraw hinit => exact absurd hinit huninit
  | balance => rfl
  | confidentialTransfer hinit => exact absurd hinit huninit
  | recordDisclosureRequest hauth hrec =>
    rw [hnone] at hrec
    cases hrec
  | verifyDisclosure => rfl

/-- The asset contract is that of the first successful `initialize`, and without one there are no
entries at all. -/
structure InitializedFirst (l : List (Invocation Address × Reply Address)) (env : Env Address) :
    Prop where
  lookup_eq : env.lookup .assetContract = l.findSome? fun s => s.1.call.assetContract?
  lookup_eq_none : env.lookup .assetContract = none → ∀ key, env.lookup key = none

namespace InitializedFirst

theorem empty : InitializedFirst ([] : List (Invocation Address × Reply Address)) .empty :=
  ⟨Env.lookup_empty _, fun _ => Env.lookup_empty⟩

theorem succeeds {host : Host Address} {l : List (Invocation Address × Reply Address)}
    {inv : Invocation Address} {r : Reply Address} (h : InitializedFirst l env)
    (hs : Succeeds ⟨host, inv.auth⟩ env inv.call r env') :
    InitializedFirst (l ++ [(inv, r)]) env' := by
  refine ⟨?_, ?_⟩
  · rw [hs.lookup_assetContract, h.lookup_eq, List.findSome?_append, List.findSome?_singleton]
  · intro hnone
    rw [hs.lookup_assetContract, Option.or_eq_none_iff] at hnone
    obtain ⟨hbefore, hcall⟩ := hnone
    have hsame : env' = env := by
      refine hs.of_lookup_eq_none (h.lookup_eq_none hbefore) fun assetContract heq => ?_
      rw [heq] at hcall
      cases hcall
    rw [hsame]
    exact h.lookup_eq_none hbefore

end InitializedFirst

theorem initializedFirst_runOf (host : Host Address) (invs : List (Invocation Address)) :
    InitializedFirst (successesOf host invs) (runOf host invs) :=
  successesOf_induction .empty (fun _ _ _ _ _ h hs => h.succeeds hs) invs

/-- The asset contract is written once. -/
theorem lookup_assetContract_run {host : Host Address} {assetContract : Address}
    (h : env.lookup .assetContract = some assetContract) (after : List (Invocation Address)) :
    ((shield host).run env after).lookup .assetContract = some assetContract := by
  refine run_preserves (C := fun _ => True)
    (P := fun env => env.lookup .assetContract = some assetContract)
    (fun env inv r env' _ h hs => ?_) h fun _ _ => trivial
  rw [hs.lookup_assetContract, h]
  rfl

/-- In every reachable environment: without an asset contract there is no entry, and no call but
`initialize` changes anything; the asset contract is the argument of the first successful
`initialize` of the run, and every continuation keeps it. -/
theorem initialization_discipline (host : Host Address) (invs : List (Invocation Address)) :
    ((runOf host invs).lookup .assetContract = none →
      (∀ key, (runOf host invs).lookup key = none) ∧
      ∀ inv : Invocation Address, (∀ assetContract, inv.call ≠ .initializePool assetContract) →
        ((shield host).step (runOf host invs) inv).2 = runOf host invs) ∧
    ((runOf host invs).lookup .assetContract =
      (successesOf host invs).findSome? fun s => s.1.call.assetContract?) ∧
    ∀ assetContract, (runOf host invs).lookup .assetContract = some assetContract →
      ∀ after, (runOf host (invs ++ after)).lookup .assetContract = some assetContract := by
  have hfirst := initializedFirst_runOf host invs
  refine ⟨fun hnone => ⟨hfirst.lookup_eq_none hnone, fun inv hcall => ?_⟩, hfirst.lookup_eq, ?_⟩
  · rcases step_cases host (runOf host invs) inv with ⟨r, env', hstep, hs⟩ | ⟨f, hstep, -⟩
    · rw [hstep]
      exact hs.of_lookup_eq_none (hfirst.lookup_eq_none hnone) hcall
    · rw [hstep]
  · intro assetContract h after
    rw [runOf_append]
    exact lookup_assetContract_run h after

/-- A disclosure request before `initialize` changes nothing; then the first of two `initialize`
calls is the one that counts, also later. -/
theorem first_initialize_counts :
    let early : List (Invocation ScAddress) :=
      [⟨.deposit Sample.alice (Sample.amount 100), fun _ => true⟩]
    let late : List (Invocation ScAddress) :=
      [⟨.initializePool Sample.bob, fun _ => true⟩,
        ⟨.initializePool Sample.carol, fun _ => true⟩]
    let key : DisclosureKey := ⟨.replicate 32 1, .replicate 32 2⟩
    ((shield soroban).step (runOf soroban early)
      ⟨.recordDisclosureRequest Sample.alice key, fun _ => true⟩).2 = runOf soroban early ∧
    (runOf soroban (early ++ late ++
      [⟨.deposit Sample.alice (Sample.amount 5), fun _ => true⟩])).lookup .assetContract =
        some Sample.bob := by
  intro early late key
  obtain ⟨hnone, -, -⟩ := initialization_discipline soroban early
  obtain ⟨-, -, hkept⟩ := initialization_discipline soroban (early ++ late)
  refine ⟨(hnone (by decide +kernel)).2 _ (by simp), hkept Sample.bob (by decide +kernel) _⟩

/-! ## Proof checks -/

/-- The nonce that stands for a missing one. -/
def zeroNonce : BytesN 32 := .replicate 32 0

/-- The well-formedness that `MockProof` documents: a positive amount and a nonce that is not
zero. -/
def MockProof.WellFormed (mock : MockProof) : Prop := 0 < mock.amount.toInt ∧ mock.nonce ≠ zeroNonce

instance MockProof.decidableWellFormed (mock : MockProof) : Decidable mock.WellFormed :=
  inferInstanceAs (Decidable (_ ∧ _))

/-- The invocation is a transfer with the all-zero nonce, and none of the guards of the transfer
stops it. -/
def ZeroNoncePasses (env : Env Address) (inv : Invocation Address) : Prop :=
  ∃ f t mock, inv.call = .confidentialTransfer f t (.mock mock) ∧ mock.nonce = zeroNonce ∧
    env.Initialized ∧ inv.auth f = true ∧ 0 < mock.amount.toInt ∧
    (∃ b, env.ledger f = some b ∧ mock.amount.toInt ≤ b) ∧
    (env.ledger t).getD 0 + mock.amount.toInt ≤ 2 ^ 127 - 1

/-- A zero-nonce transfer that passes the guards succeeds. -/
theorem ZeroNoncePasses.accepts (host : Host Address) {inv : Invocation Address}
    (h : ZeroNoncePasses env inv) : Accepts host env inv := by
  obtain ⟨call, auth⟩ := inv
  obtain ⟨f, t, mock, rfl, -, hguards⟩ := h
  exact transfer_accepted_iff.2 hguards

/-- A call that is not a transfer with an ill-formed proof. -/
def Call.ProofWellFormed (call : Call Address) : Prop :=
  ∀ f t mock, call = .confidentialTransfer f t (.mock mock) → mock.WellFormed

/-- The check of the amount is half of what is documented: a successful call was well formed exactly
when it did not pass with the all-zero nonce. -/
theorem Succeeds.proofWellFormed_iff {host : Host Address} {inv : Invocation Address}
    {r : Reply Address} (h : Succeeds ⟨host, inv.auth⟩ env inv.call r env') :
    inv.call.ProofWellFormed ↔ ¬ZeroNoncePasses env inv := by
  have haccepts : Accepts host env inv := accepts_iff.2 ⟨r, env', h⟩
  obtain ⟨call, auth⟩ := inv
  constructor
  · intro hwf hpass
    obtain ⟨f, t, mock, hcall, hnonce, -⟩ := hpass
    exact (hwf f t mock hcall).2 hnonce
  · intro hno f t mock hcall
    obtain rfl : call = .confidentialTransfer f t (.mock mock) := hcall
    have hguards := transfer_accepted_iff.1 haccepts
    exact ⟨hguards.2.2.1, fun hnonce => hno ⟨f, t, mock, rfl, hnonce, hguards⟩⟩

/-- The successful calls of a run were well formed exactly when no zero-nonce transfer passes along
it. -/
theorem successesOf_proofWellFormed_iff (host : Host Address) (invs : List (Invocation Address)) :
    (∀ s ∈ successesOf host invs, s.1.call.ProofWellFormed) ↔
      (shield host).Along (fun env inv => ¬ZeroNoncePasses env inv) .empty invs :=
  forall_successesOf_iff_along (fun h => h.accepts host) (fun hs => hs.proofWellFormed_iff) invs

/-- In a run, every successful transfer had a well-formed proof and no `Transfer` entry comes from a
transfer with the all-zero nonce, exactly when no zero-nonce transfer passes its guards along it. -/
theorem transfers_well_formed_iff (host : Host Address) (invs : List (Invocation Address)) :
    ((∀ s ∈ successesOf host invs, ∀ f t mock,
        s.1.call = .confidentialTransfer f t (.mock mock) → mock.WellFormed) ∧
      ∀ id r, (runOf host invs).lookup (.transfer id) = some r →
        ∃ t ∈ transfersOf host invs, host.idOf t = id ∧ host.recordOf t = r ∧
          t.nonce ≠ zeroNonce) ↔
    (shield host).Along (fun env inv => ¬ZeroNoncePasses env inv) .empty invs := by
  rw [← successesOf_proofWellFormed_iff]
  refine ⟨fun h => h.1, fun hall => ⟨hall, fun id r hr => ?_⟩⟩
  obtain ⟨t, ht, hid, hrec⟩ := (transferEntries_runOf host invs).exists_transfer hr
  obtain ⟨s, hs, hcall⟩ := List.mem_filterMap.1 ht
  have hwf : (⟨t.amount, t.nonce⟩ : MockProof).WellFormed :=
    hall s hs _ _ _ (Call.eq_of_transfer? hcall)
  exact ⟨t, ht, hid, hrec, hwf.2⟩

/-- Alice pays Bob 60 with a nonce. A payment of 600 without one is refused, so it does not count,
and what is on record has a nonce. -/
theorem payment_with_nonce_well_formed :
    let invs : List (Invocation ScAddress) :=
      [⟨.initializePool Sample.bob, fun _ => true⟩,
        ⟨.deposit Sample.alice (Sample.amount 100), fun _ => true⟩,
        ⟨.confidentialTransfer Sample.alice Sample.bob (Sample.proof 60 7), fun _ => true⟩,
        ⟨.confidentialTransfer Sample.alice Sample.bob (Sample.proof 600 0), fun _ => true⟩]
    ∀ id r, (runOf soroban invs).lookup (.transfer id) = some r →
      ∃ t ∈ transfersOf soroban invs, soroban.idOf t = id ∧ soroban.recordOf t = r ∧
        t.nonce ≠ zeroNonce := by
  intro invs
  refine ((transfers_well_formed_iff soroban invs).2 ⟨?_, ?_, ?_, ?_, trivial⟩).2
  · rintro ⟨f, t, mock, hcall, -⟩
    cases hcall
  · rintro ⟨f, t, mock, hcall, -⟩
    cases hcall
  · rintro ⟨f, t, mock, hcall, hnonce, -⟩
    cases hcall
    exact absurd hnonce (by decide)
  · rintro ⟨f, t, mock, hcall, -, -, -, -, ⟨b, hb, hle⟩, -⟩
    cases hcall
    have hledger : (runOf soroban (invs.take 3)).ledger Sample.alice = some 40 := by decide +kernel
    cases hb.symm.trans hledger
    exact absurd hle (by decide)

/-- Alice pays Bob 30 with the all-zero nonce: the payment succeeds and is on record. -/
theorem zero_nonce_transfer_succeeds :
    let invs : List (Invocation ScAddress) :=
      [⟨.initializePool Sample.bob, fun _ => true⟩,
        ⟨.deposit Sample.alice (Sample.amount 100), fun _ => true⟩,
        ⟨.confidentialTransfer Sample.alice Sample.bob (Sample.proof 30 0), fun _ => true⟩]
    let t : Transfer ScAddress := ⟨Sample.alice, Sample.bob, zeroNonce, Sample.amount 30⟩
    (∃ s ∈ successesOf soroban invs,
      s.1.call = .confidentialTransfer t.fromAddr t.toAddr (.mock ⟨t.amount, t.nonce⟩)) ∧
    ¬(⟨t.amount, t.nonce⟩ : MockProof).WellFormed ∧
    (runOf soroban invs).lookup (.transfer (soroban.idOf t)) = some (soroban.recordOf t) := by
  decide +kernel

end PrivacyShield.Contract
