import PrivacyShield.Contract.Shield

/-!
# What a call can do

`Succeeds frame env call r env'` lists, entry point by entry point, when a call succeeds, what it
returns and what it changes. It is exactly the code's success (`dispatch_ok_iff`); a call that does
not succeed changes nothing (`dispatch_error`). The invariants of later modules are derived from
these two facts, without unfolding an entry point again.
-/

namespace PrivacyShield.Contract

open PrivacyShield.Lib

variable {Address : Type} [DecidableEq Address] {frame : Frame Address} {env env' : Env Address}

/-- `initialize` has succeeded: the asset contract is stored. -/
def Env.Initialized (env : Env Address) : Prop := (env.lookup .assetContract).isSome = true

instance (env : Env Address) : Decidable env.Initialized := inferInstanceAs (Decidable (_ = _))

/-- A call with its guards, its reply and its effect. -/
inductive Succeeds (frame : Frame Address) (env : Env Address) :
    Call Address → Reply Address → Env Address → Prop
  | initializePool {assetContract : Address} (hfresh : env.lookup .assetContract = none) :
      Succeeds frame env (.initializePool assetContract) .unit
        (env.put .assetContract assetContract)
  | deposit {depositor : Address} {amount : I128} {r : ShieldedAccount Address}
      (hinit : env.Initialized) (hauth : frame.auth depositor = true) (hpos : 0 < amount.toInt)
      (howner : r.owner = (env.accountOr depositor).owner)
      (hadd : r.balance.toInt = (env.accountOr depositor).balance.toInt + amount.toInt) :
      Succeeds frame env (.deposit depositor amount) (.account r) (env.put (.account depositor) r)
  | withdraw {owner : Address} {amount : I128} {account r : ShieldedAccount Address}
      (hinit : env.Initialized) (hauth : frame.auth owner = true) (hpos : 0 < amount.toInt)
      (hacc : env.lookup (.account owner) = some account)
      (hle : amount.toInt ≤ account.balance.toInt) (howner : r.owner = account.owner)
      (hsub : r.balance.toInt = account.balance.toInt - amount.toInt) :
      Succeeds frame env (.withdraw owner amount) (.account r) (env.put (.account owner) r)
  | balance {owner : Address} :
      Succeeds frame env (.balance owner) (.accountOpt (env.lookup (.account owner))) env
  | confidentialTransfer {fromAddr toAddr : Address} {mock : MockProof} {id : BytesN 32}
      {fromAccount fromAccount' toAccount' : ShieldedAccount Address}
      (hinit : env.Initialized) (hauth : frame.auth fromAddr = true)
      (hpos : 0 < mock.amount.toInt)
      (hid : id = frame.host.transferId fromAddr toAddr mock.nonce mock.amount)
      (hacc : env.lookup (.account fromAddr) = some fromAccount)
      (hle : mock.amount.toInt ≤ fromAccount.balance.toInt)
      (hfrom : fromAccount'.owner = fromAccount.owner)
      (hsub : fromAccount'.balance.toInt = fromAccount.balance.toInt - mock.amount.toInt)
      (hto : toAccount'.owner = (env.accountOr toAddr).owner)
      (hadd : toAccount'.balance.toInt = (env.accountOr toAddr).balance.toInt + mock.amount.toInt) :
      Succeeds frame env (.confidentialTransfer fromAddr toAddr (.mock mock)) (.transferId id)
        (env.transferred fromAddr toAddr fromAccount' toAccount' id mock.amount)
  | recordDisclosureRequest {caller : Address} {key : DisclosureKey}
      {record : TransferRecord Address} (hauth : frame.auth caller = true)
      (hrec : env.lookup (.transfer key.transferId) = some record)
      (hparty : caller = record.fromAddr ∨ caller = record.toAddr) :
      Succeeds frame env (.recordDisclosureRequest caller key) .unit
        (env.put (.disclosure key.transferId)
          ⟨key.transferId, record.fromAddr, record.toAddr, record.amount,
            frame.host.sha256 key.viewingKey.toList⟩)
  | verifyDisclosure {key : DisclosureKey} {record : DisclosureRecord Address}
      (hrec : env.lookup (.disclosure key.transferId) = some record)
      (hhash : frame.host.sha256 key.viewingKey.toList = record.viewingKeyHash) :
      Succeeds frame env (.verifyDisclosure key) (.disclosure record) env

/-! ## Entry points -/

omit [DecidableEq Address] in
/-- Wrapping the value of a call in a reply changes neither its success nor its effect. -/
theorem exec_reply_ok_iff {α : Type} {m : ContractM Address α} {g : α → Reply Address}
    {r : Reply Address} :
    exec (do let a ← m; return g a) frame env = (.ok r, env') ↔
      ∃ a, exec m frame env = (.ok a, env') ∧ g a = r := by
  rw [exec_bind]
  rcases exec m frame env with ⟨_ | a, env₁⟩
  · simp
  · simp only [exec_pure, Prod.mk.injEq, Except.ok.injEq]
    constructor
    · rintro ⟨hg, rfl⟩
      exact ⟨a, ⟨rfl, rfl⟩, hg⟩
    · rintro ⟨b, ⟨rfl, rfl⟩, hg⟩
      exact ⟨hg, rfl⟩

omit [DecidableEq Address] in
theorem exec_reply_error_iff {α : Type} {m : ContractM Address α} {g : α → Reply Address}
    {f : Fault} :
    exec (do let a ← m; return g a) frame env = (.error f, env') ↔
      exec m frame env = (.error f, env') := by
  rw [exec_bind]
  rcases exec m frame env with ⟨_ | a, env₁⟩
  · simp
  · simp

theorem exec_requireInitialized_bind {β : Type} (g : Unit → ContractM Address β) :
    exec (ShieldContract.requireInitialized >>= g) frame env =
      if env.Initialized then exec (g ()) frame env else (.error (.err .notInitialized), env) := by
  have hreq : exec (ShieldContract.requireInitialized : ContractM Address Unit) frame env =
      if env.Initialized then (.ok (), env) else (.error (.err .notInitialized), env) := by
    unfold ShieldContract.requireInitialized
    rw [exec_storageHas_bind, exec_ite, exec_fail_bind, exec_pure]
    by_cases h : (env.lookup .assetContract).isSome = true
    · rw [if_pos (show env.Initialized from h), if_neg (by rw [h]; decide)]
    · have hfalse : (env.lookup .assetContract).isSome = false := Bool.eq_false_iff.2 h
      rw [if_neg (show ¬env.Initialized from h), if_pos (by rw [hfalse]; rfl)]
  split
  · next h => exact exec_bind_of_ok (hreq.trans (if_pos h)) g
  · next h => exact exec_bind_of_error (hreq.trans (if_neg h)) g

/-- An entry point that checks that the contract is initialized and then runs `m`. -/
def Call.Guards {α : Type} (call : Call Address) (m : ContractM Address α) : Prop :=
  ∃ g : α → Reply Address, dispatch call = do
    let a ← (do ShieldContract.requireInitialized; m)
    return g a

theorem guards_deposit (depositor : Address) (amount : I128) :
    (Call.deposit depositor amount).Guards (Contract.deposit depositor amount) := ⟨_, rfl⟩

theorem guards_withdraw (owner : Address) (amount : I128) :
    (Call.withdraw owner amount).Guards (Contract.withdraw owner amount) := ⟨_, rfl⟩

theorem guards_confidentialTransfer (fromAddr toAddr : Address) (proof : ProofKind) :
    (Call.confidentialTransfer fromAddr toAddr proof).Guards
      (Contract.confidentialTransfer fromAddr toAddr proof) := ⟨_, rfl⟩

namespace Call.Guards

variable {α : Type} {call : Call Address} {m : ContractM Address α}

/-- An initialized contract refuses what the function behind the entry point refuses. -/
theorem refused (h : call.Guards m) (hinit : env.Initialized) {f : Fault}
    (hm : exec m frame env = (.error f, env')) :
    exec (dispatch call) frame env = (.error f, env') := by
  obtain ⟨g, hcall⟩ := h
  rw [hcall, exec_reply_error_iff, exec_requireInitialized_bind, if_pos hinit]
  exact hm

theorem not_initialized (h : call.Guards m) (hinit : ¬env.Initialized) :
    exec (dispatch call) frame env = (.error (.err .notInitialized), env) := by
  obtain ⟨g, hcall⟩ := h
  rw [hcall, exec_reply_error_iff, exec_requireInitialized_bind, if_neg hinit]

end Call.Guards

theorem initializePool_exec (assetContract : Address) :
    exec (ShieldContract.initializePool assetContract) frame env =
      if env.Initialized then (.error (.err .alreadyInitialized), env)
      else (.ok (), env.put .assetContract assetContract) := by
  unfold ShieldContract.initializePool
  rw [exec_storageHas_bind, exec_ite, exec_fail_bind,
    exec_storageSet_bind .assetContract assetContract, exec_pure]
  rfl

/-- A call succeeds exactly as `Succeeds` says. -/
theorem dispatch_ok_iff {call : Call Address} {r : Reply Address} :
    exec (dispatch call) frame env = (.ok r, env') ↔ Succeeds frame env call r env' := by
  cases call with
  | initializePool assetContract =>
    rw [dispatch, exec_reply_ok_iff, initializePool_exec]
    constructor
    · rintro ⟨a, h, rfl⟩
      split at h
      · cases h
      · next hfresh =>
        cases h
        exact .initializePool (by simpa [Env.Initialized] using hfresh)
    · intro h
      cases h with
      | initializePool hfresh =>
        exact ⟨(), if_neg (by simp [Env.Initialized, hfresh]), rfl⟩
  | deposit depositor amount =>
    rw [dispatch, exec_reply_ok_iff, ShieldContract.deposit, exec_requireInitialized_bind]
    constructor
    · rintro ⟨a, h, rfl⟩
      split at h
      · next hinit =>
        obtain ⟨hauth, hpos, howner, hadd, rfl⟩ := deposit_ok_iff.1 h
        exact .deposit hinit hauth hpos howner hadd
      · cases h
    · intro h
      cases h with
      | deposit hinit hauth hpos howner hadd =>
        rw [if_pos hinit]
        exact ⟨_, deposit_ok_iff.2 ⟨hauth, hpos, howner, hadd, rfl⟩, rfl⟩
  | withdraw owner amount =>
    rw [dispatch, exec_reply_ok_iff, ShieldContract.withdraw, exec_requireInitialized_bind]
    constructor
    · rintro ⟨a, h, rfl⟩
      split at h
      · next hinit =>
        obtain ⟨hauth, hpos, account, hacc, hle, howner, hsub, rfl⟩ := withdraw_ok_iff.1 h
        exact .withdraw hinit hauth hpos hacc hle howner hsub
      · cases h
    · intro h
      cases h with
      | withdraw hinit hauth hpos hacc hle howner hsub =>
        rw [if_pos hinit]
        exact ⟨_, withdraw_ok_iff.2 ⟨hauth, hpos, _, hacc, hle, howner, hsub, rfl⟩, rfl⟩
  | balance owner =>
    rw [dispatch, exec_reply_ok_iff]
    constructor
    · rintro ⟨a, h, rfl⟩
      cases h
      exact .balance
    · intro h
      cases h with
      | balance => exact ⟨_, rfl, rfl⟩
  | confidentialTransfer fromAddr toAddr proof =>
    obtain ⟨mock⟩ := proof
    rw [dispatch, exec_reply_ok_iff, ShieldContract.confidentialTransfer,
      exec_requireInitialized_bind]
    constructor
    · rintro ⟨id, h, rfl⟩
      split at h
      · next hinit =>
        obtain ⟨hauth, hpos, hid, fromAccount, fromAccount', toAccount', hacc, hle, hfrom, hsub,
          hto, hadd, rfl⟩ := confidentialTransfer_ok_iff.1 h
        exact .confidentialTransfer hinit hauth hpos hid hacc hle hfrom hsub hto hadd
      · cases h
    · intro h
      cases h with
      | confidentialTransfer hinit hauth hpos hid hacc hle hfrom hsub hto hadd =>
        rw [if_pos hinit]
        exact ⟨_, confidentialTransfer_ok_iff.2 ⟨hauth, hpos, hid, _, _, _, hacc, hle, hfrom, hsub,
          hto, hadd, rfl⟩, rfl⟩
  | recordDisclosureRequest caller key =>
    rw [dispatch, exec_reply_ok_iff]
    constructor
    · rintro ⟨a, h, rfl⟩
      obtain ⟨hauth, record, hrec, hparty, rfl⟩ := recordDisclosureRequest_ok_iff.1 h
      exact .recordDisclosureRequest hauth hrec hparty
    · intro h
      cases h with
      | recordDisclosureRequest hauth hrec hparty =>
        exact ⟨(), recordDisclosureRequest_ok_iff.2 ⟨hauth, _, hrec, hparty, rfl⟩, rfl⟩
  | verifyDisclosure key =>
    rw [dispatch, exec_reply_ok_iff]
    constructor
    · rintro ⟨a, h, rfl⟩
      obtain ⟨hrec, hhash, rfl⟩ := verifyDisclosure_ok_iff.1 h
      exact .verifyDisclosure hrec hhash
    · intro h
      cases h with
      | verifyDisclosure hrec hhash =>
        exact ⟨_, verifyDisclosure_ok_iff.2 ⟨hrec, hhash, rfl⟩, rfl⟩

/-- A call that does not succeed changes nothing, and none is ended by an arithmetic trap. -/
theorem dispatch_error {call : Call Address} {f : Fault}
    (h : exec (dispatch call) frame env = (.error f, env')) :
    env' = env ∧ f ≠ .trap .overflow := by
  cases call with
  | initializePool assetContract =>
    rw [dispatch, exec_reply_error_iff, initializePool_exec] at h
    split at h
    · cases h; exact ⟨rfl, by simp⟩
    · cases h
  | deposit depositor amount =>
    rw [dispatch, exec_reply_error_iff, ShieldContract.deposit, exec_requireInitialized_bind] at h
    split at h
    · exact deposit_error h
    · cases h; exact ⟨rfl, by simp⟩
  | withdraw owner amount =>
    rw [dispatch, exec_reply_error_iff, ShieldContract.withdraw, exec_requireInitialized_bind] at h
    split at h
    · exact withdraw_error h
    · cases h; exact ⟨rfl, by simp⟩
  | balance owner =>
    rw [dispatch, exec_reply_error_iff] at h
    cases h
  | confidentialTransfer fromAddr toAddr proof =>
    rw [dispatch, exec_reply_error_iff, ShieldContract.confidentialTransfer,
      exec_requireInitialized_bind] at h
    split at h
    · exact confidentialTransfer_error h
    · cases h; exact ⟨rfl, by simp⟩
  | recordDisclosureRequest caller key =>
    rw [dispatch, exec_reply_error_iff] at h
    exact recordDisclosureRequest_error h
  | verifyDisclosure key =>
    rw [dispatch, exec_reply_error_iff] at h
    exact verifyDisclosure_error h

/-! ## Frame -/

/-- The keys that a call may write. -/
def Call.writes (host : Host Address) : Call Address → List (DataKey Address)
  | .initializePool _ => [.assetContract]
  | .deposit depositor _ => [.account depositor]
  | .withdraw owner _ => [.account owner]
  | .confidentialTransfer fromAddr toAddr (.mock mock) =>
    [.account fromAddr, .account toAddr,
      .transfer (host.transferId fromAddr toAddr mock.nonce mock.amount)]
  | .recordDisclosureRequest _ key => [.disclosure key.transferId]
  | _ => []

/-- A successful call leaves every other entry alone. -/
theorem Succeeds.lookup_eq {call : Call Address} {r : Reply Address}
    (h : Succeeds frame env call r env') {key : DataKey Address}
    (hkey : key ∉ call.writes frame.host) : env'.lookup key = env.lookup key := by
  cases h with
  | initializePool => exact env.lookup_put_of_ne _ (List.ne_of_not_mem_cons hkey)
  | deposit => exact env.lookup_put_of_ne _ (List.ne_of_not_mem_cons hkey)
  | withdraw => exact env.lookup_put_of_ne _ (List.ne_of_not_mem_cons hkey)
  | balance => rfl
  | confidentialTransfer hinit hauth hpos hid =>
    simp only [Call.writes, List.mem_cons, List.not_mem_nil, or_false, not_or] at hkey
    obtain ⟨hfrom, hto, htransfer⟩ := hkey
    rw [← hid] at htransfer
    rw [Env.transferred, Env.lookup_emit, Env.lookup_put_of_ne _ _ htransfer,
      Env.lookup_put_of_ne _ _ hto, Env.lookup_put_of_ne _ _ hfrom]
  | recordDisclosureRequest => exact env.lookup_put_of_ne _ (List.ne_of_not_mem_cons hkey)
  | verifyDisclosure => rfl

/-! ## Steps and runs -/

section Runs

variable {host : Host Address} {inv : Invocation Address}

theorem step_ok_iff {r : Reply Address} :
    (shield host).step env inv = (.ok r, env') ↔ Succeeds ⟨host, inv.auth⟩ env inv.call r env' :=
  dispatch_ok_iff

/-- A step succeeds as `Succeeds` says, or fails and changes nothing. -/
theorem step_cases (host : Host Address) (env : Env Address) (inv : Invocation Address) :
    (∃ r env', (shield host).step env inv = (.ok r, env') ∧
      Succeeds ⟨host, inv.auth⟩ env inv.call r env') ∨
    ∃ f, (shield host).step env inv = (.error f, env) ∧ f ≠ .trap .overflow := by
  rcases h : (shield host).step env inv with ⟨f | r, env'⟩
  · obtain ⟨rfl, hf⟩ := dispatch_error h
    exact .inr ⟨f, rfl, hf⟩
  · exact .inl ⟨r, env', rfl, step_ok_iff.1 h⟩

/-- What every success on an invocation of a kind keeps, every run of such invocations keeps. -/
theorem run_preserves {P : Env Address → Prop} {C : Invocation Address → Prop}
    (hsucc : ∀ env (inv : Invocation Address) r env', C inv → P env →
      Succeeds ⟨host, inv.auth⟩ env inv.call r env' → P env')
    (h : P env) {invs : List (Invocation Address)} (hC : ∀ inv ∈ invs, C inv) :
    P ((shield host).run env invs) := by
  refine Machine.run_induction (fun env inv hinv hP => ?_) h hC
  rcases step_cases host env inv with ⟨r, env', hstep, hs⟩ | ⟨f, hstep, -⟩
  · rw [hstep]
    exact hsucc env inv r env' hinv hP hs
  · rw [hstep]
    exact hP

/-- What holds of empty storage and is kept by every success holds after every run. -/
theorem runOf_induction {P : Env Address → Prop} (h₀ : P .empty)
    (hsucc : ∀ env (inv : Invocation Address) r env', P env →
      Succeeds ⟨host, inv.auth⟩ env inv.call r env' → P env')
    (invs : List (Invocation Address)) : P (runOf host invs) :=
  run_preserves (C := fun _ => True) (fun env inv r env' _ => hsucc env inv r env') h₀
    fun _ _ => trivial

/-- The successful calls of a history with their replies, oldest first. -/
def History.successes (h : History Address) : List (Invocation Address × Reply Address) :=
  h.filterMap fun e => match e.2 with
    | .ok r => some (e.1, r)
    | .error _ => none

/-- The successful calls of a run from empty storage. -/
def successesOf (host : Host Address) (invs : List (Invocation Address)) :
    List (Invocation Address × Reply Address) :=
  (historyOf host invs).successes

theorem successesOf_concat_ok {invs : List (Invocation Address)} {r : Reply Address}
    (h : (shield host).step (runOf host invs) inv = (.ok r, env')) :
    successesOf host (invs ++ [inv]) = successesOf host invs ++ [(inv, r)] ∧
      runOf host (invs ++ [inv]) = env' := by
  unfold successesOf historyOf runOf History.successes
  rw [Machine.trace_concat, Machine.run_concat, List.filterMap_append]
  unfold runOf at h
  rw [h]
  exact ⟨rfl, rfl⟩

theorem successesOf_concat_error {invs : List (Invocation Address)} {f : Fault}
    (h : (shield host).step (runOf host invs) inv = (.error f, env')) :
    successesOf host (invs ++ [inv]) = successesOf host invs ∧
      runOf host (invs ++ [inv]) = env' := by
  unfold successesOf historyOf runOf History.successes
  rw [Machine.trace_concat, Machine.run_concat, List.filterMap_append]
  unfold runOf at h
  rw [h]
  exact ⟨List.append_nil _, rfl⟩

/-- A relation between the successful calls and the environment that every success keeps holds after
every run: a failed call adds no success and leaves the environment alone. -/
theorem successesOf_induction
    {P : List (Invocation Address × Reply Address) → Env Address → Prop} (h₀ : P [] .empty)
    (hsucc : ∀ l env (inv : Invocation Address) r env', P l env →
      Succeeds ⟨host, inv.auth⟩ env inv.call r env' → P (l ++ [(inv, r)]) env')
    (invs : List (Invocation Address)) : P (successesOf host invs) (runOf host invs) := by
  refine Machine.trace_induction (P := fun h env => P (History.successes h) env) h₀
    (fun h env inv hP => ?_) invs
  rw [History.successes, List.filterMap_append]
  rcases step_cases host env inv with ⟨r, env', hstep, hs⟩ | ⟨f, hstep, -⟩
  · rw [hstep]
    exact hsucc _ env inv r env' hP hs
  · rw [hstep]
    exact (List.append_nil (History.successes h)).symm ▸ hP

/-- What a run lists as a successful call did succeed, from some environment of the run. -/
theorem exists_succeeds_of_mem {invs : List (Invocation Address)}
    {s : Invocation Address × Reply Address} (hs : s ∈ successesOf host invs) :
    ∃ env env', Succeeds ⟨host, s.1.auth⟩ env s.1.call s.2 env' := by
  revert s
  refine successesOf_induction (P := fun l _ => ∀ {s}, s ∈ l →
    ∃ env env', Succeeds ⟨host, s.1.auth⟩ env s.1.call s.2 env') (fun hs => ?_)
    (fun l env inv r env' hP hs => ?_) invs
  · cases hs
  · intro s hmem
    rcases List.mem_append.1 hmem with hmem | hmem
    · exact hP hmem
    · rw [List.mem_singleton.1 hmem]
      exact ⟨env, env', hs⟩

theorem runOf_append (host : Host Address) (before after : List (Invocation Address)) :
    runOf host (before ++ after) = (shield host).run (runOf host before) after :=
  Machine.run_append _ _ _ _

end Runs

end PrivacyShield.Contract
