import PrivacyShield.Lib.Simulation
import PrivacyShield.Verify.Disclosures
import PrivacyShield.Verify.Guards
import PrivacyShield.Verify.IdealPool

/-!
# The contract refines the ideal pool

Call by call, the contract answers what the ideal pool answers, refusals included, and its storage
and its event stream are determined by the state of the pool (`Represents`). The assumption on
SHA-256 is the one of `Verify.Records`, on the transfers that the run asks for, and the same for the
viewing keys of the run.
-/

namespace PrivacyShield.Contract

open PrivacyShield.Lib

variable {Address : Type}

/-! ## Requests and answers -/

/-- The transfer that an identifier names among the transfers `ts`. -/
def Host.nameIn (host : Host Address) (ts : List (Transfer Address)) (id : BytesN 32) :
    Option (Transfer Address) :=
  ts.find? fun t => host.idOf t = id

theorem Host.nameIn_eq_some {host : Host Address} {ts : List (Transfer Address)} {id : BytesN 32}
    {t : Transfer Address} (h : host.nameIn ts id = some t) : t ∈ ts ∧ host.idOf t = id := by
  have hid := List.find?_some h
  exact ⟨List.mem_of_find?_eq_some h, of_decide_eq_true hid⟩

theorem Host.nameIn_idOf {host : Host Address} (hxdr : host.XdrPrefixFree)
    {ts : List (Transfer Address)} (hsha : host.NoCollision ts) {t : Transfer Address}
    (ht : t ∈ ts) : host.nameIn ts (host.idOf t) = some t := by
  cases hfind : host.nameIn ts (host.idOf t) with
  | none => exact absurd (decide_eq_true rfl) (List.find?_eq_none.1 hfind t ht)
  | some u =>
    obtain ⟨hu, hid⟩ := Host.nameIn_eq_some hfind
    rw [Host.idOf_injOn hxdr hsha hu ht hid]

/-- The request that a call makes of the pool. -/
def Call.request (name : BytesN 32 → Option (Transfer Address)) : Call Address → Request Address
  | .initializePool assetContract => .initializePool assetContract
  | .deposit depositor amount => .deposit depositor amount.toInt
  | .withdraw owner amount => .withdraw owner amount.toInt
  | .balance owner => .balance owner
  | .confidentialTransfer fromAddr toAddr (.mock mock) =>
    .transfer ⟨fromAddr, toAddr, mock.nonce, mock.amount⟩
  | .recordDisclosureRequest caller key => .disclose caller (name key.transferId) key.viewingKey
  | .verifyDisclosure key => .verify (name key.transferId) key.viewingKey

/-- The reply that carries an answer. -/
def Answer.Renders (host : Host Address) : Answer Address → Reply Address → Prop
  | .done, .unit => True
  | .holding owner balance, .account account =>
    account.owner = owner ∧ account.balance.toInt = balance
  | .holding owner balance, .accountOpt (some account) =>
    account.owner = owner ∧ account.balance.toInt = balance
  | .noAccount, .accountOpt none => True
  | .transferred t, .transferId id => id = host.idOf t
  | .disclosed t vk, .disclosure record => record = host.disclosureOf t vk
  | _, _ => False

/-- The same refusal, or a reply that carries the answer. -/
def SameOutcome (host : Host Address) : Outcome Address → Except Fault (Answer Address) → Prop
  | .error f, .error f' => f = f'
  | .ok r, .ok answer => answer.Renders host r
  | _, _ => False

/-- The transfers that a list of invocations asks for. -/
def requestedTransfers (invs : List (Invocation Address)) : List (Transfer Address) :=
  invs.filterMap fun inv => inv.call.transfer?

/-- The viewing key of a call. -/
def Call.viewingKey? : Call Address → Option (BytesN 32)
  | .recordDisclosureRequest _ key => some key.viewingKey
  | .verifyDisclosure key => some key.viewingKey
  | _ => none

/-- The viewing keys that a list of invocations records or tries. -/
def triedKeys (invs : List (Invocation Address)) : List (BytesN 32) :=
  invs.filterMap fun inv => inv.call.viewingKey?

/-! ## The relation -/

variable [DecidableEq Address]

/-- The storage and the events are those of the pool, whose transfers are among `ts` and whose
viewing keys are among `vks`. -/
structure Represents (host : Host Address) (ts : List (Transfer Address)) (vks : List (BytesN 32))
    (env : Env Address) (p : IdealPool Address) : Prop where
  wellFormed : env.WellFormed
  assetContract : env.lookup .assetContract = p.assetContract
  ledger : env.ledger = p.ledger
  transfer : ∀ id,
    env.lookup (.transfer id) = (p.made (host.nameIn ts id)).map host.recordOf
  disclosure : ∀ id, env.lookup (.disclosure id) =
    (p.disclosure (host.nameIn ts id)).map fun d => host.disclosureOf d.1 d.2
  events : env.events = p.transfers.map host.eventOf
  transfers_subset : p.transfers ⊆ ts
  viewingKey_mem : ∀ {t vk}, p.viewingKey t = some vk → vk ∈ vks

namespace Represents

variable {host : Host Address} {ts : List (Transfer Address)} {vks : List (BytesN 32)}
  {env env' : Env Address} {p : IdealPool Address}

theorem empty (host : Host Address) (ts : List (Transfer Address)) (vks : List (BytesN 32)) :
    Represents host ts vks .empty .empty where
  wellFormed := .empty
  assetContract := Env.lookup_empty _
  ledger := ledger_empty
  transfer id := by
    rw [Env.lookup_empty]
    cases host.nameIn ts id <;> rfl
  disclosure id := by
    rw [Env.lookup_empty]
    cases host.nameIn ts id <;> rfl
  events := rfl
  transfers_subset := List.nil_subset ts
  viewingKey_mem h := by cases h

theorem initialized_iff (h : Represents host ts vks env p) :
    env.Initialized ↔ p.assetContract ≠ none := by
  unfold Env.Initialized
  rw [h.assetContract]
  exact Option.isSome_iff_ne_none

theorem accountOr_balance (h : Represents host ts vks env p) (a : Address) :
    (env.accountOr a).balance.toInt = p.balance a := by
  rw [Contract.accountOr_balance, h.ledger]
  rfl

theorem ledger_of_lookup (h : Represents host ts vks env p) {a : Address}
    {account : ShieldedAccount Address} (hacc : env.lookup (.account a) = some account) :
    p.ledger a = some account.balance.toInt := by
  rw [← h.ledger, Contract.ledger_of_lookup hacc]

theorem ledger_of_lookup_eq_none (h : Represents host ts vks env p) {a : Address}
    (hacc : env.lookup (.account a) = none) : p.ledger a = none := by
  rw [← h.ledger, Env.ledger, hacc]
  rfl

/-- A call that neither transfers nor records a disclosure changes the asset contract and the ledger
only. -/
theorem succeeds_of_other (h : Represents host ts vks env p) (inv : Invocation Address)
    {r : Reply Address} (hs : Succeeds ⟨host, inv.auth⟩ env inv.call r env')
    (hcall : inv.call.transfer? = none) (hkey : ∀ id, recordedKey id (inv, r) = none)
    {asset : Option Address} (hasset : p.assetContract.or inv.call.assetContract? = asset) :
    Represents host ts vks env'
      { p with assetContract := asset, ledger := p.ledger.postAll (postings inv.call) } := by
  obtain ⟨htransfer, hevents⟩ := hs.of_transfer?_eq_none hcall
  have hdisclosure : ∀ id, env'.lookup (.disclosure id) = env.lookup (.disclosure id) := by
    intro id
    rcases hs.disclosure_cases id with ⟨-, hsame⟩ | ⟨vk, record, hrecorded, -⟩
    · exact hsame
    · rw [hkey id] at hrecorded
      cases hrecorded
  exact {
    wellFormed := h.wellFormed.succeeds hs
    assetContract := by rw [hs.lookup_assetContract, h.assetContract, hasset]
    ledger := by rw [hs.ledger, h.ledger]
    transfer := fun id => (htransfer id).trans (h.transfer id)
    disclosure := fun id => (hdisclosure id).trans (h.disclosure id)
    events := hevents.trans h.events
    transfers_subset := h.transfers_subset
    viewingKey_mem := h.viewingKey_mem }

/-- A transfer adds its postings, itself and its event. -/
theorem succeeds_of_transfer (hxdr : host.XdrPrefixFree) (hsha : host.NoCollision ts)
    (h : Represents host ts vks env p) {inv : Invocation Address} {r : Reply Address}
    (hs : Succeeds ⟨host, inv.auth⟩ env inv.call r env') {t : Transfer Address}
    (hcall : inv.call.transfer? = some t) (ht : t ∈ ts) :
    Represents host ts vks env'
      { p with ledger := p.paid t, transfers := p.transfers ++ [t] } := by
  obtain ⟨-, hlookup, hevents⟩ := hs.of_transfer?_eq_some hcall
  obtain ⟨call, auth⟩ := inv
  obtain rfl : call = _ := Call.eq_of_transfer? hcall
  have hasset := hs.lookup_assetContract
  have hdisclosure : ∀ id, env'.lookup (.disclosure id) = env.lookup (.disclosure id) :=
    fun id => hs.lookup_eq (by simp [Call.writes])
  refine ⟨h.wellFormed.succeeds hs, ?_, ?_, fun id => ?_, fun id => ?_, ?_, ?_,
    h.viewingKey_mem⟩
  · rw [hasset, h.assetContract]
    exact Option.or_none
  · rw [hs.ledger, h.ledger, postings]
    unfold IdealPool.paid
    split
    · rfl
    · rfl
  · rw [hlookup]
    by_cases hid : id = host.idOf t
    · subst hid
      rw [if_pos rfl, Host.nameIn_idOf hxdr hsha ht]
      simp [IdealPool.made]
    · rw [if_neg hid, h.transfer id]
      cases hname : host.nameIn ts id with
      | none => rfl
      | some u =>
        have hne : u ≠ t := by
          intro hut
          exact hid (hut ▸ (Host.nameIn_eq_some hname).2.symm)
        simp [IdealPool.made, Option.filter, hne]
  · rw [hdisclosure id, h.disclosure id]
    rfl
  · rw [hevents, h.events, List.map_append]
    rfl
  · exact List.append_subset.2 ⟨h.transfers_subset, List.cons_subset.2 ⟨ht, List.nil_subset ts⟩⟩

/-- A disclosure request records its viewing key for the transfer. -/
theorem put_disclosure (h : Represents host ts vks env p) {id : BytesN 32}
    {t : Transfer Address} (hname : host.nameIn ts id = some t) {vk : BytesN 32} (hvk : vk ∈ vks) :
    Represents host ts vks (env.put (.disclosure id) (host.disclosureOf t vk))
      { p with viewingKey := Function.update p.viewingKey t (some vk) } := by
  refine ⟨?_, ?_, ?_, fun id' => ?_, fun id' => ?_, h.events, h.transfers_subset, ?_⟩
  · exact h.wellFormed.of_lookup_eq fun a => Env.lookup_put_of_ne _ _ (by simp)
  · rw [Env.lookup_put_of_ne _ _ (by simp), h.assetContract]
  · rw [ledger_put_of_ne (by simp), h.ledger]
  · rw [Env.lookup_put_of_ne _ _ (by simp), h.transfer id']
    rfl
  · by_cases hid : id' = id
    · subst hid
      rw [Env.lookup_put_self, hname]
      simp [IdealPool.disclosure]
    · rw [Env.lookup_put_of_ne _ _ (by simpa using hid), h.disclosure id']
      cases hname' : host.nameIn ts id' with
      | none => rfl
      | some u =>
        have hne : u ≠ t := by
          intro hut
          refine hid ?_
          rw [← (Host.nameIn_eq_some hname').2, ← (Host.nameIn_eq_some hname).2, hut]
        simp [IdealPool.disclosure, Function.update_of_ne hne]
  · intro u vk' (hu : Function.update p.viewingKey t (some vk) u = some vk')
    by_cases hut : u = t
    · subst hut
      rw [Function.update_self] at hu
      cases hu
      exact hvk
    · rw [Function.update_of_ne hut] at hu
      exact h.viewingKey_mem hu

end Represents

/-! ## Steps -/

section Steps

variable {host : Host Address} {ts : List (Transfer Address)} {vks : List (BytesN 32)}
  {env env' : Env Address} {p p' : IdealPool Address} {inv : Invocation Address}
  {req : Request Address}

/-- The step on `inv` from `env` and the answer of `p` to `req` agree, and lead to states that
agree. -/
def Agree (host : Host Address) (ts : List (Transfer Address)) (vks : List (BytesN 32))
    (env : Env Address) (inv : Invocation Address) (p : IdealPool Address)
    (req : Request Address) : Prop :=
  SameOutcome host ((shield host).step env inv).1 (idealPool.step p (req, inv.auth)).1 ∧
    Represents host ts vks ((shield host).step env inv).2 (idealPool.step p (req, inv.auth)).2

/-- Both refuse. -/
theorem Agree.refused {f : Fault} (h : Represents host ts vks env p)
    (hstep : exec (dispatch inv.call) ⟨host, inv.auth⟩ env = (.error f, env))
    (hrespond : p.respond inv.auth req = .error f) : Agree host ts vks env inv p req := by
  have hpool : idealPool.step p (req, inv.auth) = (.error f, p) := by
    simp only [idealPool, hrespond]
  have hshield : (shield host).step env inv = (.error f, env) := hstep
  rw [Agree, hshield, hpool]
  exact ⟨rfl, h⟩

/-- Both serve. -/
theorem Agree.served {r : Reply Address} {answer : Answer Address}
    (hs : Succeeds ⟨host, inv.auth⟩ env inv.call r env')
    (hrespond : p.respond inv.auth req = .ok (answer, p')) (hrenders : answer.Renders host r)
    (h' : Represents host ts vks env' p') : Agree host ts vks env inv p req := by
  have hpool : idealPool.step p (req, inv.auth) = (.ok answer, p') := by
    simp only [idealPool, hrespond]
  rw [Agree, step_ok_iff.2 hs, hpool]
  exact ⟨hrenders, h'⟩

variable (h : Represents host ts vks env p) {auth : Address → Bool}
include h

theorem agree_initializePool {assetContract : Address} :
    Agree host ts vks env ⟨.initializePool assetContract, auth⟩ p
      (.initializePool assetContract) := by
  by_cases hinit : p.assetContract = none
  case neg =>
    refine .refused (f := .err .alreadyInitialized) h ?_ ?_
    · rw [dispatch, exec_reply_error_iff, initializePool_exec, if_pos (h.initialized_iff.2 hinit)]
    · rw [IdealPool.respond, ensure_bind_of_neg hinit]
  have hs : Succeeds ⟨host, auth⟩ env (.initializePool assetContract) .unit _ :=
    .initializePool (h.assetContract.trans hinit)
  have hrenders : (Answer.done : Answer Address).Renders host .unit := trivial
  have hasset : p.assetContract.or (some assetContract) = some assetContract := by rw [hinit]; rfl
  have hrep := h.succeeds_of_other ⟨.initializePool assetContract, auth⟩ hs rfl
    (fun _ => rfl) hasset
  refine .served hs ?_ hrenders hrep
  rw [IdealPool.respond, ensure_bind_of_pos hinit]
  rfl

theorem agree_deposit {a : Address} {amount : I128} :
    Agree host ts vks env ⟨.deposit a amount, auth⟩ p (.deposit a amount.toInt) := by
  by_cases hinit : env.Initialized
  case neg =>
    refine .refused (f := .err .notInitialized) h ?_ ?_
    · exact (guards_deposit a amount).not_initialized hinit
    · rw [IdealPool.respond, ensure_bind_of_neg (mt h.initialized_iff.2 hinit)]
  by_cases hauth : auth a = true
  case neg =>
    refine .refused (f := .trap .auth) h ((guards_deposit a amount).refused hinit ?_) ?_
    · rw [deposit_exec, if_neg hauth]
    · rw [IdealPool.respond, ensure_bind_of_pos (h.initialized_iff.1 hinit),
        ensure_bind_of_neg hauth]
  by_cases hpos : 0 < amount.toInt
  case neg =>
    have hle : amount ≤ 0 := Int.not_lt.1 hpos
    refine .refused (f := .err .insufficientBalance) h ((guards_deposit a amount).refused hinit ?_) ?_
    · rw [deposit_exec, if_pos hauth, if_pos hle]
    · rw [IdealPool.respond, ensure_bind_of_pos (h.initialized_iff.1 hinit),
        ensure_bind_of_pos hauth, ensure_bind_of_neg hpos]
  have hbalance := h.accountOr_balance a
  by_cases hfits : p.balance a + amount.toInt ≤ maxBalance
  case neg =>
    refine .refused h (deposit_overflow_refused hinit hauth hpos ?_) ?_
    · rw [← Contract.accountOr_balance, hbalance]
      unfold maxBalance at hfits
      omega
    · rw [IdealPool.respond, ensure_bind_of_pos (h.initialized_iff.1 hinit),
        ensure_bind_of_pos hauth, ensure_bind_of_pos hpos, ensure_bind_of_neg hfits]
  have hle : (env.accountOr a).balance.toInt + amount.toInt ≤ 2 ^ 127 - 1 := hbalance ▸ hfits
  obtain ⟨balance, hadd⟩ := (SInt.exists_checkedAdd_iff (Int.le_of_lt hpos)).2 hle
  have hsum := SInt.checkedAdd_eq_some_iff.1 hadd
  have hs : Succeeds ⟨host, auth⟩ env (.deposit a amount)
      (.account ⟨(env.accountOr a).owner, balance⟩) _ := .deposit hinit hauth hpos rfl hsum
  have hrenders : (Answer.holding a (p.balance a + amount.toInt)).Renders host
      (.account ⟨(env.accountOr a).owner, balance⟩) :=
    ⟨h.wellFormed.accountOr_owner a, hbalance ▸ hsum⟩
  have hrep := h.succeeds_of_other ⟨.deposit a amount, auth⟩ hs rfl (fun _ => rfl)
    Option.or_none
  refine .served hs ?_ hrenders hrep
  rw [IdealPool.respond, ensure_bind_of_pos (h.initialized_iff.1 hinit), ensure_bind_of_pos hauth,
    ensure_bind_of_pos hpos, ensure_bind_of_pos hfits]
  rfl

theorem agree_withdraw {a : Address} {amount : I128} :
    Agree host ts vks env ⟨.withdraw a amount, auth⟩ p (.withdraw a amount.toInt) := by
  by_cases hinit : env.Initialized
  case neg =>
    refine .refused (f := .err .notInitialized) h ?_ ?_
    · exact (guards_withdraw a amount).not_initialized hinit
    · rw [IdealPool.respond, ensure_bind_of_neg (mt h.initialized_iff.2 hinit)]
  have hinit' := h.initialized_iff.1 hinit
  by_cases hauth : auth a = true
  case neg =>
    refine .refused (f := .trap .auth) h ((guards_withdraw a amount).refused hinit ?_) ?_
    · rw [withdraw_exec, if_neg hauth]
    · rw [IdealPool.respond, ensure_bind_of_pos hinit', ensure_bind_of_neg hauth]
  by_cases hpos : 0 < amount.toInt
  case neg =>
    have hle : amount ≤ 0 := Int.not_lt.1 hpos
    refine .refused (f := .err .insufficientBalance) h ((guards_withdraw a amount).refused hinit ?_) ?_
    · rw [withdraw_exec, if_pos hauth, if_pos hle]
    · rw [IdealPool.respond, ensure_bind_of_pos hinit', ensure_bind_of_pos hauth,
        ensure_bind_of_neg hpos]
  have hpos' : ¬amount ≤ 0 := SInt.not_le.2 hpos
  cases hacc : env.lookup (.account a) with
  | none =>
    have hnone := h.ledger_of_lookup_eq_none hacc
    refine .refused (f := .err .accountNotFound) h ((guards_withdraw a amount).refused hinit ?_) ?_
    · rw [withdraw_exec, if_pos hauth, if_neg hpos', hacc]
    · rw [IdealPool.respond, ensure_bind_of_pos hinit', ensure_bind_of_pos hauth,
        ensure_bind_of_pos hpos, hnone, orRefuse_none_bind]
  | some account =>
    have hsome := h.ledger_of_lookup hacc
    by_cases hle : amount.toInt ≤ account.balance.toInt
    case neg =>
      have hlt : account.balance < amount := Int.not_le.1 hle
      refine .refused (f := .err .insufficientBalance) h ((guards_withdraw a amount).refused hinit ?_) ?_
      · rw [withdraw_exec, if_pos hauth, if_neg hpos', hacc]
        exact if_pos hlt
      · rw [IdealPool.respond, ensure_bind_of_pos hinit', ensure_bind_of_pos hauth,
          ensure_bind_of_pos hpos, hsome, orRefuse_some_bind, ensure_bind_of_neg hle]
    obtain ⟨balance, hsub⟩ := SInt.exists_checkedSub (Int.le_of_lt hpos) hle
    have hdiff := SInt.checkedSub_eq_some_iff.1 hsub
    have howner : account.owner = a := h.wellFormed.owner_eq hacc
    have hs : Succeeds ⟨host, auth⟩ env (.withdraw a amount) (.account ⟨account.owner, balance⟩) _ :=
      .withdraw hinit hauth hpos hacc hle rfl hdiff
    have hrenders : (Answer.holding a (account.balance.toInt - amount.toInt)).Renders host
        (.account ⟨account.owner, balance⟩) := ⟨howner, hdiff⟩
    have hrep := h.succeeds_of_other ⟨.withdraw a amount, auth⟩ hs rfl (fun _ => rfl)
      Option.or_none
    refine .served hs ?_ hrenders hrep
    rw [IdealPool.respond, ensure_bind_of_pos hinit', ensure_bind_of_pos hauth,
      ensure_bind_of_pos hpos, hsome, orRefuse_some_bind, ensure_bind_of_pos hle]
    rfl

theorem agree_balance {a : Address} :
    Agree host ts vks env ⟨.balance a, auth⟩ p (.balance a) := by
  have hs : Succeeds ⟨host, auth⟩ env (.balance a) (.accountOpt (env.lookup (.account a))) env :=
    .balance
  cases hacc : env.lookup (.account a) with
  | none =>
    have hnone := h.ledger_of_lookup_eq_none hacc
    have hrenders : (Answer.noAccount : Answer Address).Renders host (.accountOpt none) := trivial
    rw [hacc] at hs
    refine .served hs ?_ hrenders h
    rw [IdealPool.respond, hnone]
    rfl
  | some account =>
    have hsome := h.ledger_of_lookup hacc
    have hrenders : (Answer.holding a account.balance.toInt).Renders host
        (.accountOpt (some account)) := ⟨h.wellFormed.owner_eq hacc, rfl⟩
    rw [hacc] at hs
    refine .served hs ?_ hrenders h
    rw [IdealPool.respond, hsome]
    rfl

theorem agree_transfer (hxdr : host.XdrPrefixFree) (hsha : host.NoCollision ts)
    {t : Transfer Address} (ht : t ∈ ts) :
    Agree host ts vks env
      ⟨.confidentialTransfer t.fromAddr t.toAddr (.mock ⟨t.amount, t.nonce⟩), auth⟩ p
      (.transfer t) := by
  obtain ⟨fromAddr, toAddr, nonce, amount⟩ := t
  by_cases hinit : env.Initialized
  case neg =>
    refine .refused (f := .err .notInitialized) h ?_ ?_
    · exact (guards_confidentialTransfer _ _ _).not_initialized hinit
    · rw [IdealPool.respond, ensure_bind_of_neg (mt h.initialized_iff.2 hinit)]
  have hinit' := h.initialized_iff.1 hinit
  by_cases hauth : auth fromAddr = true
  case neg =>
    refine .refused (f := .trap .auth) h ((guards_confidentialTransfer _ _ _).refused hinit ?_) ?_
    · rw [confidentialTransfer_exec, if_neg hauth]
    · rw [IdealPool.respond, ensure_bind_of_pos hinit', ensure_bind_of_neg hauth]
  by_cases hpos : 0 < amount.toInt
  case neg =>
    have hverify : (!verify (.mock ⟨amount, nonce⟩)) = true := by
      rw [Bool.not_eq_true', ← Bool.not_eq_true, verify_mock_iff]
      exact hpos
    refine .refused (f := .err .invalidProof) h ((guards_confidentialTransfer _ _ _).refused hinit ?_) ?_
    · rw [confidentialTransfer_exec, if_pos hauth, if_pos hverify]
    · rw [IdealPool.respond, ensure_bind_of_pos hinit', ensure_bind_of_pos hauth,
        ensure_bind_of_neg hpos]
  have hverified : verify (.mock ⟨amount, nonce⟩) = true := verify_mock_iff.2 hpos
  have hverify : ¬(!verify (.mock ⟨amount, nonce⟩)) = true := by simp [hverified]
  cases hacc : env.lookup (.account fromAddr) with
  | none =>
    have hnone := h.ledger_of_lookup_eq_none hacc
    refine .refused (f := .err .accountNotFound) h ((guards_confidentialTransfer _ _ _).refused hinit ?_) ?_
    · rw [confidentialTransfer_exec, if_pos hauth, if_neg hverify, hacc]
    · rw [IdealPool.respond, ensure_bind_of_pos hinit', ensure_bind_of_pos hauth,
        ensure_bind_of_pos hpos]
      dsimp only
      rw [hnone, orRefuse_none_bind]
  | some account =>
    have hsome := h.ledger_of_lookup hacc
    by_cases hle : amount.toInt ≤ account.balance.toInt
    case neg =>
      have hlt : account.balance < amount := Int.not_le.1 hle
      refine .refused (f := .err .insufficientBalance) h ((guards_confidentialTransfer _ _ _).refused hinit ?_) ?_
      · rw [confidentialTransfer_exec, if_pos hauth, if_neg hverify, hacc]
        exact if_pos hlt
      · rw [IdealPool.respond, ensure_bind_of_pos hinit', ensure_bind_of_pos hauth,
          ensure_bind_of_pos hpos]
        dsimp only
        rw [hsome, orRefuse_some_bind, ensure_bind_of_neg hle]
    have hbalance := h.accountOr_balance toAddr
    by_cases hfits : p.balance toAddr + amount.toInt ≤ maxBalance
    case neg =>
      have hfunds : ∃ b, env.ledger fromAddr = some b ∧ amount.toInt ≤ b :=
        ⟨_, Contract.ledger_of_lookup hacc, hle⟩
      have hover : 2 ^ 127 ≤ p.balance toAddr + amount.toInt := by
        unfold maxBalance at hfits
        omega
      refine .refused h (transfer_overflow_refused hinit hauth hpos hfunds ?_) ?_
      · rw [← Contract.accountOr_balance, hbalance]
        exact hover
      · rw [IdealPool.respond, ensure_bind_of_pos hinit', ensure_bind_of_pos hauth,
          ensure_bind_of_pos hpos]
        dsimp only
        rw [hsome, orRefuse_some_bind, ensure_bind_of_pos hle, ensure_bind_of_neg hfits]
    have haccepts : Accepts host env
        ⟨.confidentialTransfer fromAddr toAddr (.mock ⟨amount, nonce⟩), auth⟩ := by
      refine transfer_accepted_iff.2 ⟨hinit, hauth, hpos,
        ⟨_, Contract.ledger_of_lookup hacc, hle⟩, ?_⟩
      rw [← Contract.accountOr_balance, hbalance]
      exact hfits
    obtain ⟨r, env', hs⟩ := accepts_iff.1 haccepts
    obtain ⟨hreply, -, -⟩ := hs.of_transfer?_eq_some rfl
    have hrenders : (Answer.transferred ⟨fromAddr, toAddr, nonce, amount⟩).Renders host r := by
      rw [hreply]
      exact rfl
    refine .served hs ?_ hrenders (h.succeeds_of_transfer hxdr hsha hs rfl ht)
    rw [IdealPool.respond, ensure_bind_of_pos hinit', ensure_bind_of_pos hauth,
      ensure_bind_of_pos hpos]
    dsimp only
    rw [hsome, orRefuse_some_bind, ensure_bind_of_pos hle, ensure_bind_of_pos hfits]
    rfl

theorem agree_disclose {caller : Address} {key : DisclosureKey} (hvk : key.viewingKey ∈ vks) :
    Agree host ts vks env ⟨.recordDisclosureRequest caller key, auth⟩ p
      (.disclose caller (host.nameIn ts key.transferId) key.viewingKey) := by
  by_cases hauth : auth caller = true
  case neg =>
    refine .refused (f := .trap .auth) h (exec_reply_error_iff.2 ?_) ?_
    · rw [ShieldContract.recordDisclosureRequest, recordDisclosureRequest_exec, if_neg hauth]
    · rw [IdealPool.respond, ensure_bind_of_neg hauth]
  have hlookup := h.transfer key.transferId
  cases hmade : p.made (host.nameIn ts key.transferId) with
  | none =>
    rw [hmade] at hlookup
    refine .refused (f := .err .transferNotFound) h (exec_reply_error_iff.2 ?_) ?_
    · rw [ShieldContract.recordDisclosureRequest, recordDisclosureRequest_exec, if_pos hauth,
        hlookup]
      rfl
    · rw [IdealPool.respond, ensure_bind_of_pos hauth, hmade, orRefuse_none_bind]
  | some t =>
    rw [hmade] at hlookup
    by_cases hparty : caller = t.fromAddr ∨ caller = t.toAddr
    case neg =>
      have hparty' : caller ≠ t.fromAddr ∧ caller ≠ t.toAddr := not_or.1 hparty
      refine .refused (f := .err .unauthorized) h (exec_reply_error_iff.2 ?_) ?_
      · rw [ShieldContract.recordDisclosureRequest, recordDisclosureRequest_exec, if_pos hauth,
          hlookup]
        exact if_pos hparty'
      · rw [IdealPool.respond, ensure_bind_of_pos hauth, hmade, orRefuse_some_bind,
          ensure_bind_of_neg hparty]
    have hname : host.nameIn ts key.transferId = some t := (Option.filter_eq_some_iff.1 hmade).1
    have hid := (Host.nameIn_eq_some hname).2
    have hs : Succeeds ⟨host, auth⟩ env (.recordDisclosureRequest caller key) .unit _ :=
      .recordDisclosureRequest hauth hlookup hparty
    have hrenders : (Answer.done : Answer Address).Renders host .unit := trivial
    have hrep := h.put_disclosure hname hvk
    have hdisclosure : host.disclosureOf t key.viewingKey =
        ⟨key.transferId, t.fromAddr, t.toAddr, t.amount, host.sha256 key.viewingKey.toList⟩ := by
      rw [← hid]
      rfl
    rw [hdisclosure] at hrep
    refine .served hs ?_ hrenders hrep
    rw [IdealPool.respond, ensure_bind_of_pos hauth, hmade, orRefuse_some_bind,
      ensure_bind_of_pos hparty]
    rfl

theorem agree_verify (hkeys : Set.InjOn host.viewingKeyHash {vk | vk ∈ vks}) {key : DisclosureKey}
    (hvk : key.viewingKey ∈ vks) :
    Agree host ts vks env ⟨.verifyDisclosure key, auth⟩ p
      (.verify (host.nameIn ts key.transferId) key.viewingKey) := by
  have hstep := verifyDisclosure_step host env key auth
  rw [h.disclosure key.transferId] at hstep
  cases hd : p.disclosure (host.nameIn ts key.transferId) with
  | none =>
    rw [hd] at hstep
    refine .refused (f := .err .disclosureNotFound) h hstep ?_
    rw [IdealPool.respond, hd, orRefuse_none_bind]
  | some d =>
    obtain ⟨t, vk⟩ := d
    rw [hd] at hstep
    have hkey : p.viewingKey t = some vk := by
      obtain ⟨u, -, hu⟩ := Option.bind_eq_some_iff.1 hd
      obtain ⟨vk', hvk', heq⟩ := Option.map_eq_some_iff.1 hu
      cases heq
      exact hvk'
    by_cases hopens : key.viewingKey = vk
    case neg =>
      have hhash : host.viewingKeyHash key.viewingKey ≠ host.viewingKeyHash vk :=
        fun heq => hopens (hkeys hvk (h.viewingKey_mem hkey) heq)
      refine .refused (f := .err .invalidDisclosureKey) h (hstep.trans ?_) ?_
      · exact congrArg (·, env) (if_neg hhash)
      · rw [IdealPool.respond, hd, orRefuse_some_bind, ensure_bind_of_neg hopens]
    have hs : Succeeds ⟨host, auth⟩ env (.verifyDisclosure key)
        (.disclosure (host.disclosureOf t vk)) env := by
      refine .verifyDisclosure ?_ ?_
      · rw [h.disclosure, hd]
        rfl
      · rw [hopens]
        rfl
    have hrenders : (Answer.disclosed t vk).Renders host (.disclosure (host.disclosureOf t vk)) :=
      rfl
    refine .served hs ?_ hrenders h
    rw [IdealPool.respond, hd, orRefuse_some_bind, ensure_bind_of_pos hopens]
    rfl

end Steps

/-! ## Runs -/

/-- Request and invocation are the same, of a transfer among `ts` if it is one and with a viewing
key among `vks` if it has one. -/
structure SameRequest (host : Host Address) (ts : List (Transfer Address))
    (vks : List (BytesN 32)) (inv : Invocation Address)
    (i : Request Address × (Address → Bool)) : Prop where
  request : i = (inv.call.request (host.nameIn ts), inv.auth)
  transfer_mem : ∀ {t}, inv.call.transfer? = some t → t ∈ ts
  viewingKey_mem : ∀ {vk}, inv.call.viewingKey? = some vk → vk ∈ vks

theorem simulates_idealPool {host : Host Address} (hxdr : host.XdrPrefixFree)
    {ts : List (Transfer Address)} (hsha : host.NoCollision ts) {vks : List (BytesN 32)}
    (hkeys : Set.InjOn host.viewingKeyHash {vk | vk ∈ vks}) :
    Simulates (shield host) idealPool (Represents host ts vks) (SameRequest host ts vks)
      (SameOutcome host) := by
  intro env p inv i h hsame
  obtain ⟨rfl, htransfer, hviewing⟩ := hsame
  obtain ⟨call, auth⟩ := inv
  change Agree host ts vks env ⟨call, auth⟩ p (call.request (host.nameIn ts))
  cases call with
  | initializePool assetContract => exact agree_initializePool h
  | deposit depositor amount => exact agree_deposit h
  | withdraw owner amount => exact agree_withdraw h
  | balance owner => exact agree_balance h
  | confidentialTransfer fromAddr toAddr proof =>
    obtain ⟨amount, nonce⟩ := proof
    exact agree_transfer (t := ⟨fromAddr, toAddr, nonce, amount⟩) h hxdr hsha (htransfer rfl)
  | recordDisclosureRequest caller key => exact agree_disclose h (hviewing rfl)
  | verifyDisclosure key => exact agree_verify h hkeys (hviewing rfl)

/-- The requests that a list of invocations makes, each transfer named by itself. -/
def requestsOf (host : Host Address) (invs : List (Invocation Address)) :
    List (Request Address × (Address → Bool)) :=
  invs.map fun inv => (inv.call.request (host.nameIn (requestedTransfers invs)), inv.auth)

omit [DecidableEq Address] in
theorem sameRequest_requestsOf (host : Host Address) (invs : List (Invocation Address)) :
    List.Forall₂ (SameRequest host (requestedTransfers invs) (triedKeys invs)) invs
      (requestsOf host invs) := by
  refine forall₂_map_of_mem fun inv hinv => ⟨rfl, fun {t} ht => ?_, fun {vk} hvk => ?_⟩
  · exact List.mem_filterMap.2 ⟨inv, hinv, ht⟩
  · exact List.mem_filterMap.2 ⟨inv, hinv, hvk⟩

/-- The contract refines the ideal pool: along every run the outcomes are those of the pool, the
refusals with their errors included, and at its end the storage and the events are those of the
pool. -/
theorem contract_refines_idealPool (host : Host Address) (hxdr : host.XdrPrefixFree)
    (invs : List (Invocation Address)) (hsha : host.NoCollision (requestedTransfers invs))
    (hkeys : Set.InjOn host.viewingKeyHash {vk | vk ∈ triedKeys invs}) :
    List.Forall₂ (fun e f => SameOutcome host e.2 f.2) (historyOf host invs)
        (idealPool.trace .empty (requestsOf host invs)) ∧
      Represents host (requestedTransfers invs) (triedKeys invs) (runOf host invs)
        (idealPool.run .empty (requestsOf host invs)) := by
  have hsim := simulates_idealPool hxdr hsha hkeys
  have hempty := Represents.empty host (requestedTransfers invs) (triedKeys invs)
  have hsame := sameRequest_requestsOf host invs
  exact ⟨hsim.trace hempty hsame, hsim.run hempty hsame⟩

/-- A run with every kind of answer: a transfer and its replay, a refused one, a recorded and a
rotated key, the right key, an old one and an identifier of nothing. -/
theorem sample_run_refines_idealPool :
    let t : Transfer ScAddress :=
      ⟨Sample.alice, Sample.bob, .replicate 32 7, Sample.amount 30⟩
    let pay : Invocation ScAddress :=
      ⟨.confidentialTransfer t.fromAddr t.toAddr (.mock ⟨t.amount, t.nonce⟩), fun _ => true⟩
    let invs : List (Invocation ScAddress) :=
      [⟨.initializePool Sample.bob, fun _ => true⟩,
        ⟨.deposit Sample.alice (Sample.amount 100), fun _ => true⟩, pay, pay,
        ⟨.confidentialTransfer Sample.bob Sample.carol (Sample.proof 500 8), fun _ => true⟩,
        ⟨.recordDisclosureRequest Sample.alice ⟨soroban.idOf t, .replicate 32 1⟩, fun _ => true⟩,
        ⟨.recordDisclosureRequest Sample.bob ⟨soroban.idOf t, .replicate 32 2⟩, fun _ => true⟩,
        ⟨.verifyDisclosure ⟨soroban.idOf t, .replicate 32 2⟩, fun _ => false⟩,
        ⟨.verifyDisclosure ⟨soroban.idOf t, .replicate 32 1⟩, fun _ => false⟩,
        ⟨.verifyDisclosure ⟨.replicate 32 0, .replicate 32 2⟩, fun _ => false⟩]
    List.Forall₂ (fun e f => SameOutcome soroban e.2 f.2) (historyOf soroban invs)
      (idealPool.trace .empty (requestsOf soroban invs)) := by
  intro t pay invs
  have hsha : soroban.NoCollision (requestedTransfers invs) := by decide +kernel
  have hkeys : Set.InjOn soroban.viewingKeyHash {vk | vk ∈ triedKeys invs} := by decide +kernel
  exact (contract_refines_idealPool soroban soroban_xdrPrefixFree invs hsha hkeys).1

end PrivacyShield.Contract
