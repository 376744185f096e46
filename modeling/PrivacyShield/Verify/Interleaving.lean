import PrivacyShield.Lib.Footprint
import PrivacyShield.Verify.Records

/-!
# Calls that touch different entries

The entries an entry point uses are known from its arguments (`Call.uses`), and its outcome and its
effect depend on nothing else: contract code that reads and writes inside a set of entries is
determined by them (`Local`). So calls that write nothing another caller uses are invisible to that
caller, and callers with separate entries can be interleaved in any way.
-/

namespace PrivacyShield.Contract

open PrivacyShield.Lib

variable {Address : Type} [DecidableEq Address]

/-! ## Local code -/

section Local

variable {α β : Type} {D : Set (DataKey Address)}

/-- From storages that agree on `D` the code ends in the same way, and they still agree on `D`. -/
def Local (D : Set (DataKey Address)) (m : ContractM Address α) : Prop :=
  ∀ frame env env', SameOn Env.lookup D env env' →
    (exec m frame env).1 = (exec m frame env').1 ∧
      SameOn Env.lookup D (exec m frame env).2 (exec m frame env').2

namespace Local

theorem bind {m : ContractM Address α} {f : α → ContractM Address β} (hm : Local D m)
    (hf : ∀ a, Local D (f a)) : Local D (m >>= f) := by
  intro frame env env' h
  obtain ⟨hout, hnext⟩ := hm frame env env' h
  rw [exec_bind, exec_bind]
  rcases hexec : exec m frame env with ⟨r, env₁⟩
  rcases hexec' : exec m frame env' with ⟨r', env₁'⟩
  rw [hexec, hexec'] at hout hnext
  obtain rfl : r = r' := hout
  cases r with
  | error e => exact ⟨rfl, hnext⟩
  | ok a => exact hf a frame env₁ env₁' hnext

/-- A guard of the source: `if c { return Err(e) }`, with what follows it. -/
theorem guard {c : Prop} [Decidable c] {m : ContractM Address α} (hm : Local D m)
    (e : ShieldError) (f : β → ContractM Address α) :
    Local D (if c then Contract.fail e >>= f else m) := by
  split
  · refine fun frame env env' h => ?_
    rw [exec_fail_bind, exec_fail_bind]
    exact ⟨rfl, h⟩
  · exact hm

/-- Code that neither reads nor writes the storage. -/
theorem of_exec {m : ContractM Address α} (r : Frame Address → Except Fault α)
    (h : ∀ frame env, (exec m frame env).1 = r frame ∧
      ∀ key, (exec m frame env).2.lookup key = env.lookup key) : Local D m := by
  intro frame env env' hsame
  refine ⟨(h frame env).1.trans (h frame env').1.symm, fun key hkey => ?_⟩
  rw [(h frame env).2, (h frame env').2, hsame key hkey]

theorem pure (a : α) : Local D (Pure.pure a : ContractM Address α) :=
  of_exec (fun _ => .ok a) fun _ _ => ⟨rfl, fun _ => rfl⟩

theorem fail (e : ShieldError) : Local D (Contract.fail e : ContractM Address α) :=
  of_exec (fun _ => .error (.err e)) fun _ _ => ⟨rfl, fun _ => rfl⟩

theorem okOr (o : Option α) (e : ShieldError) : Local D (Contract.okOr o e) := by
  cases o with
  | none => exact fail e
  | some a => exact pure a

theorem subOrTrap (x y : I128) : Local D (Contract.subOrTrap x y) := by
  unfold Contract.subOrTrap
  cases x.checkedSub y with
  | none => exact of_exec (fun _ => .error (.trap .overflow)) fun _ _ => ⟨rfl, fun _ => rfl⟩
  | some z => exact pure z

theorem requireAuth (a : Address) : Local D (Contract.requireAuth a) := by
  refine of_exec (fun frame => if frame.auth a then .ok () else .error (.trap .auth))
    fun frame env => ?_
  have hexec : exec (Contract.requireAuth a) frame env =
      exec (if frame.auth a then Pure.pure () else throw (.trap .auth)) frame env := rfl
  rw [hexec]
  split
  · exact ⟨rfl, fun _ => rfl⟩
  · exact ⟨rfl, fun _ => rfl⟩

theorem sha256 (bytes : Bytes) : Local D (Contract.sha256 bytes) :=
  of_exec (fun frame => .ok (frame.host.sha256 bytes)) fun _ _ => ⟨rfl, fun _ => rfl⟩

theorem toXdr (a : Address) : Local D (Contract.toXdr a) :=
  of_exec (fun frame => .ok (frame.host.toXdr a)) fun _ _ => ⟨rfl, fun _ => rfl⟩

theorem publish (topics : String × Address × Address) (data : BytesN 32) :
    Local D (Contract.publish topics data) :=
  of_exec (fun _ => .ok ()) fun _ _ => ⟨rfl, fun _ => rfl⟩

theorem storageGet {key : DataKey Address} (hkey : key ∈ D) : Local D (Contract.storageGet key) :=
  fun _ _ _ h => ⟨congrArg Except.ok (h key hkey), h⟩

theorem storageHas {key : DataKey Address} (hkey : key ∈ D) : Local D (Contract.storageHas key) := by
  refine fun frame env env' h => ⟨?_, h⟩
  change Except.ok (env.lookup key).isSome = Except.ok (env'.lookup key).isSome
  rw [h key hkey]

/-- A write makes the storages agree on one more entry. -/
theorem storageSet (key : DataKey Address) (value : key.Value) :
    Local D (Contract.storageSet key value) := by
  refine fun frame env env' h => ⟨rfl, fun key' hkey' => ?_⟩
  change (env.put key value).lookup key' = (env'.put key value).lookup key'
  by_cases heq : key' = key
  · subst heq
    rw [Env.lookup_put_self, Env.lookup_put_self]
  · rw [Env.lookup_put_of_ne _ _ heq, Env.lookup_put_of_ne _ _ heq, h key' hkey']

end Local

end Local

/-! ## Entry points -/

section EntryPoints

variable {D : Set (DataKey Address)}

theorem local_requireInitialized (hasset : .assetContract ∈ D) :
    Local D (ShieldContract.requireInitialized : ContractM Address Unit) := by
  unfold ShieldContract.requireInitialized
  refine (Local.storageHas hasset).bind fun initialized => ?_
  exact (Local.pure ()).guard _ _

theorem local_initializePool (hasset : .assetContract ∈ D) (assetContract : Address) :
    Local D (ShieldContract.initializePool assetContract) := by
  unfold ShieldContract.initializePool
  refine (Local.storageHas hasset).bind fun initialized => ?_
  refine Local.guard ?_ _ _
  exact (Local.storageSet _ _).bind fun _ => .pure ()

theorem local_deposit {depositor : Address} (hacc : .account depositor ∈ D) (amount : I128) :
    Local D (deposit depositor amount) := by
  unfold deposit
  refine (Local.requireAuth depositor).bind fun _ => ?_
  refine Local.guard ?_ _ _
  refine (Local.storageGet hacc).bind fun found => ?_
  refine (Local.okOr _ _).bind fun balance => ?_
  exact (Local.storageSet _ _).bind fun _ => .pure _

theorem local_withdraw {owner : Address} (hacc : .account owner ∈ D) (amount : I128) :
    Local D (withdraw owner amount) := by
  unfold withdraw
  refine (Local.requireAuth owner).bind fun _ => ?_
  refine Local.guard ?_ _ _
  refine (Local.storageGet hacc).bind fun found => ?_
  refine (Local.okOr _ _).bind fun account => ?_
  refine Local.guard ?_ _ _
  refine (Local.subOrTrap _ _).bind fun balance => ?_
  exact (Local.storageSet _ _).bind fun _ => .pure _

theorem local_transferIdFor (fromAddr toAddr : Address) (nonce : BytesN 32) (amount : I128) :
    Local D (transferIdFor fromAddr toAddr nonce amount) := by
  unfold transferIdFor
  refine (Local.toXdr fromAddr).bind fun _ => ?_
  refine (Local.toXdr toAddr).bind fun _ => ?_
  exact Local.sha256 _

theorem local_confidentialTransfer {fromAddr toAddr : Address} (hfrom : .account fromAddr ∈ D)
    (hto : .account toAddr ∈ D) (proof : ProofKind) :
    Local D (confidentialTransfer fromAddr toAddr proof) := by
  unfold confidentialTransfer
  refine (Local.requireAuth fromAddr).bind fun _ => ?_
  refine Local.guard ?_ _ _
  refine (Local.storageGet hfrom).bind fun found => ?_
  refine (Local.okOr _ _).bind fun fromAccount => ?_
  refine Local.guard ?_ _ _
  refine (Local.storageGet hto).bind fun found => ?_
  refine (Local.subOrTrap _ _).bind fun debited => ?_
  refine (Local.okOr _ _).bind fun credited => ?_
  refine (Local.storageSet _ _).bind fun _ => ?_
  refine (Local.storageSet _ _).bind fun _ => ?_
  refine (local_transferIdFor _ _ _ _).bind fun transferId => ?_
  refine (Local.storageSet _ _).bind fun _ => ?_
  exact (Local.publish _ _).bind fun _ => .pure _

theorem local_recordDisclosureRequest {key : DisclosureKey}
    (htransfer : .transfer key.transferId ∈ D) (caller : Address) :
    Local D (recordDisclosureRequest caller key) := by
  unfold recordDisclosureRequest
  refine (Local.requireAuth caller).bind fun _ => ?_
  refine (Local.storageGet htransfer).bind fun found => ?_
  refine (Local.okOr _ _).bind fun record => ?_
  refine Local.guard ?_ _ _
  refine (Local.sha256 _).bind fun viewingKeyHash => ?_
  exact (Local.storageSet _ _).bind fun _ => .pure ()

theorem local_verifyDisclosure {key : DisclosureKey}
    (hdisclosure : .disclosure key.transferId ∈ D) :
    Local D (verifyDisclosure key : ContractM Address (DisclosureRecord Address)) := by
  unfold verifyDisclosure
  refine (Local.storageGet hdisclosure).bind fun found => ?_
  refine (Local.okOr _ _).bind fun disclosure => ?_
  refine (Local.sha256 _).bind fun viewingKeyHash => ?_
  exact (Local.pure _).guard _ _

end EntryPoints

/-! ## The footprint of a call -/

/-- The entries that a call reads or may write. -/
def Call.uses (host : Host Address) : Call Address → List (DataKey Address)
  | .initializePool _ => [.assetContract]
  | .deposit depositor _ => [.assetContract, .account depositor]
  | .withdraw owner _ => [.assetContract, .account owner]
  | .balance owner => [.account owner]
  | .confidentialTransfer fromAddr toAddr (.mock mock) =>
    [.assetContract, .account fromAddr, .account toAddr,
      .transfer (host.transferId fromAddr toAddr mock.nonce mock.amount)]
  | .recordDisclosureRequest _ key => [.transfer key.transferId, .disclosure key.transferId]
  | .verifyDisclosure key => [.disclosure key.transferId]

omit [DecidableEq Address] in
theorem Call.writes_subset_uses (host : Host Address) (call : Call Address) :
    call.writes host ⊆ call.uses host := by
  cases call with
  | confidentialTransfer fromAddr toAddr proof =>
    obtain ⟨mock⟩ := proof
    simp [Call.writes, Call.uses]
  | _ => simp [Call.writes, Call.uses]

/-- A call is determined by the entries it uses. -/
theorem local_dispatch (host : Host Address) (call : Call Address) :
    Local {key | key ∈ call.uses host} (dispatch call) := by
  cases call with
  | initializePool assetContract =>
    exact (local_initializePool (by simp [Call.uses]) _).bind fun _ => .pure _
  | deposit depositor amount =>
    refine Local.bind ?_ fun _ => .pure _
    exact (local_requireInitialized (by simp [Call.uses])).bind fun _ =>
      local_deposit (by simp [Call.uses]) _
  | withdraw owner amount =>
    refine Local.bind ?_ fun _ => .pure _
    exact (local_requireInitialized (by simp [Call.uses])).bind fun _ =>
      local_withdraw (by simp [Call.uses]) _
  | balance owner =>
    refine Local.bind ?_ fun _ => .pure _
    exact Local.storageGet (by simp [Call.uses])
  | confidentialTransfer fromAddr toAddr proof =>
    obtain ⟨mock⟩ := proof
    refine Local.bind ?_ fun _ => .pure _
    exact (local_requireInitialized (by simp [Call.uses])).bind fun _ =>
      local_confidentialTransfer (by simp [Call.uses]) (by simp [Call.uses]) _
  | recordDisclosureRequest caller key =>
    exact (local_recordDisclosureRequest (by simp [Call.uses]) _).bind fun _ => .pure _
  | verifyDisclosure key =>
    exact (local_verifyDisclosure (by simp [Call.uses])).bind fun _ => .pure _

/-- The footprint of the contract. -/
def shieldFootprint (host : Host Address) :
    Footprint (shield host) fun env : Env Address => env.lookup where
  uses inv := {key | key ∈ inv.call.uses host}
  writes inv := {key | key ∈ inv.call.writes host}
  writes_subset inv := inv.call.writes_subset_uses host
  determined {env env' inv} h := local_dispatch host inv.call ⟨host, inv.auth⟩ env env' h
  frame {env inv key} hkey := by
    rcases step_cases host env inv with ⟨r, env', hstep, hs⟩ | ⟨f, hstep, -⟩
    · rw [hstep]
      exact hs.lookup_eq hkey
    · rw [hstep]

/-! ## Interleavings -/

/-- The call writes nothing that the other call uses. -/
def Call.UnseenBy (host : Host Address) (call other : Call Address) : Prop :=
  ∀ key ∈ call.writes host, key ∉ other.uses host

instance Call.decidableUnseenBy (host : Host Address) (call other : Call Address) :
    Decidable (call.UnseenBy host other) :=
  inferInstanceAs (Decidable (∀ key ∈ call.writes host, key ∉ other.uses host))

/-- Two parties, each of whose calls write nothing that the calls of the other one use: however
their calls are interleaved, each party gets the outcomes it would get alone, and the storage is the
one after the calls of the one followed by the calls of the other. -/
theorem separate_calls_interleave (host : Host Address) (env : Env Address)
    (mine : Invocation Address → Bool) (invs : List (Invocation Address))
    (hseparate : ∀ i ∈ invs, ∀ j ∈ invs, mine i = true → mine j = false →
      i.call.UnseenBy host j.call ∧ j.call.UnseenBy host i.call) :
    ((shield host).trace env invs).filter (fun e => mine e.1) =
        (shield host).trace env (invs.filter mine) ∧
    ((shield host).trace env invs).filter (fun e => !mine e.1) =
        (shield host).trace env (invs.filter fun inv => !mine inv) ∧
    ((shield host).run env invs).storage =
      ((shield host).run env (invs.filter mine ++ invs.filter fun inv => !mine inv)).storage := by
  have hindep : ∀ i ∈ invs, ∀ j ∈ invs, mine i = true → mine j = false →
      (shieldFootprint host).Independent i j := by
    intro i hi j hj hmine hother
    exact hseparate i hi j hj hmine hother
  obtain ⟨htrace, htrace', hlookup⟩ := (shieldFootprint host).interleave mine hindep env
  exact ⟨htrace, htrace', Env.storage_ext hlookup⟩

/-- Alice and Bob pay each other while Carol tops up and withdraws too much: the interleaving makes no
difference to her. -/
theorem carol_interleaves_with_payments :
    let env : Env ScAddress := runOf soroban
      [⟨.initializePool Sample.bob, fun _ => true⟩,
        ⟨.deposit Sample.alice (Sample.amount 100), fun _ => true⟩]
    let carols : Invocation ScAddress → Bool := fun inv =>
      inv.call == .deposit Sample.carol (Sample.amount 5) ||
        inv.call == .withdraw Sample.carol (Sample.amount 50)
    let invs : List (Invocation ScAddress) :=
      [⟨.confidentialTransfer Sample.alice Sample.bob (Sample.proof 30 7), fun _ => true⟩,
        ⟨.deposit Sample.carol (Sample.amount 5), fun _ => true⟩,
        ⟨.confidentialTransfer Sample.bob Sample.alice (Sample.proof 10 8), fun _ => true⟩,
        ⟨.withdraw Sample.carol (Sample.amount 50), fun _ => true⟩]
    ((shield soroban).trace env invs).filter (fun e => carols e.1) =
      (shield soroban).trace env (invs.filter carols) := by
  intro env carols invs
  have hseparate : ∀ i ∈ invs, ∀ j ∈ invs, carols i = true → carols j = false →
      i.call.UnseenBy soroban j.call ∧ j.call.UnseenBy soroban i.call := by
    decide +kernel
  exact (separate_calls_interleave soroban env carols invs hseparate).1

/-! ## Two runs with the same calls of one party -/

/-- The entries that the calls of a party use. -/
def usedBy (host : Host Address) (mine : Invocation Address → Bool)
    (invs : List (Invocation Address)) : Set (DataKey Address) :=
  {key | ∃ inv ∈ invs.filter mine, key ∈ inv.call.uses host}

/-- What a party sees of a run is what it sees without the calls of others that it cannot see. -/
theorem purge_unseen {host : Host Address} {mine : Invocation Address → Bool}
    {invs : List (Invocation Address)}
    (hunseen : ∀ i ∈ invs, ∀ j ∈ invs, mine i = true → mine j = false →
      j.call.UnseenBy host i.call) (env : Env Address) :
    ((shield host).trace env invs).filter (fun e => mine e.1) =
        (shield host).trace env (invs.filter mine) ∧
      SameOn Env.lookup (usedBy host mine invs) ((shield host).run env invs)
        ((shield host).run env (invs.filter mine)) := by
  refine (shieldFootprint host).purge mine (fun i hi hmine key hkey => ?_)
    (fun j hj hother key hwrite hkey => ?_) (.refl _ env)
  · exact ⟨i, List.mem_filter.2 ⟨hi, hmine⟩, hkey⟩
  · obtain ⟨i, hi, huse⟩ := hkey
    obtain ⟨hi, hmine⟩ := List.mem_filter.1 hi
    exact hunseen i hi j hj hmine hother key hwrite huse

/-- Two runs in which a party makes the same calls look the same to it, whatever calls others make
in either, as long as these write nothing that the party's calls use: its calls have the same
outcomes, and the entries they use end the same. -/
theorem same_calls_same_view (host : Host Address) (env : Env Address)
    (mine : Invocation Address → Bool) (invs invs' : List (Invocation Address))
    (hsame : invs.filter mine = invs'.filter mine)
    (hunseen : ∀ i ∈ invs, ∀ j ∈ invs, mine i = true → mine j = false →
      j.call.UnseenBy host i.call)
    (hunseen' : ∀ i ∈ invs', ∀ j ∈ invs', mine i = true → mine j = false →
      j.call.UnseenBy host i.call) :
    ((shield host).trace env invs).filter (fun e => mine e.1) =
        ((shield host).trace env invs').filter (fun e => mine e.1) ∧
    ∀ i ∈ invs, mine i = true → ∀ key ∈ i.call.uses host,
      ((shield host).run env invs).lookup key = ((shield host).run env invs').lookup key := by
  obtain ⟨htrace, hrun⟩ := purge_unseen hunseen env
  obtain ⟨htrace', hrun'⟩ := purge_unseen hunseen' env
  refine ⟨by rw [htrace, htrace', hsame], fun i hi hmine key hkey => ?_⟩
  have hused : key ∈ usedBy host mine invs := ⟨i, List.mem_filter.2 ⟨hi, hmine⟩, hkey⟩
  have hused' : key ∈ usedBy host mine invs' := by
    unfold usedBy at hused ⊢
    rwa [← hsame]
  rw [hrun key hused, hrun' key hused', hsame]

/-- The auditor's query is answered alike whether or not the parties go on paying each other. -/
theorem query_unaffected_by_payments :
    let t : Transfer ScAddress :=
      ⟨Sample.alice, Sample.bob, .replicate 32 7, Sample.amount 30⟩
    let env : Env ScAddress := runOf soroban
      [⟨.initializePool Sample.bob, fun _ => true⟩,
        ⟨.deposit Sample.alice (Sample.amount 100), fun _ => true⟩,
        ⟨.confidentialTransfer Sample.alice Sample.bob (Sample.proof 30 7), fun _ => true⟩,
        ⟨.recordDisclosureRequest Sample.alice ⟨soroban.idOf t, .replicate 32 1⟩, fun _ => true⟩]
    let query : Invocation ScAddress :=
      ⟨.verifyDisclosure ⟨soroban.idOf t, .replicate 32 1⟩, fun _ => false⟩
    let mine : Invocation ScAddress → Bool := fun inv => inv.call == query.call
    let busy : List (Invocation ScAddress) :=
      [⟨.confidentialTransfer Sample.bob Sample.alice (Sample.proof 10 8), fun _ => true⟩, query,
        ⟨.withdraw Sample.alice (Sample.amount 5), fun _ => true⟩]
    ((shield soroban).trace env busy).filter (fun e => mine e.1) =
      ((shield soroban).trace env [query]).filter (fun e => mine e.1) := by
  intro t env query mine busy
  have hsame : busy.filter mine = [query].filter mine := by rfl
  have hunseen : ∀ i ∈ busy, ∀ j ∈ busy, mine i = true → mine j = false →
      j.call.UnseenBy soroban i.call := by
    decide +kernel
  have hunseen' : ∀ i ∈ [query], ∀ j ∈ [query], mine i = true → mine j = false →
      j.call.UnseenBy soroban i.call := by
    decide +kernel
  exact (same_calls_same_view soroban env mine busy [query] hsame hunseen hunseen').1

end PrivacyShield.Contract
