import PrivacyShield.Lib.Simulation
import PrivacyShield.Verify.Disclosures

/-!
# What the contract sees of a call

Of the authorizations of a call the contract sees the one of its signer, if it has a signer at all,
and of a viewing key it sees the hash. Runs that look the same in this way have the same outcomes and
leave the same storage and events (`runs_see_hash_and_signer`): nothing the contract keeps or answers
holds more of a viewing key than its hash, and no signature but the signer's has any effect.
-/

namespace PrivacyShield.Contract

open PrivacyShield.Lib

variable {Address : Type}

/-- The address whose authorization a call requires. -/
def Call.signer : Call Address → Option Address
  | .deposit depositor _ => some depositor
  | .withdraw owner _ => some owner
  | .confidentialTransfer fromAddr _ _ => some fromAddr
  | .recordDisclosureRequest caller _ => some caller
  | .initializePool _ | .balance _ | .verifyDisclosure _ => none

/-- The same identifier, with viewing keys that have the same hash. -/
def DisclosureKey.LooksLike (host : Host Address) (key key' : DisclosureKey) : Prop :=
  key.transferId = key'.transferId ∧
    host.viewingKeyHash key.viewingKey = host.viewingKeyHash key'.viewingKey

/-- The same call, up to its viewing key. -/
inductive Call.LooksLike (host : Host Address) : Call Address → Call Address → Prop
  | refl (call : Call Address) : Call.LooksLike host call call
  | recordDisclosureRequest {caller : Address} {key key' : DisclosureKey}
      (h : key.LooksLike host key') :
      Call.LooksLike host (.recordDisclosureRequest caller key)
        (.recordDisclosureRequest caller key')
  | verifyDisclosure {key key' : DisclosureKey} (h : key.LooksLike host key') :
      Call.LooksLike host (.verifyDisclosure key) (.verifyDisclosure key')

/-- Calls that look the same, authorized alike by their signer. -/
def Invocation.LooksLike (host : Host Address) (inv inv' : Invocation Address) : Prop :=
  inv.call.LooksLike host inv'.call ∧ ∀ a ∈ inv.call.signer, inv.auth a = inv'.auth a

variable [DecidableEq Address] {host : Host Address} {env : Env Address}

/-- Only the authorization of the signer matters. -/
theorem exec_dispatch_auth {call : Call Address} {auth auth' : Address → Bool}
    (h : ∀ a ∈ call.signer, auth a = auth' a) :
    exec (dispatch call) ⟨host, auth⟩ env = exec (dispatch call) ⟨host, auth'⟩ env := by
  cases call with
  | initializePool assetContract =>
    simp only [dispatch, exec_bind, initializePool_exec, exec_pure]
  | deposit depositor amount =>
    have hauth := h depositor rfl
    simp only [dispatch, ShieldContract.deposit, exec_bind _ (fun a => pure (Reply.account a)),
      exec_requireInitialized_bind, deposit_exec, hauth, exec_pure]
  | withdraw owner amount =>
    have hauth := h owner rfl
    simp only [dispatch, ShieldContract.withdraw, exec_bind _ (fun a => pure (Reply.account a)),
      exec_requireInitialized_bind, withdraw_exec, hauth, exec_pure]
  | balance owner => rfl
  | confidentialTransfer fromAddr toAddr proof =>
    obtain ⟨mock⟩ := proof
    have hauth := h fromAddr rfl
    simp only [dispatch, ShieldContract.confidentialTransfer,
      exec_bind _ (fun a => pure (Reply.transferId a)),
      exec_requireInitialized_bind, confidentialTransfer_exec, hauth, exec_pure]
  | recordDisclosureRequest caller key =>
    have hauth := h caller rfl
    simp only [dispatch, ShieldContract.recordDisclosureRequest, exec_bind,
      recordDisclosureRequest_exec, hauth, exec_pure]
  | verifyDisclosure key =>
    simp only [dispatch, ShieldContract.verifyDisclosure, exec_bind, verifyDisclosure_exec,
      exec_pure]

/-- Only the hash of a viewing key matters. -/
theorem exec_dispatch_looksLike {call call' : Call Address} (h : call.LooksLike host call')
    (auth : Address → Bool) :
    exec (dispatch call) ⟨host, auth⟩ env = exec (dispatch call') ⟨host, auth⟩ env := by
  cases h with
  | refl => rfl
  | @recordDisclosureRequest caller key key' h =>
    obtain ⟨id, vk⟩ := key
    obtain ⟨id', vk'⟩ := key'
    obtain ⟨hid, hhash⟩ := h
    dsimp only [Host.viewingKeyHash] at hid hhash
    subst hid
    have hsame : exec (recordDisclosureRequest caller ⟨id, vk⟩) ⟨host, auth⟩ env =
        exec (recordDisclosureRequest caller ⟨id, vk'⟩) ⟨host, auth⟩ env := by
      rw [recordDisclosureRequest_exec, recordDisclosureRequest_exec]
      dsimp only
      rw [hhash]
      cases env.lookup (.transfer id) <;> rfl
    unfold dispatch ShieldContract.recordDisclosureRequest
    rw [exec_bind, exec_bind, hsame]
  | @verifyDisclosure key key' h =>
    obtain ⟨id, vk⟩ := key
    obtain ⟨id', vk'⟩ := key'
    obtain ⟨hid, hhash⟩ := h
    dsimp only [Host.viewingKeyHash] at hid hhash
    subst hid
    have hsame : exec (verifyDisclosure ⟨id, vk⟩) ⟨host, auth⟩ env =
        exec (verifyDisclosure ⟨id, vk'⟩) ⟨host, auth⟩ env := by
      rw [verifyDisclosure_exec, verifyDisclosure_exec]
      dsimp only
      rw [hhash]
      cases env.lookup (.disclosure id) <;> rfl
    unfold dispatch ShieldContract.verifyDisclosure
    rw [exec_bind, exec_bind, hsame]

theorem simulates_looksLike (host : Host Address) :
    Simulates (shield host) (shield host) Eq (Invocation.LooksLike host) Eq := by
  intro env env' inv inv' henv hlike
  subst henv
  have hsame : (shield host).step env inv = (shield host).step env inv' :=
    (exec_dispatch_auth hlike.2).trans (exec_dispatch_looksLike hlike.1 inv'.auth)
  rw [hsame]
  exact ⟨rfl, rfl⟩

/-- From any environment, two runs whose calls look the same to the contract, one by one, have the
same outcomes and leave the same storage and events. -/
theorem runs_see_hash_and_signer (host : Host Address) (env : Env Address)
    (invs invs' : List (Invocation Address))
    (hlike : List.Forall₂ (Invocation.LooksLike host) invs invs') :
    ((shield host).trace env invs).map Prod.snd = ((shield host).trace env invs').map Prod.snd ∧
    (shield host).run env invs = (shield host).run env invs' := by
  have hsim := simulates_looksLike host
  have houtcomes : List.Forall₂ Eq (((shield host).trace env invs).map Prod.snd)
      (((shield host).trace env invs').map Prod.snd) :=
    List.forall₂_map_left_iff.2 (List.forall₂_map_right_iff.2 (hsim.trace rfl hlike))
  rw [List.forall₂_eq_eq_eq] at houtcomes
  exact ⟨houtcomes, hsim.run rfl hlike⟩

/-- Nobody's signature but Alice's matters to her payment and to her request to disclose it. -/
theorem other_signatures_do_not_matter :
    let id := soroban.idOf ⟨Sample.alice, Sample.bob, .replicate 32 7, Sample.amount 30⟩
    let calls : List (Call ScAddress) :=
      [.deposit Sample.alice (Sample.amount 100),
        .confidentialTransfer Sample.alice Sample.bob (Sample.proof 30 7),
        .recordDisclosureRequest Sample.alice ⟨id, .replicate 32 1⟩]
    let env : Env ScAddress := runOf soroban [⟨.initializePool Sample.bob, fun _ => true⟩]
    (shield soroban).run env (calls.map fun call => ⟨call, fun _ => true⟩) =
      (shield soroban).run env (calls.map fun call => ⟨call, fun a => a == Sample.alice⟩) := by
  intro id calls env
  refine (runs_see_hash_and_signer soroban env _ _ ?_).2
  rw [List.forall₂_map_left_iff, List.forall₂_map_right_iff, List.forall₂_same]
  intro call hcall
  refine ⟨.refl call, ?_⟩
  revert call
  decide +kernel

end PrivacyShield.Contract
