import PrivacyShield.Verify.Disclosures

/-!
# A disclosure from its request to its use

A transfer that succeeded can be disclosed by either party at any later time, and a recorded viewing
key opens the transfer until a party records another one. Nobody else can prevent either, whatever
calls come in between.
-/

namespace PrivacyShield.Contract

open PrivacyShield.Lib

variable {Address : Type} [DecidableEq Address] {host : Host Address}
  {before after : List (Invocation Address)} {t : Transfer Address}

/-- The invocation asks to record a viewing key for an identifier. -/
def Invocation.RecordsFor (id : BytesN 32) (inv : Invocation Address) : Prop :=
  ∃ caller key, inv.call = .recordDisclosureRequest caller key ∧ key.transferId = id

theorem transfersOf_subset_append (host : Host Address) (before after : List (Invocation Address)) :
    transfersOf host before ⊆ transfersOf host (before ++ after) := by
  rw [transfersOf_append]
  exact List.subset_append_left _ _

/-- A transfer of a run is on record from then on. -/
theorem lookup_of_mem_transfersOf (hxdr : host.XdrPrefixFree)
    {invs : List (Invocation Address)} (hsha : host.NoCollision (transfersOf host invs))
    (ht : t ∈ transfersOf host invs) :
    (runOf host invs).lookup (.transfer (host.idOf t)) = some (host.recordOf t) :=
  (lookup_transfer_iff hxdr hsha).2 ⟨t, ht, rfl, rfl⟩

/-- An authorized party's request succeeds once the transfer is on record. -/
theorem record_step {env : Env Address} {caller : Address} {auth : Address → Bool}
    (vk : BytesN 32)
    (hrec : env.lookup (.transfer (host.idOf t)) = some (host.recordOf t))
    (hparty : caller = t.fromAddr ∨ caller = t.toAddr) (hauth : auth caller = true) :
    ∃ env', (shield host).step env
      ⟨.recordDisclosureRequest caller ⟨host.idOf t, vk⟩, auth⟩ = (.ok .unit, env') := by
  have hs : Succeeds ⟨host, auth⟩ env (.recordDisclosureRequest caller ⟨host.idOf t, vk⟩) .unit _ :=
    .recordDisclosureRequest hauth hrec hparty
  exact ⟨_, step_ok_iff.2 hs⟩

/-- Calls that are no authorized party's requests for the identifier leave its last key alone. -/
theorem lastKey_append (hxdr : host.XdrPrefixFree)
    (hsha : host.NoCollision (transfersOf host (before ++ after)))
    (ht : t ∈ transfersOf host before)
    (hafter : ∀ inv ∈ after, inv.RecordsFor (host.idOf t) →
      inv.auth t.fromAddr = false ∧ inv.auth t.toAddr = false) :
    lastKey (successesOf host (before ++ after)) (host.idOf t) =
      lastKey (successesOf host before) (host.idOf t) := by
  induction after using List.reverseRecOn with
  | nil => rw [List.append_nil]
  | append_singleton after inv ih =>
    rw [← List.append_assoc] at hsha ⊢
    have hsha' : host.NoCollision (transfersOf host (before ++ after)) :=
      hsha.mono (transfersOf_subset_append host _ _)
    rw [← ih hsha' fun inv' hinv' => hafter inv' (List.mem_append_left _ hinv')]
    rcases step_cases host (runOf host (before ++ after)) inv with
      ⟨r, env', hstep, hs⟩ | ⟨f, hstep, -⟩
    · rw [(successesOf_concat_ok hstep).1, lastKey_concat]
      rcases hs.disclosure_cases (host.idOf t) with ⟨hnone, -⟩ | ⟨vk, record, hkey, hrec, hauth, -⟩
      · rw [hnone, Option.none_or]
      · -- the party check reads the record of `t`
        rw [lookup_of_mem_transfersOf hxdr hsha' (transfersOf_subset_append host _ _ ht)] at hrec
        cases hrec
        obtain ⟨caller, key, hcall, hid, -⟩ := recordedKey_eq_some hkey
        obtain ⟨hfrom, hto⟩ := hafter inv (List.mem_append_right _ (List.mem_singleton_self inv))
          ⟨caller, key, hcall, hid⟩
        have hfrom' : inv.auth (host.recordOf t).fromAddr = false := hfrom
        have hto' : inv.auth (host.recordOf t).toAddr = false := hto
        rw [hfrom', hto'] at hauth
        simp at hauth
    · rw [(successesOf_concat_error hstep).1]

/-- The answers to the disclosure keys of a transfer whose last key is known. -/
theorem verifyDisclosure_of_lastKey (hxdr : host.XdrPrefixFree)
    {invs : List (Invocation Address)} (hsha : host.NoCollision (transfersOf host invs))
    (ht : t ∈ transfersOf host invs) {vk : BytesN 32}
    (hlast : lastKey (successesOf host invs) (host.idOf t) = some vk) (vk' : BytesN 32)
    (auth : Address → Bool) :
    ((shield host).step (runOf host invs) ⟨.verifyDisclosure ⟨host.idOf t, vk'⟩, auth⟩).1 =
      if host.viewingKeyHash vk' = host.viewingKeyHash vk then
        .ok (.disclosure (host.disclosureOf t vk))
      else .error (.err .invalidDisclosureKey) := by
  obtain ⟨u, hu, hid, hentry⟩ := (disclosureEntries_runOf host invs).of_some hlast
  have hut : u = t := Host.idOf_injOn hxdr hsha hu ht hid
  subst hut
  rw [verifyDisclosure_step]
  dsimp only
  rw [hentry]
  rfl

/-- At any time after a transfer an authorized party's disclosure request succeeds. From then on,
until an authorized party records another viewing key for it, the key opens exactly that transfer to
whoever presents it, and a key with another hash is refused. -/
theorem disclosure_lifecycle (host : Host Address) (hxdr : host.XdrPrefixFree)
    (before after : List (Invocation Address)) (t : Transfer Address) (caller : Address)
    (vk : BytesN 32) (auth : Address → Bool) (ht : t ∈ transfersOf host before)
    (hparty : caller = t.fromAddr ∨ caller = t.toAddr) (hauth : auth caller = true)
    (hsha : host.NoCollision (transfersOf host
      (before ++ [⟨.recordDisclosureRequest caller ⟨host.idOf t, vk⟩, auth⟩] ++ after)))
    (hafter : ∀ inv ∈ after, inv.RecordsFor (host.idOf t) →
      inv.auth t.fromAddr = false ∧ inv.auth t.toAddr = false) :
    let request : Invocation Address :=
      ⟨.recordDisclosureRequest caller ⟨host.idOf t, vk⟩, auth⟩
    ((shield host).step (runOf host before) request).1 = .ok .unit ∧
    ∀ vk' auth',
      ((shield host).step (runOf host (before ++ [request] ++ after))
        ⟨.verifyDisclosure ⟨host.idOf t, vk'⟩, auth'⟩).1 =
      if host.viewingKeyHash vk' = host.viewingKeyHash vk then
        .ok (.disclosure (host.disclosureOf t vk))
      else .error (.err .invalidDisclosureKey) := by
  intro request
  have hsha' : host.NoCollision (transfersOf host (before ++ [request])) :=
    hsha.mono (transfersOf_subset_append host _ _)
  have ht' : t ∈ transfersOf host (before ++ [request]) := transfersOf_subset_append host _ _ ht
  have hrec := lookup_of_mem_transfersOf hxdr
    (hsha'.mono (transfersOf_subset_append host before [request])) ht
  obtain ⟨env', hstep⟩ := record_step vk hrec hparty hauth
  refine ⟨congrArg Prod.fst hstep, fun vk' auth' => ?_⟩
  refine verifyDisclosure_of_lastKey hxdr hsha (transfersOf_subset_append host _ _ ht') ?_ vk' auth'
  rw [lastKey_append hxdr hsha ht' hafter, (successesOf_concat_ok hstep).1, lastKey_concat]
  have hkey : recordedKey (host.idOf t) (request, Reply.unit) = some vk := if_pos rfl
  rw [hkey, Option.some_or]

/-- Bob discloses Alice's payment. Carol's attempt and Alice's next payment change nothing. -/
theorem bob_discloses_payment :
    let t : Transfer ScAddress :=
      ⟨Sample.alice, Sample.bob, .replicate 32 7, Sample.amount 30⟩
    let before : List (Invocation ScAddress) :=
      [⟨.initializePool Sample.bob, fun _ => true⟩,
        ⟨.deposit Sample.alice (Sample.amount 100), fun _ => true⟩,
        ⟨.confidentialTransfer Sample.alice Sample.bob (Sample.proof 30 7), fun _ => true⟩]
    let request : Invocation ScAddress :=
      ⟨.recordDisclosureRequest Sample.bob ⟨soroban.idOf t, .replicate 32 1⟩,
        fun a => a == Sample.bob⟩
    let after : List (Invocation ScAddress) :=
      [⟨.recordDisclosureRequest Sample.carol ⟨soroban.idOf t, .replicate 32 2⟩,
          fun a => a == Sample.carol⟩,
        ⟨.confidentialTransfer Sample.alice Sample.bob (Sample.proof 20 8), fun _ => true⟩]
    ((shield soroban).step (runOf soroban (before ++ [request] ++ after))
      ⟨.verifyDisclosure ⟨soroban.idOf t, .replicate 32 1⟩, fun _ => false⟩).1 =
        .ok (.disclosure (soroban.disclosureOf t (.replicate 32 1))) := by
  intro t before request after
  have ht : t ∈ transfersOf soroban before := by decide +kernel
  have hsha : soroban.NoCollision (transfersOf soroban (before ++ [request] ++ after)) := by
    decide +kernel
  have hafter : ∀ inv ∈ after, inv.RecordsFor (soroban.idOf t) →
      inv.auth Sample.alice = false ∧ inv.auth Sample.bob = false := by
    intro inv hinv hrecords
    rcases List.mem_pair.1 hinv with rfl | rfl
    · decide
    · obtain ⟨caller, key, hcall, -⟩ := hrecords
      cases hcall
  obtain ⟨-, hverify⟩ := disclosure_lifecycle soroban soroban_xdrPrefixFree before after t
    Sample.bob (.replicate 32 1) (fun a => a == Sample.bob) ht (.inr rfl) (by decide) hsha hafter
  exact (hverify (.replicate 32 1) fun _ => false).trans (if_pos rfl)

end PrivacyShield.Contract
