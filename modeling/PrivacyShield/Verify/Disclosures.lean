import PrivacyShield.Verify.Accounts
import PrivacyShield.Verify.Records

/-!
# Selective disclosure over runs

A `Disclosure` entry is always what the last successful `record_disclosure_request` for its
identifier made of the transfer it names (`DisclosureEntries`). From this:

* what `verify_disclosure` answers, in terms of the history alone;
* only the parties of a transfer can change its disclosure: the record that the party check reads
  cannot be replaced by one with other parties;
* an identifier names one transfer, up to replays of that same transfer.
-/

namespace PrivacyShield.Contract

open PrivacyShield.Lib

variable {Address : Type}

/-! ## The last recorded viewing key -/

section LastKey

variable (l : List (Invocation Address × Reply Address)) (id : BytesN 32)

/-- The viewing key that a successful call records for `id`. -/
def recordedKey (s : Invocation Address × Reply Address) : Option (BytesN 32) :=
  match s.1.call with
  | .recordDisclosureRequest _ key => if key.transferId = id then some key.viewingKey else none
  | _ => none

/-- The viewing key of the most recent successful disclosure request for `id`. -/
def lastKey : Option (BytesN 32) := (l.filterMap (recordedKey id)).getLast?

/-- The viewing keys of the successful disclosure requests. -/
def viewingKeys : List (BytesN 32) :=
  l.filterMap fun s => match s.1.call with
    | .recordDisclosureRequest _ key => some key.viewingKey
    | _ => none

variable {l id}

theorem lastKey_concat (s : Invocation Address × Reply Address) :
    lastKey (l ++ [s]) id = (recordedKey id s).or (lastKey l id) := by
  unfold lastKey
  rw [List.filterMap_append]
  cases h : recordedKey id s with
  | none => simp [h]
  | some vk => simp [h]

theorem recordedKey_eq_some {s : Invocation Address × Reply Address} {vk : BytesN 32}
    (h : recordedKey id s = some vk) :
    ∃ caller key, s.1.call = .recordDisclosureRequest caller key ∧ key.transferId = id ∧
      key.viewingKey = vk := by
  unfold recordedKey at h
  split at h
  · next caller key hcall =>
    split at h
    · next hid => exact ⟨caller, key, hcall, hid, Option.some.inj h⟩
    · cases h
  · cases h

/-- There is no last key exactly when no disclosure was requested for the identifier. -/
theorem lastKey_eq_none_iff :
    lastKey l id = none ↔
      ∀ s ∈ l, ∀ caller key, s.1.call = .recordDisclosureRequest caller key →
        key.transferId ≠ id := by
  unfold lastKey
  rw [List.getLast?_eq_none_iff, List.filterMap_eq_nil_iff]
  refine ⟨fun h s hs caller key hcall hid => ?_, fun h s hs => ?_⟩
  · have hnone := h s hs
    rw [recordedKey, hcall] at hnone
    simp [hid] at hnone
  · cases hkey : recordedKey id s with
    | none => rfl
    | some vk =>
      obtain ⟨caller, key, hcall, hid, -⟩ := recordedKey_eq_some hkey
      exact absurd hid (h s hs caller key hcall)

theorem mem_viewingKeys_of_lastKey {vk : BytesN 32} (h : lastKey l id = some vk) :
    vk ∈ viewingKeys l := by
  obtain ⟨s, hs, hkey⟩ := List.mem_filterMap.1 (List.mem_of_getLast? h)
  obtain ⟨caller, key, hcall, -, hvk⟩ := recordedKey_eq_some hkey
  refine List.mem_filterMap.2 ⟨s, hs, ?_⟩
  rw [hcall]
  exact congrArg some hvk

end LastKey

/-! ## Disclosure entries -/

/-- The hash under which a viewing key is kept. -/
def Host.viewingKeyHash (host : Host Address) (vk : BytesN 32) : BytesN 32 :=
  host.sha256 vk.toList

/-- The disclosure of a transfer under a viewing key. -/
def Host.disclosureOf (host : Host Address) (t : Transfer Address) (vk : BytesN 32) :
    DisclosureRecord Address :=
  ⟨host.idOf t, t.fromAddr, t.toAddr, t.amount, host.viewingKeyHash vk⟩

variable [DecidableEq Address]

/-- A successful call leaves a `Disclosure` entry alone, or an authorized party of the transfer on
record records a viewing key for it. -/
theorem Succeeds.disclosure_cases {host : Host Address} {env env' : Env Address}
    {inv : Invocation Address} {r : Reply Address}
    (h : Succeeds ⟨host, inv.auth⟩ env inv.call r env') (id : BytesN 32) :
    (recordedKey id (inv, r) = none ∧
      env'.lookup (.disclosure id) = env.lookup (.disclosure id)) ∨
    ∃ vk record, recordedKey id (inv, r) = some vk ∧
      env.lookup (.transfer id) = some record ∧
      (inv.auth record.fromAddr = true ∨ inv.auth record.toAddr = true) ∧
      env'.lookup (.disclosure id) =
        some ⟨id, record.fromAddr, record.toAddr, record.amount, host.viewingKeyHash vk⟩ := by
  obtain ⟨call, auth⟩ := inv
  cases call with
  | recordDisclosureRequest caller key =>
    by_cases hid : key.transferId = id
    · subst hid
      cases h with
      | @recordDisclosureRequest _ _ record hauth hrec hparty =>
        refine .inr ⟨key.viewingKey, record, if_pos rfl, hrec, ?_, Env.lookup_put_self _ _ _⟩
        rcases hparty with rfl | rfl
        · exact .inl hauth
        · exact .inr hauth
    · exact .inl ⟨if_neg hid, h.lookup_eq (by simpa [Call.writes] using Ne.symm hid)⟩
  | confidentialTransfer f t proof =>
    obtain ⟨mock⟩ := proof
    exact .inl ⟨rfl, h.lookup_eq (by simp [Call.writes])⟩
  | _ => exact .inl ⟨rfl, h.lookup_eq (by simp [Call.writes])⟩

/-- The `Disclosure` entries are those of the last viewing keys, each for a transfer in `l` with its
identifier. -/
structure DisclosureEntries (host : Host Address) (l : List (Invocation Address × Reply Address))
    (env : Env Address) : Prop where
  of_none : ∀ {id}, lastKey l id = none → env.lookup (.disclosure id) = none
  of_some : ∀ {id vk}, lastKey l id = some vk → ∃ t ∈ transfersIn l, host.idOf t = id ∧
    env.lookup (.disclosure id) = some (host.disclosureOf t vk)

theorem DisclosureEntries.succeeds {host : Host Address} {env env' : Env Address}
    {l : List (Invocation Address × Reply Address)} {inv : Invocation Address}
    {r : Reply Address} (h : DisclosureEntries host l env)
    (htransfers : TransferEntries host (transfersIn l) env)
    (hs : Succeeds ⟨host, inv.auth⟩ env inv.call r env') :
    DisclosureEntries host (l ++ [(inv, r)]) env' := by
  have hsub : ∀ t ∈ transfersIn l, t ∈ transfersIn (l ++ [(inv, r)]) := by
    intro t ht
    rw [transfersIn, List.filterMap_append]
    exact List.mem_append_left _ ht
  refine ⟨fun {id} hnone => ?_, fun {id vk} hsome => ?_⟩
  · rw [lastKey_concat, Option.or_eq_none_iff] at hnone
    rcases hs.disclosure_cases id with ⟨-, hsame⟩ | ⟨vk, record, hkey, -⟩
    · rw [hsame]
      exact h.of_none hnone.2
    · rw [hkey] at hnone
      cases hnone.1
  · rw [lastKey_concat] at hsome
    rcases hs.disclosure_cases id with ⟨hkey, hsame⟩ | ⟨vk', record, hkey, hrec, -, hnew⟩
    · rw [hkey, Option.none_or] at hsome
      obtain ⟨t, ht, hid, hentry⟩ := h.of_some hsome
      exact ⟨t, hsub t ht, hid, hsame.trans hentry⟩
    · rw [hkey, Option.some_or] at hsome
      cases hsome
      -- the copy is of the record that is stored now, which is that of a transfer
      obtain ⟨t, ht, rfl, rfl⟩ := htransfers.exists_transfer hrec
      exact ⟨t, hsub t ht, rfl, hnew⟩

theorem disclosureEntries_runOf (host : Host Address) (invs : List (Invocation Address)) :
    DisclosureEntries host (successesOf host invs) (runOf host invs) := by
  refine (successesOf_induction (P := fun l env => TransferEntries host (transfersIn l) env ∧
    DisclosureEntries host l env) ⟨.empty host, ?_⟩ (fun l env inv r env' hP hs => ?_) invs).2
  · exact ⟨fun _ => Env.lookup_empty _, fun h => by cases h⟩
  · exact ⟨hP.1.succeeds hs, hP.2.succeeds hP.1 hs⟩

/-! ## Answers of `verify_disclosure` -/

/-- The answer to a disclosure key depends on the `Disclosure` entry of its identifier only. -/
theorem verifyDisclosure_step (host : Host Address) (env : Env Address) (key : DisclosureKey)
    (auth : Address → Bool) :
    (shield host).step env ⟨.verifyDisclosure key, auth⟩ =
      (match env.lookup (.disclosure key.transferId) with
        | none => .error (.err .disclosureNotFound)
        | some d =>
          if host.viewingKeyHash key.viewingKey = d.viewingKeyHash then .ok (.disclosure d)
          else .error (.err .invalidDisclosureKey), env) := by
  change exec (dispatch (.verifyDisclosure key)) ⟨host, auth⟩ env = _
  rw [dispatch, exec_bind, ShieldContract.verifyDisclosure, verifyDisclosure_exec]
  cases env.lookup (.disclosure key.transferId) with
  | none => rfl
  | some d =>
    by_cases hhash : host.viewingKeyHash key.viewingKey = d.viewingKeyHash
    · unfold Host.viewingKeyHash at *
      simp only [if_neg (not_ne_iff.2 hhash), if_pos hhash, exec_pure]
    · unfold Host.viewingKeyHash at *
      simp only [if_pos hhash, if_neg hhash]

/-- The answers of `verify_disclosure` after a run, from the history of the run: nothing was
recorded for the identifier; or the key is the last recorded one, and the answer is a successful
transfer of the run that returned the identifier; or the key is another one. -/
theorem verifyDisclosure_answers (host : Host Address) (invs : List (Invocation Address))
    (key : DisclosureKey) (auth : Address → Bool)
    (hsha : Set.InjOn host.viewingKeyHash
      {vk | vk ∈ key.viewingKey :: viewingKeys (successesOf host invs)}) :
    let l := successesOf host invs
    let answer := ((shield host).step (runOf host invs) ⟨.verifyDisclosure key, auth⟩).1
    (answer = .error (.err .disclosureNotFound) ↔
      ∀ s ∈ l, ∀ caller key', s.1.call = .recordDisclosureRequest caller key' →
        key'.transferId ≠ key.transferId) ∧
    ((∃ record, answer = .ok (.disclosure record)) ↔
      lastKey l key.transferId = some key.viewingKey) ∧
    (∀ record, answer = .ok (.disclosure record) → record.transferId = key.transferId ∧
      ∃ s ∈ l, s.2 = .transferId key.transferId ∧ ∃ mock,
        s.1.call = .confidentialTransfer record.fromAddr record.toAddr (.mock mock) ∧
          record.amount = mock.amount) ∧
    (answer = .error (.err .invalidDisclosureKey) ↔
      ∃ vk, lastKey l key.transferId = some vk ∧ vk ≠ key.viewingKey) := by
  intro l answer
  have hentries := disclosureEntries_runOf host invs
  have hstep := verifyDisclosure_step host (runOf host invs) key auth
  rw [← lastKey_eq_none_iff]
  cases hlast : lastKey l key.transferId with
  | none =>
    have hanswer : answer = .error (.err .disclosureNotFound) := by
      change ((shield host).step _ _).1 = _
      rw [hstep, hentries.of_none hlast]
    rw [hanswer]
    simp
  | some vk =>
    obtain ⟨t, ht, hid, hentry⟩ := hentries.of_some hlast
    have hanswer : answer = if vk = key.viewingKey then .ok (.disclosure (host.disclosureOf t vk))
        else .error (.err .invalidDisclosureKey) := by
      change ((shield host).step _ _).1 = _
      rw [hstep, hentry]
      have hhash : host.viewingKeyHash key.viewingKey = host.viewingKeyHash vk ↔
          vk = key.viewingKey := by
        refine ⟨fun h => ?_, fun h => by rw [h]⟩
        exact hsha (List.mem_cons_of_mem _ (mem_viewingKeys_of_lastKey hlast))
          List.mem_cons_self h.symm
      exact if_congr hhash rfl rfl
    rw [hanswer]
    split
    · next hvk =>
      refine ⟨by simp, by simp [hvk], fun record hrecord => ?_, by simp [hvk]⟩
      cases hrecord
      obtain ⟨s, hs, hcall⟩ := List.mem_filterMap.1 ht
      have hreply := reply_of_transfer hs hcall
      exact ⟨hid, s, hs, hid ▸ hreply, ⟨t.amount, t.nonce⟩, Call.eq_of_transfer? hcall, rfl⟩
    · next hvk => simp [hvk]

/-- After a rotation the new viewing key opens the disclosure of Alice's transfer to Bob. -/
theorem rotated_key_opens :
    let t : Transfer ScAddress :=
      ⟨Sample.alice, Sample.bob, .replicate 32 7, Sample.amount 30⟩
    let invs : List (Invocation ScAddress) :=
      [⟨.initializePool Sample.bob, fun _ => true⟩,
        ⟨.deposit Sample.alice (Sample.amount 100), fun _ => true⟩,
        ⟨.confidentialTransfer Sample.alice Sample.bob (Sample.proof 30 7), fun _ => true⟩,
        ⟨.recordDisclosureRequest Sample.alice ⟨soroban.idOf t, .replicate 32 1⟩, fun _ => true⟩,
        ⟨.recordDisclosureRequest Sample.bob ⟨soroban.idOf t, .replicate 32 2⟩, fun _ => true⟩]
    ∃ record, ((shield soroban).step (runOf soroban invs)
      ⟨.verifyDisclosure ⟨soroban.idOf t, .replicate 32 2⟩, fun _ => false⟩).1 =
        .ok (.disclosure record) := by
  intro t invs
  have hsha : Set.InjOn soroban.viewingKeyHash
      {vk | vk ∈ .replicate 32 2 :: viewingKeys (successesOf soroban invs)} := by
    decide +kernel
  obtain ⟨-, hok, -, -⟩ := verifyDisclosure_answers soroban invs
    ⟨soroban.idOf t, .replicate 32 2⟩ (fun _ => false) hsha
  refine hok.2 ?_
  decide +kernel

/-! ## Authority over disclosures -/

/-- A call that no party of the transfer on record authorized leaves its disclosure alone. -/
theorem Succeeds.disclosure_of_not_party {host : Host Address} {env env' : Env Address}
    {inv : Invocation Address} {r : Reply Address}
    (h : Succeeds ⟨host, inv.auth⟩ env inv.call r env') {id : BytesN 32}
    {record : TransferRecord Address} (hrec : env.lookup (.transfer id) = some record)
    (hfrom : inv.auth record.fromAddr = false) (hto : inv.auth record.toAddr = false) :
    env'.lookup (.disclosure id) = env.lookup (.disclosure id) := by
  rcases h.disclosure_cases id with ⟨-, hsame⟩ | ⟨vk, record', -, hrec', hauth, -⟩
  · exact hsame
  · rw [hrec] at hrec'
    cases hrec'
    rw [hfrom, hto] at hauth
    rcases hauth with hauth | hauth
    · cases hauth
    · cases hauth

/-- Calls that neither party of a transfer authorized, however many, leave its disclosure unchanged,
and `verify_disclosure` answers every viewing key as before. -/
theorem disclosure_unchanged_by_outsiders (host : Host Address) (hxdr : host.XdrPrefixFree)
    (before after : List (Invocation Address))
    (hsha : host.NoCollision (transfersOf host (before ++ after))) (id : BytesN 32)
    (record : TransferRecord Address)
    (hrec : (runOf host before).lookup (.transfer id) = some record)
    (hauth : ∀ inv ∈ after, inv.auth record.fromAddr = false ∧ inv.auth record.toAddr = false) :
    (runOf host (before ++ after)).lookup (.disclosure id) =
        (runOf host before).lookup (.disclosure id) ∧
      ∀ vk auth auth',
        ((shield host).step (runOf host (before ++ after)) ⟨.verifyDisclosure ⟨id, vk⟩, auth⟩).1 =
          ((shield host).step (runOf host before) ⟨.verifyDisclosure ⟨id, vk⟩, auth'⟩).1 := by
  have hentry : (runOf host (before ++ after)).lookup (.disclosure id) =
      (runOf host before).lookup (.disclosure id) := by
    induction after using List.reverseRecOn with
    | nil => rw [List.append_nil]
    | append_singleton after inv ih =>
      rw [← List.append_assoc] at hsha ⊢
      have hsha' : host.NoCollision (transfersOf host (before ++ after)) := by
        refine hsha.mono ?_
        rw [transfersOf_append host (before ++ after)]
        exact List.subset_append_left _ _
      rw [← ih hsha' fun inv' hinv' => hauth inv' (List.mem_append_left _ hinv')]
      obtain ⟨hfrom, hto⟩ := hauth inv (List.mem_append_right _ (List.mem_singleton_self inv))
      -- the party check still reads the record that was there before
      have hrec' := lookup_transfer_of_prefix hxdr hsha' hrec
      rcases step_cases host (runOf host (before ++ after)) inv with
        ⟨r, env', hstep, hs⟩ | ⟨f, hstep, -⟩
      · rw [(successesOf_concat_ok hstep).2]
        exact hs.disclosure_of_not_party hrec' hfrom hto
      · rw [(successesOf_concat_error hstep).2]
  refine ⟨hentry, fun vk auth auth' => ?_⟩
  rw [verifyDisclosure_step, verifyDisclosure_step, hentry]

/-- Carol can neither register a key for Alice's transfer to Bob nor get there by a transfer of her
own with the same nonce and amount. -/
theorem carol_cannot_disclose :
    let t : Transfer ScAddress :=
      ⟨Sample.alice, Sample.bob, .replicate 32 7, Sample.amount 30⟩
    let before : List (Invocation ScAddress) :=
      [⟨.initializePool Sample.bob, fun _ => true⟩,
        ⟨.deposit Sample.alice (Sample.amount 100), fun _ => true⟩,
        ⟨.deposit Sample.carol (Sample.amount 100), fun _ => true⟩,
        ⟨.confidentialTransfer Sample.alice Sample.bob (Sample.proof 30 7), fun _ => true⟩]
    let after : List (Invocation ScAddress) :=
      [⟨.recordDisclosureRequest Sample.carol ⟨soroban.idOf t, .replicate 32 3⟩,
          fun a => a == Sample.carol⟩,
        ⟨.confidentialTransfer Sample.carol Sample.bob (Sample.proof 30 7),
          fun a => a == Sample.carol⟩,
        ⟨.recordDisclosureRequest Sample.alice ⟨soroban.idOf t, .replicate 32 3⟩,
          fun a => a == Sample.carol⟩]
    (runOf soroban (before ++ after)).lookup (.disclosure (soroban.idOf t)) =
      (runOf soroban before).lookup (.disclosure (soroban.idOf t)) := by
  intro t before after
  have hsha : soroban.NoCollision (transfersOf soroban (before ++ after)) := by decide +kernel
  have hrec : (runOf soroban before).lookup (.transfer (soroban.idOf t)) =
      some (soroban.recordOf t) := by decide +kernel
  have hauth : ∀ inv ∈ after, inv.auth Sample.alice = false ∧ inv.auth Sample.bob = false := by
    decide
  exact (disclosure_unchanged_by_outsiders soroban soroban_xdrPrefixFree before after hsha
    (soroban.idOf t) (soroban.recordOf t) hrec hauth).1

/-! ## One transfer for each identifier -/

/-- The identifiers that the successful calls returned, in order. -/
def returnedIds (l : List (Invocation Address × Reply Address)) : List (BytesN 32) :=
  l.filterMap fun s => match s.2 with
    | .transferId id => some id
    | _ => none

/-- A repeated request is served again and returns the same identifier, although SHA-256 does not
collide. -/
theorem repeated_request_returns_same_id :
    let invs : List (Invocation ScAddress) :=
      [⟨.initializePool Sample.bob, fun _ => true⟩,
        ⟨.deposit Sample.alice (Sample.amount 100), fun _ => true⟩,
        ⟨.confidentialTransfer Sample.alice Sample.bob (Sample.proof 30 7), fun _ => true⟩,
        ⟨.confidentialTransfer Sample.alice Sample.bob (Sample.proof 30 7), fun _ => true⟩]
    soroban.NoCollision (transfersOf soroban invs) ∧
      (returnedIds (successesOf soroban invs)).length = 2 ∧
      ¬(returnedIds (successesOf soroban invs)).Nodup := by
  decide +kernel

/-- A transfer that has succeeded had a positive amount, and the contract is initialized since. -/
theorem initialized_of_transfer (host : Host Address) (invs : List (Invocation Address))
    {s : Invocation Address × Reply Address} (hs : s ∈ successesOf host invs)
    {t : Transfer Address} (hcall : s.1.call.transfer? = some t) :
    (runOf host invs).Initialized ∧ 0 < t.amount.toInt := by
  revert s t
  refine successesOf_induction (P := fun l env => ∀ {s}, s ∈ l → ∀ {t},
    s.1.call.transfer? = some t → env.Initialized ∧ 0 < t.amount.toInt) (fun hs => ?_)
    (fun l env inv r env' hP hs => ?_) invs
  · cases hs
  · intro s hmem t hcall
    rcases List.mem_append.1 hmem with hmem | hmem
    · obtain ⟨hinit, hpos⟩ := hP hmem hcall
      exact ⟨hs.initialized hinit, hpos⟩
    · rw [List.mem_singleton.1 hmem] at hcall
      dsimp only at hcall
      rw [Call.eq_of_transfer? hcall] at hs
      obtain ⟨hinit, -, hpos, -⟩ := transfer_accepted_iff.1 (accepts_iff.2 ⟨r, env', hs⟩)
      exact ⟨hs.initialized hinit, hpos⟩

/-- A repeat of a successful transfer is checked as the first one was, and nothing else. -/
theorem repeat_accepted_iff (host : Host Address) (invs : List (Invocation Address))
    {s : Invocation Address × Reply Address} (hs : s ∈ successesOf host invs)
    {t : Transfer Address} (hcall : s.1.call.transfer? = some t) (auth : Address → Bool) :
    Accepts host (runOf host invs) ⟨s.1.call, auth⟩ ↔
      auth t.fromAddr = true ∧
      (∃ b, (runOf host invs).ledger t.fromAddr = some b ∧ t.amount.toInt ≤ b) ∧
      ((runOf host invs).ledger t.toAddr).getD 0 + t.amount.toInt ≤ 2 ^ 127 - 1 := by
  obtain ⟨hinit, hpos⟩ := initialized_of_transfer host invs hs hcall
  rw [Call.eq_of_transfer? hcall, transfer_accepted_iff]
  constructor
  · rintro ⟨-, hauth, -, hfunds, hroom⟩
    exact ⟨hauth, hfunds, hroom⟩
  · rintro ⟨hauth, hfunds, hroom⟩
    exact ⟨hinit, hauth, hpos, hfunds, hroom⟩

/-- When a repeat is accepted, it returns what the first one returned. -/
theorem reply_of_repeat {host : Host Address} {invs : List (Invocation Address)}
    {s : Invocation Address × Reply Address} (hs : s ∈ successesOf host invs)
    {t : Transfer Address} (hcall : s.1.call.transfer? = some t) {auth : Address → Bool}
    (haccepts : Accepts host (runOf host invs) ⟨s.1.call, auth⟩) :
    ((shield host).step (runOf host invs) ⟨s.1.call, auth⟩).1 = .ok s.2 := by
  obtain ⟨r, env', hrepeat⟩ := accepts_iff.1 haccepts
  obtain ⟨hreply, -, -⟩ := hrepeat.of_transfer?_eq_some hcall
  rw [step_ok_iff.2 hrepeat, hreply, reply_of_transfer hs hcall]

/-- Two successful transfers return one identifier exactly when they are the same request. A repeat
is accepted whenever the sender authorizes it, holds the amount and the recipient has room for it,
and returns the same identifier. The `Transfer` entries are in bijection with the distinct successful
requests, and a disclosure key opens exactly one of them. -/
theorem transferId_names_request (host : Host Address) (hxdr : host.XdrPrefixFree)
    (invs : List (Invocation Address)) (hsha : host.NoCollision (transfersOf host invs)) :
    (∀ s ∈ successesOf host invs, ∀ s' ∈ successesOf host invs, ∀ t t',
      s.1.call.transfer? = some t → s'.1.call.transfer? = some t' →
        ∃ id id', s.2 = .transferId id ∧ s'.2 = .transferId id' ∧ (id = id' ↔ t = t')) ∧
    (∀ s ∈ successesOf host invs, ∀ t, s.1.call.transfer? = some t → ∀ auth,
      (Accepts host (runOf host invs) ⟨s.1.call, auth⟩ ↔
        auth t.fromAddr = true ∧
        (∃ b, (runOf host invs).ledger t.fromAddr = some b ∧ t.amount.toInt ≤ b) ∧
        ((runOf host invs).ledger t.toAddr).getD 0 + t.amount.toInt ≤ 2 ^ 127 - 1) ∧
      (Accepts host (runOf host invs) ⟨s.1.call, auth⟩ →
        ((shield host).step (runOf host invs) ⟨s.1.call, auth⟩).1 = .ok s.2)) ∧
    Set.BijOn host.idOf {t | t ∈ transfersOf host invs}
      {id | ∃ r, (runOf host invs).lookup (.transfer id) = some r} ∧
    ∀ key auth record,
      ((shield host).step (runOf host invs) ⟨.verifyDisclosure key, auth⟩).1 =
          .ok (.disclosure record) →
        ∃ t ∈ transfersOf host invs, host.idOf t = key.transferId ∧
          record.fromAddr = t.fromAddr ∧ record.toAddr = t.toAddr ∧ record.amount = t.amount ∧
          ∀ u ∈ transfersOf host invs, host.idOf u = key.transferId → u = t := by
  have hinj := Host.idOf_injOn hxdr hsha
  refine ⟨?_, ?_, ⟨?_, hinj, ?_⟩, ?_⟩
  · intro s hs s' hs' t t' hcall hcall'
    have ht : t ∈ transfersOf host invs := List.mem_filterMap.2 ⟨s, hs, hcall⟩
    have ht' : t' ∈ transfersOf host invs := List.mem_filterMap.2 ⟨s', hs', hcall'⟩
    exact ⟨host.idOf t, host.idOf t', reply_of_transfer hs hcall, reply_of_transfer hs' hcall',
      hinj.eq_iff ht ht'⟩
  · intro s hs t hcall auth
    exact ⟨repeat_accepted_iff host invs hs hcall auth, reply_of_repeat hs hcall⟩
  · intro t ht
    exact (transferEntries_runOf host invs).exists_record ht
  · intro id hid
    obtain ⟨r, hr⟩ := hid
    obtain ⟨t, ht, hid, -⟩ := (transferEntries_runOf host invs).exists_transfer hr
    exact ⟨t, ht, hid⟩
  · intro key auth record hanswer
    have hentries := disclosureEntries_runOf host invs
    rw [verifyDisclosure_step] at hanswer
    cases hlast : lastKey (successesOf host invs) key.transferId with
    | none =>
      rw [hentries.of_none hlast] at hanswer
      cases hanswer
    | some vk =>
      obtain ⟨t, ht, hid, hentry⟩ := hentries.of_some hlast
      simp only [hentry] at hanswer
      split at hanswer
      · cases hanswer
        refine ⟨t, ht, hid, rfl, rfl, rfl, fun u hu huid => ?_⟩
        exact hinj hu ht (huid.trans hid.symm)
      · cases hanswer

/-- The same parties and amount with two nonces: two identifiers on record. -/
theorem distinct_nonces_on_record :
    let invs : List (Invocation ScAddress) :=
      [⟨.initializePool Sample.bob, fun _ => true⟩,
        ⟨.deposit Sample.alice (Sample.amount 100), fun _ => true⟩,
        ⟨.confidentialTransfer Sample.alice Sample.bob (Sample.proof 30 7), fun _ => true⟩,
        ⟨.confidentialTransfer Sample.alice Sample.bob (Sample.proof 30 8), fun _ => true⟩]
    Set.BijOn soroban.idOf {t | t ∈ transfersOf soroban invs}
      {id | ∃ r, (runOf soroban invs).lookup (.transfer id) = some r} := by
  intro invs
  have hsha : soroban.NoCollision (transfersOf soroban invs) := by decide +kernel
  exact (transferId_names_request soroban soroban_xdrPrefixFree invs hsha).2.2.1

end PrivacyShield.Contract
