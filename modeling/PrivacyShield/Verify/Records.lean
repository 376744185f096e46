import PrivacyShield.Contract.Soroban
import PrivacyShield.Verify.Success

/-!
# Transfer records and events

A `Transfer` is what the caller of `confidential_transfer` asks for. The successful transfers of a
run, in order, determine its `Transfer` entries and its event stream:

* without any assumption, every entry is the record of a successful transfer with that identifier
  (`TransferEntries`), and the events announce the successful transfers in order;
* the preimage of an identifier determines the transfer (`Host.preimage_injective`), so as long as
  SHA-256 does not collide on the preimages of the run, the entry under an identifier is the record
  of the one transfer it names (`lookup_transfer_iff`).

The assumption on SHA-256 is never global injectivity, which no function to 32 bytes has.
-/

namespace PrivacyShield.Contract

open PrivacyShield.Lib

variable {Address : Type}

/-- A requested transfer. -/
structure Transfer (Address : Type) where
  fromAddr : Address
  toAddr : Address
  nonce : BytesN 32
  amount : I128
  deriving DecidableEq

/-- The transfer a call asks for. -/
def Call.transfer? : Call Address → Option (Transfer Address)
  | .confidentialTransfer fromAddr toAddr (.mock mock) =>
    some ⟨fromAddr, toAddr, mock.nonce, mock.amount⟩
  | _ => none

theorem Call.eq_of_transfer? {call : Call Address} {t : Transfer Address}
    (h : call.transfer? = some t) :
    call = .confidentialTransfer t.fromAddr t.toAddr (.mock ⟨t.amount, t.nonce⟩) := by
  cases call with
  | confidentialTransfer f t proof =>
    obtain ⟨mock⟩ := proof
    cases h
    rfl
  | _ => cases h

/-! ## Identifiers -/

namespace Host

variable (host : Host Address)

/-- The bytes that are hashed to the identifier of a transfer. -/
def preimage (t : Transfer Address) : Bytes :=
  host.transferPreimage t.fromAddr t.toAddr t.nonce t.amount

/-- The identifier of a transfer. -/
def idOf (t : Transfer Address) : BytesN 32 := host.sha256 (host.preimage t)

/-- The record of a transfer. -/
def recordOf (t : Transfer Address) : TransferRecord Address :=
  ⟨host.idOf t, t.fromAddr, t.toAddr, t.amount⟩

/-- The event of a transfer. -/
def eventOf (t : Transfer Address) : Event Address :=
  ⟨("transfer", t.fromAddr, t.toAddr), host.idOf t⟩

/-- SHA-256 is injective on the preimages of these transfers. -/
def NoCollision (ts : List (Transfer Address)) : Prop :=
  Set.InjOn host.sha256 {b | b ∈ ts.map host.preimage}

variable {host}

instance (ts : List (Transfer Address)) : Decidable (host.NoCollision ts) :=
  inferInstanceAs (Decidable (Set.InjOn host.sha256 {b | b ∈ ts.map host.preimage}))

/-- The concatenation splits in one way: the addresses are prefix-free, and what follows them has a
fixed length. -/
theorem preimage_injective (hxdr : host.XdrPrefixFree) : Function.Injective host.preimage := by
  intro t t' h
  obtain ⟨f, r, nonce, amount⟩ := t
  obtain ⟨f', r', nonce', amount'⟩ := t'
  simp only [preimage, transferPreimage, List.append_assoc] at h
  rw [← List.append_assoc, ← List.append_assoc (host.toXdr f')] at h
  obtain ⟨hparties, hrest⟩ := (PrefixFree.pair hxdr hxdr).append_inj (a := (f, r)) (b := (f', r')) h
  cases hparties
  obtain ⟨hnonce, hamount⟩ := List.append_inj hrest (by simp)
  obtain rfl := Vector.toList_inj.1 hnonce
  obtain rfl := SInt.toBeBytes_injective (by decide) (by decide) hamount
  rfl

theorem idOf_injOn (hxdr : host.XdrPrefixFree) {ts : List (Transfer Address)}
    (hsha : host.NoCollision ts) : Set.InjOn host.idOf {t | t ∈ ts} := by
  intro t ht t' ht' h
  exact preimage_injective hxdr (hsha (List.mem_map_of_mem ht) (List.mem_map_of_mem ht') h)

theorem NoCollision.mono {ts us : List (Transfer Address)} (hsha : host.NoCollision us)
    (h : ts ⊆ us) : host.NoCollision ts :=
  Set.InjOn.mono (fun _ hb => List.map_subset _ h hb) hsha

end Host

/-- On a host that serialises addresses as `ScVal`s, an identifier binds the sender, the recipient,
the nonce and the amount, whatever kinds of addresses the parties have: as long as SHA-256 does not
collide on the two preimages, equal identifiers come from equal arguments. -/
theorem transferIdFor_binds (host : Host ScAddress) (hxdr : host.toXdr = ScAddress.toXdr)
    (fromAddr toAddr fromAddr' toAddr' : ScAddress) (nonce nonce' : BytesN 32)
    (amount amount' : I128)
    (hsha : host.NoCollision
      [⟨fromAddr, toAddr, nonce, amount⟩, ⟨fromAddr', toAddr', nonce', amount'⟩])
    (auth auth' : ScAddress → Bool) (env env' : Env ScAddress) :
    (exec (transferIdFor fromAddr toAddr nonce amount) ⟨host, auth⟩ env).1 =
        (exec (transferIdFor fromAddr' toAddr' nonce' amount') ⟨host, auth'⟩ env').1 ↔
      fromAddr = fromAddr' ∧ toAddr = toAddr' ∧ nonce = nonce' ∧ amount = amount' := by
  have hprefix : host.XdrPrefixFree := by
    unfold Host.XdrPrefixFree
    rw [hxdr]
    exact ScAddress.toXdr_prefixFree
  rw [transferIdFor_exec, transferIdFor_exec]
  constructor
  · intro h
    have hid : host.idOf ⟨fromAddr, toAddr, nonce, amount⟩ =
        host.idOf ⟨fromAddr', toAddr', nonce', amount'⟩ := Except.ok.inj h
    have heq := Host.idOf_injOn hprefix hsha List.mem_cons_self
      (List.mem_cons_of_mem _ List.mem_cons_self) hid
    cases heq
    exact ⟨rfl, rfl, rfl, rfl⟩
  · rintro ⟨rfl, rfl, rfl, rfl⟩
    rfl

/-- A negative amount from an account to a contract and the same amount the other way round have
different identifiers. -/
theorem swapped_parties_change_id :
    let amount : I128 := ⟨-5, by decide, by decide⟩
    let nonce : BytesN 32 := .replicate 32 7
    let frame : Frame ScAddress := ⟨soroban, fun _ => true⟩
    (exec (transferIdFor Sample.alice Sample.bob nonce amount) frame .empty).1 ≠
      (exec (transferIdFor Sample.bob Sample.alice nonce amount) frame .empty).1 := by
  intro amount nonce frame h
  have hsha : soroban.NoCollision
      [⟨Sample.alice, Sample.bob, nonce, amount⟩, ⟨Sample.bob, Sample.alice, nonce, amount⟩] := by
    decide +kernel
  have heq := (transferIdFor_binds soroban rfl _ _ _ _ _ _ _ _ hsha _ _ _ _).1 h
  exact absurd heq.1 (by decide)

/-! ## Steps -/

variable [DecidableEq Address]

section Steps

variable {host : Host Address} {auth : Address → Bool} {env env' : Env Address}
  {call : Call Address} {r : Reply Address}

/-- A successful call that is no transfer leaves the `Transfer` entries and the events alone. -/
theorem Succeeds.of_transfer?_eq_none (h : Succeeds ⟨host, auth⟩ env call r env')
    (hcall : call.transfer? = none) :
    (∀ id, env'.lookup (.transfer id) = env.lookup (.transfer id)) ∧ env'.events = env.events := by
  have hkey : ∀ id, .transfer id ∉ call.writes host := by
    intro id
    cases call with
    | confidentialTransfer f t proof =>
      obtain ⟨mock⟩ := proof
      cases hcall
    | _ => simp [Call.writes]
  refine ⟨fun id => h.lookup_eq (hkey id), ?_⟩
  cases h with
  | confidentialTransfer => cases hcall
  | _ => rfl

/-- A successful transfer returns its identifier, writes its record and publishes its event. -/
theorem Succeeds.of_transfer?_eq_some (h : Succeeds ⟨host, auth⟩ env call r env')
    {t : Transfer Address} (hcall : call.transfer? = some t) :
    r = .transferId (host.idOf t) ∧
      (∀ id, env'.lookup (.transfer id) =
        if id = host.idOf t then some (host.recordOf t) else env.lookup (.transfer id)) ∧
      env'.events = env.events ++ [host.eventOf t] := by
  cases h with
  | confidentialTransfer hinit hauth hpos hid =>
    cases hcall
    subst hid
    exact ⟨rfl, lookup_transferred_transfer _ _ _ _ _ _, rfl⟩
  | _ => cases hcall

end Steps

/-! ## Runs -/

/-- The transfers among successful calls, in order. -/
def transfersIn (l : List (Invocation Address × Reply Address)) : List (Transfer Address) :=
  l.filterMap fun s => s.1.call.transfer?

/-- The successful transfers of a run from empty storage. -/
def transfersOf (host : Host Address) (invs : List (Invocation Address)) :
    List (Transfer Address) :=
  transfersIn (successesOf host invs)

omit [DecidableEq Address] in
theorem transfersIn_concat_none {l : List (Invocation Address × Reply Address)}
    {inv : Invocation Address} {r : Reply Address} (h : inv.call.transfer? = none) :
    transfersIn (l ++ [(inv, r)]) = transfersIn l := by
  simp [transfersIn, h]

omit [DecidableEq Address] in
theorem transfersIn_concat_some {l : List (Invocation Address × Reply Address)}
    {inv : Invocation Address} {r : Reply Address} {t : Transfer Address}
    (h : inv.call.transfer? = some t) :
    transfersIn (l ++ [(inv, r)]) = transfersIn l ++ [t] := by
  simp [transfersIn, h]

/-- The `Transfer` entries come from the transfers `ts`, and each of these has one. -/
structure TransferEntries (host : Host Address) (ts : List (Transfer Address))
    (env : Env Address) : Prop where
  exists_transfer : ∀ {id r}, env.lookup (.transfer id) = some r →
    ∃ t ∈ ts, host.idOf t = id ∧ host.recordOf t = r
  exists_record : ∀ {t}, t ∈ ts → ∃ r, env.lookup (.transfer (host.idOf t)) = some r

namespace TransferEntries

variable {host : Host Address} {env env' : Env Address}

theorem empty (host : Host Address) : TransferEntries host [] .empty := by
  refine ⟨fun h => ?_, fun h => ?_⟩
  · rw [Env.lookup_empty] at h
    cases h
  · cases h

theorem succeeds {l : List (Invocation Address × Reply Address)} {inv : Invocation Address}
    {r : Reply Address} (h : TransferEntries host (transfersIn l) env)
    (hs : Succeeds ⟨host, inv.auth⟩ env inv.call r env') :
    TransferEntries host (transfersIn (l ++ [(inv, r)])) env' := by
  cases hcall : inv.call.transfer? with
  | none =>
    obtain ⟨hlookup, -⟩ := hs.of_transfer?_eq_none hcall
    rw [transfersIn_concat_none hcall]
    exact ⟨fun hr => h.exists_transfer (hlookup _ ▸ hr), fun ht => hlookup _ ▸ h.exists_record ht⟩
  | some t =>
    obtain ⟨-, hlookup, -⟩ := hs.of_transfer?_eq_some hcall
    rw [transfersIn_concat_some hcall]
    refine ⟨fun {id r} hr => ?_, fun {u} hu => ?_⟩
    · rw [hlookup] at hr
      split at hr
      · next hid =>
        exact ⟨t, List.mem_append_right _ (List.mem_singleton_self t), hid.symm, Option.some.inj hr⟩
      · obtain ⟨u, hu, hid, hr⟩ := h.exists_transfer hr
        exact ⟨u, List.mem_append_left _ hu, hid, hr⟩
    · rw [hlookup]
      split
      · exact ⟨_, rfl⟩
      · next hid =>
        rcases List.mem_append.1 hu with hu | hu
        · exact h.exists_record hu
        · rw [List.mem_singleton.1 hu] at hid
          exact absurd rfl hid

end TransferEntries

theorem transferEntries_runOf (host : Host Address) (invs : List (Invocation Address)) :
    TransferEntries host (transfersOf host invs) (runOf host invs) :=
  successesOf_induction (P := fun l env => TransferEntries host (transfersIn l) env) (.empty host)
    (fun _ _ _ _ _ h hs => h.succeeds hs) invs

/-- Without a collision, an identifier has an entry exactly when a successful transfer has it, and
the entry is the record of that transfer. -/
theorem lookup_transfer_iff {host : Host Address} (hxdr : host.XdrPrefixFree)
    {invs : List (Invocation Address)} (hsha : host.NoCollision (transfersOf host invs))
    {id : BytesN 32} {r : TransferRecord Address} :
    (runOf host invs).lookup (.transfer id) = some r ↔
      ∃ t ∈ transfersOf host invs, host.idOf t = id ∧ host.recordOf t = r := by
  have hentries := transferEntries_runOf host invs
  refine ⟨hentries.exists_transfer, ?_⟩
  intro h
  obtain ⟨t, ht, rfl, rfl⟩ := h
  obtain ⟨r, hr⟩ := hentries.exists_record ht
  obtain ⟨u, hu, hid, rfl⟩ := hentries.exists_transfer hr
  obtain rfl := Host.idOf_injOn hxdr hsha hu ht hid
  exact hr

/-! ## Continuations -/

theorem successesOf_append (host : Host Address) (before after : List (Invocation Address)) :
    successesOf host (before ++ after) =
      successesOf host before ++
        History.successes ((shield host).trace (runOf host before) after) := by
  unfold successesOf historyOf History.successes
  rw [Machine.trace_append, List.filterMap_append]
  rfl

theorem transfersOf_append (host : Host Address) (before after : List (Invocation Address)) :
    transfersOf host (before ++ after) =
      transfersOf host before ++
        transfersIn (History.successes ((shield host).trace (runOf host before) after)) := by
  unfold transfersOf transfersIn
  rw [successesOf_append, List.filterMap_append]

/-- A run keeps the entry of every transfer made before it. -/
theorem lookup_transfer_of_prefix {host : Host Address} (hxdr : host.XdrPrefixFree)
    {before after : List (Invocation Address)}
    (hsha : host.NoCollision (transfersOf host (before ++ after))) {id : BytesN 32}
    {r : TransferRecord Address} (h : (runOf host before).lookup (.transfer id) = some r) :
    (runOf host (before ++ after)).lookup (.transfer id) = some r := by
  obtain ⟨t, ht, hid, hr⟩ := (transferEntries_runOf host before).exists_transfer h
  refine (lookup_transfer_iff hxdr hsha).2 ⟨t, ?_, hid, hr⟩
  rw [transfersOf_append]
  exact List.mem_append_left _ ht

/-- Transfer records are immutable: a run that goes on keeps the record under an identifier, which
carries that identifier, whatever transfers it makes. -/
theorem transfer_record_immutable (host : Host Address) (hxdr : host.XdrPrefixFree)
    (before after : List (Invocation Address))
    (hsha : host.NoCollision (transfersOf host (before ++ after))) (id : BytesN 32)
    (r : TransferRecord Address) (h : (runOf host before).lookup (.transfer id) = some r) :
    r.transferId = id ∧ (runOf host (before ++ after)).lookup (.transfer id) = some r := by
  obtain ⟨t, -, hid, hr⟩ := (transferEntries_runOf host before).exists_transfer h
  exact ⟨hr ▸ hid, lookup_transfer_of_prefix hxdr hsha h⟩

/-- Alice's transfer to Bob is still on record after a replay of it and a transfer of another amount
with the same nonce. -/
theorem record_survives_replay :
    let before : List (Invocation ScAddress) :=
      [⟨.initializePool Sample.bob, fun _ => true⟩,
        ⟨.deposit Sample.alice (Sample.amount 100), fun _ => true⟩,
        ⟨.confidentialTransfer Sample.alice Sample.bob (Sample.proof 30 7), fun _ => true⟩]
    let after : List (Invocation ScAddress) :=
      [⟨.confidentialTransfer Sample.alice Sample.bob (Sample.proof 30 7), fun _ => true⟩,
        ⟨.confidentialTransfer Sample.alice Sample.bob (Sample.proof 20 7), fun _ => true⟩]
    let t : Transfer ScAddress :=
      ⟨Sample.alice, Sample.bob, .replicate 32 7, Sample.amount 30⟩
    (runOf soroban (before ++ after)).lookup (.transfer (soroban.idOf t)) =
      some (soroban.recordOf t) := by
  intro before after t
  have hsha : soroban.NoCollision (transfersOf soroban (before ++ after)) := by decide +kernel
  have hrec : (runOf soroban before).lookup (.transfer (soroban.idOf t)) =
      some (soroban.recordOf t) := by decide +kernel
  exact (transfer_record_immutable soroban soroban_xdrPrefixFree before after hsha
    (soroban.idOf t) (soroban.recordOf t) hrec).2

/-! ## Events -/

/-- The event that announces a successful call: a transfer, by its parties and the identifier it
returned. -/
def announced : Invocation Address × Reply Address → Option (Event Address)
  | (⟨.confidentialTransfer fromAddr toAddr _, _⟩, .transferId id) =>
    some ⟨("transfer", fromAddr, toAddr), id⟩
  | _ => none

theorem Succeeds.announced_eq {host : Host Address} {env env' : Env Address}
    {inv : Invocation Address} {r : Reply Address}
    (h : Succeeds ⟨host, inv.auth⟩ env inv.call r env') :
    announced (inv, r) = inv.call.transfer?.map host.eventOf := by
  obtain ⟨call, auth⟩ := inv
  cases h with
  | confidentialTransfer hinit hauth hpos hid =>
    subst hid
    rfl
  | _ => rfl

/-- The events of a run announce its successful calls in order, and are the events of its successful
transfers. -/
theorem events_runOf (host : Host Address) (invs : List (Invocation Address)) :
    (runOf host invs).events = (successesOf host invs).filterMap announced ∧
      (runOf host invs).events = (transfersOf host invs).map host.eventOf := by
  refine successesOf_induction (P := fun l env => env.events = l.filterMap announced ∧
    env.events = (transfersIn l).map host.eventOf) ⟨rfl, rfl⟩
    (fun l env inv r env' hP hs => ?_) invs
  rw [List.filterMap_append]
  cases hcall : inv.call.transfer? with
  | none =>
    obtain ⟨-, hevents⟩ := hs.of_transfer?_eq_none hcall
    rw [transfersIn_concat_none hcall, hevents]
    simp [hs.announced_eq, hcall, ← hP.1, hP.2]
  | some t =>
    obtain ⟨-, -, hevents⟩ := hs.of_transfer?_eq_some hcall
    rw [transfersIn_concat_some hcall, hevents]
    simp [hs.announced_eq, hcall, ← hP.1, hP.2]

/-- Every successful transfer returned its identifier. -/
theorem reply_of_transfer {host : Host Address} {invs : List (Invocation Address)}
    {s : Invocation Address × Reply Address} (hs : s ∈ successesOf host invs)
    {t : Transfer Address} (hcall : s.1.call.transfer? = some t) :
    s.2 = .transferId (host.idOf t) := by
  obtain ⟨env, env', hsucc⟩ := exists_succeeds_of_mem hs
  exact (hsucc.of_transfer?_eq_some hcall).1

/-- The event stream and the `Transfer` entries agree after every run: one event for each successful
transfer, in order, and none for any other call; every event's identifier is on record with the
event's parties, and every record's identifier was announced. -/
theorem events_agree_with_records (host : Host Address) (hxdr : host.XdrPrefixFree)
    (invs : List (Invocation Address)) (hsha : host.NoCollision (transfersOf host invs)) :
    (runOf host invs).events = (successesOf host invs).filterMap announced ∧
    (∀ s ∈ successesOf host invs,
      (∃ f t proof, s.1.call = .confidentialTransfer f t proof) ↔ (announced s).isSome = true) ∧
    (∀ event ∈ (runOf host invs).events,
      ∃ r, (runOf host invs).lookup (.transfer event.data) = some r ∧
        r.transferId = event.data ∧ event.topics = ("transfer", r.fromAddr, r.toAddr)) ∧
    ∀ id r, (runOf host invs).lookup (.transfer id) = some r →
      ∃ event ∈ (runOf host invs).events, event.data = id := by
  obtain ⟨hannounced, hevents⟩ := events_runOf host invs
  refine ⟨hannounced, ?_, ?_, ?_⟩
  · intro s hs
    obtain ⟨⟨call, auth⟩, r⟩ := s
    cases call with
    | confidentialTransfer f t proof =>
      obtain ⟨mock⟩ := proof
      have hr : r = .transferId (host.idOf ⟨f, t, mock.nonce, mock.amount⟩) :=
        reply_of_transfer hs rfl
      subst hr
      exact ⟨fun _ => rfl, fun _ => ⟨f, t, .mock mock, rfl⟩⟩
    | _ =>
      refine ⟨fun h => ?_, fun h => ?_⟩
      · obtain ⟨f, t, proof, hcall⟩ := h
        cases hcall
      · cases h
  · intro event hmem
    rw [hevents] at hmem
    obtain ⟨t, ht, rfl⟩ := List.mem_map.1 hmem
    exact ⟨host.recordOf t, (lookup_transfer_iff hxdr hsha).2 ⟨t, ht, rfl, rfl⟩, rfl, rfl⟩
  · intro id r hr
    obtain ⟨t, ht, hid, -⟩ := (lookup_transfer_iff hxdr hsha).1 hr
    rw [hevents]
    exact ⟨host.eventOf t, List.mem_map_of_mem ht, hid⟩

/-- A failed transfer between two transfers leaves no event, and what is announced is on record. -/
theorem announced_transfer_on_record :
    let invs : List (Invocation ScAddress) :=
      [⟨.initializePool Sample.bob, fun _ => true⟩,
        ⟨.deposit Sample.alice (Sample.amount 100), fun _ => true⟩,
        ⟨.confidentialTransfer Sample.alice Sample.bob (Sample.proof 30 7), fun _ => true⟩,
        ⟨.confidentialTransfer Sample.alice Sample.bob (Sample.proof 500 8), fun _ => true⟩,
        ⟨.confidentialTransfer Sample.bob Sample.alice (Sample.proof 10 9), fun _ => true⟩]
    (runOf soroban invs).events.length = 2 ∧
    ∀ event ∈ (runOf soroban invs).events,
      ∃ r, (runOf soroban invs).lookup (.transfer event.data) = some r ∧
        r.transferId = event.data ∧ event.topics = ("transfer", r.fromAddr, r.toAddr) := by
  intro invs
  have hsha : soroban.NoCollision (transfersOf soroban invs) := by decide +kernel
  obtain ⟨-, -, hrecord, -⟩ := events_agree_with_records soroban soroban_xdrPrefixFree invs hsha
  exact ⟨by decide +kernel, hrecord⟩

end PrivacyShield.Contract
