import PrivacyShield.Verify.Success

/-!
# What a run leaves behind

Everything in storage is there because of a call that succeeded. The successful updates of a run are
a journal of it: on their own they succeed again, with the same replies, and end in the same
environment. And the entries in storage are exactly those that successful calls added, none of which
is ever deleted.
-/

namespace PrivacyShield.Contract

open PrivacyShield.Lib

variable {Address : Type} [DecidableEq Address]

/-! ## Replaying a run -/

/-- The calls that only ask. -/
def Call.isQuery : Call Address → Bool
  | .balance _ | .verifyDisclosure _ => true
  | _ => false

/-- The updates of a history: the calls that succeeded, without those that only ask. -/
def History.updates (h : History Address) : History Address :=
  h.filter fun e => e.2.isOk && !e.1.call.isQuery

/-- The updates of a run, to be called again. -/
def journalOf (host : Host Address) (invs : List (Invocation Address)) :
    List (Invocation Address) :=
  (historyOf host invs).updates.map Prod.fst

theorem Succeeds.of_isQuery {frame : Frame Address} {env env' : Env Address}
    {call : Call Address} {r : Reply Address} (h : Succeeds frame env call r env')
    (hquery : call.isQuery = true) : env' = env := by
  cases h with
  | balance => rfl
  | verifyDisclosure => rfl
  | _ => cases hquery

/-- Only an update changes anything. -/
theorem step_eq_of_not_update {host : Host Address} {env : Env Address}
    {inv : Invocation Address}
    (h : (((shield host).step env inv).1.isOk && !inv.call.isQuery) = false) :
    ((shield host).step env inv).2 = env := by
  rcases step_cases host env inv with ⟨r, env', hstep, hs⟩ | ⟨f, hstep, -⟩
  · rw [hstep] at h ⊢
    refine hs.of_isQuery ?_
    simpa [Except.isOk, Except.toBool] using h
  · rw [hstep]

/-- A run can be replayed from its updates: on their own they all succeed again with the same
replies, and the storage and the events are the same at the end. So two runs with the same updates
end alike, whatever else was asked or tried in them. -/
theorem journal_replays (host : Host Address) (invs : List (Invocation Address)) :
    historyOf host (journalOf host invs) = (historyOf host invs).updates ∧
    runOf host (journalOf host invs) = runOf host invs ∧
    ∀ invs', journalOf host invs' = journalOf host invs → runOf host invs' = runOf host invs := by
  have hreplay : ∀ invs, historyOf host (journalOf host invs) = (historyOf host invs).updates ∧
      runOf host (journalOf host invs) = runOf host invs := fun invs =>
    Machine.replay (M := shield host) _ (fun _ _ h => step_eq_of_not_update h) Env.empty invs
  obtain ⟨hhistory, hrun⟩ := hreplay invs
  refine ⟨hhistory, hrun, fun invs' hsame => ?_⟩
  rw [← (hreplay invs').2, hsame, hrun]

/-! ## The entries of a run -/

/-- The entries that a successful call may add. What a withdrawal or the sender's side of a transfer
writes is there already. -/
def Call.adds (host : Host Address) : Call Address → List (DataKey Address)
  | .initializePool _ => [.assetContract]
  | .deposit depositor _ => [.account depositor]
  | .confidentialTransfer fromAddr toAddr (.mock mock) =>
    [.account toAddr, .transfer (host.transferId fromAddr toAddr mock.nonce mock.amount)]
  | .recordDisclosureRequest _ key => [.disclosure key.transferId]
  | _ => []

theorem Env.isSome_lookup_put (env : Env Address) (key key' : DataKey Address)
    (value : key.Value) :
    ((env.put key value).lookup key').isSome = true ↔
      (env.lookup key').isSome = true ∨ key' = key := by
  by_cases hkey : key' = key
  · subst hkey
    simp
  · simp [hkey]

/-- Writing an entry that is there adds nothing. -/
theorem Env.isSome_lookup_or_of_lookup {env : Env Address} {key : DataKey Address}
    {value : key.Value} (h : env.lookup key = some value) (key' : DataKey Address) :
    (env.lookup key').isSome = true ∨ key' = key ↔ (env.lookup key').isSome = true := by
  refine or_iff_left_of_imp fun hkey => ?_
  rw [hkey, h]
  rfl

/-- A successful call adds its entries and deletes none. -/
theorem Succeeds.isSome_lookup {frame : Frame Address} {env env' : Env Address}
    {call : Call Address} {r : Reply Address} (h : Succeeds frame env call r env')
    (key : DataKey Address) :
    (env'.lookup key).isSome = true ↔
      (env.lookup key).isSome = true ∨ key ∈ call.adds frame.host := by
  cases h with
  | withdraw hinit hauth hpos hacc =>
    rw [Env.isSome_lookup_put, Env.isSome_lookup_or_of_lookup hacc]
    exact (or_iff_left List.not_mem_nil).symm
  | confidentialTransfer hinit hauth hpos hid hacc =>
    rw [Env.transferred, Env.lookup_emit, Env.isSome_lookup_put, Env.isSome_lookup_put,
      Env.isSome_lookup_put, Env.isSome_lookup_or_of_lookup hacc, Call.adds, ← hid, List.mem_pair,
      or_assoc]
  | balance => simp [Call.adds]
  | verifyDisclosure => simp [Call.adds]
  | _ => simp [Env.isSome_lookup_put, Call.adds]

/-- The entries after a run are those that its successful calls added. -/
theorem isSome_lookup_runOf (host : Host Address) (invs : List (Invocation Address))
    (key : DataKey Address) :
    ((runOf host invs).lookup key).isSome = true ↔
      ∃ s ∈ successesOf host invs, key ∈ s.1.call.adds host := by
  refine successesOf_induction (P := fun l env => (env.lookup key).isSome = true ↔
    ∃ s ∈ l, key ∈ s.1.call.adds host) ?_ (fun l env inv r env' hP hs => ?_) invs
  · simp
  · rw [hs.isSome_lookup, hP]
    simp [or_and_right, exists_or]

/-- A continuation keeps the entries that are there. -/
theorem isSome_lookup_of_prefix (host : Host Address) (before after : List (Invocation Address))
    {key : DataKey Address} (h : ((runOf host before).lookup key).isSome = true) :
    ((runOf host (before ++ after)).lookup key).isSome = true := by
  rw [runOf_append]
  exact run_preserves (C := fun _ => True) (P := fun env => (env.lookup key).isSome = true)
    (fun env inv r env' _ hsome hs => (hs.isSome_lookup key).2 (.inl hsome)) h fun _ _ => trivial

/-- After every run storage holds exactly the entries that the successful calls of the run added, at
most as many as these calls may add; and every continuation keeps them. -/
theorem storage_entries_runOf (host : Host Address) (invs : List (Invocation Address)) :
    (runOf host invs).storage.keys =
      ((successesOf host invs).flatMap fun s => s.1.call.adds host).toFinset ∧
    (runOf host invs).storage.keys.card ≤
      ((successesOf host invs).map fun s => (s.1.call.adds host).length).sum ∧
    ∀ after, (runOf host invs).storage.keys ⊆ (runOf host (invs ++ after)).storage.keys := by
  have hkeys : ∀ invs, (runOf host invs).storage.keys =
      ((successesOf host invs).flatMap fun s => s.1.call.adds host).toFinset := by
    intro invs
    ext key
    rw [Finmap.mem_keys, ← Finmap.lookup_isSome, List.mem_toFinset, List.mem_flatMap]
    exact isSome_lookup_runOf host invs key
  refine ⟨hkeys invs, ?_, fun after key hkey => ?_⟩
  · rw [hkeys, ← List.length_flatMap]
    exact List.toFinset_card_le _
  · rw [Finmap.mem_keys, ← Finmap.lookup_isSome] at hkey ⊢
    exact isSome_lookup_of_prefix host invs after hkey

end PrivacyShield.Contract
