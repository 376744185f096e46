import PrivacyShield.Verify.Accounts
import PrivacyShield.Verify.Disclosures
import PrivacyShield.Verify.Guards
import PrivacyShield.Verify.Replay

/-!
# The reachable environments

`Consistent host ts env` says of an environment, without any run, what the transfers `ts` explain in
it. It is the strongest invariant of the contract: a run leads exactly to the environments that are
empty or consistent with some transfers (`reachable_iff`). So nothing else relates the entries to
each other. In particular the balances are arbitrary: they bear no relation to the transfers on
record, and their sum has no bound.
-/

namespace PrivacyShield.Contract

open PrivacyShield.Lib

variable {Address : Type}

/-- A transfer that can be made from some balance. One to its own sender needs room for its amount
on top of the balance that covers it. -/
structure Transfer.Payable (t : Transfer Address) : Prop where
  pos : 0 < t.amount.toInt
  room : t.fromAddr = t.toAddr → 2 * t.amount.toInt < 2 ^ 127

namespace Host

variable (host : Host Address) {ts : List (Transfer Address)} {t : Transfer Address}
  {id : BytesN 32}

/-- The last of the transfers that has an identifier. -/
def lastWith (ts : List (Transfer Address)) (id : BytesN 32) : Option (Transfer Address) :=
  ts.reverse.find? fun t => host.idOf t = id

theorem lastWith_concat :
    host.lastWith (ts ++ [t]) id = if id = host.idOf t then some t else host.lastWith ts id := by
  unfold lastWith
  rw [List.reverse_append, List.reverse_singleton, List.singleton_append, List.find?_cons]
  by_cases hid : id = host.idOf t
  · simp [hid]
  · simp [hid, Ne.symm hid]

theorem mem_of_lastWith {host : Host Address} (h : host.lastWith ts id = some t) :
    t ∈ ts ∧ host.idOf t = id := by
  refine ⟨List.mem_reverse.1 (List.mem_of_find?_eq_some h), ?_⟩
  simpa using List.find?_some h

end Host

variable [DecidableEq Address] {host : Host Address} {ts : List (Transfer Address)}
  {env env' : Env Address}

/-- The environment of an initialized contract that announced the transfers `ts`. A disclosure may
be of any transfer with its identifier, not only of the one on record. -/
structure Consistent (host : Host Address) (ts : List (Transfer Address)) (env : Env Address) :
    Prop where
  initialized : env.Initialized
  wellFormed : env.WellFormed
  payable : ∀ t ∈ ts, t.Payable
  parties : ∀ t ∈ ts, (env.lookup (.account t.fromAddr)).isSome = true ∧
    (env.lookup (.account t.toAddr)).isSome = true
  transfer : ∀ id, env.lookup (.transfer id) = (host.lastWith ts id).map host.recordOf
  disclosure : ∀ id d, env.lookup (.disclosure id) = some d →
    ∃ t ∈ ts, ∃ vk, host.idOf t = id ∧ d = host.disclosureOf t vk
  events : env.events = ts.map host.eventOf

/-! ## Every run leads to a consistent environment -/

section Succeeds

variable {auth : Address → Bool} {call : Call Address} {r : Reply Address} {t : Transfer Address}

theorem Succeeds.payable (h : Succeeds ⟨host, auth⟩ env call r env')
    (hcall : call.transfer? = some t) : t.Payable := by
  cases h with
  | @confidentialTransfer fromAddr toAddr mock _ fromAccount fromAccount' toAccount' hinit hauth
      hpos hid hacc hle hfrom hsub hto hadd =>
    cases hcall
    refine ⟨hpos, fun hself => ?_⟩
    dsimp only at hself
    subst hself
    rw [accountOr_of_lookup hacc] at hadd
    have hup := toAccount'.balance.upper
    dsimp only
    omega
  | _ => cases hcall

/-- Both parties of a successful transfer have an account afterwards. -/
theorem Succeeds.parties (h : Succeeds ⟨host, auth⟩ env call r env')
    (hcall : call.transfer? = some t) :
    (env'.lookup (.account t.fromAddr)).isSome = true ∧
      (env'.lookup (.account t.toAddr)).isSome = true := by
  rw [h.isSome_lookup, h.isSome_lookup]
  cases h with
  | confidentialTransfer hinit hauth hpos hid hacc =>
    cases hcall
    rw [hacc]
    exact ⟨.inl rfl, .inr List.mem_cons_self⟩
  | _ => cases hcall

end Succeeds

/-- An initialized contract has no other entries yet. -/
theorem lookup_put_empty_of_ne (assetContract : Address) {key : DataKey Address}
    (hkey : key ≠ .assetContract) :
    ((Env.empty : Env Address).put .assetContract assetContract).lookup key = none := by
  rw [Env.lookup_put_of_ne _ _ hkey, Env.lookup_empty]

namespace Consistent

theorem initial (host : Host Address) (assetContract : Address) :
    Consistent host [] ((Env.empty : Env Address).put .assetContract assetContract) := by
  refine ⟨?_, ?_, ?_, ?_, fun id => lookup_put_empty_of_ne _ (by simp), fun id d hd => ?_, rfl⟩
  · rw [Env.Initialized, Env.lookup_put_self]
    rfl
  · exact Env.WellFormed.empty.of_lookup_eq fun a =>
      (lookup_put_empty_of_ne _ (by simp)).trans (Env.lookup_empty _).symm
  · exact fun t ht => absurd ht List.not_mem_nil
  · exact fun t ht => absurd ht List.not_mem_nil
  · rw [lookup_put_empty_of_ne _ (by simp)] at hd
    cases hd

section Step

variable {inv : Invocation Address} {r : Reply Address}

theorem disclosure_succeeds (h : Consistent host ts env)
    (hs : Succeeds ⟨host, inv.auth⟩ env inv.call r env') {id : BytesN 32}
    {d : DisclosureRecord Address} (hd : env'.lookup (.disclosure id) = some d) :
    ∃ t ∈ ts, ∃ vk, host.idOf t = id ∧ d = host.disclosureOf t vk := by
  rcases hs.disclosure_cases id with ⟨-, hsame⟩ | ⟨vk, record, -, hrec, -, hnew⟩
  · exact h.disclosure id d (hsame ▸ hd)
  · -- the copy is of the record of the last transfer with the identifier
    rw [h.transfer] at hrec
    obtain ⟨t, hlast, rfl⟩ := Option.map_eq_some_iff.1 hrec
    obtain ⟨ht, hid⟩ := Host.mem_of_lastWith hlast
    refine ⟨t, ht, vk, hid, ?_⟩
    rw [hnew] at hd
    rw [← Option.some.inj hd, ← hid]
    rfl

theorem parties_succeeds (h : Consistent host ts env)
    (hs : Succeeds ⟨host, inv.auth⟩ env inv.call r env') :
    ∀ t ∈ ts, (env'.lookup (.account t.fromAddr)).isSome = true ∧
      (env'.lookup (.account t.toAddr)).isSome = true := by
  intro t ht
  obtain ⟨hfrom, hto⟩ := h.parties t ht
  exact ⟨(hs.isSome_lookup _).2 (.inl hfrom), (hs.isSome_lookup _).2 (.inl hto)⟩

/-- A successful call keeps the environment consistent, a transfer with itself at the end. -/
theorem succeeds (h : Consistent host ts env)
    (hs : Succeeds ⟨host, inv.auth⟩ env inv.call r env') :
    Consistent host (ts ++ inv.call.transfer?.toList) env' := by
  cases hcall : inv.call.transfer? with
  | none =>
    obtain ⟨hlookup, hevents⟩ := hs.of_transfer?_eq_none hcall
    rw [Option.toList_none, List.append_nil]
    exact ⟨hs.initialized h.initialized, h.wellFormed.succeeds hs, h.payable,
      h.parties_succeeds hs, fun id => (hlookup id).trans (h.transfer id),
      fun id d hd => h.disclosure_succeeds hs hd, hevents.trans h.events⟩
  | some t =>
    obtain ⟨-, hlookup, hevents⟩ := hs.of_transfer?_eq_some hcall
    rw [Option.toList_some]
    refine ⟨hs.initialized h.initialized, h.wellFormed.succeeds hs, fun u hu => ?_,
      fun u hu => ?_, fun id => ?_, fun id d hd => ?_, ?_⟩
    · rcases List.mem_append.1 hu with hu | hu
      · exact h.payable u hu
      · rw [List.mem_singleton.1 hu]
        exact hs.payable hcall
    · rcases List.mem_append.1 hu with hu | hu
      · exact h.parties_succeeds hs u hu
      · rw [List.mem_singleton.1 hu]
        exact hs.parties hcall
    · rw [hlookup, host.lastWith_concat, h.transfer]
      split
      · rfl
      · rfl
    · obtain ⟨u, hu, hdisclosed⟩ := h.disclosure_succeeds hs hd
      exact ⟨u, List.mem_append_left _ hu, hdisclosed⟩
    · rw [hevents, h.events, List.map_append]
      rfl

end Step

end Consistent

/-- Empty, or consistent with some transfers. -/
def Env.Admissible (host : Host Address) (env : Env Address) : Prop :=
  env = .empty ∨ ∃ ts, Consistent host ts env

theorem Env.Admissible.step (h : env.Admissible host) (inv : Invocation Address) :
    ((shield host).step env inv).2.Admissible host := by
  rcases step_cases host env inv with ⟨r, env', hstep, hs⟩ | ⟨f, hstep, -⟩
  · rw [hstep]
    rcases h with rfl | ⟨ts, hts⟩
    · by_cases hcall : ∃ assetContract, inv.call = .initializePool assetContract
      · obtain ⟨assetContract, hcall⟩ := hcall
        rw [hcall] at hs
        cases hs with
        | initializePool => exact .inr ⟨[], .initial host assetContract⟩
      · have hsame : env' = .empty :=
          hs.of_lookup_eq_none Env.lookup_empty fun assetContract heq => hcall ⟨_, heq⟩
        exact .inl hsame
    · exact .inr ⟨_, hts.succeeds hs⟩
  · rw [hstep]
    exact h

/-! ## Every consistent environment is reached

Everybody authorizes the calls of the runs below. A transfer is made with an amount that its sender
deposits for it and its recipient withdraws again, so that the accounts of the parties are empty
before and after it. -/

theorem Env.ext_lookup (hlookup : ∀ key, env.lookup key = env'.lookup key)
    (hevents : env.events = env'.events) : env = env' := by
  obtain ⟨storage, events⟩ := env
  obtain ⟨storage', events'⟩ := env'
  cases (Env.storage_ext hlookup : storage = storage')
  cases (hevents : events = events')
  rfl

theorem Env.put_put (key : DataKey Address) (value value' : key.Value) :
    (env.put key value).put key value' = env.put key value' := by
  unfold Env.put
  rw [Finmap.insert_insert]

/-- What the parties held before and between the writes of a transfer does not show at the end. -/
theorem put_transferred_put (fromAddr toAddr : Address)
    (acc acc' acc₀ acc₁ : ShieldedAccount Address) (id : BytesN 32) (amount : I128) :
    ((env.put (.account fromAddr) acc₀).transferred fromAddr toAddr acc acc₁ id amount).put
        (.account toAddr) acc' =
      env.transferred fromAddr toAddr acc acc' id amount := by
  refine Env.ext_lookup (fun key => ?_) rfl
  unfold Env.transferred
  by_cases hto : key = .account toAddr
  · subst hto
    simp
  · rw [Env.lookup_put_of_ne _ _ hto, Env.lookup_emit, Env.lookup_emit]
    by_cases hid : key = .transfer id
    · subst hid
      simp
    · rw [Env.lookup_put_of_ne _ _ hid, Env.lookup_put_of_ne _ _ hto,
        Env.lookup_put_of_ne _ _ hid, Env.lookup_put_of_ne _ _ hto, Env.put_put]

theorem accountOr_put_self (a : Address) (account : ShieldedAccount Address) :
    (env.put (.account a) account).accountOr a = account :=
  accountOr_of_lookup (Env.lookup_put_self _ _ _)

theorem Env.Initialized.put_account (h : env.Initialized) (a : Address)
    (account : ShieldedAccount Address) : (env.put (.account a) account).Initialized := by
  unfold Env.Initialized at h ⊢
  rwa [Env.lookup_put_of_ne _ _ (by simp)]

/-- The account of `a` is empty, if there is one. -/
def Env.EmptyAt (env : Env Address) (a : Address) : Prop := env.accountOr a = ⟨a, 0⟩

/-- The recipient has room for the amount of a transfer when the sender holds just that. -/
theorem exists_credited {t : Transfer Address} (ht : t.Payable) (hto : env.EmptyAt t.toAddr) :
    ∃ credited : I128, 0 < credited.toInt ∧
      t.toAddr =
        ((env.put (.account t.fromAddr) ⟨t.fromAddr, t.amount⟩).accountOr t.toAddr).owner ∧
      credited.toInt = ((env.put (.account t.fromAddr)
        ⟨t.fromAddr, t.amount⟩).accountOr t.toAddr).balance.toInt + t.amount.toInt := by
  have hpos := ht.pos
  by_cases hself : t.fromAddr = t.toAddr
  · have hroom := ht.room hself
    rw [← hself, accountOr_put_self]
    refine ⟨⟨2 * t.amount.toInt, by omega, hroom⟩, ?_, rfl, Int.two_mul _⟩
    dsimp only
    omega
  · have hsame : (env.put (.account t.fromAddr) ⟨t.fromAddr, t.amount⟩).accountOr t.toAddr =
        ⟨t.toAddr, 0⟩ := by
      rw [← hto, Env.accountOr, Env.lookup_put_of_ne _ _ (by simpa using Ne.symm hself)]
      rfl
    rw [hsame]
    exact ⟨t.amount, hpos, rfl, (Int.zero_add _).symm⟩

section Construct

variable (hreach : (shield host).Reachable .empty env)
include hreach

theorem reachable_of_succeeds {call : Call Address} {r : Reply Address}
    (hs : Succeeds ⟨host, fun _ => true⟩ env call r env') :
    (shield host).Reachable .empty env' := by
  have hnext := hreach.step ⟨call, fun _ => true⟩
  rwa [step_ok_iff.2 hs] at hnext

theorem reachable_withdraw_all (hinit : env.Initialized) {a : Address} {b : I128}
    (hacc : env.lookup (.account a) = some ⟨a, b⟩) (hpos : 0 < b.toInt) :
    (shield host).Reachable .empty (env.put (.account a) ⟨a, 0⟩) :=
  reachable_of_succeeds hreach
    (.withdraw hinit rfl hpos hacc (Int.le_refl _) rfl (Int.sub_self _).symm)

theorem reachable_deposit (hinit : env.Initialized) {a : Address} (hempty : env.EmptyAt a)
    {b : I128} (hpos : 0 < b.toInt) :
    (shield host).Reachable .empty (env.put (.account a) ⟨a, b⟩) := by
  refine reachable_of_succeeds hreach (.deposit hinit rfl hpos ?_ ?_)
  · rw [hempty]
  · rw [hempty]
    exact (Int.zero_add _).symm

/-- An account is opened with any balance. -/
theorem reachable_open (hinit : env.Initialized) {a : Address} (hempty : env.EmptyAt a) {b : I128}
    (hnonneg : 0 ≤ b.toInt) : (shield host).Reachable .empty (env.put (.account a) ⟨a, b⟩) := by
  by_cases hpos : 0 < b.toInt
  · exact reachable_deposit hreach hinit hempty hpos
  · have hzero : b = 0 := by
      apply SInt.ext
      change b.toInt = 0
      omega
    -- a unit goes in and out again
    have hone := reachable_deposit (b := ⟨1, by decide, by decide⟩) hreach hinit hempty (by decide)
    have hdrained := reachable_withdraw_all hone (hinit.put_account a _)
      (Env.lookup_put_self _ _ _) (by decide)
    rw [hzero]
    rwa [Env.put_put] at hdrained

/-- A transfer between empty accounts that are empty again afterwards. -/
theorem reachable_transfer (hinit : env.Initialized) {t : Transfer Address} (ht : t.Payable)
    (hfrom : env.EmptyAt t.fromAddr) (hto : env.EmptyAt t.toAddr) :
    (shield host).Reachable .empty (env.transferred t.fromAddr t.toAddr ⟨t.fromAddr, 0⟩
      ⟨t.toAddr, 0⟩ (host.idOf t) t.amount) := by
  obtain ⟨fromAddr, toAddr, nonce, amount⟩ := t
  have hpos : 0 < amount.toInt := ht.pos
  dsimp only at hfrom hto ⊢
  let funded : Env Address := env.put (.account fromAddr) ⟨fromAddr, amount⟩
  have hfunded : (shield host).Reachable .empty funded :=
    reachable_deposit hreach hinit hfrom hpos
  have hinit' : funded.Initialized := hinit.put_account _ _
  obtain ⟨credited, hcpos, howner, hadd⟩ := exists_credited ht hto
  have hs : Succeeds ⟨host, fun _ => true⟩ funded
      (.confidentialTransfer fromAddr toAddr (.mock ⟨amount, nonce⟩))
      (.transferId (host.idOf ⟨fromAddr, toAddr, nonce, amount⟩))
      (funded.transferred fromAddr toAddr ⟨fromAddr, 0⟩ ⟨toAddr, credited⟩
        (host.idOf ⟨fromAddr, toAddr, nonce, amount⟩) amount) :=
    .confidentialTransfer hinit' rfl hpos rfl (Env.lookup_put_self _ _ _) (Int.le_refl _) rfl
      (Int.sub_self _).symm howner hadd
  have hacc : (funded.transferred fromAddr toAddr ⟨fromAddr, 0⟩ ⟨toAddr, credited⟩
      (host.idOf ⟨fromAddr, toAddr, nonce, amount⟩) amount).lookup (.account toAddr) =
        some ⟨toAddr, credited⟩ := by
    rw [lookup_transferred_account, Env.lookup_put_self]
  have hdrained := reachable_withdraw_all (reachable_of_succeeds hfunded hs)
    (hs.initialized hinit') hacc hcpos
  rwa [put_transferred_put] at hdrained

/-- The sender discloses the transfer on record. -/
theorem reachable_disclose {t : Transfer Address} (vk : BytesN 32)
    (hrec : env.lookup (.transfer (host.idOf t)) = some (host.recordOf t)) :
    (shield host).Reachable .empty
      (env.put (.disclosure (host.idOf t)) (host.disclosureOf t vk)) := by
  have hs : Succeeds ⟨host, fun _ => true⟩ env
      (.recordDisclosureRequest t.fromAddr ⟨host.idOf t, vk⟩) .unit
      (env.put (.disclosure (host.idOf t)) (host.disclosureOf t vk)) :=
    @Succeeds.recordDisclosureRequest _ _ _ _ t.fromAddr ⟨host.idOf t, vk⟩ (host.recordOf t) rfl
      hrec (.inl rfl)
  exact reachable_of_succeeds hreach hs

end Construct

/-- On the way to a target, the transfers `ts` have been made, and what the target discloses of the
transfers `ds` is disclosed. The parties hold nothing yet. -/
structure Staged (host : Host Address) (target : Env Address) (ts ds : List (Transfer Address))
    (env : Env Address) : Prop where
  reachable : (shield host).Reachable .empty env
  asset : env.lookup .assetContract = target.lookup .assetContract
  account : ∀ {a account}, env.lookup (.account a) = some account →
    account = ⟨a, 0⟩ ∧ ∃ t ∈ ts, a = t.fromAddr ∨ a = t.toAddr
  transfer : ∀ id, env.lookup (.transfer id) = (host.lastWith ts id).map host.recordOf
  of_disclosure : ∀ {id d}, env.lookup (.disclosure id) = some d →
    target.lookup (.disclosure id) = some d
  disclosure : ∀ {t vk}, t ∈ ds →
    target.lookup (.disclosure (host.idOf t)) = some (host.disclosureOf t vk) →
    env.lookup (.disclosure (host.idOf t)) = some (host.disclosureOf t vk)
  events : env.events = ts.map host.eventOf

namespace Staged

variable {target : Env Address} {ds : List (Transfer Address)} {t : Transfer Address}

theorem emptyAt (h : Staged host target ts ds env) (a : Address) : env.EmptyAt a := by
  unfold Env.EmptyAt Env.accountOr
  cases hacc : env.lookup (.account a) with
  | none => rfl
  | some account => exact (h.account hacc).1

theorem initialized (h : Staged host target ts ds env) (htarget : target.Initialized) :
    env.Initialized := by
  unfold Env.Initialized
  rw [h.asset]
  exact htarget

theorem initial (host : Host Address) {assetContract : Address}
    (hasset : target.lookup .assetContract = some assetContract) :
    Staged host target [] [] ((Env.empty : Env Address).put .assetContract assetContract) := by
  refine ⟨?_, ?_, fun hacc => ?_, fun id => lookup_put_empty_of_ne _ (by simp), fun hd => ?_,
    fun ht => ?_, rfl⟩
  · exact reachable_of_succeeds (Machine.Reachable.refl _) (.initializePool (Env.lookup_empty _))
  · rw [hasset, Env.lookup_put_self]
  · rw [lookup_put_empty_of_ne _ (by simp)] at hacc
    cases hacc
  · rw [lookup_put_empty_of_ne _ (by simp)] at hd
    cases hd
  · cases ht

/-- One more transfer. -/
theorem pay (h : Staged host target ts ds env) (htarget : target.Initialized) (ht : t.Payable) :
    Staged host target (ts ++ [t]) ds (env.transferred t.fromAddr t.toAddr ⟨t.fromAddr, 0⟩
      ⟨t.toAddr, 0⟩ (host.idOf t) t.amount) := by
  have hother : ∀ key : DataKey Address, (∀ a, key ≠ .account a) → (∀ id, key ≠ .transfer id) →
      (env.transferred t.fromAddr t.toAddr ⟨t.fromAddr, 0⟩ ⟨t.toAddr, 0⟩ (host.idOf t)
        t.amount).lookup key = env.lookup key := by
    intro key haccount htransfer
    rw [Env.transferred, Env.lookup_emit, Env.lookup_put_of_ne _ _ (htransfer _),
      Env.lookup_put_of_ne _ _ (haccount _), Env.lookup_put_of_ne _ _ (haccount _)]
  refine ⟨?_, ?_, fun {a account} hacc => ?_, fun id => ?_, fun hd => ?_, fun hu hd => ?_, ?_⟩
  · exact reachable_transfer h.reachable (h.initialized htarget) ht (h.emptyAt _) (h.emptyAt _)
  · rw [hother _ (by simp) (by simp)]
    exact h.asset
  · have hlast : t ∈ ts ++ [t] := List.mem_append_right _ (List.mem_singleton_self t)
    rw [lookup_transferred_account] at hacc
    rcases lookup_put_account_cases hacc with ⟨rfl, rfl⟩ | hacc
    · exact ⟨rfl, t, hlast, .inr rfl⟩
    · rcases lookup_put_account_cases hacc with ⟨rfl, rfl⟩ | hacc
      · exact ⟨rfl, t, hlast, .inl rfl⟩
      · obtain ⟨hempty, u, hu, hparty⟩ := h.account hacc
        exact ⟨hempty, u, List.mem_append_left _ hu, hparty⟩
  · rw [lookup_transferred_transfer, host.lastWith_concat, h.transfer]
    split
    · rfl
    · rfl
  · rw [hother _ (by simp) (by simp)] at hd
    exact h.of_disclosure hd
  · rw [hother _ (by simp) (by simp)]
    exact h.disclosure hu hd
  · rw [List.map_append, ← h.events]
    rfl

/-- A transfer on record is disclosed, if the target discloses it. -/
theorem disclose (h : Staged host target ts ds env)
    (hlast : host.lastWith ts (host.idOf t) = some t) :
    ∃ env', Staged host target ts (ds ++ [t]) env' := by
  by_cases hdisclosed : ∃ vk,
      target.lookup (.disclosure (host.idOf t)) = some (host.disclosureOf t vk)
  · obtain ⟨vk, hvk⟩ := hdisclosed
    have hrec : env.lookup (.transfer (host.idOf t)) = some (host.recordOf t) := by
      rw [h.transfer, hlast]
      rfl
    refine ⟨_, reachable_disclose h.reachable vk hrec, ?_, fun hacc => ?_, fun id => ?_,
      fun {id d} hd => ?_, fun {u vk'} hu hd => ?_, h.events⟩
    · rw [Env.lookup_put_of_ne _ _ (by simp)]
      exact h.asset
    · rw [Env.lookup_put_of_ne _ _ (by simp)] at hacc
      exact h.account hacc
    · rw [Env.lookup_put_of_ne _ _ (by simp)]
      exact h.transfer id
    · by_cases hid : id = host.idOf t
      · subst hid
        rw [Env.lookup_put_self] at hd
        rw [hvk, hd]
      · rw [Env.lookup_put_of_ne _ _ (by simpa using hid)] at hd
        exact h.of_disclosure hd
    · by_cases hid : host.idOf u = host.idOf t
      · -- both are what the target holds under the identifier
        rw [hid] at hd ⊢
        rw [Env.lookup_put_self, ← hvk, hd]
      · rw [Env.lookup_put_of_ne _ _ (by simpa using hid)]
        rcases List.mem_append.1 hu with hu | hu
        · exact h.disclosure hu hd
        · exact absurd (congrArg host.idOf (List.mem_singleton.1 hu)) hid
  · refine ⟨env, h.reachable, h.asset, h.account, h.transfer, h.of_disclosure,
      fun {u vk} hu hd => ?_, h.events⟩
    rcases List.mem_append.1 hu with hu | hu
    · exact h.disclosure hu hd
    · obtain rfl := List.mem_singleton.1 hu
      exact absurd ⟨vk, hd⟩ hdisclosed

end Staged

theorem exists_staged (host : Host Address) {target : Env Address} (htarget : target.Initialized)
    (hpayable : ∀ t ∈ ts, t.Payable) : ∃ env, Staged host target ts ts env := by
  induction ts using List.reverseRecOn with
  | nil =>
    obtain ⟨assetContract, hasset⟩ := Option.isSome_iff_exists.1 htarget
    exact ⟨_, Staged.initial host hasset⟩
  | append_singleton ts t ih =>
    obtain ⟨env, hstaged⟩ := ih fun u hu => hpayable u (List.mem_append_left _ hu)
    have ht : t.Payable := hpayable t (List.mem_append_right _ (List.mem_singleton_self t))
    refine (hstaged.pay htarget ht).disclose ?_
    rw [host.lastWith_concat, if_pos rfl]

/-- The holders open their accounts, one after the other. -/
theorem Staged.fund {target : Env Address} (h : Staged host target ts ts env)
    (htarget : target.Initialized) (hwf : target.WellFormed) {holders : List Address}
    (hholders : ∀ a ∈ holders, (target.lookup (.account a)).isSome = true) :
    ∃ env', (shield host).Reachable .empty env' ∧ env'.events = env.events ∧
      (∀ a, env'.lookup (.account a) =
        if a ∈ holders then target.lookup (.account a) else env.lookup (.account a)) ∧
      ∀ key, (∀ a, key ≠ .account a) → env'.lookup key = env.lookup key := by
  induction holders with
  | nil => exact ⟨env, h.reachable, rfl, fun a => rfl, fun key _ => rfl⟩
  | cons a holders ih =>
    obtain ⟨env₁, hreach, hevents, haccount, hother⟩ :=
      ih fun b hb => hholders b (List.mem_cons_of_mem a hb)
    by_cases ha : a ∈ holders
    · refine ⟨env₁, hreach, hevents, fun b => ?_, hother⟩
      rw [haccount b]
      by_cases hb : b = a
      · rw [hb, if_pos ha, if_pos List.mem_cons_self]
      · simp only [List.mem_cons, hb, false_or]
    · obtain ⟨account, hacc⟩ := Option.isSome_iff_exists.1 (hholders a List.mem_cons_self)
      obtain ⟨owner, balance⟩ := account
      obtain rfl : owner = a := hwf.owner_eq hacc
      have hinit : env₁.Initialized := by
        unfold Env.Initialized
        rw [hother _ (by simp)]
        exact h.initialized htarget
      have hempty : env₁.EmptyAt owner := by
        unfold Env.EmptyAt Env.accountOr
        rw [haccount owner, if_neg ha]
        exact h.emptyAt owner
      refine ⟨_, reachable_open hreach hinit hempty (hwf.nonneg hacc), hevents, fun b => ?_,
        fun key hkey => ?_⟩
      · by_cases hb : b = owner
        · subst hb
          rw [Env.lookup_put_self, if_pos List.mem_cons_self, hacc]
        · rw [Env.lookup_put_of_ne _ _ (by simpa using hb), haccount b]
          simp only [List.mem_cons, hb, false_or]
      · rw [Env.lookup_put_of_ne _ _ (hkey owner)]
        exact hother key hkey

/-- The addresses that have an account. -/
theorem exists_holders (env : Env Address) :
    ∃ holders : List Address, ∀ a, a ∈ holders ↔ (env.lookup (.account a)).isSome = true := by
  let owner? : DataKey Address → Option Address
    | .account a => some a
    | _ => none
  refine ⟨env.storage.keys.toList.filterMap owner?, fun a => ?_⟩
  have hkey : DataKey.account a ∈ env.storage.keys ↔
      (env.lookup (.account a)).isSome = true := by
    rw [Finmap.mem_keys, ← Finmap.lookup_isSome]
    rfl
  rw [List.mem_filterMap, ← hkey]
  constructor
  · rintro ⟨key, hmem, howner⟩
    cases key with
    | account b =>
      cases howner
      exact Finset.mem_toList.1 hmem
    | _ => cases howner
  · intro hmem
    exact ⟨.account a, Finset.mem_toList.2 hmem, rfl⟩

theorem Consistent.reachable (h : Consistent host ts env) :
    (shield host).Reachable .empty env := by
  obtain ⟨staged, hstaged⟩ := exists_staged host h.initialized h.payable
  obtain ⟨holders, hholders⟩ := exists_holders env
  obtain ⟨env', hreach, hevents, haccount, hother⟩ :=
    hstaged.fund h.initialized h.wellFormed fun a ha => (hholders a).1 ha
  have heq : env' = env := by
    refine Env.ext_lookup (fun key => ?_) (hevents.trans (hstaged.events.trans h.events.symm))
    cases key with
    | account a =>
      rw [haccount a]
      split
      · rfl
      · next hnot =>
        rw [hholders, Option.not_isSome_iff_eq_none] at hnot
        rw [hnot]
        cases hacc : staged.lookup (.account a) with
        | none => rfl
        | some account =>
          -- who has an account already is a party of one of the transfers
          obtain ⟨-, t, ht, hparty⟩ := hstaged.account hacc
          obtain ⟨hfrom, hto⟩ := h.parties t ht
          rcases hparty with rfl | rfl
          · rw [hnot] at hfrom
            cases hfrom
          · rw [hnot] at hto
            cases hto
    | assetContract => exact (hother _ (by simp)).trans hstaged.asset
    | transfer id => rw [hother _ (by simp), hstaged.transfer, h.transfer]
    | disclosure id =>
      rw [hother _ (by simp)]
      refine Option.ext fun d => ⟨fun hd => hstaged.of_disclosure hd, fun hd => ?_⟩
      obtain ⟨t, ht, vk, rfl, rfl⟩ := h.disclosure id d hd
      exact hstaged.disclosure ht hd
  rwa [heq] at hreach

/-- Some run leads to an environment exactly if it is empty or consistent with some transfers. -/
theorem reachable_iff (host : Host Address) (env : Env Address) :
    (∃ invs, runOf host invs = env) ↔ env = .empty ∨ ∃ ts, Consistent host ts env := by
  refine Machine.reachable_iff_of_invariant (M := shield host) (P := Env.Admissible host)
    (.inl rfl) (fun env inv h => h.step inv) (fun env h => ?_) env
  rcases h with rfl | ⟨ts, hts⟩
  · exact .refl _
  · exact hts.reachable

end PrivacyShield.Contract
