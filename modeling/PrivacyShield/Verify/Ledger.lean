import PrivacyShield.Lib.Posting
import PrivacyShield.Verify.Success

/-!
# The ledger behind the storage

`Env.ledger` forgets everything about an environment but the balance of each account. Every
successful call posts to it (`Succeeds.ledger`), and a call is accepted or not by what the ledger
says (`deposit_accepted_iff`, `withdraw_accepted_iff`, `transfer_accepted_iff`).

A transfer from an address to itself posts its amount to that address and takes it from nobody: the
recipient's account is read before the sender is debited, and written last.
-/

namespace PrivacyShield.Contract

open PrivacyShield.Lib

variable {Address : Type} [DecidableEq Address] {frame : Frame Address} {env env' : Env Address}

/-- The balance of each account, `none` for an address without one. -/
def Env.ledger (env : Env Address) : Ledger Address Int :=
  fun a => (env.lookup (.account a)).map fun account => account.balance.toInt

/-- What a call posts when it succeeds. -/
def postings : Call Address → List (Address × Int)
  | .deposit depositor amount => [(depositor, amount.toInt)]
  | .withdraw owner amount => [(owner, -amount.toInt)]
  | .confidentialTransfer fromAddr toAddr (.mock mock) =>
    if fromAddr = toAddr then [(toAddr, mock.amount.toInt)]
    else [(fromAddr, -mock.amount.toInt), (toAddr, mock.amount.toInt)]
  | _ => []

@[simp] theorem ledger_empty : (Env.empty : Env Address).ledger = fun _ => none := by
  funext a
  simp [Env.ledger]

theorem ledger_of_lookup {a : Address} {account : ShieldedAccount Address}
    (h : env.lookup (.account a) = some account) : env.ledger a = some account.balance.toInt := by
  unfold Env.ledger
  rw [h]
  rfl

theorem exists_account_of_ledger {a : Address} {b : Int} (h : env.ledger a = some b) :
    ∃ account, env.lookup (.account a) = some account ∧ account.balance.toInt = b :=
  Option.map_eq_some_iff.1 h

theorem accountOr_balance (env : Env Address) (a : Address) :
    (env.accountOr a).balance.toInt = (env.ledger a).getD 0 := by
  unfold Env.accountOr Env.ledger
  cases env.lookup (.account a) <;> rfl

theorem accountOr_of_lookup {a : Address} {account : ShieldedAccount Address}
    (h : env.lookup (.account a) = some account) : env.accountOr a = account := by
  unfold Env.accountOr
  rw [h]
  rfl

/-! ## Effect of the writes on the ledger -/

/-- Writing an account whose balance grew by `x` posts `x` to it. -/
theorem ledger_put_account {a : Address} {r : ShieldedAccount Address} {x : Int}
    (h : r.balance.toInt = (env.ledger a).getD 0 + x) :
    (env.put (.account a) r).ledger = env.ledger.post (a, x) := by
  funext b
  rw [Ledger.post_apply]
  by_cases hab : a = b
  · subst hab
    rw [if_pos rfl, ledger_of_lookup (env.lookup_put_self _ r), h]
  · have hne : DataKey.account b ≠ DataKey.account a := by simpa using Ne.symm hab
    rw [if_neg hab]
    unfold Env.ledger
    rw [env.lookup_put_of_ne r hne]

theorem ledger_put_of_ne {key : DataKey Address} {value : key.Value}
    (h : ∀ a, DataKey.account a ≠ key) : (env.put key value).ledger = env.ledger := by
  funext a
  unfold Env.ledger
  rw [env.lookup_put_of_ne value (h a)]

@[simp] theorem ledger_emit (event : Event Address) : (env.emit event).ledger = env.ledger := rfl

theorem ledger_transferred (fromAddr toAddr : Address) (a b : ShieldedAccount Address)
    (id : BytesN 32) (amount : I128) :
    (env.transferred fromAddr toAddr a b id amount).ledger =
      ((env.put (.account fromAddr) a).put (.account toAddr) b).ledger := by
  unfold Env.transferred
  rw [ledger_emit, ledger_put_of_ne (by simp)]

/-- The second of two writes to one account is the one that counts. -/
theorem ledger_put_put (a : Address) (r r' : ShieldedAccount Address) :
    ((env.put (.account a) r).put (.account a) r').ledger = (env.put (.account a) r').ledger := by
  unfold Env.ledger Env.lookup Env.put
  rw [Finmap.insert_insert]

/-- Every successful call posts what `postings` says. -/
theorem Succeeds.ledger {call : Call Address} {r : Reply Address}
    (h : Succeeds frame env call r env') : env'.ledger = env.ledger.postAll (postings call) := by
  cases h with
  | initializePool hfresh => exact ledger_put_of_ne (by simp)
  | deposit hinit hauth hpos howner hadd =>
    rw [accountOr_balance] at hadd
    exact ledger_put_account hadd
  | withdraw hinit hauth hpos hacc hle howner hsub =>
    apply ledger_put_account
    rw [hsub, ledger_of_lookup hacc, Option.getD_some, sub_eq_add_neg]
  | balance => rfl
  | @confidentialTransfer fromAddr toAddr mock id fromAccount fromAccount' toAccount' hinit hauth
      hpos hid hacc hle hfrom hsub hto hadd =>
    rw [ledger_transferred]
    rw [accountOr_balance] at hadd
    by_cases heq : fromAddr = toAddr
    · subst heq
      rw [postings, if_pos rfl, ledger_put_put]
      exact ledger_put_account hadd
    · have hdebit : (env.put (.account fromAddr) fromAccount').ledger =
          env.ledger.post (fromAddr, -mock.amount.toInt) := by
        apply ledger_put_account
        rw [hsub, ledger_of_lookup hacc, Option.getD_some, sub_eq_add_neg]
      rw [postings, if_neg heq, Ledger.postAll_cons, Ledger.postAll_cons, Ledger.postAll_nil,
        ← hdebit]
      apply ledger_put_account
      rw [hadd, hdebit, Ledger.post_apply, if_neg heq]
  | recordDisclosureRequest hauth hrec hparty => exact ledger_put_of_ne (by simp)
  | verifyDisclosure hrec hhash => rfl

/-! ## The ledger of a run -/

/-- The postings of a list of successful calls, in order. -/
def postingsOf (l : List (Invocation Address × Reply Address)) : List (Address × Int) :=
  l.flatMap fun s => postings s.1.call

/-- A quantity of the call, summed over a list of successful calls. -/
def sumOver (l : List (Invocation Address × Reply Address)) (f : Call Address → Int) : Int :=
  (l.map fun s => f s.1.call).sum

omit [DecidableEq Address] in
@[simp] theorem sumOver_concat (l : List (Invocation Address × Reply Address))
    (inv : Invocation Address) (r : Reply Address) (f : Call Address → Int) :
    sumOver (l ++ [(inv, r)]) f = sumOver l f + f inv.call := by
  unfold sumOver
  rw [List.map_append, List.sum_append, List.map_singleton, List.sum_singleton]

/-- The ledger after a run is the empty ledger with the postings of its successful calls. -/
theorem ledger_runOf (host : Host Address) (invs : List (Invocation Address)) :
    (runOf host invs).ledger =
      Ledger.postAll (fun _ => none) (postingsOf (successesOf host invs)) := by
  refine successesOf_induction
    (P := fun l env => env.ledger = Ledger.postAll (fun _ => none) (postingsOf l)) ?_
    (fun l env inv r env' hP hs => ?_) invs
  · exact ledger_empty
  · rw [hs.ledger, hP, ← Ledger.postAll_append, postingsOf, postingsOf, List.flatMap_append,
      List.flatMap_singleton]

/-! ## Acceptance -/

section Acceptance

variable {host : Host Address} {auth : Address → Bool}

/-- The step of `inv` from `env` succeeds. -/
def Accepts (host : Host Address) (env : Env Address) (inv : Invocation Address) : Prop :=
  ∃ r, ((shield host).step env inv).1 = .ok r

theorem accepts_iff {inv : Invocation Address} :
    Accepts host env inv ↔ ∃ r env', Succeeds ⟨host, inv.auth⟩ env inv.call r env' := by
  constructor
  · rintro ⟨r, h⟩
    exact ⟨r, _, step_ok_iff.1 (Prod.ext h rfl)⟩
  · rintro ⟨r, env', h⟩
    exact ⟨r, by rw [step_ok_iff.2 h]⟩

/-- When a kind of invocation is always accepted, and a successful call meets a condition exactly if
it is not of this kind, then all successful calls of a run meet the condition exactly if nothing of
the kind occurs along the run. -/
theorem forall_successesOf_iff_along {P : Call Address → Prop}
    {Passes : Env Address → Invocation Address → Prop}
    (haccepts : ∀ {env inv}, Passes env inv → Accepts host env inv)
    (hsucc : ∀ {env env'} {inv : Invocation Address} {r},
      Succeeds ⟨host, inv.auth⟩ env inv.call r env' → (P inv.call ↔ ¬Passes env inv))
    (invs : List (Invocation Address)) :
    (∀ s ∈ successesOf host invs, P s.1.call) ↔
      (shield host).Along (fun env inv => ¬Passes env inv) .empty invs := by
  induction invs using List.reverseRecOn with
  | nil => exact ⟨fun _ => trivial, fun _ s hs => absurd hs List.not_mem_nil⟩
  | append_singleton invs inv ih =>
    rw [Machine.along_concat, ← ih]
    rcases step_cases host (runOf host invs) inv with ⟨r, env', hstep, hs⟩ | ⟨f, hstep, -⟩
    · have hiff := hsucc hs
      unfold runOf at hiff
      rw [(successesOf_concat_ok hstep).1, List.forall_mem_append, List.forall_mem_singleton, hiff]
    · have hno : ¬Passes (runOf host invs) inv := by
        intro hpass
        obtain ⟨r, hok⟩ := haccepts hpass
        rw [hstep] at hok
        cases hok
      rw [(successesOf_concat_error hstep).1]
      exact ⟨fun hall => ⟨hall, hno⟩, fun hall => hall.1⟩

theorem deposit_accepted_iff {a : Address} {amount : I128} :
    Accepts host env ⟨.deposit a amount, auth⟩ ↔
      env.Initialized ∧ auth a = true ∧ 0 < amount.toInt ∧
      (env.ledger a).getD 0 + amount.toInt ≤ 2 ^ 127 - 1 := by
  rw [accepts_iff]
  constructor
  · rintro ⟨r, env', h⟩
    cases h with
    | @deposit _ _ r hinit hauth hpos howner hadd =>
      have hup := r.balance.upper
      rw [accountOr_balance] at hadd
      exact ⟨hinit, hauth, hpos, by omega⟩
  · rintro ⟨hinit, hauth, hpos, hle⟩
    rw [← accountOr_balance] at hle
    obtain ⟨balance, hadd⟩ := (SInt.exists_checkedAdd_iff (Int.le_of_lt hpos)).2 hle
    exact ⟨_, _, .deposit (r := ⟨(env.accountOr a).owner, balance⟩) hinit hauth hpos rfl
      (SInt.checkedAdd_eq_some_iff.1 hadd)⟩

theorem withdraw_accepted_iff {a : Address} {amount : I128} :
    Accepts host env ⟨.withdraw a amount, auth⟩ ↔
      env.Initialized ∧ auth a = true ∧ 0 < amount.toInt ∧
      ∃ b, env.ledger a = some b ∧ amount.toInt ≤ b := by
  rw [accepts_iff]
  constructor
  · intro h
    obtain ⟨r, env', h⟩ := h
    cases h with
    | withdraw hinit hauth hpos hacc hle howner hsub =>
      exact ⟨hinit, hauth, hpos, _, ledger_of_lookup hacc, hle⟩
  · intro h
    obtain ⟨hinit, hauth, hpos, b, hb, hle⟩ := h
    obtain ⟨account, hacc, rfl⟩ := exists_account_of_ledger hb
    obtain ⟨balance, hsub⟩ := SInt.exists_checkedSub (Int.le_of_lt hpos) hle
    exact ⟨_, _, .withdraw (r := ⟨account.owner, balance⟩) hinit hauth hpos hacc hle rfl
      (SInt.checkedSub_eq_some_iff.1 hsub)⟩

/-- Sender and recipient may be the same address: the bound is then on the balance before the
debit. -/
theorem transfer_accepted_iff {f t : Address} {mock : MockProof} :
    Accepts host env ⟨.confidentialTransfer f t (.mock mock), auth⟩ ↔
      env.Initialized ∧ auth f = true ∧ 0 < mock.amount.toInt ∧
      (∃ b, env.ledger f = some b ∧ mock.amount.toInt ≤ b) ∧
      (env.ledger t).getD 0 + mock.amount.toInt ≤ 2 ^ 127 - 1 := by
  rw [accepts_iff]
  constructor
  · intro h
    obtain ⟨r, env', h⟩ := h
    cases h with
    | @confidentialTransfer _ _ _ _ _ _ toAccount' hinit hauth hpos hid hacc hle hfrom hsub hto
        hadd =>
      have hup := toAccount'.balance.upper
      rw [accountOr_balance] at hadd
      exact ⟨hinit, hauth, hpos, ⟨_, ledger_of_lookup hacc, hle⟩, by omega⟩
  · intro h
    obtain ⟨hinit, hauth, hpos, ⟨b, hb, hle⟩, hbound⟩ := h
    obtain ⟨account, hacc, rfl⟩ := exists_account_of_ledger hb
    rw [← accountOr_balance] at hbound
    obtain ⟨debited, hsub⟩ := SInt.exists_checkedSub (Int.le_of_lt hpos) hle
    obtain ⟨credited, hadd⟩ := (SInt.exists_checkedAdd_iff (Int.le_of_lt hpos)).2 hbound
    let fromAccount : ShieldedAccount Address := ⟨account.owner, debited⟩
    let toAccount : ShieldedAccount Address := ⟨(env.accountOr t).owner, credited⟩
    have hfrom : fromAccount.owner = account.owner := rfl
    have hto : toAccount.owner = (env.accountOr t).owner := rfl
    exact ⟨_, _, .confidentialTransfer hinit hauth hpos rfl hacc hle hfrom
      (SInt.checkedSub_eq_some_iff.1 hsub) hto (SInt.checkedAdd_eq_some_iff.1 hadd)⟩

end Acceptance

end PrivacyShield.Contract
