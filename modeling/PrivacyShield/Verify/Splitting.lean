import PrivacyShield.Lib.Additive
import PrivacyShield.Verify.Order

/-!
# Amounts add up

Deposits to one account, withdrawals from one account and payments from one account to another can
be split and merged at will: the parts of an amount are accepted, all of them, exactly when the
whole is, and the balances are the same after them. In particular nothing but the sender's balance
and the recipient's room limits how often one and the same proof is paid out.
-/

namespace PrivacyShield.Contract

open PrivacyShield.Lib

variable {Address : Type} [DecidableEq Address]

theorem isOk_iff_accepts {host : Host Address} {env : Env Address} {inv : Invocation Address} :
    ((shield host).step env inv).1.isOk = true ↔ Accepts host env inv := by
  unfold Accepts
  cases ((shield host).step env inv).1 with
  | error f => simp [Except.isOk, Except.toBool]
  | ok r => simp [Except.isOk, Except.toBool]

/-- What an amount can be used for. -/
inductive Move (Address : Type) where
  | deposit (depositor : Address)
  | withdraw (owner : Address)
  | pay (fromAddr toAddr : Address)
  deriving DecidableEq

namespace Move

/-- The call that moves an amount; only a payment has a nonce. -/
def call (move : Move Address) (amount : I128) (nonce : BytesN 32) : Call Address :=
  match move with
  | .deposit depositor => .deposit depositor amount
  | .withdraw owner => .withdraw owner amount
  | .pay fromAddr toAddr => .confidentialTransfer fromAddr toAddr (.mock ⟨amount, nonce⟩)

/-- The address that has to authorize the call. -/
def signer : Move Address → Address
  | .deposit depositor => depositor
  | .withdraw owner => owner
  | .pay fromAddr _ => fromAddr

/-- A payment goes to somebody else. -/
def NotToSelf : Move Address → Prop
  | .pay fromAddr toAddr => fromAddr ≠ toAddr
  | _ => True

instance : (move : Move Address) → Decidable move.NotToSelf
  | .deposit _ | .withdraw _ => .isTrue trivial
  | .pay _ _ => inferInstanceAs (Decidable (_ ≠ _))

/-- What the balances must allow. -/
def Fits (ledger : Ledger Address Int) (x : Int) : Move Address → Prop
  | .deposit depositor => (ledger depositor).getD 0 + x ≤ 2 ^ 127 - 1
  | .withdraw owner => ∃ b, ledger owner = some b ∧ x ≤ b
  | .pay fromAddr toAddr =>
    (∃ b, ledger fromAddr = some b ∧ x ≤ b) ∧ (ledger toAddr).getD 0 + x ≤ 2 ^ 127 - 1

/-- What moving `x` does to the balances. -/
def effect (ledger : Ledger Address Int) (x : Int) : Move Address → Ledger Address Int
  | .deposit depositor => ledger.post (depositor, x)
  | .withdraw owner => ledger.post (owner, -x)
  | .pay fromAddr toAddr => (ledger.post (fromAddr, -x)).post (toAddr, x)

variable {move : Move Address} {host : Host Address} {env : Env Address} {auth : Address → Bool}
  {amount : I128} {nonce : BytesN 32}

theorem accepted_iff :
    Accepts host env ⟨move.call amount nonce, auth⟩ ↔
      (env.Initialized ∧ auth move.signer = true) ∧ 0 < amount.toInt ∧
        move.Fits env.ledger amount.toInt := by
  rw [and_assoc]
  cases move with
  | deposit depositor => exact deposit_accepted_iff
  | withdraw owner => exact withdraw_accepted_iff
  | pay fromAddr toAddr => exact transfer_accepted_iff

theorem ledger_of_succeeds (hself : move.NotToSelf) {env' : Env Address} {r : Reply Address}
    (h : Succeeds ⟨host, auth⟩ env (move.call amount nonce) r env') :
    env'.ledger = move.effect env.ledger amount.toInt := by
  rw [h.ledger]
  cases move with
  | deposit depositor => rfl
  | withdraw owner => rfl
  | pay fromAddr toAddr => rw [call, postings, if_neg hself]; rfl

theorem effect_add (move : Move Address) (ledger : Ledger Address Int) (x y : Int) :
    move.effect (move.effect ledger x) y = move.effect ledger (x + y) := by
  cases move with
  | deposit depositor => exact Ledger.post_post ledger depositor x y
  | withdraw owner =>
    rw [effect, effect, Ledger.post_post, effect, ← neg_add]
  | pay fromAddr toAddr =>
    rw [effect, effect, effect, Ledger.post_comm _ (toAddr, x), Ledger.post_post, Ledger.post_post,
      ← neg_add]

/-- Debits add up. -/
theorem debit_add (ledger : Ledger Address Int) (a : Address) (x : Int) {y : Int} (hy : 0 < y) :
    (∃ b, ledger a = some b ∧ x + y ≤ b) ↔
      (∃ b, ledger a = some b ∧ x ≤ b) ∧ ∃ b, ledger.post (a, -x) a = some b ∧ y ≤ b := by
  rw [Ledger.post_apply, if_pos rfl]
  cases ledger a with
  | none => simp
  | some b =>
    simp only [Option.some.injEq, exists_eq_left', Option.getD_some]
    omega

/-- Credits add up. -/
theorem credit_add (ledger : Ledger Address Int) (a : Address) (x : Int) {y : Int} (hy : 0 < y) :
    (ledger a).getD 0 + (x + y) ≤ 2 ^ 127 - 1 ↔
      (ledger a).getD 0 + x ≤ 2 ^ 127 - 1 ∧
        (ledger.post (a, x) a).getD 0 + y ≤ 2 ^ 127 - 1 := by
  rw [Ledger.post_apply, if_pos rfl, Option.getD_some]
  omega

theorem fits_add (hself : move.NotToSelf) (ledger : Ledger Address Int) (x : Int) {y : Int}
    (hy : 0 < y) :
    move.Fits ledger (x + y) ↔ move.Fits ledger x ∧ move.Fits (move.effect ledger x) y := by
  cases move with
  | deposit depositor => exact credit_add ledger depositor x hy
  | withdraw owner => exact debit_add ledger owner x hy
  | pay fromAddr toAddr =>
    have hne : fromAddr ≠ toAddr := hself
    -- neither side of the payment sees the other one
    have hfrom : (ledger.post (fromAddr, -x)).post (toAddr, x) fromAddr =
        ledger.post (fromAddr, -x) fromAddr := by
      rw [Ledger.post_apply, if_neg (Ne.symm hne)]
    have hto : (ledger.post (fromAddr, -x)).post (toAddr, x) toAddr =
        ledger.post (toAddr, x) toAddr := by
      rw [Ledger.post_comm, Ledger.post_apply, if_neg hne]
    rw [Fits, Fits, Fits, effect, hfrom, hto, debit_add ledger fromAddr x hy,
      credit_add ledger toAddr x hy]
    exact and_and_and_comm

/-- Moves with one purpose add up. -/
def additive (move : Move Address) (hself : move.NotToSelf) (host : Host Address)
    (auth : Address → Bool) :
    Additive (shield host) (fun o => o.isOk = true) (I128 × BytesN 32) (Ledger Address Int) where
  input p := ⟨move.call p.1 p.2, auth⟩
  amount p := p.1.toInt
  view := Env.ledger
  enabled env := env.Initialized ∧ auth move.signer = true
  fits ledger x := move.Fits ledger x
  effect ledger x := move.effect ledger x
  ok_iff _ _ := isOk_iff_accepts.trans accepted_iff
  enabled_step {_ _} h := by
    obtain ⟨r, -, hs⟩ := step_of_isOk h
    obtain ⟨⟨hinit, hauth⟩, -⟩ := accepted_iff.1 (isOk_iff_accepts.1 h)
    exact ⟨hs.initialized hinit, hauth⟩
  view_step {_ _} h := by
    obtain ⟨r, -, hs⟩ := step_of_isOk h
    exact ledger_of_succeeds hself hs
  effect_add := move.effect_add
  fits_add ledger x _ _ hy := fits_add hself ledger x hy

/-- The calls that move the parts of an amount, each with its nonce. -/
def parts (move : Move Address) (auth : Address → Bool) (ps : List (I128 × BytesN 32)) :
    List (Invocation Address) :=
  ps.map fun p => ⟨move.call p.1 p.2, auth⟩

end Move

/-- From any environment, the parts of an amount, one after the other, all succeed exactly when the
whole would, and the balances are then the same. -/
theorem amounts_add_up (host : Host Address) (env : Env Address) (move : Move Address)
    (auth : Address → Bool) (ps : List (I128 × BytesN 32)) (whole : I128) (nonce : BytesN 32)
    (hself : move.NotToSelf) (hne : ps ≠ []) (hpos : ∀ p ∈ ps, 0 < p.1.toInt)
    (hwhole : whole.toInt = (ps.map fun p => p.1.toInt).sum) :
    (AllSucceed host env (move.parts auth ps) ↔
      Accepts host env ⟨move.call whole nonce, auth⟩) ∧
    (AllSucceed host env (move.parts auth ps) →
      ((shield host).run env (move.parts auth ps)).ledger =
        ((shield host).step env ⟨move.call whole nonce, auth⟩).2.ledger) := by
  obtain ⟨hiff, hledger⟩ := (move.additive hself host auth).split (s := env) (b := (whole, nonce))
    hne hpos hwhole
  exact ⟨hiff.trans isOk_iff_accepts, hledger⟩

/-- Alice pays Bob 30 as 10 and 20. -/
theorem alice_pays_in_parts :
    let env : Env ScAddress := runOf soroban
      [⟨.initializePool Sample.bob, fun _ => true⟩,
        ⟨.deposit Sample.alice (Sample.amount 100), fun _ => true⟩]
    let pay : Move ScAddress := .pay Sample.alice Sample.bob
    AllSucceed soroban env (pay.parts (fun a => a == Sample.alice)
      [(Sample.amount 10, .replicate 32 7), (Sample.amount 20, .replicate 32 7)]) := by
  intro env pay
  refine (amounts_add_up soroban env pay _ _ (Sample.amount 30) (.replicate 32 8) (by decide)
    (by decide) (by decide) (by decide)).1.2 ?_
  exact Move.accepted_iff.2 ⟨by decide, by decide, ⟨100, by decide, by decide⟩, by decide⟩

/-! ## Replays -/

section Replays

variable {host : Host Address} {env : Env Address}

theorem events_run_of_allSucceed {is : List (Invocation Address)} (h : AllSucceed host env is) :
    ((shield host).run env is).events =
      env.events ++ (is.filterMap fun inv => inv.call.transfer?).map host.eventOf := by
  induction is generalizing env with
  | nil => exact (List.append_nil _).symm
  | cons inv is ih =>
    obtain ⟨r, -, hs⟩ := step_of_isOk (h _ List.mem_cons_self)
    rw [Machine.run_cons, ih fun e he => h e (List.mem_cons_of_mem _ he)]
    cases hcall : inv.call.transfer? with
    | none => rw [(hs.of_transfer?_eq_none hcall).2, List.filterMap_cons, hcall]
    | some t =>
      rw [(hs.of_transfer?_eq_some hcall).2.2, List.filterMap_cons, hcall, List.map_cons,
        List.append_assoc]
      rfl

/-- Replays rewrite one and the same record. -/
theorem lookup_transfer_run_replicate {inv : Invocation Address} {t : Transfer Address}
    (hcall : inv.call.transfer? = some t) {n : ℕ}
    (h : AllSucceed host env (List.replicate (n + 1) inv)) (id : BytesN 32) :
    ((shield host).run env (List.replicate (n + 1) inv)).lookup (.transfer id) =
      if id = host.idOf t then some (host.recordOf t) else env.lookup (.transfer id) := by
  induction n generalizing env with
  | zero =>
    obtain ⟨r, -, hs⟩ := step_of_isOk (h _ List.mem_cons_self)
    exact (hs.of_transfer?_eq_some hcall).2.1 id
  | succ n ih =>
    obtain ⟨r, -, hs⟩ := step_of_isOk (h _ List.mem_cons_self)
    rw [List.replicate_succ, Machine.run_cons, ih fun e he => h e (List.mem_cons_of_mem _ he),
      (hs.of_transfer?_eq_some hcall).2.1 id]
    split <;> rfl

end Replays

/-- One proof, presented `n + 1` times: all succeed exactly when the sender has `n + 1` times its
amount and the recipient has room for it. Each replay is announced, but under one identifier, whose
record is that of a single transfer. -/
theorem proof_replays (host : Host Address) (env : Env Address) (f t : Address) (mock : MockProof)
    (auth : Address → Bool) (n : ℕ) (hne : f ≠ t) :
    let pay : Invocation Address := ⟨.confidentialTransfer f t (.mock mock), auth⟩
    let transfer : Transfer Address := ⟨f, t, mock.nonce, mock.amount⟩
    let sum : ℤ := (n + 1) * mock.amount.toInt
    (AllSucceed host env (List.replicate (n + 1) pay) ↔
      (env.Initialized ∧ auth f = true) ∧ 0 < mock.amount.toInt ∧
      (∃ b, env.ledger f = some b ∧ sum ≤ b) ∧ (env.ledger t).getD 0 + sum ≤ 2 ^ 127 - 1) ∧
    (AllSucceed host env (List.replicate (n + 1) pay) →
      let env' := (shield host).run env (List.replicate (n + 1) pay)
      env'.ledger = (env.ledger.post (f, -sum)).post (t, sum) ∧
      env'.events = env.events ++ List.replicate (n + 1) (host.eventOf transfer) ∧
      ∀ id, env'.lookup (.transfer id) =
        if id = host.idOf transfer then some (host.recordOf transfer)
        else env.lookup (.transfer id)) := by
  intro pay transfer sum
  let A := (Move.pay f t).additive hne host auth
  let bs : List (I128 × BytesN 32) := List.replicate (n + 1) (mock.amount, mock.nonce)
  have hpays : bs.map A.input = List.replicate (n + 1) pay := List.map_replicate
  have htotal : A.total bs = sum := by
    have hmap : bs.map A.amount = List.replicate (n + 1) mock.amount.toInt := List.map_replicate
    rw [Additive.total, hmap, List.sum_replicate, nsmul_eq_mul]
    push_cast
    rfl
  have hnonempty : bs ≠ [] := List.cons_ne_nil _ _
  have hfirst : AllSucceed host env (List.replicate (n + 1) pay) → 0 < mock.amount.toInt := by
    intro h
    exact (transfer_accepted_iff.1 (isOk_iff_accepts.1 (h _ List.mem_cons_self))).2.2.1
  have hpos : 0 < mock.amount.toInt → ∀ b ∈ bs, 0 < A.amount b := by
    intro hpos b hb
    rw [List.eq_of_mem_replicate hb]
    exact hpos
  have hrun : 0 < mock.amount.toInt → _ := fun h => A.run (s := env) hnonempty (hpos h)
  rw [hpays, htotal] at hrun
  refine ⟨⟨fun h => ?_, fun h => ?_⟩, fun h => ⟨?_, ?_, ?_⟩⟩
  · obtain ⟨henabled, hfits⟩ := (hrun (hfirst h)).1.1 h
    exact ⟨henabled, hfirst h, hfits⟩
  · obtain ⟨henabled, hamount, hfits⟩ := h
    exact (hrun hamount).1.2 ⟨henabled, hfits⟩
  · exact (hrun (hfirst h)).2 h
  · have htransfer : pay.call.transfer? = some transfer := rfl
    have hmade : (List.replicate (n + 1) pay).filterMap (fun inv => inv.call.transfer?) =
        List.replicate (n + 1) transfer := List.filterMap_replicate_of_some htransfer
    rw [events_run_of_allSucceed h, hmade, List.map_replicate]
  · exact lookup_transfer_run_replicate rfl h

/-- With 100 of hers in the pool, a proof of Alice's over 30 is paid out three times, not four. -/
theorem proof_pays_three_times :
    let env : Env ScAddress := runOf soroban
      [⟨.initializePool Sample.bob, fun _ => true⟩,
        ⟨.deposit Sample.alice (Sample.amount 100), fun _ => true⟩]
    let pay : Invocation ScAddress :=
      ⟨.confidentialTransfer Sample.alice Sample.bob (.mock ⟨Sample.amount 30, .replicate 32 7⟩),
        fun _ => true⟩
    AllSucceed soroban env (List.replicate 3 pay) ∧
      ¬AllSucceed soroban env (List.replicate 4 pay) := by
  intro env pay
  have hledger : env.ledger Sample.alice = some 100 := by decide
  have replays := fun n => (proof_replays soroban env Sample.alice Sample.bob
    ⟨Sample.amount 30, .replicate 32 7⟩ (fun _ => true) n (by decide)).1
  refine ⟨(replays 2).2 ⟨by decide, by decide, ⟨100, hledger, by decide⟩, by decide⟩, fun h => ?_⟩
  obtain ⟨-, -, ⟨b, hb, hle⟩, -⟩ := (replays 3).1 h
  rw [hledger] at hb
  cases hb
  exact absurd hle (by decide)

end PrivacyShield.Contract
