import PrivacyShield.Client.App

/-!
# Overdrafts of the shielded balance

To the account behind the app (`App.account`) a submission adds a change in flight and a timer
settles one (`account_step`). The forms compare an amount with the balance that is shown, which does
not know of the debits in flight, and a withdrawal is rounded up from the middle, so the balance can
be overdrawn. It is safe from that exactly as long as every submitted debit fits in the shown
balance next to the debits in flight (`App.Covered`, `no_overdraft_iff`).
-/

namespace PrivacyShield.Client

open PrivacyShield.Lib

/-- What a task adds to the balance when it is resumed. -/
def Task.change : Task → ℚ
  | .deposit amount => amount
  | .transfer _ amount => -amount
  | .withdraw withdrawPct balance => -mathRound (withdrawPct.val / 100 * balance)

/-- What a submission does to an account, if there is one. -/
def submission : Option Task → Account.Action ℚ
  | some task => .submit task.change
  | none => .skip

namespace App

/-! ## The account behind the app -/

/-- The balance, and the changes of the tasks that wait. -/
def account (app : App) : Account ℚ := ⟨app.balance, app.pending.map Task.change⟩

/-- The task an event leaves behind. -/
def submits (app : App) : Event → Option Task
  | .submitDeposit =>
    if app.depositForm.submitDisabled depositProps then none
    else (app.depositForm.handleSubmit depositProps).2.map .deposit
  | .submitTransfer =>
    if app.transferForm.submitDisabled app.transferProps then none
    else (app.transferForm.handleSubmit app.transferProps).2.map fun (recipient, amount) =>
      .transfer recipient amount
  | .confirmWithdraw =>
    if app.actionsEnabled then some (.withdraw app.withdrawPct app.balance) else none
  | _ => none

/-- What an event does to the account. -/
def action (app : App) : Event → Account.Action ℚ
  | .resume task => if task ∈ app.pending then .settle task.change else .skip
  | event => submission (app.submits event)

variable {app : App}

theorem account_schedule (task : Option Task) :
    (app.schedule task).account = app.account.step (submission task) := by
  cases task with
  | none => rfl
  | some task =>
    unfold schedule account
    rw [Multiset.map_cons]
    rfl

theorem account_resume {task : Task} (h : task ∈ app.pending) :
    (app.resume task).account = app.account.settle task.change := by
  have hmem : task.change ∈ app.account.pending := Multiset.mem_map_of_mem _ h
  have hrest : app.account.pending.erase task.change = (app.pending.erase task).map Task.change :=
    (Multiset.map_erase_of_mem Task.change app.pending h).symm
  rw [Account.settle_of_mem hmem, hrest]
  unfold resume
  rw [if_pos h]
  cases task with
  | deposit => rfl
  | transfer => rw [Task.change, ← sub_eq_add_neg]; rfl
  | withdraw => rw [Task.change, ← sub_eq_add_neg]; rfl

/-- On the account, every step of the app is a submission, a settlement or nothing. -/
theorem account_step (event : Event) :
    (app.step event).account = app.account.step (app.action event) := by
  cases event with
  | submitDeposit =>
    dsimp only [step, submitDeposit, action, submits]
    split
    · rfl
    · exact account_schedule _
  | submitTransfer =>
    dsimp only [step, submitTransfer, action, submits]
    split
    · rfl
    · exact account_schedule _
  | confirmWithdraw =>
    dsimp only [step, confirmWithdraw, action, submits]
    split
    · exact account_schedule _
    · rfl
  | resume task =>
    dsimp only [step, action]
    by_cases h : task ∈ app.pending
    · rw [if_pos h]
      exact account_resume h
    · rw [if_neg h, resume, if_neg h]
      rfl
  | openWithdraw =>
    dsimp only [step, openWithdraw]
    split
    · rfl
    · rfl
  | cancelWithdraw =>
    dsimp only [step]
    split
    · rfl
    · rfl
  | _ => rfl

/-! ## Completions in any order -/

/-- The app after timers have fired, in this order. -/
def resumeAll (app : App) (tasks : List Task) : App := client.run app (tasks.map .resume)

/-- Each order of settlement is one in which the timers can fire. -/
theorem exists_resumeAll (app : App) (xs : List ℚ) :
    ∃ tasks, (app.resumeAll tasks).account = app.account.settleAll xs := by
  induction xs generalizing app with
  | nil => exact ⟨[], rfl⟩
  | cons x xs ih =>
    have hrun : app.account.settleAll (x :: xs) = (app.account.settle x).settleAll xs := rfl
    by_cases hx : x ∈ app.account.pending
    · obtain ⟨task, htask, rfl⟩ := Multiset.mem_map.1 hx
      obtain ⟨tasks, htasks⟩ := ih (app.resume task)
      refine ⟨task :: tasks, ?_⟩
      rw [hrun, ← account_resume htask, ← htasks]
      rfl
    · obtain ⟨tasks, htasks⟩ := ih app
      refine ⟨tasks, ?_⟩
      rw [hrun, Account.settle_of_notMem hx, htasks]

theorem solvent_resume (h : app.account.Solvent) (task : Task) :
    (app.resume task).account.Solvent := by
  by_cases htask : task ∈ app.pending
  · rw [account_resume htask]
    exact h.settle task.change
  · rwa [resume, if_neg htask]

theorem solvent_resumeAll (h : app.account.Solvent) (tasks : List Task) :
    (app.resumeAll tasks).account.Solvent := by
  induction tasks generalizing app with
  | nil => exact h
  | cons task tasks ih => exact ih (solvent_resume h task)

/-- The account is solvent exactly when no order of the timers overdraws the balance. -/
theorem solvent_iff_resumeAll :
    app.account.Solvent ↔ ∀ tasks, 0 ≤ (app.resumeAll tasks).balance := by
  constructor
  · intro h tasks
    exact (solvent_resumeAll h tasks).balance_nonneg
  · intro h
    refine Account.solvent_iff_settleAll.2 fun xs => ?_
    obtain ⟨tasks, htasks⟩ := exists_resumeAll app xs
    rw [← htasks]
    exact h tasks

/-! ## When a submission is covered -/

/-- What the pending transfers and withdrawals will take from the balance. -/
def debits (app : App) : ℚ := app.account.debits

/-- The transfer or withdrawal that an event submits, if any, fits in the shown balance next to the
debits in flight. A transfer is submitted with the amount in its form, a withdrawal with the rounded
percentage of the shown balance. -/
def Covered (app : App) : Event → Prop
  | .submitTransfer =>
    app.transferForm.submitDisabled app.transferProps = false →
      (app.transferForm.validate app.transferProps).2 = true →
        ∀ amount ∈ app.transferForm.amount, amount + app.debits ≤ app.balance
  | .confirmWithdraw => app.actionsEnabled = true → app.withdrawAmount + app.debits ≤ app.balance
  | _ => True

instance decidableCovered (app : App) : (event : Event) → Decidable (app.Covered event)
  | .submitTransfer => inferInstanceAs (Decidable (_ → _ → _))
  | .confirmWithdraw => inferInstanceAs (Decidable (_ → _))
  | .changeDepositAmount _ | .clickMax | .submitDeposit | .changeRecipient _
  | .changeTransferAmount _ | .changeWithdrawPct _ | .openWithdraw | .cancelWithdraw
  | .closeWithdraw | .dismissMessage | .resume _ => .isTrue trivial

theorem covers_submit_neg {amount : ℚ} :
    app.account.Covers (.submit (-amount)) ↔ amount + app.debits ≤ app.balance := by
  have hcovers : app.account.Covers (.submit (-amount)) ↔ app.debits - -amount ≤ app.balance :=
    Iff.rfl
  rw [hcovers, sub_neg_eq_add, add_comm]

theorem covers_submission (task? : Option Task) :
    app.account.Covers (submission task?) ↔
      ∀ task ∈ task?, app.account.Covers (.submit task.change) := by
  cases task? with
  | none => simp [submission, Account.Covers]
  | some task => simp [submission]

/-- Only a submission has to be covered. -/
theorem covers_action_iff (event : Event) :
    app.account.Covers (app.action event) ↔
      ∀ task ∈ app.submits event, app.account.Covers (.submit task.change) := by
  cases event with
  | resume task =>
    dsimp only [action, submits]
    split
    · simp [Account.Covers]
    · simp [Account.Covers]
  | submitDeposit => exact covers_submission (app.submits .submitDeposit)
  | submitTransfer => exact covers_submission (app.submits .submitTransfer)
  | confirmWithdraw => exact covers_submission (app.submits .confirmWithdraw)
  | _ => exact covers_submission none

/-- A deposit takes nothing, and a transfer or a withdrawal takes what its submission shows. -/
theorem covered_iff (h : app.account.Solvent) (event : Event) :
    app.Covered event ↔ app.account.Covers (app.action event) := by
  rw [covers_action_iff]
  cases event with
  | submitDeposit =>
    refine ⟨fun _ task htask => ?_, fun _ => trivial⟩
    dsimp only [submits] at htask
    split at htask
    · cases htask
    · obtain ⟨amount, hamount, rfl⟩ := Option.map_eq_some_iff.1 htask
      obtain ⟨-, hpos, -⟩ := DepositForm.handleSubmit_eq_some_iff.1 hamount
      exact h.covers_submit_of_nonneg hpos.le
  | submitTransfer =>
    dsimp only [Covered, submits]
    rw [TransferForm.handleSubmit_snd]
    cases app.transferForm.submitDisabled app.transferProps with
    | true => simp
    | false =>
      cases (app.transferForm.validate app.transferProps).2 with
      | true => simp [Task.change, covers_submit_neg]
      | false => simp
  | confirmWithdraw =>
    dsimp only [Covered, submits]
    cases app.actionsEnabled with
    | true => simp [Task.change, covers_submit_neg, withdrawAmount]
    | false => simp
  | _ => simp [Covered, submits]

end App

open App

/-- A step from a solvent account leads to one exactly when its submission is covered. -/
theorem solvent_step_iff {app : App} (h : app.account.Solvent) (event : Event) :
    (client.step app event).2.account.Solvent ↔ app.Covered event := by
  have hstep : (client.step app event).2.account = app.account.step (app.action event) :=
    account_step event
  rw [hstep, covered_iff h]
  exact h.step_iff _

/-- From a non-negative balance: when the submissions of a run are covered, the balance is never
negative; and they are covered exactly when the timers, in whatever order they fire at any point of
the run, cannot overdraw the balance. -/
theorem no_overdraft_iff (balance : ℚ) (h : 0 ≤ balance) (events : List Event) :
    (client.Along App.Covered (.mounted balance) events →
      ∀ before, before <+: events → 0 ≤ (client.run (.mounted balance) before).balance) ∧
    (client.Along App.Covered (.mounted balance) events ↔
      ∀ before, before <+: events → ∀ tasks : List Task,
        0 ≤ (client.run (.mounted balance) (before ++ tasks.map .resume)).balance) := by
  have hmounted : (App.mounted balance).account.Solvent := h
  have hiff : client.Along App.Covered (.mounted balance) events ↔
      ∀ before, before <+: events → (client.run (.mounted balance) before).account.Solvent :=
    Machine.along_iff_forall_prefix (P := fun app : App => app.account.Solvent)
      (fun app event happ => solvent_step_iff happ event) hmounted
  refine ⟨fun halong before hbefore => (hiff.1 halong before hbefore).balance_nonneg, ?_⟩
  simp only [hiff, solvent_iff_resumeAll, Machine.run_append]
  rfl

/-- A transfer of 100 and a withdrawal of half of the 250 that are shown fit together, whichever
timer fires first. -/
theorem overlapping_debits_covered :
    let recipient : JsString := .replicate 56 0x47
    let half : Percentage := ⟨50, by decide, by decide⟩
    let events : List Event :=
      [.changeRecipient recipient, .changeTransferAmount (some 100), .submitTransfer,
        .changeWithdrawPct half, .openWithdraw, .confirmWithdraw]
    (client.run (.mounted 250) events).pending =
        {.withdraw half 250, .transfer recipient 100} ∧
      ∀ tasks : List Task,
        0 ≤ (client.run (.mounted 250) (events ++ tasks.map .resume)).balance := by
  intro recipient half events
  have hcovered : client.Along App.Covered (.mounted 250) events := by decide +kernel
  obtain ⟨-, hiff⟩ := no_overdraft_iff 250 (by decide) events
  exact ⟨by decide +kernel, hiff.1 hcovered events List.prefix_rfl⟩

/-- Two ways to overdraw the balance. A transfer of 200 waits while 100% of the 250 that are still
shown are withdrawn, and both complete. Or 100% of a balance of 1/2 is withdrawn, which rounds to
1. -/
theorem completed_debits_overdraw :
    let recipient : JsString := .replicate 56 0x47
    let full : Percentage := ⟨100, by decide, by decide⟩
    let overlap : List Event :=
      [.changeRecipient recipient, .changeTransferAmount (some 200), .submitTransfer,
        .changeWithdrawPct full, .openWithdraw, .confirmWithdraw,
        .resume (.transfer recipient 200), .resume (.withdraw full 250)]
    let rounding : List Event :=
      [.changeWithdrawPct full, .openWithdraw, .confirmWithdraw, .resume (.withdraw full (1 / 2))]
    (client.run (.mounted 250) overlap).balance = -200 ∧
      (client.run (.mounted (1 / 2)) rounding).balance = -(1 / 2) := by
  decide +kernel

end PrivacyShield.Client
