import PrivacyShield.Client.Flows
import PrivacyShield.Client.Overdraft
import PrivacyShield.Lib.Tasks

/-!
# Every task is settled once

Between its submission and its timer a flow lives in the closure that waits. None is lost there and
none is applied twice: whatever the interleaving, the balance is the initial one with the changes of
exactly the completed tasks, and each kind of flow completes in the order of submission. Each task
was checked in the app that handed it over, and the message that is shown is that of the last
completion. Amounts and balances are exact rationals, as in `Client.Forms`.
-/

namespace PrivacyShield.Client

open PrivacyShield.Lib

namespace Task

/-- The message after the task. -/
def message : Task → Message
  | .deposit amount =>
    [.text "Successfully shielded ", .number amount, .text " XLM into pool!"]
  | .transfer recipient amount =>
    [.text "Confidential transfer of ", .number amount, .text " XLM sent to ",
      .string (recipient.take 8), .text "...!"]
  | .withdraw withdrawPct balance =>
    [.text "Successfully withdrew ", .number (mathRound (withdrawPct.val / 100 * balance)),
      .text " XLM to your public address!"]

/-- What is checked of a task in the app that hands it over. The forms check what they hold, the
transfer form against the balance that is shown; a withdrawal is confirmed in the open modal, as it
is shown there. -/
def Checked (app : App) : Task → Prop
  | .deposit amount =>
    app.depositForm.amount = some amount ∧ 0 < amount ∧ amount ≤ App.depositProps.maxBalance
  | .transfer recipient amount =>
    app.transferForm.recipient = recipient ∧ app.transferForm.amount = some amount ∧
      (recipient.isBlank = false ∧ recipient.startsWithG = true ∧ recipient.length = 56) ∧
      0 < amount ∧ amount ≤ app.balance
  | .withdraw withdrawPct balance =>
    (app.withdrawModalOpen = true ∧ app.withdrawLoading = false) ∧
      withdrawPct = app.withdrawPct ∧ balance = app.balance

end Task

namespace App

/-- The task an event completes. -/
def completes (app : App) : Event → Option Task
  | .resume task => if task ∈ app.pending then some task else none
  | _ => none

/-! ## One step -/

/-- From `app` to `app'` a task was handed over, one was completed, or neither. -/
structure Delivers (app app' : App) (submitted completed : Option Task) : Prop where
  pending : (completed.toList : Multiset Task) + app'.pending = app.pending + submitted.toList
  balance : app'.balance = app.balance + (completed.toList.map Task.change).sum
  message : app'.lastTxMessage = none ∨
    app'.lastTxMessage = (completed.map Task.message).or app.lastTxMessage

namespace Delivers

variable {app app' : App}

theorem of_eq (hpending : app'.pending = app.pending) (hbalance : app'.balance = app.balance)
    (hmessage : app'.lastTxMessage = none ∨ app'.lastTxMessage = app.lastTxMessage) :
    Delivers app app' none none := by
  refine ⟨?_, ?_, hmessage⟩
  · rw [hpending, Option.toList_none, Multiset.coe_nil, zero_add, add_zero]
  · rw [hbalance, Option.toList_none, List.map_nil, List.sum_nil, add_zero]

theorem refl (app : App) : Delivers app app none none := of_eq rfl rfl (.inr rfl)

theorem schedule (h : app'.pending = app.pending ∧ app'.balance = app.balance ∧
    app'.lastTxMessage = app.lastTxMessage) (task? : Option Task) :
    Delivers app (app'.schedule task?) task? none := by
  obtain ⟨hpending, hbalance, hmessage⟩ := h
  cases task? with
  | none => exact of_eq hpending hbalance (.inr hmessage)
  | some task =>
    refine ⟨?_, hbalance.trans (add_zero _).symm, .inr hmessage⟩
    unfold App.schedule
    rw [hpending, Option.toList_none, Multiset.coe_nil, zero_add, Option.toList_some,
      Multiset.coe_singleton, add_comm, Multiset.singleton_add]

theorem resume {task : Task} (h : task ∈ app.pending) :
    Delivers app (app.resume task) none (some task) := by
  have hpending : (app.resume task).pending = app.pending.erase task := by
    unfold App.resume
    rw [if_pos h]
    cases task <;> rfl
  have hbalance : (app.resume task).balance = app.balance + task.change := by
    have haccount := congrArg Account.balance (account_resume h)
    rwa [Account.settle_of_mem (Multiset.mem_map_of_mem _ h)] at haccount
  have hmessage : (app.resume task).lastTxMessage = some task.message := by
    unfold App.resume
    rw [if_pos h]
    cases task <;> rfl
  refine ⟨?_, ?_, .inr hmessage⟩
  · rw [hpending, Option.toList_some, Option.toList_none, Multiset.coe_singleton,
      Multiset.singleton_add, Multiset.cons_erase h]
    exact (add_zero _).symm
  · rw [hbalance, Option.toList_some, List.map_singleton, List.sum_singleton]

end Delivers

/-- What a step hands over and completes, and nothing else, changes tasks, balance and message. -/
theorem delivers_step (app : App) (event : Event) :
    Delivers app (app.step event) (app.submits event) (app.completes event) := by
  cases event with
  | submitDeposit =>
    dsimp only [step, submitDeposit, submits, completes]
    split
    · exact .refl app
    · refine .schedule ?_ _
      exact ⟨rfl, rfl, rfl⟩
  | submitTransfer =>
    dsimp only [step, submitTransfer, submits, completes]
    split
    · exact .refl app
    · refine .schedule ?_ _
      exact ⟨rfl, rfl, rfl⟩
  | confirmWithdraw =>
    dsimp only [step, confirmWithdraw, submits, completes]
    split
    · refine .schedule ?_ _
      exact ⟨rfl, rfl, rfl⟩
    · exact .refl app
  | resume task =>
    dsimp only [step, submits, completes]
    by_cases h : task ∈ app.pending
    · rw [if_pos h]
      exact .resume h
    · rw [if_neg h, resume, if_neg h]
      exact .refl app
  | openWithdraw =>
    dsimp only [step, openWithdraw]
    split
    · exact .of_eq rfl rfl (.inr rfl)
    · exact .refl app
  | cancelWithdraw =>
    dsimp only [step]
    split
    · exact .of_eq rfl rfl (.inr rfl)
    · exact .refl app
  | dismissMessage => exact .of_eq rfl rfl (.inl rfl)
  | _ => exact .of_eq rfl rfl (.inr rfl)

theorem checked_of_submits {app : App} {event : Event} {task : Task}
    (h : app.submits event = some task) : task.Checked app := by
  cases event with
  | submitDeposit =>
    dsimp only [submits] at h
    split at h
    · cases h
    · obtain ⟨amount, hamount, rfl⟩ := Option.map_eq_some_iff.1 h
      exact DepositForm.handleSubmit_eq_some_iff.1 hamount
  | submitTransfer =>
    dsimp only [submits] at h
    split at h
    · cases h
    · obtain ⟨⟨recipient, amount⟩, hsubmit, rfl⟩ := Option.map_eq_some_iff.1 h
      exact TransferForm.handleSubmit_eq_some_iff.1 hsubmit
  | confirmWithdraw =>
    dsimp only [submits] at h
    split at h
    · next henabled =>
      cases h
      simp only [actionsEnabled, Bool.and_eq_true, Bool.not_eq_true'] at henabled
      exact ⟨henabled, rfl, rfl⟩
    · cases h
  | _ => cases h

theorem mem_pending_of_completes {app : App} {event : Event} {task : Task}
    (h : app.completes event = some task) : task ∈ app.pending := by
  cases event with
  | resume task' =>
    dsimp only [completes] at h
    split at h
    · next hmem =>
      cases h
      exact hmem
    · cases h
  | _ => cases h

end App

/-! ## Whole runs -/

/-- The client as a machine with tasks. -/
def clientTasks : Tasks client Task where
  submits := App.submits
  completes := App.completes
  pending := App.pending
  mem_pending := App.mem_pending_of_completes
  pending_step app event := (app.delivers_step event).pending

/-- A message that is shown is that of the last completion. -/
theorem message_run (balance : ℚ) (events : List Event) :
    (client.run (.mounted balance) events).lastTxMessage = none ∨
    (client.run (.mounted balance) events).lastTxMessage =
      ((clientTasks.completed (.mounted balance) events).getLast?).map Task.message := by
  induction events using List.reverseRecOn with
  | nil => exact .inl rfl
  | append_singleton events event ih =>
    rw [Machine.run_concat, Tasks.completed_concat]
    have hstep := ((client.run (.mounted balance) events).delivers_step event).message
    change (client.step _ event).2.lastTxMessage = none ∨ (client.step _ event).2.lastTxMessage =
      ((clientTasks.completes _ event).map Task.message).or _ at hstep
    rcases hstep with hnone | hmessage
    · exact .inl hnone
    · rw [hmessage]
      cases clientTasks.completes (client.run (.mounted balance) events) event with
      | none =>
        rw [Option.toList_none, List.append_nil]
        exact ih
      | some task =>
        rw [Option.toList_some, List.getLast?_concat]
        exact .inr rfl

/-- Along every run of the client, starting from any balance and whatever the order of the timers:
the balance is the initial one with the changes of the completed tasks; a task that was submitted
has completed, once, or is in flight; the tasks of a kind complete in the order of their submission,
with at most one in flight; every task was handed over by an event of the run and checked then
against the app as it was; and a message that is shown is that of the last completion. With nothing
in flight all that was submitted is in the balance. -/
theorem every_task_settles_once (balance : ℚ) (events : List Event) :
    let app := client.run (.mounted balance) events
    let submitted := clientTasks.submitted (.mounted balance) events
    let completed := clientTasks.completed (.mounted balance) events
    app.balance = balance + (completed.map Task.change).sum ∧
    (submitted : Multiset Task) = completed + app.pending ∧
    (∀ flow, ∃ waiting,
      submitted.filter (fun task => task.flow = flow) =
        completed.filter (fun task => task.flow = flow) ++ waiting ∧
      (waiting : Multiset Task) = app.pending.filter (fun task => task.flow = flow) ∧
      waiting.length ≤ 1) ∧
    (∀ n task, submitted[n]? = some task → ∃ before event, before ++ [event] <+: events ∧
      (clientTasks.submitted (.mounted balance) before).length = n ∧
      (client.run (.mounted balance) before).submits event = some task ∧
      task.Checked (client.run (.mounted balance) before)) ∧
    (app.lastTxMessage = none ∨ app.lastTxMessage = completed.getLast?.map Task.message) ∧
    (app.pending = 0 → app.balance = balance + (submitted.map Task.change).sum) := by
  intro app submitted completed
  have hbalance : app.balance = balance + (completed.map Task.change).sum :=
    clientTasks.observe_completed App.balance Task.change
      (fun app event => (app.delivers_step event).balance) events
  have hsubmitted : (submitted : Multiset Task) = completed + app.pending :=
    clientTasks.submitted_eq rfl events
  refine ⟨hbalance, hsubmitted, fun flow => ?_, fun n task htask => ?_, message_run balance events,
    fun hidle => ?_⟩
  · have hone : ∀ events, (client.run (.mounted balance) events).inFlight flow ≤ 1 := by
      intro events
      rw [inFlight_run]
      split
      · exact Nat.le_refl 1
      · exact Nat.zero_le 1
    obtain ⟨waiting, horder, hwaiting⟩ :=
      clientTasks.inOrder (fun task => task.flow = flow) rfl hone events
    refine ⟨waiting, horder, hwaiting, ?_⟩
    rw [← Multiset.coe_card, hwaiting, ← Multiset.countP_eq_card_filter]
    exact hone events
  · obtain ⟨before, event, hprefix, hlength, hsubmits⟩ :=
      Machine.exists_step_of_getElem?_collect htask
    exact ⟨before, event, hprefix, hlength, hsubmits, App.checked_of_submits hsubmits⟩
  · rw [hidle, add_zero] at hsubmitted
    rw [hbalance, ← Multiset.sum_coe, ← Multiset.sum_coe, ← Multiset.map_coe, ← Multiset.map_coe,
      hsubmitted]

end PrivacyShield.Client
