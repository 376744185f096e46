import PrivacyShield.Client.App

/-!
# Flows in flight

A control is disabled while a flow of its kind is in flight, by a loading flag that the submission
sets and the completion clears. So each flag counts the flows of its kind (`App.FlagsMatch`), and at
most one flow of each kind is in flight at a time (`inFlight_run`).
-/

namespace PrivacyShield.Client

open PrivacyShield.Lib

/-- The kinds of flows. -/
inductive Flow where
  | deposit
  | transfer
  | withdraw
  deriving DecidableEq

def Task.flow : Task → Flow
  | .deposit _ => .deposit
  | .transfer _ _ => .transfer
  | .withdraw _ _ => .withdraw

namespace App

/-- The loading flag of a kind of flow. -/
def loading (app : App) : Flow → Bool
  | .deposit => app.depositForm.internalLoading
  | .transfer => app.transferForm.internalLoading
  | .withdraw => app.withdrawLoading

/-- The number of flows of a kind that wait for their timer. -/
def inFlight (app : App) (flow : Flow) : ℕ := app.pending.countP fun task => task.flow = flow

/-- Each loading flag says whether a flow of its kind is in flight, and there is no second one. -/
def FlagsMatch (app : App) : Prop := ∀ flow, app.inFlight flow = (app.loading flow).toNat

namespace FlagsMatch

variable {app app' : App}

theorem mounted (balance : ℚ) : (App.mounted balance).FlagsMatch := by
  intro flow
  cases flow <;> rfl

theorem of_eq (h : app.FlagsMatch) (hpending : app'.pending = app.pending)
    (hloading : ∀ flow, app'.loading flow = app.loading flow) : app'.FlagsMatch := by
  intro flow
  rw [inFlight, hpending, hloading]
  exact h flow

/-- A submission while no flow of its kind is in flight. -/
theorem submitted (h : app.FlagsMatch) (task : Task)
    (hpending : app'.pending = task ::ₘ app.pending) (hoff : app.loading task.flow = false)
    (hon : app'.loading task.flow = true)
    (hother : ∀ flow, flow ≠ task.flow → app'.loading flow = app.loading flow) :
    app'.FlagsMatch := by
  intro flow
  have hbefore := h flow
  unfold inFlight at hbefore ⊢
  rw [hpending, Multiset.countP_cons, hbefore]
  by_cases hflow : task.flow = flow
  · subst hflow
    rw [if_pos rfl, hoff, hon]
    rfl
  · rw [if_neg hflow, hother flow (Ne.symm hflow), Nat.add_zero]

/-- A completion. -/
theorem resumed (h : app.FlagsMatch) {task : Task} (htask : task ∈ app.pending)
    (hpending : app'.pending = app.pending.erase task) (hoff : app'.loading task.flow = false)
    (hother : ∀ flow, flow ≠ task.flow → app'.loading flow = app.loading flow) :
    app'.FlagsMatch := by
  intro flow
  have hbefore := h flow
  unfold inFlight at hbefore ⊢
  rw [← Multiset.cons_erase htask, Multiset.countP_cons] at hbefore
  rw [hpending]
  by_cases hflow : task.flow = flow
  · subst hflow
    have hle : (app.loading task.flow).toNat ≤ 1 := Bool.toNat_le _
    rw [if_pos rfl] at hbefore
    rw [hoff, Bool.toNat_false]
    omega
  · rw [if_neg hflow, Nat.add_zero] at hbefore
    rw [hbefore, hother flow (Ne.symm hflow)]

theorem submitDeposit (h : app.FlagsMatch) : app.submitDeposit.FlagsMatch := by
  unfold App.submitDeposit
  by_cases hdisabled : app.depositForm.submitDisabled depositProps = true
  · rwa [if_pos hdisabled]
  · have hoff : app.depositForm.internalLoading = false := by
      simp only [DepositForm.submitDisabled, DepositForm.loading, Bool.or_eq_true, not_or,
        Bool.not_eq_true] at hdisabled
      exact hdisabled.1.2
    rcases hsubmit : app.depositForm.handleSubmit depositProps with ⟨form, amount⟩
    have hloading : form.internalLoading = amount.isSome := by
      have hpair := DepositForm.internalLoading_handleSubmit hoff depositProps
      rwa [hsubmit] at hpair
    rw [if_neg hdisabled]
    cases amount with
    | none =>
      refine h.of_eq rfl fun flow => ?_
      cases flow with
      | deposit => exact hloading.trans hoff.symm
      | _ => rfl
    | some amount =>
      refine h.submitted (.deposit amount) rfl hoff hloading fun flow hne => ?_
      cases flow with
      | deposit => exact absurd rfl hne
      | _ => rfl

theorem submitTransfer (h : app.FlagsMatch) : app.submitTransfer.FlagsMatch := by
  unfold App.submitTransfer
  by_cases hdisabled : app.transferForm.submitDisabled app.transferProps = true
  · rwa [if_pos hdisabled]
  · have hoff : app.transferForm.internalLoading = false := by
      simp only [TransferForm.submitDisabled, TransferForm.loading, Bool.or_eq_true, not_or,
        Bool.not_eq_true] at hdisabled
      exact hdisabled.1.1.2
    rcases hsubmit : app.transferForm.handleSubmit app.transferProps with ⟨form, transfer⟩
    have hloading : form.internalLoading = transfer.isSome := by
      have hpair := TransferForm.internalLoading_handleSubmit hoff app.transferProps
      rwa [hsubmit] at hpair
    rw [if_neg hdisabled]
    cases transfer with
    | none =>
      refine h.of_eq rfl fun flow => ?_
      cases flow with
      | transfer => exact hloading.trans hoff.symm
      | _ => rfl
    | some transfer =>
      obtain ⟨recipient, amount⟩ := transfer
      refine h.submitted (.transfer recipient amount) rfl hoff hloading fun flow hne => ?_
      cases flow with
      | transfer => exact absurd rfl hne
      | _ => rfl

theorem confirmWithdraw (h : app.FlagsMatch) : app.confirmWithdraw.FlagsMatch := by
  unfold App.confirmWithdraw
  by_cases henabled : app.actionsEnabled = true
  · have hoff : app.withdrawLoading = false := by
      simp only [actionsEnabled, Bool.and_eq_true, Bool.not_eq_true'] at henabled
      exact henabled.2
    rw [if_pos henabled]
    refine h.submitted (.withdraw app.withdrawPct app.balance) rfl hoff rfl
      fun flow hne => ?_
    cases flow with
    | withdraw => exact absurd rfl hne
    | _ => rfl
  · rwa [if_neg henabled]

theorem resume (h : app.FlagsMatch) (task : Task) : (app.resume task).FlagsMatch := by
  unfold App.resume
  by_cases htask : task ∈ app.pending
  · rw [if_pos htask]
    cases task with
    | deposit amount =>
      refine h.resumed htask rfl rfl fun flow hne => ?_
      cases flow with
      | deposit => exact absurd rfl hne
      | _ => rfl
    | transfer recipient amount =>
      refine h.resumed htask rfl rfl fun flow hne => ?_
      cases flow with
      | transfer => exact absurd rfl hne
      | _ => rfl
    | withdraw withdrawPct balance =>
      refine h.resumed htask rfl rfl fun flow hne => ?_
      cases flow with
      | withdraw => exact absurd rfl hne
      | _ => rfl
  · rwa [if_neg htask]

theorem step (h : app.FlagsMatch) (event : Event) : (app.step event).FlagsMatch := by
  cases event with
  | submitDeposit => exact h.submitDeposit
  | submitTransfer => exact h.submitTransfer
  | confirmWithdraw => exact h.confirmWithdraw
  | resume task => exact h.resume task
  | changeDepositAmount amount =>
    refine h.of_eq rfl fun flow => ?_
    cases flow with
    | deposit => exact DepositForm.internalLoading_changeAmount
    | _ => rfl
  | changeRecipient recipient =>
    refine h.of_eq rfl fun flow => ?_
    cases flow with
    | transfer => exact TransferForm.internalLoading_changeRecipient
    | _ => rfl
  | changeTransferAmount amount =>
    refine h.of_eq rfl fun flow => ?_
    cases flow with
    | transfer => exact TransferForm.internalLoading_changeAmount
    | _ => rfl
  | openWithdraw =>
    dsimp only [App.step, App.openWithdraw]
    split
    · exact h.of_eq rfl fun flow => by cases flow <;> rfl
    · exact h
  | cancelWithdraw =>
    dsimp only [App.step]
    split
    · exact h.of_eq rfl fun flow => by cases flow <;> rfl
    · exact h
  | _ => exact h.of_eq rfl fun flow => by cases flow <;> rfl

end FlagsMatch

end App

theorem flagsMatch_run (balance : ℚ) (events : List Event) :
    (client.run (.mounted balance) events).FlagsMatch :=
  Machine.run_induction (P := App.FlagsMatch) (C := fun _ => True)
    (fun _ event _ h => h.step event) (.mounted balance) fun _ _ => trivial

/-- In every state of a run at most one flow of each kind is in flight, namely when its loading flag
is set. -/
theorem inFlight_run (balance : ℚ) (events : List Event) (flow : Flow) :
    (client.run (.mounted balance) events).inFlight flow =
      if (client.run (.mounted balance) events).loading flow then 1 else 0 := by
  rw [flagsMatch_run balance events flow]
  cases (client.run (.mounted balance) events).loading flow with
  | true => rfl
  | false => rfl

end PrivacyShield.Client
