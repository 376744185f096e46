import PrivacyShield.Client.Flows

/-!
# What the forms show

While a flow is in flight its form shows what was submitted: the transfer form exactly, the deposit
form unless its MAX button, which stays enabled, was clicked in the meantime. And a form never shows
an error that is not about its current content, up to the balance that the amount of a transfer was
compared with: that is one the app has shown before (`forms_honest_run`).
-/

namespace PrivacyShield.Client

open PrivacyShield.Lib

/-! ## What a submission leaves in its form -/

namespace DepositForm

variable {props : DepositFormProps} {form : DepositForm}

theorem handleSubmit_of_eq_some {amount : ℚ} (h : (form.handleSubmit props).2 = some amount) :
    (form.handleSubmit props).1 = ⟨some amount, none, true⟩ := by
  obtain ⟨hamount, hpos, hle⟩ := handleSubmit_eq_some_iff.1 h
  unfold handleSubmit
  rw [hamount]
  dsimp only
  rw [if_neg (not_le.2 hpos), if_neg (not_lt.2 hle)]

/-- The amount stays, and with it the error that a further submission would show. -/
theorem error_handleSubmit_handleSubmit :
    ((form.handleSubmit props).1.handleSubmit props).1.error =
      (form.handleSubmit props).1.error := by
  cases hamount : form.amount with
  | none => simp [handleSubmit, hamount]
  | some parsed =>
    by_cases hpos : parsed ≤ 0
    · simp [handleSubmit, hamount, hpos]
    · by_cases hmax : props.maxBalance < parsed
      · simp [handleSubmit, hamount, hpos, hmax]
      · simp [handleSubmit, hamount, hpos, hmax]

end DepositForm

namespace TransferForm

variable {props : TransferFormProps} {form form' : TransferForm}

theorem recipientError_congr (h : form.recipient = form'.recipient) :
    form.recipientError = form'.recipientError := by
  unfold recipientError
  rw [h]

theorem amountError_congr (h : form.amount = form'.amount) :
    form.amountError props = form'.amountError props := by
  unfold amountError
  rw [h]

/-- A submission leaves the fields as they are and shows their errors. -/
theorem handleSubmit_fst (form : TransferForm) (props : TransferFormProps) :
    (form.handleSubmit props).1.recipient = form.recipient ∧
      (form.handleSubmit props).1.amount = form.amount ∧
      (form.handleSubmit props).1.errors = ⟨form.recipientError, form.amountError props⟩ := by
  unfold handleSubmit validate
  dsimp only
  split
  · exact ⟨rfl, rfl, rfl⟩
  · exact ⟨rfl, rfl, rfl⟩

theorem recipientError_handleSubmit :
    (form.handleSubmit props).1.errors.recipient =
      (form.handleSubmit props).1.recipientError := by
  obtain ⟨hrecipient, -, herrors⟩ := handleSubmit_fst form props
  rw [herrors, recipientError_congr hrecipient]

theorem amountError_handleSubmit :
    (form.handleSubmit props).1.errors.amount = (form.handleSubmit props).1.amountError props := by
  obtain ⟨-, hamount, herrors⟩ := handleSubmit_fst form props
  rw [herrors, amountError_congr hamount]

theorem handleSubmit_of_eq_some {recipient : JsString} {amount : ℚ}
    (h : (form.handleSubmit props).2 = some (recipient, amount)) :
    (form.handleSubmit props).1 = ⟨recipient, some amount, {}, true⟩ := by
  obtain ⟨rfl, hamount, hrecipient, hpos, hle⟩ := handleSubmit_eq_some_iff.1 h
  have hnone : form.recipientError = none := recipientError_eq_none_iff.2 hrecipient
  have hnone' : form.amountError props = none :=
    amountError_eq_none_iff.2 ⟨amount, hamount, hpos, hle⟩
  unfold handleSubmit validate
  rw [hnone, hnone', hamount]
  rfl

end TransferForm

namespace App

variable {app app' : App}

/-- No flow of a kind waits while its loading flag is off. -/
theorem FlagsMatch.notMem_pending (h : app.FlagsMatch) {task : Task}
    (hoff : app.loading task.flow = false) : task ∉ app.pending := by
  have hzero : app.inFlight task.flow = 0 := by rw [h, hoff, Bool.toNat_false]
  intro htask
  exact Multiset.countP_eq_zero.1 hzero task htask rfl

@[simp] theorem depositForm_schedule (submitted : Option Task) :
    (app.schedule submitted).depositForm = app.depositForm := by
  cases submitted <;> rfl

@[simp] theorem transferForm_schedule (submitted : Option Task) :
    (app.schedule submitted).transferForm = app.transferForm := by
  cases submitted <;> rfl

theorem mem_pending_schedule {submitted : Option Task} {task : Task}
    (h : task ∈ (app.schedule submitted).pending) : submitted = some task ∨ task ∈ app.pending := by
  cases submitted with
  | none => exact .inr h
  | some scheduled =>
    rcases Multiset.mem_cons.1 h with rfl | hold
    · exact .inl rfl
    · exact .inr hold

/-! ## The deposit form -/

/-- The error is the one that a submission would show now, and a deposit in flight is the one in the
form, or MAX was clicked since. -/
structure DepositHonest (app : App) : Prop where
  error : app.depositForm.error = none ∨
    app.depositForm.error = (app.depositForm.handleSubmit depositProps).1.error
  pending : ∀ amount, .deposit amount ∈ app.pending → app.depositForm.error = none ∧
    (app.depositForm.amount = some amount ∨
      app.depositForm.amount = some depositProps.maxBalance)

namespace DepositHonest

theorem of_eq (h : app.DepositHonest) (hform : app'.depositForm = app.depositForm)
    (hpending : ∀ amount, .deposit amount ∈ app'.pending → .deposit amount ∈ app.pending) :
    app'.DepositHonest := by
  refine ⟨?_, fun amount hamount => ?_⟩
  · rw [hform]
    exact h.error
  · rw [hform]
    exact h.pending amount (hpending amount hamount)

/-- While no deposit is in flight only the error matters. -/
theorem of_idle (herror : app.depositForm.error = none ∨
      app.depositForm.error = (app.depositForm.handleSubmit depositProps).1.error)
    (hidle : ∀ amount, .deposit amount ∉ app.pending) : app.DepositHonest :=
  ⟨herror, fun amount hamount => absurd hamount (hidle amount)⟩

theorem submitDeposit (h : app.DepositHonest) (hflags : app.FlagsMatch) :
    app.submitDeposit.DepositHonest := by
  unfold App.submitDeposit
  by_cases hdisabled : app.depositForm.submitDisabled depositProps = true
  · rwa [if_pos hdisabled]
  · rw [if_neg hdisabled]
    have hoff : app.depositForm.internalLoading = false := by
      simp only [DepositForm.submitDisabled, DepositForm.loading, Bool.or_eq_true, not_or,
        Bool.not_eq_true] at hdisabled
      exact hdisabled.1.2
    have hidle : ∀ amount, .deposit amount ∉ app.pending := fun amount =>
      hflags.notMem_pending hoff
    refine ⟨?_, fun amount hmem => ?_⟩
    · rw [depositForm_schedule]
      exact .inr DepositForm.error_handleSubmit_handleSubmit.symm
    · rcases mem_pending_schedule hmem with hsubmitted | hold
      · obtain ⟨parsed, hparsed, heq⟩ := Option.map_eq_some_iff.1 hsubmitted
        cases heq
        rw [depositForm_schedule]
        rw [DepositForm.handleSubmit_of_eq_some hparsed]
        exact ⟨rfl, .inl rfl⟩
      · exact absurd hold (hidle amount)

theorem resume (h : app.DepositHonest) (hflags : app.FlagsMatch) (task : Task) :
    (app.resume task).DepositHonest := by
  have hflags' := hflags.resume task
  unfold App.resume at hflags' ⊢
  by_cases htask : task ∈ app.pending
  · rw [if_pos htask] at hflags' ⊢
    cases task with
    | deposit amount =>
      refine of_idle (.inl (h.pending amount htask).1) fun amount' => ?_
      exact hflags'.notMem_pending rfl
    | transfer recipient amount => exact h.of_eq rfl fun _ hmem => Multiset.mem_of_mem_erase hmem
    | withdraw pct balance => exact h.of_eq rfl fun _ hmem => Multiset.mem_of_mem_erase hmem
  · rwa [if_neg htask]

theorem step (h : app.DepositHonest) (hflags : app.FlagsMatch) (event : Event) :
    (app.step event).DepositHonest := by
  cases event with
  | submitDeposit => exact h.submitDeposit hflags
  | resume task => exact h.resume hflags task
  | changeDepositAmount amount =>
    dsimp only [App.step, DepositForm.changeAmount]
    split
    · exact h
    · next hloading =>
      have hoff : app.depositForm.internalLoading = false := by
        simpa [DepositForm.loading, depositProps] using hloading
      exact of_idle (.inl rfl) fun amount' => hflags.notMem_pending hoff
  | clickMax => exact ⟨.inl rfl, fun _ _ => ⟨rfl, .inr rfl⟩⟩
  | submitTransfer =>
    dsimp only [App.step, App.submitTransfer]
    split
    · exact h
    · refine h.of_eq (depositForm_schedule _) fun amount hmem => ?_
      rcases mem_pending_schedule hmem with hsubmitted | hold
      · obtain ⟨transfer, -, heq⟩ := Option.map_eq_some_iff.1 hsubmitted
        cases heq
      · exact hold
  | confirmWithdraw =>
    dsimp only [App.step, App.confirmWithdraw]
    split
    · refine h.of_eq rfl fun amount hmem => ?_
      rcases mem_pending_schedule hmem with hsubmitted | hold
      · cases hsubmitted
      · exact hold
    · exact h
  | openWithdraw =>
    dsimp only [App.step, App.openWithdraw]
    split
    · exact h.of_eq rfl fun _ => id
    · exact h
  | cancelWithdraw =>
    dsimp only [App.step]
    split
    · exact h.of_eq rfl fun _ => id
    · exact h
  | _ => exact h.of_eq rfl fun _ => id

end DepositHonest

/-! ## The transfer form -/

/-- The errors are those of the fields as they are now, the one of the amount against a balance that
was seen, and a transfer in flight is the one in the form. -/
structure TransferHonest (seen : ℚ → Prop) (app : App) : Prop where
  recipient : app.transferForm.errors.recipient = none ∨
    app.transferForm.errors.recipient = app.transferForm.recipientError
  amount : app.transferForm.errors.amount = none ∨ ∃ balance, seen balance ∧
    app.transferForm.errors.amount =
      app.transferForm.amountError { shieldedBalance := balance, tokenSymbol := "XLM" }
  pending : ∀ recipient amount, .transfer recipient amount ∈ app.pending →
    app.transferForm = ⟨recipient, some amount, {}, true⟩

namespace TransferHonest

variable {seen seen' : ℚ → Prop}

theorem mono (h : app.TransferHonest seen) (hseen : ∀ balance, seen balance → seen' balance) :
    app.TransferHonest seen' := by
  refine ⟨h.recipient, ?_, h.pending⟩
  rcases h.amount with hnone | ⟨balance, hbalance, heq⟩
  · exact .inl hnone
  · exact .inr ⟨balance, hseen balance hbalance, heq⟩

theorem of_eq (h : app.TransferHonest seen) (hform : app'.transferForm = app.transferForm)
    (hpending : ∀ recipient amount, .transfer recipient amount ∈ app'.pending →
      .transfer recipient amount ∈ app.pending) : app'.TransferHonest seen := by
  refine ⟨?_, ?_, fun recipient amount hmem => ?_⟩
  · rw [hform]
    exact h.recipient
  · rw [hform]
    exact h.amount
  · rw [hform]
    exact h.pending recipient amount (hpending recipient amount hmem)

theorem submitTransfer (h : app.TransferHonest seen) (hflags : app.FlagsMatch)
    (hseen : seen app.balance) : app.submitTransfer.TransferHonest seen := by
  unfold App.submitTransfer
  by_cases hdisabled : app.transferForm.submitDisabled app.transferProps = true
  · rwa [if_pos hdisabled]
  · rw [if_neg hdisabled]
    have hoff : app.transferForm.internalLoading = false := by
      simp only [TransferForm.submitDisabled, TransferForm.loading, Bool.or_eq_true, not_or,
        Bool.not_eq_true] at hdisabled
      exact hdisabled.1.1.2
    refine ⟨?_, ?_, fun recipient amount hmem => ?_⟩
    · rw [transferForm_schedule]
      exact .inr TransferForm.recipientError_handleSubmit
    · rw [transferForm_schedule]
      exact .inr ⟨app.balance, hseen, TransferForm.amountError_handleSubmit⟩
    · rcases mem_pending_schedule hmem with hsubmitted | hold
      · obtain ⟨transfer, htransfer, heq⟩ := Option.map_eq_some_iff.1 hsubmitted
        cases heq
        rw [transferForm_schedule]
        exact TransferForm.handleSubmit_of_eq_some htransfer
      · exact absurd hold (hflags.notMem_pending hoff)

theorem resume (h : app.TransferHonest seen) (hflags : app.FlagsMatch) (task : Task) :
    (app.resume task).TransferHonest seen := by
  have hflags' := hflags.resume task
  unfold App.resume at hflags' ⊢
  by_cases htask : task ∈ app.pending
  · rw [if_pos htask] at hflags' ⊢
    cases task with
    | transfer recipient amount =>
      refine ⟨.inl rfl, .inl rfl, fun recipient' amount' hmem => ?_⟩
      exact absurd hmem (hflags'.notMem_pending rfl)
    | deposit amount => exact h.of_eq rfl fun _ _ hmem => Multiset.mem_of_mem_erase hmem
    | withdraw pct balance => exact h.of_eq rfl fun _ _ hmem => Multiset.mem_of_mem_erase hmem
  · rwa [if_neg htask]

/-- A field changes, and its error goes, only while no transfer is in flight. -/
theorem changed (h : app.TransferHonest seen) (hflags : app.FlagsMatch)
    (hoff : app.transferForm.internalLoading = false) {form : TransferForm}
    (hrecipient : form.errors.recipient = none ∨
      form.errors.recipient = app.transferForm.errors.recipient ∧
        form.recipient = app.transferForm.recipient)
    (hamount : form.errors.amount = none ∨
      form.errors.amount = app.transferForm.errors.amount ∧
        form.amount = app.transferForm.amount) :
    { app with transferForm := form }.TransferHonest seen := by
  refine ⟨?_, ?_, fun recipient amount hmem => absurd hmem (hflags.notMem_pending hoff)⟩
  · rcases hrecipient with hnone | ⟨herror, hsame⟩
    · exact .inl hnone
    · rcases h.recipient with hnone | heq
      · exact .inl (herror.trans hnone)
      · exact .inr (herror.trans (heq.trans (TransferForm.recipientError_congr hsame.symm)))
  · rcases hamount with hnone | ⟨herror, hsame⟩
    · exact .inl hnone
    · rcases h.amount with hnone | ⟨balance, hbalance, heq⟩
      · exact .inl (herror.trans hnone)
      · refine .inr ⟨balance, hbalance, ?_⟩
        exact herror.trans (heq.trans (TransferForm.amountError_congr hsame.symm))

theorem step (h : app.TransferHonest seen) (hflags : app.FlagsMatch) (hseen : seen app.balance)
    (event : Event) : (app.step event).TransferHonest seen := by
  cases event with
  | submitTransfer => exact h.submitTransfer hflags hseen
  | resume task => exact h.resume hflags task
  | changeRecipient recipient =>
    dsimp only [App.step, TransferForm.changeRecipient]
    split
    · exact h
    · next hloading =>
      have hoff : app.transferForm.internalLoading = false := by
        simpa [TransferForm.loading, transferProps] using hloading
      exact h.changed hflags hoff (.inl rfl) (.inr ⟨rfl, rfl⟩)
  | changeTransferAmount amount =>
    dsimp only [App.step, TransferForm.changeAmount]
    split
    · exact h
    · next hloading =>
      have hoff : app.transferForm.internalLoading = false := by
        simpa [TransferForm.loading, transferProps] using hloading
      exact h.changed hflags hoff (.inr ⟨rfl, rfl⟩) (.inl rfl)
  | submitDeposit =>
    dsimp only [App.step, App.submitDeposit]
    split
    · exact h
    · refine h.of_eq (transferForm_schedule _) fun recipient amount hmem => ?_
      rcases mem_pending_schedule hmem with hsubmitted | hold
      · obtain ⟨parsed, -, heq⟩ := Option.map_eq_some_iff.1 hsubmitted
        cases heq
      · exact hold
  | confirmWithdraw =>
    dsimp only [App.step, App.confirmWithdraw]
    split
    · refine h.of_eq rfl fun recipient amount hmem => ?_
      rcases mem_pending_schedule hmem with hsubmitted | hold
      · cases hsubmitted
      · exact hold
    · exact h
  | openWithdraw =>
    dsimp only [App.step, App.openWithdraw]
    split
    · exact h.of_eq rfl fun _ _ => id
    · exact h
  | cancelWithdraw =>
    dsimp only [App.step]
    split
    · exact h.of_eq rfl fun _ _ => id
    · exact h
  | _ => exact h.of_eq rfl fun _ _ => id

end TransferHonest

end App

/-- The balances that the app shows before and between the events. -/
def shown (balance : ℚ) (events : List Event) (amount : ℚ) : Prop :=
  ∃ before, before <+: events ∧ (client.run (.mounted balance) before).balance = amount

/-- In every state of a run both forms are honest: what is in flight is what they show, a click on
MAX since then aside, and an error is about what they show. -/
theorem forms_honest_run (balance : ℚ) (events : List Event) :
    (client.run (.mounted balance) events).DepositHonest ∧
      (client.run (.mounted balance) events).TransferHonest (shown balance events) := by
  induction events using List.reverseRecOn with
  | nil =>
    refine ⟨⟨.inl rfl, fun amount hmem => ?_⟩, ⟨.inl rfl, .inl rfl, fun _ _ hmem => ?_⟩⟩
    · exact absurd hmem (Multiset.notMem_zero _)
    · exact absurd hmem (Multiset.notMem_zero _)
  | append_singleton events event ih =>
    obtain ⟨hdeposit, htransfer⟩ := ih
    have hflags := flagsMatch_run balance events
    rw [Machine.run_concat]
    refine ⟨hdeposit.step hflags event, ?_⟩
    refine (htransfer.step hflags ⟨events, List.prefix_rfl, rfl⟩ event).mono ?_
    rintro amount ⟨before, hbefore, rfl⟩
    exact ⟨before, hbefore.trans (List.prefix_append events [event]), rfl⟩

end PrivacyShield.Client
