import Mathlib.Data.Rat.Floor
import PrivacyShield.Client.Forms
import PrivacyShield.Lib.Machine
import PrivacyShield.Lib.Settlement

/-!
# The web client's operation flows

`App.tsx` with the controls of `WithdrawConfirmationModal.tsx` and `PercentageSlider.tsx`. A flow is
cut at its `await`: the user's submission leaves a `Task` behind, which carries what the closure of
the submission captured, and the task is resumed at any later time. An event that a disabled or
absent control would deliver has no effect. Balances are exact rationals, as the amounts of the forms
are, where the source computes with doubles.
-/

namespace PrivacyShield.Client

open PrivacyShield.Lib

/-- `Math.round`: the nearest integer, upwards from the middle, of an exact argument. -/
def mathRound (x : ℚ) : ℚ := ⌊x + 1 / 2⌋

/-- A percentage of the slider. -/
structure Percentage where
  val : ℚ
  nonneg : 0 ≤ val
  le_hundred : val ≤ 100
  deriving DecidableEq

/-- What a flow has captured while it waits. -/
inductive Task where
  | deposit (amount : ℚ)
  | transfer (recipient : JsString) (amount : ℚ)
  | withdraw (withdrawPct : Percentage) (balance : ℚ)
  deriving DecidableEq

structure App where
  balance : ℚ
  lastTxMessage : Option Message := none
  withdrawModalOpen : Bool := false
  withdrawLoading : Bool := false
  withdrawPct : Percentage := ⟨0, le_rfl, by decide⟩
  depositForm : DepositForm := {}
  transferForm : TransferForm := {}
  /-- The tasks whose timers run. -/
  pending : Multiset Task := 0

/-- What the user does, and the timers. -/
inductive Event where
  | changeDepositAmount (amount : Option ℚ)
  | clickMax
  | submitDeposit
  | changeRecipient (recipient : JsString)
  | changeTransferAmount (amount : Option ℚ)
  | submitTransfer
  | changeWithdrawPct (withdrawPct : Percentage)
  | openWithdraw
  | cancelWithdraw
  | closeWithdraw
  | confirmWithdraw
  | dismissMessage
  | resume (task : Task)

namespace App

/-- The app as it is mounted, with a balance; `App.tsx` mounts it with 250. -/
def mounted (balance : ℚ) : App := { balance }

/-- The properties of the deposit form. -/
def depositProps : DepositFormProps := { maxBalance := 1000, tokenSymbol := "XLM" }

variable (app : App)

/-- The properties of the transfer form. -/
def transferProps : TransferFormProps := { shieldedBalance := app.balance, tokenSymbol := "XLM" }

/-- The amount a withdrawal is shown with. -/
def withdrawAmount : ℚ := mathRound (app.withdrawPct.val / 100 * app.balance)

/-- A submission that was handed over waits for its timer. -/
def schedule : Option Task → App
  | some task => { app with pending := task ::ₘ app.pending }
  | none => app

/-- The button that opens the modal, disabled when there is nothing to withdraw. -/
def openWithdraw : App :=
  if 0 < app.withdrawAmount then { app with withdrawModalOpen := true } else app

/-- `onClose` of the modal: its cancel button, its close button and its backdrop. -/
def onClose : App := { app with withdrawModalOpen := false }

/-! ## Submissions -/

def submitDeposit : App :=
  if app.depositForm.submitDisabled depositProps then app
  else
    let (form, amount) := app.depositForm.handleSubmit depositProps
    { app with depositForm := form }.schedule (amount.map .deposit)

def submitTransfer : App :=
  if app.transferForm.submitDisabled app.transferProps then app
  else
    let (form, submitted) := app.transferForm.handleSubmit app.transferProps
    { app with transferForm := form }.schedule
      (submitted.map fun (recipient, amount) => .transfer recipient amount)

/-- The modal's cancel and confirm buttons are there and enabled. -/
def actionsEnabled : Bool := app.withdrawModalOpen && !app.withdrawLoading

/-- `handleWithdrawConfirm` captures the percentage and the balance of the render it belongs to. -/
def confirmWithdraw : App :=
  if app.actionsEnabled then
    { app with withdrawLoading := true }.schedule (some (.withdraw app.withdrawPct app.balance))
  else app

/-! ## Completions -/

/-- `handleDeposit` after its wait, and the rest of the form's submission. -/
def handleDeposit (amount : ℚ) : App :=
  { app with
    balance := app.balance + amount
    lastTxMessage :=
      some [.text "Successfully shielded ", .number amount, .text " XLM into pool!"]
    depositForm := app.depositForm.submitted }

/-- `handleTransfer` after its wait, and the rest of the form's submission. -/
def handleTransfer (recipient : JsString) (amount : ℚ) : App :=
  { app with
    balance := app.balance - amount
    lastTxMessage := some [.text "Confidential transfer of ", .number amount,
      .text " XLM sent to ", .string (recipient.take 8), .text "...!"]
    transferForm := .submitted }

/-- `handleWithdrawConfirm` after its wait, on the captured percentage and balance. -/
def handleWithdrawConfirm (withdrawPct : Percentage) (balance : ℚ) : App :=
  let withdrawAmount := mathRound (withdrawPct.val / 100 * balance)
  { app with
    balance := app.balance - withdrawAmount
    lastTxMessage := some [.text "Successfully withdrew ", .number withdrawAmount,
      .text " XLM to your public address!"]
    withdrawLoading := false
    withdrawModalOpen := false }

/-- A timer fires. -/
def resume (task : Task) : App :=
  if task ∈ app.pending then
    let app := { app with pending := app.pending.erase task }
    match task with
    | .deposit amount => app.handleDeposit amount
    | .transfer recipient amount => app.handleTransfer recipient amount
    | .withdraw withdrawPct balance => app.handleWithdrawConfirm withdrawPct balance
  else app

def step : Event → App
  | .changeDepositAmount amount =>
    { app with depositForm := app.depositForm.changeAmount depositProps amount }
  | .clickMax => { app with depositForm := app.depositForm.handleMaxClick depositProps }
  | .submitDeposit => app.submitDeposit
  | .changeRecipient recipient =>
    { app with transferForm := app.transferForm.changeRecipient app.transferProps recipient }
  | .changeTransferAmount amount =>
    { app with transferForm := app.transferForm.changeAmount app.transferProps amount }
  | .submitTransfer => app.submitTransfer
  | .changeWithdrawPct withdrawPct => { app with withdrawPct }
  | .openWithdraw => app.openWithdraw
  | .cancelWithdraw => if app.actionsEnabled then app.onClose else app
  | .closeWithdraw => app.onClose
  | .confirmWithdraw => app.confirmWithdraw
  | .dismissMessage => { app with lastTxMessage := none }
  | .resume task => app.resume task

end App

/-- The running client. -/
def client : Machine App Event Unit where
  step app event := ((), app.step event)

end PrivacyShield.Client
