import Mathlib.Algebra.Order.Ring.Rat

/-!
# The forms of the web client

`DepositForm.tsx` and `TransferForm.tsx`. Amounts are exact rationals, and a number field holds
`none` when its text is empty or no number, so that `parseFloat` is the content of the field.

A form's `handleSubmit` runs up to its `await` and hands over what it submits, if anything; what it
does once the submission has completed is a function of its own. Its `catch` branch is not modelled:
neither callback of `App` rejects.
-/

namespace PrivacyShield.Client

/-! ## Texts -/

/-- A JavaScript string, by its UTF-16 code units. -/
abbrev JsString := List UInt16

namespace JsString

/-- White space and line terminators, which `trim` removes. -/
def isSpace (c : UInt16) : Bool :=
  [0x9, 0xA, 0xB, 0xC, 0xD, 0x20, 0xA0, 0x1680, 0x2028, 0x2029, 0x202F, 0x205F, 0x3000,
    0xFEFF].contains c || (0x2000 ≤ c && c ≤ 0x200A)

/-- `!s.trim()`. -/
def isBlank (s : JsString) : Bool := s.all isSpace

/-- `s.startsWith('G')`. -/
def startsWithG (s : JsString) : Bool := s.head? == some 0x47

end JsString

/-- A part of a template literal. -/
inductive Piece where
  | text (s : String)
  | number (q : ℚ)
  | string (s : JsString)
  deriving DecidableEq

/-- A text shown to the user. -/
abbrev Message := List Piece

/-! ## Deposits -/

structure DepositFormProps where
  maxBalance : ℚ := 1000
  tokenSymbol : String := "XLM"
  isLoading : Bool := false

structure DepositForm where
  amount : Option ℚ := none
  error : Option Message := none
  internalLoading : Bool := false

namespace DepositForm

variable (props : DepositFormProps) (form : DepositForm)

def loading : Bool := props.isLoading || form.internalLoading

def submitDisabled : Bool := form.loading props || form.amount.isNone

def handleMaxClick : DepositForm := { form with amount := some props.maxBalance, error := none }

/-- The `onChange` of the amount field, which is disabled while loading. -/
def changeAmount (amount : Option ℚ) : DepositForm :=
  if form.loading props then form else { form with amount, error := none }

def handleSubmit : DepositForm × Option ℚ :=
  match form.amount with
  | none =>
    ({ form with error := some [.text "Please enter a valid deposit amount > 0."] }, none)
  | some parsed =>
    if parsed ≤ 0 then
      ({ form with error := some [.text "Please enter a valid deposit amount > 0."] }, none)
    else if props.maxBalance < parsed then
      ({ form with error := some [.text "Amount exceeds available balance (",
          .number props.maxBalance, .text " ", .text props.tokenSymbol, .text ")."] }, none)
    else ({ form with error := none, internalLoading := true }, some parsed)

/-- The rest of `handleSubmit`, once the deposit has completed. -/
def submitted : DepositForm := { form with amount := none, internalLoading := false }

variable {props form}

theorem internalLoading_changeAmount {amount : Option ℚ} :
    (form.changeAmount props amount).internalLoading = form.internalLoading := by
  unfold changeAmount
  split <;> rfl

/-- A deposit is handed over when its amount is positive and at most the maximum. -/
theorem handleSubmit_eq_some_iff {amount : ℚ} :
    (form.handleSubmit props).2 = some amount ↔
      form.amount = some amount ∧ 0 < amount ∧ amount ≤ props.maxBalance := by
  unfold handleSubmit
  cases form.amount with
  | none => simp
  | some parsed =>
    dsimp only
    by_cases hpos : parsed ≤ 0
    · rw [if_pos hpos]
      constructor
      · intro h
        cases h
      · rintro ⟨hparsed, hpos', -⟩
        cases hparsed
        exact absurd hpos (not_le.2 hpos')
    · rw [if_neg hpos]
      by_cases hmax : props.maxBalance < parsed
      · rw [if_pos hmax]
        constructor
        · intro h
          cases h
        · rintro ⟨hparsed, -, hle⟩
          cases hparsed
          exact absurd hmax (not_lt.2 hle)
      · rw [if_neg hmax]
        constructor
        · intro h
          cases h
          exact ⟨rfl, not_le.1 hpos, not_lt.1 hmax⟩
        · intro h
          exact h.1

/-- The form is loading after a submission exactly when it handed over a deposit. -/
theorem internalLoading_handleSubmit (h : form.internalLoading = false)
    (props : DepositFormProps) :
    (form.handleSubmit props).1.internalLoading = (form.handleSubmit props).2.isSome := by
  unfold handleSubmit
  cases form.amount with
  | none => exact h
  | some parsed =>
    dsimp only
    by_cases hpos : parsed ≤ 0
    · rw [if_pos hpos]
      exact h
    · rw [if_neg hpos]
      by_cases hmax : props.maxBalance < parsed
      · rw [if_pos hmax]
        exact h
      · rw [if_neg hmax]
        rfl

end DepositForm

/-! ## Transfers -/

structure TransferFormProps where
  shieldedBalance : ℚ := 500
  tokenSymbol : String := "XLM"
  isLoading : Bool := false

/-- The errors of the two fields. -/
structure TransferErrors where
  recipient : Option Message := none
  amount : Option Message := none

/-- `Object.keys(errors).length === 0`. -/
def TransferErrors.isEmpty (errors : TransferErrors) : Bool :=
  errors.recipient.isNone && errors.amount.isNone

structure TransferForm where
  recipient : JsString := []
  amount : Option ℚ := none
  errors : TransferErrors := {}
  internalLoading : Bool := false

namespace TransferForm

variable (props : TransferFormProps) (form : TransferForm)

def loading : Bool := props.isLoading || form.internalLoading

def submitDisabled : Bool :=
  form.loading props || form.recipient.isEmpty || form.amount.isNone

/-- The `onChange` of the recipient field, which is disabled while loading. -/
def changeRecipient (recipient : JsString) : TransferForm :=
  if form.loading props then form
  else { form with recipient, errors := { form.errors with recipient := none } }

/-- The `onChange` of the amount field, which is disabled while loading. -/
def changeAmount (amount : Option ℚ) : TransferForm :=
  if form.loading props then form
  else { form with amount, errors := { form.errors with amount := none } }

/-- What `validate` says of the recipient. -/
def recipientError : Option Message :=
  if form.recipient.isBlank then some [.text "Recipient address is required."]
  else if !form.recipient.startsWithG || form.recipient.length != 56 then
    some [.text "Must be a valid 56-character Stellar public address (G...)."]
  else none

/-- What `validate` says of the amount, which it compares with the balance that is shown. -/
def amountError : Option Message :=
  match form.amount with
  | none => some [.text "Please enter a valid transfer amount > 0."]
  | some parsedAmount =>
    if parsedAmount ≤ 0 then some [.text "Please enter a valid transfer amount > 0."]
    else if props.shieldedBalance < parsedAmount then
      some [.text "Amount exceeds shielded balance (", .number props.shieldedBalance, .text " ",
        .text props.tokenSymbol, .text ")."]
    else none

def validate : TransferForm × Bool :=
  let newErrors : TransferErrors := ⟨form.recipientError, form.amountError props⟩
  ({ form with errors := newErrors }, newErrors.isEmpty)

def handleSubmit : TransferForm × Option (JsString × ℚ) :=
  let (form, valid) := form.validate props
  if !valid then (form, none)
  else
    ({ form with internalLoading := true }, form.amount.map fun amount => (form.recipient, amount))

/-- The rest of `handleSubmit`, once the transfer has completed. -/
def submitted : TransferForm :=
  { recipient := [], amount := none, errors := {}, internalLoading := false }

variable {props form}

theorem internalLoading_changeRecipient {recipient : JsString} :
    (form.changeRecipient props recipient).internalLoading = form.internalLoading := by
  unfold changeRecipient
  split <;> rfl

theorem internalLoading_changeAmount {amount : Option ℚ} :
    (form.changeAmount props amount).internalLoading = form.internalLoading := by
  unfold changeAmount
  split <;> rfl

theorem recipientError_eq_none_iff :
    form.recipientError = none ↔
      form.recipient.isBlank = false ∧ form.recipient.startsWithG = true ∧
        form.recipient.length = 56 := by
  unfold recipientError
  cases form.recipient.isBlank with
  | true => simp
  | false => simp

theorem amountError_eq_none_iff :
    form.amountError props = none ↔
      ∃ amount, form.amount = some amount ∧ 0 < amount ∧ amount ≤ props.shieldedBalance := by
  unfold amountError
  cases form.amount with
  | none => simp
  | some parsedAmount =>
    by_cases hpos : parsedAmount ≤ 0
    · simp [hpos]
    · simp [hpos, not_le.1 hpos]

theorem validate_eq_true_iff :
    (form.validate props).2 = true ↔
      form.recipientError = none ∧ form.amountError props = none := by
  simp [validate, TransferErrors.isEmpty]

/-- What is handed over is what the form holds, if it is valid. -/
theorem handleSubmit_snd :
    (form.handleSubmit props).2 =
      if (form.validate props).2 = true then form.amount.map fun amount => (form.recipient, amount)
      else none := by
  unfold handleSubmit
  cases hvalid : (form.validate props).2 with
  | true => simp [hvalid]; rfl
  | false => simp [hvalid]

/-- A transfer is handed over when both fields are valid: to a `G...` address of 56 characters, of a
positive amount that the shown balance covers. -/
theorem handleSubmit_eq_some_iff {recipient : JsString} {amount : ℚ} :
    (form.handleSubmit props).2 = some (recipient, amount) ↔
      form.recipient = recipient ∧ form.amount = some amount ∧
      (recipient.isBlank = false ∧ recipient.startsWithG = true ∧ recipient.length = 56) ∧
      0 < amount ∧ amount ≤ props.shieldedBalance := by
  rw [handleSubmit_snd]
  constructor
  · intro h
    split at h
    · next hvalid =>
      obtain ⟨hrecipient, hamount⟩ := validate_eq_true_iff.1 hvalid
      obtain ⟨parsedAmount, hparsed, hpos, hle⟩ := amountError_eq_none_iff.1 hamount
      rw [hparsed] at h
      cases h
      exact ⟨rfl, hparsed, recipientError_eq_none_iff.1 hrecipient, hpos, hle⟩
    · cases h
  · rintro ⟨rfl, hamount, hrecipient, hpos, hle⟩
    have hvalid : (form.validate props).2 = true :=
      validate_eq_true_iff.2 ⟨recipientError_eq_none_iff.2 hrecipient,
        amountError_eq_none_iff.2 ⟨amount, hamount, hpos, hle⟩⟩
    rw [if_pos hvalid, hamount]
    rfl

/-- The form is loading after a submission exactly when it handed over a transfer. -/
theorem internalLoading_handleSubmit (h : form.internalLoading = false)
    (props : TransferFormProps) :
    (form.handleSubmit props).1.internalLoading = (form.handleSubmit props).2.isSome := by
  unfold handleSubmit
  cases hvalid : (form.validate props).2 with
  | true =>
    obtain ⟨-, hamount⟩ := validate_eq_true_iff.1 hvalid
    obtain ⟨parsedAmount, hparsed, -, -⟩ := amountError_eq_none_iff.1 hamount
    have hsame : (form.validate props).1.amount = form.amount := rfl
    simp [hvalid, hsame, hparsed]
  | false =>
    have hsame : (form.validate props).1.internalLoading = form.internalLoading := rfl
    simp [hvalid, hsame, h]

end TransferForm

end PrivacyShield.Client
