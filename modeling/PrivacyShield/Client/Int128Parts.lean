import PrivacyShield.Verify.Ledger

/-!
# Amounts on their way to the contract

`i128` of the scripts' `common.ts` turns a `bigint` into the two parts of an `i128` argument: the low
64 bits of its absolute value below an upper part that is 0 or -1. The host puts the parts together
again. So the contract sees the amount modulo `2 ^ 64`, and a deposit script may deposit less than
it was asked to.
-/

namespace PrivacyShield.Client

open PrivacyShield.Lib PrivacyShield.Contract

/-- `xdr.Int128Parts`. -/
structure Int128Parts where
  hi : SInt 64
  lo : BitVec 64
  deriving DecidableEq

/-- The `i128` that the host reads from its parts, `hi * 2 ^ 64 + lo`. The host's code is not in the
repository: this is how XDR defines the parts. -/
def Int128Parts.decode (parts : Int128Parts) : I128 := SInt.join (by decide) parts.hi parts.lo

/-- Encodes an `i128` argument; a `bigint` is an integer of any size. -/
def i128 (value : Int) : Int128Parts :=
  let isNeg : Bool := value < 0
  let abs := if isNeg then -value else value
  let lo := BitVec.ofNat 64 (abs.toNat &&& 0xffffffffffffffff)
  let hi : SInt 64 := if isNeg then ⟨-1, by decide, by decide⟩ else 0
  { hi, lo }

/-- The lower part is that of the absolute value. -/
theorem toNat_lo_i128 (value : Int) : ((i128 value).lo.toNat : Int) = |value| % 2 ^ 64 := by
  have habs : (if value < 0 then -value else value) = |value| := by
    split
    · next h => exact (abs_of_neg h).symm
    · next h => exact (abs_of_nonneg (not_lt.1 h)).symm
  simp only [i128, decide_eq_true_eq, habs]
  rw [BitVec.toNat_ofNat, Nat.and_two_pow_sub_one_eq_mod _ 64, Nat.mod_mod, Int.natCast_mod,
    Int.toNat_of_nonneg (abs_nonneg value)]
  rfl

theorem toInt_hi_i128 (value : Int) : (i128 value).hi.toInt = if value < 0 then -1 else 0 := by
  simp only [i128, decide_eq_true_eq]
  split <;> rfl

/-- What the contract sees of a value. -/
theorem toInt_decode_i128 (value : Int) :
    (i128 value).decode.toInt =
      if value < 0 then -value % 2 ^ 64 - 2 ^ 64 else value % 2 ^ 64 := by
  rw [Int128Parts.decode, SInt.toInt_join, toNat_lo_i128, toInt_hi_i128]
  split
  · next h =>
    rw [abs_of_neg h]
    omega
  · next h =>
    rw [abs_of_nonneg (not_lt.1 h)]
    omega

/-- A value survives exactly when it is an unsigned 64-bit number, or one of two negative numbers
that are their own complement. -/
theorem decode_i128_eq_iff {value : Int} :
    (i128 value).decode.toInt = value ↔
      0 ≤ value ∧ value < 2 ^ 64 ∨ value = -2 ^ 63 ∨ value = -2 ^ 64 := by
  rw [toInt_decode_i128]
  split <;> omega

/-- What a deposit script does with the amount it is asked to deposit, after any run. The contract
sees the amount itself exactly in the range of `decode_i128_eq_iff`. It accepts the deposit exactly
when the amount is positive, no multiple of `2 ^ 64`, and its remainder fits; it credits the
remainder, so all of the amount exactly when that is below `2 ^ 64` and never more than it. -/
theorem scripted_deposit {Address : Type} [DecidableEq Address] (host : Host Address)
    (invs : List (Invocation Address)) (a : Address) (value : Int) (auth : Address → Bool) :
    let env := runOf host invs
    let inv : Invocation Address := ⟨.deposit a (i128 value).decode, auth⟩
    ((i128 value).decode.toInt = value ↔
      0 ≤ value ∧ value < 2 ^ 64 ∨ value = -2 ^ 63 ∨ value = -2 ^ 64) ∧
    (Accepts host env inv ↔ env.Initialized ∧ auth a = true ∧ 0 < value ∧ ¬2 ^ 64 ∣ value ∧
      (env.ledger a).getD 0 + value % 2 ^ 64 ≤ 2 ^ 127 - 1) ∧
    (Accepts host env inv → ∃ credited,
      ((shield host).step env inv).2.ledger a = some ((env.ledger a).getD 0 + credited) ∧
      credited ≤ value ∧ (credited = value ↔ value < 2 ^ 64)) := by
  intro env inv
  have hiff : Accepts host env inv ↔ env.Initialized ∧ auth a = true ∧ 0 < value ∧
      ¬2 ^ 64 ∣ value ∧ (env.ledger a).getD 0 + value % 2 ^ 64 ≤ 2 ^ 127 - 1 := by
    rw [deposit_accepted_iff, toInt_decode_i128]
    split
    · refine ⟨fun h => ?_, fun h => ?_⟩
      · omega
      · omega
    · refine and_congr_right fun _ => and_congr_right fun _ => ?_
      rw [Int.dvd_iff_emod_eq_zero]
      constructor
      · rintro ⟨hpos, hle⟩
        exact ⟨by omega, by omega, hle⟩
      · rintro ⟨hpos, hdvd, hle⟩
        exact ⟨by omega, hle⟩
  refine ⟨decode_i128_eq_iff, hiff, fun haccepts => ?_⟩
  obtain ⟨r, env', hs⟩ := accepts_iff.1 haccepts
  obtain ⟨-, -, hpos, -⟩ := hiff.1 haccepts
  refine ⟨value % 2 ^ 64, ?_, by omega, by omega⟩
  have hledger : env'.ledger = env.ledger.post (a, (i128 value).decode.toInt) := hs.ledger
  rw [step_ok_iff.2 hs, hledger, Ledger.post_apply, if_pos rfl, toInt_decode_i128,
    if_neg (not_lt.2 hpos.le)]

end PrivacyShield.Client
