import Mathlib.Algebra.Order.BigOperators.Group.Multiset
import Mathlib.Algebra.Order.Group.PosPart

/-!
# Accounts with changes in flight

A change of an account is submitted at one time and settled at another, and changes are settled in
any order. An account is solvent when its balance covers every debit in flight. Solvency is exactly
safety for all orders of settlement (`solvent_iff_settleAll`), and a step keeps it exactly when the
debit it submits, if any, is covered next to those in flight (`Solvent.step_iff`).
-/

namespace PrivacyShield.Lib

/-- A balance and the changes in flight. -/
structure Account (α : Type*) where
  balance : α
  pending : Multiset α

namespace Account

/-- What can happen to an account. -/
inductive Action (α : Type*) where
  | submit (change : α)
  | settle (change : α)
  | skip

variable {α : Type*} [AddCommGroup α] [LinearOrder α]

/-- A change goes in flight. -/
def submit (acc : Account α) (x : α) : Account α := { acc with pending := x ::ₘ acc.pending }

/-- A change in flight is applied. -/
def settle (acc : Account α) (x : α) : Account α :=
  if x ∈ acc.pending then ⟨acc.balance + x, acc.pending.erase x⟩ else acc

def step (acc : Account α) : Action α → Account α
  | .submit x => acc.submit x
  | .settle x => acc.settle x
  | .skip => acc

/-- The changes are settled one after the other. -/
def settleAll (acc : Account α) (xs : List α) : Account α := xs.foldl settle acc

/-- What the changes in flight take away. Those that add are not counted. -/
def debits (acc : Account α) : α := (acc.pending.map fun x => x⁻).sum

/-- The balance covers the debits in flight. -/
def Solvent (acc : Account α) : Prop := acc.debits ≤ acc.balance

/-- A submitted debit is covered next to those in flight. -/
def Covers (acc : Account α) : Action α → Prop
  | .submit x => acc.debits - x ≤ acc.balance
  | .settle _ => True
  | .skip => True

theorem debits_submit (acc : Account α) (x : α) : (acc.submit x).debits = x⁻ + acc.debits := by
  unfold debits submit
  rw [Multiset.map_cons, Multiset.sum_cons]

theorem settle_of_mem {acc : Account α} {x : α} (h : x ∈ acc.pending) :
    acc.settle x = ⟨acc.balance + x, acc.pending.erase x⟩ := if_pos h

theorem settle_of_notMem {acc : Account α} {x : α} (h : x ∉ acc.pending) : acc.settle x = acc :=
  if_neg h

theorem debits_settle {acc : Account α} {x : α} (h : x ∈ acc.pending) :
    x⁻ + (acc.settle x).debits = acc.debits := by
  unfold debits
  rw [settle_of_mem h, ← Multiset.sum_cons, ← Multiset.map_cons (fun x => x⁻),
    Multiset.cons_erase h]

/-! ## Settling a list of changes -/

/-- Changes in flight add up, in whatever order they are settled. -/
theorem balance_settleAll {xs : List α} {acc : Account α} (h : (xs : Multiset α) ≤ acc.pending) :
    (acc.settleAll xs).balance = acc.balance + xs.sum := by
  induction xs generalizing acc with
  | nil => exact (add_zero _).symm
  | cons x xs ih =>
    rw [← Multiset.cons_coe] at h
    have hmem : x ∈ acc.pending := Multiset.mem_of_le h (Multiset.mem_cons_self x _)
    have hrest : (xs : Multiset α) ≤ (acc.settle x).pending := by
      rw [settle_of_mem hmem, ← Multiset.erase_cons_head x (xs : Multiset α)]
      exact Multiset.erase_le_erase x h
    have hrun : acc.settleAll (x :: xs) = (acc.settle x).settleAll xs := rfl
    rw [hrun, ih hrest, settle_of_mem hmem, List.sum_cons, add_assoc]

variable [IsOrderedAddMonoid α]

/-- The debits among some changes are what these changes take away. -/
theorem sum_filter_neg (s : Multiset α) :
    (s.filter (· < 0)).sum = -(s.map fun x => x⁻).sum := by
  induction s using Multiset.induction_on with
  | empty => simp
  | cons x s ih =>
    rw [Multiset.map_cons, Multiset.sum_cons]
    by_cases hx : x < 0
    · rw [Multiset.filter_cons_of_pos (p := (· < 0)) s hx, Multiset.sum_cons, ih,
        negPart_of_nonpos hx.le, neg_add, neg_neg]
    · rw [Multiset.filter_cons_of_neg (p := (· < 0)) s hx, ih, negPart_of_nonneg (not_lt.1 hx),
        zero_add]

/-- Some order of settlement applies all debits before anything is added. -/
theorem exists_settleAll_eq (acc : Account α) :
    ∃ xs, (acc.settleAll xs).balance = acc.balance - acc.debits := by
  refine ⟨(acc.pending.filter (· < 0)).toList, ?_⟩
  rw [balance_settleAll (by rw [Multiset.coe_toList]; exact Multiset.filter_le _ _),
    Multiset.sum_toList, sum_filter_neg, sub_eq_add_neg]
  rfl

/-! ## Solvency -/

theorem debits_nonneg (acc : Account α) : 0 ≤ acc.debits := by
  refine Multiset.sum_nonneg fun y hy => ?_
  obtain ⟨x, -, rfl⟩ := Multiset.mem_map.1 hy
  exact negPart_nonneg x

namespace Solvent

variable {acc : Account α}

theorem balance_nonneg (h : acc.Solvent) : 0 ≤ acc.balance := le_trans acc.debits_nonneg h

/-- Settling a debit lowers the debits in flight by as much as the balance. -/
theorem settle (h : acc.Solvent) (x : α) : (acc.settle x).Solvent := by
  by_cases hx : x ∈ acc.pending
  · have hdebits : (acc.settle x).debits = acc.debits - x⁻ := by
      rw [← debits_settle hx, add_sub_cancel_left]
    have hbalance : (acc.settle x).balance = acc.balance + x := by rw [settle_of_mem hx]
    have hneg : -x⁻ ≤ x := neg_le.1 (neg_le_negPart x)
    unfold Solvent
    rw [hdebits, hbalance, sub_eq_add_neg]
    exact add_le_add h hneg
  · rwa [settle_of_notMem hx]

theorem settleAll (h : acc.Solvent) (xs : List α) : (acc.settleAll xs).Solvent := by
  induction xs generalizing acc with
  | nil => exact h
  | cons x xs ih => exact ih (h.settle x)

/-- What adds to the balance is covered. -/
theorem covers_submit_of_nonneg (h : acc.Solvent) {x : α} (hx : 0 ≤ x) :
    acc.Covers (.submit x) :=
  le_trans (sub_le_self _ hx) h

theorem submit_iff (h : acc.Solvent) (x : α) :
    (acc.submit x).Solvent ↔ acc.Covers (.submit x) := by
  have hbalance : (acc.submit x).balance = acc.balance := rfl
  unfold Solvent
  rw [debits_submit, hbalance]
  rcases le_total x 0 with hx | hx
  · rw [negPart_of_nonpos hx, ← sub_eq_neg_add]
    exact Iff.rfl
  · rw [negPart_of_nonneg hx, zero_add]
    exact ⟨fun _ => h.covers_submit_of_nonneg hx, fun _ => h⟩

/-- A step keeps an account solvent exactly when the account covers what it submits. -/
theorem step_iff (h : acc.Solvent) (a : Action α) : (acc.step a).Solvent ↔ acc.Covers a := by
  cases a with
  | submit x => exact h.submit_iff x
  | settle x => exact ⟨fun _ => trivial, fun _ => h.settle x⟩
  | skip => exact ⟨fun _ => trivial, fun _ => h⟩

end Solvent

/-- Solvent accounts are those that no order of settlement overdraws. -/
theorem solvent_iff_settleAll {acc : Account α} :
    acc.Solvent ↔ ∀ xs, 0 ≤ (acc.settleAll xs).balance := by
  constructor
  · intro h xs
    exact (h.settleAll xs).balance_nonneg
  · intro h
    obtain ⟨xs, hxs⟩ := acc.exists_settleAll_eq
    have hpos := h xs
    rw [hxs] at hpos
    exact sub_nonneg.1 hpos

end Account

end PrivacyShield.Lib
