import Mathlib.Algebra.BigOperators.Group.List.Basic
import Mathlib.Algebra.Order.BigOperators.Group.List
import Mathlib.Algebra.Order.Ring.Int
import PrivacyShield.Lib.Machine

/-!
# Inputs that add up

Inputs that carry an amount and act on one view of the state: each is accepted when its amount is
positive and fits, and two in a row fit and act as one with the sum of their amounts. Then however
an amount is split, the parts are all accepted exactly when the whole is, and leave the same view
(`Additive.split`).
-/

namespace PrivacyShield.Lib

/-- A family of inputs of a machine that add up, for outputs that are `ok` or not. -/
structure Additive {σ ι ο : Type*} (M : Machine σ ι ο) (ok : ο → Prop) (β κ : Type*) where
  input : β → ι
  amount : β → ℤ
  view : σ → κ
  enabled : σ → Prop
  fits : κ → ℤ → Prop
  effect : κ → ℤ → κ
  ok_iff : ∀ s b, ok (M.step s (input b)).1 ↔ enabled s ∧ 0 < amount b ∧ fits (view s) (amount b)
  enabled_step : ∀ {s b}, ok (M.step s (input b)).1 → enabled (M.step s (input b)).2
  view_step : ∀ {s b}, ok (M.step s (input b)).1 →
    view (M.step s (input b)).2 = effect (view s) (amount b)
  effect_add : ∀ k x y, effect (effect k x) y = effect k (x + y)
  fits_add : ∀ k {x y}, 0 < x → 0 < y → (fits k (x + y) ↔ fits k x ∧ fits (effect k x) y)

namespace Additive

variable {σ ι ο β κ : Type*} {M : Machine σ ι ο} {ok : ο → Prop} (A : Additive M ok β κ)

/-- The sum of the amounts. -/
def total (bs : List β) : ℤ := (bs.map A.amount).sum

variable {A} {s : σ} {b : β} {bs : List β}

theorem total_pos (hne : bs ≠ []) (hpos : ∀ b ∈ bs, 0 < A.amount b) : 0 < A.total bs :=
  List.sum_pos _ (fun x hx => by
    obtain ⟨b, hb, rfl⟩ := List.mem_map.1 hx
    exact hpos b hb) (by rwa [Ne, List.map_eq_nil_iff])

/-- The inputs are all accepted when their sum fits, and have its effect. -/
theorem run (hne : bs ≠ []) (hpos : ∀ b ∈ bs, 0 < A.amount b) :
    ((∀ e ∈ M.trace s (bs.map A.input), ok e.2) ↔ A.enabled s ∧ A.fits (A.view s) (A.total bs)) ∧
    ((∀ e ∈ M.trace s (bs.map A.input), ok e.2) →
      A.view (M.run s (bs.map A.input)) = A.effect (A.view s) (A.total bs)) := by
  induction bs generalizing s with
  | nil => exact absurd rfl hne
  | cons b bs ih =>
    have hb : 0 < A.amount b := hpos b List.mem_cons_self
    have hok : ok (M.step s (A.input b)).1 ↔ A.enabled s ∧ A.fits (A.view s) (A.amount b) := by
      rw [A.ok_iff, and_iff_right hb]
    have htotal : A.total (b :: bs) = A.amount b + A.total bs := List.sum_cons
    rw [List.map_cons, M.trace_cons, List.forall_mem_cons, M.run_cons, hok, htotal]
    by_cases hbs : bs = []
    · subst hbs
      have hzero : A.total [] = 0 := rfl
      rw [hzero, add_zero]
      refine ⟨and_iff_left (fun e he => by cases he), fun h => ?_⟩
      exact A.view_step (hok.2 h.1)
    · obtain ⟨hiff, hview⟩ := ih (s := (M.step s (A.input b)).2) hbs
        (fun c hc => hpos c (List.mem_cons_of_mem b hc))
      have hrest := total_pos hbs (fun c hc => hpos c (List.mem_cons_of_mem b hc))
      rw [A.fits_add _ hb hrest]
      constructor
      · rw [and_assoc]
        refine and_congr_right fun henabled => and_congr_right fun hfits => ?_
        have hstep := hok.2 ⟨henabled, hfits⟩
        rw [hiff, A.view_step hstep]
        exact and_iff_right (A.enabled_step hstep)
      · rintro ⟨hfirst, hothers⟩
        rw [hview hothers, A.view_step (hok.2 hfirst), A.effect_add]

/-- However an amount is split, the parts are all accepted exactly when the whole is, and the view
is the same after them. -/
theorem split (hne : bs ≠ []) (hpos : ∀ b ∈ bs, 0 < A.amount b) (hb : A.amount b = A.total bs) :
    ((∀ e ∈ M.trace s (bs.map A.input), ok e.2) ↔ ok (M.step s (A.input b)).1) ∧
    ((∀ e ∈ M.trace s (bs.map A.input), ok e.2) →
      A.view (M.run s (bs.map A.input)) = A.view (M.step s (A.input b)).2) := by
  obtain ⟨hiff, hview⟩ := A.run (s := s) hne hpos
  have hwhole : (∀ e ∈ M.trace s (bs.map A.input), ok e.2) ↔ ok (M.step s (A.input b)).1 := by
    rw [hiff, A.ok_iff, hb, and_iff_right (total_pos hne hpos)]
  refine ⟨hwhole, fun h => ?_⟩
  rw [hview h, A.view_step (hwhole.1 h), hb]

end Additive

end PrivacyShield.Lib
