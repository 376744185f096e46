import PrivacyShield.Lib.Machine

/-!
# Simulations between machines

A relation between the states of two machines that steps on related inputs keep, with related
outputs, relates their runs: the final states are related, and so are the outputs one by one
(`Simulates.run`, `Simulates.trace`). What a step may assume of the inputs is part of the relation
between inputs.
-/

namespace PrivacyShield.Lib

variable {σ ι ο τ κ ω : Type*}

/-- Related states and related inputs lead to related outputs and related states. -/
def Simulates (M : Machine σ ι ο) (N : Machine τ κ ω) (R : σ → τ → Prop) (I : ι → κ → Prop)
    (O : ο → ω → Prop) : Prop :=
  ∀ s t i k, R s t → I i k → O (M.step s i).1 (N.step t k).1 ∧ R (M.step s i).2 (N.step t k).2

namespace Simulates

variable {M : Machine σ ι ο} {N : Machine τ κ ω} {R : σ → τ → Prop} {I : ι → κ → Prop}
  {O : ο → ω → Prop} {s : σ} {t : τ} {is : List ι} {ks : List κ}

/-- Runs on related inputs end in related states. -/
theorem run (h : Simulates M N R I O) (hR : R s t) (hI : List.Forall₂ I is ks) :
    R (M.run s is) (N.run t ks) := by
  induction hI generalizing s t with
  | nil => exact hR
  | cons hik _ ih => exact ih (h _ _ _ _ hR hik).2

/-- Runs on related inputs give related outputs, one by one. -/
theorem trace (h : Simulates M N R I O) (hR : R s t) (hI : List.Forall₂ I is ks) :
    List.Forall₂ (fun e f => O e.2 f.2) (M.trace s is) (N.trace t ks) := by
  induction hI generalizing s t with
  | nil => exact .nil
  | cons hik _ ih =>
    obtain ⟨hO, hnext⟩ := h _ _ _ _ hR hik
    exact .cons hO (ih hnext)

end Simulates

/-- A translation of the inputs relates a list to its image. -/
theorem forall₂_map_of_mem {I : ι → κ → Prop} {f : ι → κ} {is : List ι}
    (h : ∀ i ∈ is, I i (f i)) : List.Forall₂ I is (is.map f) := by
  rw [List.forall₂_map_right_iff, List.forall₂_same]
  exact h

end PrivacyShield.Lib
