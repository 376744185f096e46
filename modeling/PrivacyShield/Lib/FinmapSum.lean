import Mathlib.Data.Finmap
import Mathlib.Algebra.BigOperators.Group.Multiset.Basic
import Mathlib.Algebra.Group.Basic
import Mathlib.Algebra.Order.BigOperators.Group.Multiset

/-!
# Sums over the entries of a finite map

`Finmap.weigh w s` adds up a weight over the entries of `s`. Writing one entry changes it by the new
entry's weight less the weight of the entry it replaces (`Finmap.weigh_insert`).
-/

namespace Finmap

variable {α M : Type*} {β : α → Type*} [AddCommGroup M]

/-- The sum of the weights of the entries. -/
def weigh (w : ∀ a, β a → M) (s : Finmap β) : M :=
  (s.entries.map fun e => w e.1 e.2).sum

variable [DecidableEq α]

theorem weigh_insert_of_notMem (w : ∀ a, β a → M) {s : Finmap β} {a : α} (b : β a) (h : a ∉ s) :
    weigh w (s.insert a b) = weigh w s + w a b := by
  rw [weigh, entries_insert_of_notMem h, Multiset.map_cons, Multiset.sum_cons, add_comm]
  rfl

theorem weigh_eq_zero (w : ∀ a, β a → M) {s : Finmap β}
    (h : ∀ a b, s.lookup a = some b → w a b = 0) : weigh w s = 0 := by
  refine Multiset.sum_eq_zero fun x hx => ?_
  obtain ⟨e, he, rfl⟩ := Multiset.mem_map.1 hx
  exact h e.1 e.2 (mem_lookup_iff.2 he)

/-- The weight at a key, zero when the key is absent. -/
def weightAt (w : ∀ a, β a → M) (s : Finmap β) (a : α) : M :=
  (s.lookup a).elim 0 (w a)

/-- Erasing a present entry and writing it back changes nothing. -/
theorem insert_erase_of_lookup {s : Finmap β} {a : α} {b : β a} (h : s.lookup a = some b) :
    (s.erase a).insert a b = s := by
  apply ext_lookup
  intro x
  by_cases hx : x = a
  · subst hx
    rw [lookup_insert, h]
  · rw [lookup_insert_of_ne _ hx, lookup_erase_ne hx]

/-- Writing an entry adds its weight and takes away the weight it replaces. -/
theorem weigh_insert (w : ∀ a, β a → M) (s : Finmap β) (a : α) (b : β a) :
    weigh w (s.insert a b) = weigh w s - weightAt w s a + w a b := by
  unfold weightAt
  cases h : s.lookup a with
  | none => rw [weigh_insert_of_notMem w b (lookup_eq_none.1 h), Option.elim_none, sub_zero]
  | some b₀ =>
    have hold : weigh w s = weigh w (s.erase a) + w a b₀ := by
      rw [← weigh_insert_of_notMem w b₀ notMem_erase_self, insert_erase_of_lookup h]
    have hnew : s.insert a b = (s.erase a).insert a b := by
      conv_lhs => rw [← insert_erase_of_lookup h]
      exact insert_insert _
    rw [hnew, weigh_insert_of_notMem w b notMem_erase_self, hold, Option.elim_some,
      add_sub_cancel_right]

/-- The weight of the entry under a key, and the weights of the other entries. -/
theorem weigh_erase_add (w : ∀ a, β a → M) (s : Finmap β) (a : α) :
    weigh w (s.erase a) + weightAt w s a = weigh w s := by
  unfold weightAt
  cases h : s.lookup a with
  | none =>
    have hsame : s.erase a = s := by
      apply ext_lookup
      intro x
      by_cases hx : x = a
      · subst hx
        rw [lookup_erase, h]
      · rw [lookup_erase_ne hx]
    rw [hsame, Option.elim_none, add_zero]
  | some b =>
    rw [Option.elim_some, ← weigh_insert_of_notMem w b notMem_erase_self,
      insert_erase_of_lookup h]

/-! ## Weights that are not negative -/

section Order

variable [PartialOrder M] [IsOrderedAddMonoid M]

theorem weigh_nonneg (w : ∀ a, β a → M) {s : Finmap β}
    (h : ∀ a b, s.lookup a = some b → 0 ≤ w a b) : 0 ≤ weigh w s := by
  refine Multiset.sum_nonneg fun x hx => ?_
  obtain ⟨e, he, rfl⟩ := Multiset.mem_map.1 hx
  exact h e.1 e.2 (mem_lookup_iff.2 he)

/-- What holds of every entry holds of every entry that is left. -/
theorem forall_lookup_erase {P : ∀ a, β a → Prop} {s : Finmap β}
    (h : ∀ a b, s.lookup a = some b → P a b) (a x : α) (b : β x)
    (hx : (s.erase a).lookup x = some b) : P x b := by
  by_cases hxa : x = a
  · subst hxa
    rw [lookup_erase] at hx
    cases hx
  · rw [lookup_erase_ne hxa] at hx
    exact h x b hx

/-- An entry weighs at most what all entries weigh when none weighs less than zero. -/
theorem weightAt_le_weigh (w : ∀ a, β a → M) {s : Finmap β}
    (h : ∀ a b, s.lookup a = some b → 0 ≤ w a b) (a : α) : weightAt w s a ≤ weigh w s := by
  rw [← weigh_erase_add w s a]
  exact le_add_of_nonneg_left (weigh_nonneg w (forall_lookup_erase h a))

/-- So do two entries together. -/
theorem weightAt_add_le_weigh (w : ∀ a, β a → M) {s : Finmap β}
    (h : ∀ a b, s.lookup a = some b → 0 ≤ w a b) {a a' : α} (hne : a ≠ a') :
    weightAt w s a + weightAt w s a' ≤ weigh w s := by
  have hsame : weightAt w (s.erase a) a' = weightAt w s a' := by
    unfold weightAt
    rw [lookup_erase_ne (Ne.symm hne)]
  have hle := weightAt_le_weigh w (forall_lookup_erase h a) a'
  rw [← weigh_erase_add w s a, add_comm, ← hsame]
  exact add_le_add_left hle _

end Order

end Finmap
