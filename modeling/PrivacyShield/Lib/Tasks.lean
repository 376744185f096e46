import Mathlib.Algebra.BigOperators.Group.Multiset.Basic
import Mathlib.Data.Multiset.Filter
import PrivacyShield.Lib.Machine

/-!
# Machines with tasks in flight

Some inputs leave a task behind, others complete one that is in flight. Then no task is lost or
completed twice (`Tasks.submitted_eq`); where at most one task of a kind is in flight at a time, the
tasks of the kind are completed in the order in which they were submitted (`Tasks.inOrder`).
-/

namespace PrivacyShield.Lib

/-- The tasks of a machine: the one that an input leaves behind, the one that it completes, and those
in flight. -/
structure Tasks {σ ι ο : Type*} (M : Machine σ ι ο) (τ : Type*) where
  submits : σ → ι → Option τ
  completes : σ → ι → Option τ
  pending : σ → Multiset τ
  mem_pending : ∀ {s i t}, completes s i = some t → t ∈ pending s
  pending_step : ∀ s i,
    ((completes s i).toList : Multiset τ) + pending (M.step s i).2 =
      pending s + ((submits s i).toList : Multiset τ)

namespace Tasks

variable {σ ι ο τ : Type*} {M : Machine σ ι ο} (T : Tasks M τ)

/-- The tasks that a run submits, oldest first. -/
def submitted (s : σ) (is : List ι) : List τ := M.collect T.submits s is

/-- The tasks that a run completes, oldest first. -/
def completed (s : σ) (is : List ι) : List τ := M.collect T.completes s is

variable {T} {s : σ}

theorem submitted_concat (is : List ι) (i : ι) :
    T.submitted s (is ++ [i]) = T.submitted s is ++ (T.submits (M.run s is) i).toList :=
  M.collect_concat T.submits s is i

theorem completed_concat (is : List ι) (i : ι) :
    T.completed s (is ++ [i]) = T.completed s is ++ (T.completes (M.run s is) i).toList :=
  M.collect_concat T.completes s is i

/-- What was submitted has been completed or is in flight. -/
theorem submitted_eq (T : Tasks M τ) (hempty : T.pending s = 0) (is : List ι) :
    (T.submitted s is : Multiset τ) = T.completed s is + T.pending (M.run s is) := by
  induction is using List.reverseRecOn with
  | nil => exact (congrArg (0 + ·) hempty).symm
  | append_singleton is i ih =>
    rw [submitted_concat, completed_concat, ← Multiset.coe_add, ← Multiset.coe_add, ih,
      Machine.run_concat, add_assoc, add_assoc, T.pending_step]

/-- A quantity to which every completed task adds its weight. -/
theorem observe_completed (T : Tasks M τ) {G : Type*} [AddCommMonoid G] (observe : σ → G) (weight : τ → G)
    (hstep : ∀ s i, observe (M.step s i).2 = observe s + ((T.completes s i).toList.map weight).sum)
    (is : List ι) :
    observe (M.run s is) = observe s + ((T.completed s is).map weight).sum := by
  induction is using List.reverseRecOn with
  | nil => exact (add_zero _).symm
  | append_singleton is i ih =>
    rw [Machine.run_concat, hstep, ih, completed_concat, List.map_append, List.sum_append,
      add_assoc]

/-- A list of at most one element that has a member. -/
theorem eq_singleton_of_mem {t : τ} {l : List τ} (hmem : t ∈ l) (hlength : l.length ≤ 1) :
    l = [t] := by
  obtain ⟨u, rfl⟩ := List.length_eq_one_iff.1
    (Nat.le_antisymm hlength (List.length_pos_of_mem hmem))
  rw [List.mem_singleton.1 hmem]

/-- Tasks of a kind of which at most one is in flight at a time are completed in order. -/
theorem inOrder (T : Tasks M τ) (kind : τ → Prop) [DecidablePred kind] (hempty : T.pending s = 0)
    (hone : ∀ is, (T.pending (M.run s is)).countP kind ≤ 1) (is : List ι) :
    ∃ waiting : List τ,
      (T.submitted s is).filter kind = (T.completed s is).filter kind ++ waiting ∧
      (waiting : Multiset τ) = (T.pending (M.run s is)).filter kind := by
  induction is using List.reverseRecOn with
  | nil =>
    refine ⟨[], rfl, ?_⟩
    rw [Machine.run_nil, hempty]
    rfl
  | append_singleton is i ih =>
    obtain ⟨waiting, hsubmitted, hwaiting⟩ := ih
    have hpending := congrArg (Multiset.filter kind) (T.pending_step (M.run s is) i)
    rw [Multiset.filter_add, Multiset.filter_add, Multiset.filter_coe, Multiset.filter_coe,
      ← hwaiting] at hpending
    rw [submitted_concat, completed_concat, List.filter_append, List.filter_append, hsubmitted,
      Machine.run_concat]
    by_cases hkind : ∃ t ∈ T.completes (M.run s is) i, kind t
    · -- the only one in flight is completed
      obtain ⟨t, ht, hkt⟩ := hkind
      have hwait : waiting = [t] := by
        have hmem : t ∈ waiting := by
          rw [← Multiset.mem_coe, hwaiting]
          exact Multiset.mem_filter.2 ⟨T.mem_pending ht, hkt⟩
        have hlength : waiting.length ≤ 1 := by
          rw [← Multiset.coe_card, hwaiting, ← Multiset.countP_eq_card_filter]
          exact hone is
        exact eq_singleton_of_mem hmem hlength
      have hdone : (T.completes (M.run s is) i).toList.filter kind = [t] := by
        rw [Option.mem_def.1 ht, Option.toList_some]
        exact List.filter_cons_of_pos (decide_eq_true hkt)
      rw [hdone, hwait] at hpending
      refine ⟨(T.submits (M.run s is) i).toList.filter kind, ?_, ?_⟩
      · rw [hdone, hwait]
      · exact (add_left_cancel hpending).symm
    · have hdone : (T.completes (M.run s is) i).toList.filter kind = [] := by
        refine List.filter_eq_nil_iff.2 fun t ht hkt => hkind ⟨t, Option.mem_toList.1 ht, ?_⟩
        exact of_decide_eq_true hkt
      rw [hdone, Multiset.coe_nil, zero_add] at hpending
      refine ⟨waiting ++ (T.submits (M.run s is) i).toList.filter kind, ?_, ?_⟩
      · rw [hdone, List.append_nil, List.append_assoc]
      · rw [hpending, Multiset.coe_add]

end Tasks

end PrivacyShield.Lib
