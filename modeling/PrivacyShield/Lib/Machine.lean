import Mathlib.Data.List.Induction
import Mathlib.Data.List.Perm.Basic

/-!
# Deterministic machines with outputs

A `Machine` answers each input with an output and a next state. A finite list of inputs has a final
state (`Machine.run`) and a history (`Machine.trace`), the inputs paired with their outputs.

Each induction over a run is packaged once:

* `run_induction`, for an invariant of the state;
* `trace_induction`, for an invariant that relates the state to the history so far;
* `reachable_iff_of_invariant`, for an invariant that says exactly which states a run leads to;
* `along_iff_forall_prefix`, for the exact condition on its steps under which a run stays in the
  good states;
* `observe_run`, for an observation that every accepted input changes by a fixed effect, and
  `observe_run_perm`: when the effects commute, the order of the inputs does not matter.
-/

namespace PrivacyShield.Lib

/-- A deterministic machine with states `σ`, inputs `ι` and outputs `ο`. -/
structure Machine (σ ι ο : Type*) where
  step : σ → ι → ο × σ

namespace Machine

variable {σ ι ο : Type*} (M : Machine σ ι ο)

/-- The state after the inputs. -/
def run (s : σ) (is : List ι) : σ := is.foldl (fun s i => (M.step s i).2) s

/-- The inputs, each with the output it got. -/
def trace : σ → List ι → List (ι × ο)
  | _, [] => []
  | s, i :: is => (i, (M.step s i).1) :: trace (M.step s i).2 is

@[simp] theorem run_nil (s : σ) : M.run s [] = s := rfl

@[simp] theorem run_cons (s : σ) (i : ι) (is : List ι) :
    M.run s (i :: is) = M.run (M.step s i).2 is := rfl

@[simp] theorem trace_nil (s : σ) : M.trace s [] = [] := rfl

@[simp] theorem trace_cons (s : σ) (i : ι) (is : List ι) :
    M.trace s (i :: is) = (i, (M.step s i).1) :: M.trace (M.step s i).2 is := rfl

theorem run_append (s : σ) (is js : List ι) : M.run s (is ++ js) = M.run (M.run s is) js :=
  List.foldl_append

theorem run_concat (s : σ) (is : List ι) (i : ι) :
    M.run s (is ++ [i]) = (M.step (M.run s is) i).2 := by
  rw [run_append, run_cons, run_nil]

theorem trace_append (s : σ) (is js : List ι) :
    M.trace s (is ++ js) = M.trace s is ++ M.trace (M.run s is) js := by
  induction is generalizing s with
  | nil => rfl
  | cons i is ih => simp only [List.cons_append, trace_cons, run_cons, ih]

theorem trace_concat (s : σ) (is : List ι) (i : ι) :
    M.trace s (is ++ [i]) = M.trace s is ++ [(i, (M.step (M.run s is) i).1)] := by
  rw [trace_append, trace_cons, trace_nil]

/-! ## Invariants -/

variable {M}

/-- An invariant kept by the steps on inputs of a kind holds after every run on such inputs. -/
theorem run_induction {P : σ → Prop} {C : ι → Prop}
    (hstep : ∀ s i, C i → P s → P (M.step s i).2) {s : σ} (h : P s) {is : List ι}
    (hC : ∀ i ∈ is, C i) : P (M.run s is) := by
  induction is generalizing s with
  | nil => exact h
  | cons i is ih =>
    exact ih (hstep s i (hC i List.mem_cons_self) h) fun j hj => hC j (List.mem_cons_of_mem i hj)

/-- A relation between the history so far and the state, kept by every step, holds after every
run. -/
theorem trace_induction {P : List (ι × ο) → σ → Prop} {s₀ : σ} (h₀ : P [] s₀)
    (hstep : ∀ h s i, P h s → P (h ++ [(i, (M.step s i).1)]) (M.step s i).2) (is : List ι) :
    P (M.trace s₀ is) (M.run s₀ is) := by
  induction is using List.reverseRecOn with
  | nil => exact h₀
  | append_singleton is i ih =>
    rw [trace_concat, run_concat]
    exact hstep _ _ _ ih

/-! ## Reachable states -/

variable (M) in
/-- A run leads from `s` to `t`. -/
def Reachable (s t : σ) : Prop := ∃ is, M.run s is = t

namespace Reachable

theorem refl (s : σ) : M.Reachable s s := ⟨[], rfl⟩

theorem step {s t : σ} (h : M.Reachable s t) (i : ι) : M.Reachable s (M.step t i).2 := by
  obtain ⟨is, rfl⟩ := h
  exact ⟨is ++ [i], M.run_concat s is i⟩

end Reachable

/-- An invariant whose states can all be reached is the strongest one. -/
theorem reachable_iff_of_invariant {P : σ → Prop} {s₀ : σ} (h₀ : P s₀)
    (hstep : ∀ s i, P s → P (M.step s i).2) (hreach : ∀ t, P t → M.Reachable s₀ t) (t : σ) :
    M.Reachable s₀ t ↔ P t := by
  refine ⟨?_, hreach t⟩
  rintro ⟨is, rfl⟩
  exact run_induction (C := fun _ => True) (fun s i _ => hstep s i) h₀ fun _ _ => trivial

/-! ## What a run yields -/

section Collect

variable {κ : Type*}

variable (M) in
/-- What the steps of a run yield, oldest first. -/
def collect (yields : σ → ι → Option κ) : σ → List ι → List κ
  | _, [] => []
  | s, i :: is => (yields s i).toList ++ collect yields (M.step s i).2 is

theorem collect_concat (yields : σ → ι → Option κ) (s : σ) (is : List ι) (i : ι) :
    M.collect yields s (is ++ [i]) = M.collect yields s is ++ (yields (M.run s is) i).toList := by
  induction is generalizing s with
  | nil => exact List.append_nil _
  | cons j is ih => rw [List.cons_append, collect, ih, collect, run_cons, List.append_assoc]

/-- What a run yields at a position comes from one of its steps, the one before which it had yielded
as many. -/
theorem exists_step_of_getElem?_collect {yields : σ → ι → Option κ} {s : σ} {is : List ι} {n : ℕ}
    {k : κ} (h : (M.collect yields s is)[n]? = some k) :
    ∃ before i, before ++ [i] <+: is ∧ (M.collect yields s before).length = n ∧
      yields (M.run s before) i = some k := by
  induction is using List.reverseRecOn with
  | nil => cases h
  | append_singleton is i ih =>
    rw [collect_concat, List.getElem?_append] at h
    split at h
    · obtain ⟨before, j, hprefix, hlength, hyields⟩ := ih h
      exact ⟨before, j, hprefix.trans (List.prefix_append is [i]), hlength, hyields⟩
    · next hlast =>
      cases hyields : yields (M.run s is) i with
      | none =>
        rw [hyields] at h
        cases h
      | some k' =>
        rw [hyields, Option.toList_some, List.getElem?_singleton] at h
        split at h
        · cases h
          exact ⟨is, i, List.prefix_rfl, by omega, hyields⟩
        · cases h

end Collect

/-! ## Conditions on the steps of a run -/

variable (M) in
/-- Every step of the run is taken on a state and an input that meet the condition. -/
def Along (C : σ → ι → Prop) : σ → List ι → Prop
  | _, [] => True
  | s, i :: is => C s i ∧ Along C (M.step s i).2 is

instance decidableAlong {C : σ → ι → Prop} [∀ s i, Decidable (C s i)] :
    (s : σ) → (is : List ι) → Decidable (M.Along C s is)
  | _, [] => .isTrue trivial
  | s, i :: is =>
    have : Decidable (M.Along C (M.step s i).2 is) := decidableAlong (M.step s i).2 is
    inferInstanceAs (Decidable (C s i ∧ M.Along C (M.step s i).2 is))

theorem along_append {C : σ → ι → Prop} {s : σ} {is js : List ι} :
    M.Along C s (is ++ js) ↔ M.Along C s is ∧ M.Along C (M.run s is) js := by
  induction is generalizing s with
  | nil => exact (and_iff_right trivial).symm
  | cons i is ih =>
    rw [List.cons_append, Along, ih, Along, and_assoc, run_cons]

theorem along_concat {C : σ → ι → Prop} {s : σ} {is : List ι} {i : ι} :
    M.Along C s (is ++ [i]) ↔ M.Along C s is ∧ C (M.run s is) i := by
  rw [along_append, Along, Along, and_true]

/-- When a step from a good state leads to a good state exactly if it meets the condition, the steps
of a run meet it exactly if all states of the run are good. -/
theorem along_iff_forall_prefix {C : σ → ι → Prop} {P : σ → Prop}
    (hstep : ∀ s i, P s → (P (M.step s i).2 ↔ C s i)) {s : σ} (h : P s) {is : List ι} :
    M.Along C s is ↔ ∀ before, before <+: is → P (M.run s before) := by
  induction is generalizing s with
  | nil =>
    refine ⟨fun _ before hbefore => ?_, fun _ => trivial⟩
    rw [List.prefix_nil.1 hbefore]
    exact h
  | cons i is ih =>
    constructor
    · intro halong before hbefore
      obtain ⟨hC, hrest⟩ := halong
      cases before with
      | nil => exact h
      | cons j before =>
        obtain ⟨rfl, htail⟩ := List.cons_prefix_cons.1 hbefore
        exact (ih ((hstep s j h).2 hC)).1 hrest before htail
    · intro hall
      have hnext : P (M.step s i).2 := hall [i] (List.prefix_append [i] is)
      refine ⟨(hstep s i h).1 hnext, (ih hnext).2 fun before hbefore => ?_⟩
      exact hall (i :: before) (List.cons_prefix_cons.2 ⟨rfl, hbefore⟩)

/-! ## Observations -/

section Observe

variable {κ : Type*} (ok : ο → Prop) (observe : σ → κ) (effect : κ → ι → κ)

/-- When every accepted input changes the observation by its effect, a run of accepted inputs
folds the effects. -/
theorem observe_run
    (hstep : ∀ s i, ok (M.step s i).1 → observe (M.step s i).2 = effect (observe s) i)
    {s : σ} {is : List ι} (hok : ∀ e ∈ M.trace s is, ok e.2) :
    observe (M.run s is) = is.foldl effect (observe s) := by
  induction is generalizing s with
  | nil => rfl
  | cons i is ih =>
    have hhead : ok (M.step s i).1 := hok _ List.mem_cons_self
    rw [run_cons, List.foldl_cons, ← hstep s i hhead]
    exact ih fun e he => hok e (List.mem_cons_of_mem _ he)

/-- Two orders of the same inputs, all accepted in both, end in the same observation when the
effects of the inputs commute. -/
theorem observe_run_perm
    (hstep : ∀ s i, ok (M.step s i).1 → observe (M.step s i).2 = effect (observe s) i)
    {s : σ} {is js : List ι} (hperm : is.Perm js)
    (hcomm : ∀ i ∈ is, ∀ j ∈ is, ∀ k, effect (effect k i) j = effect (effect k j) i)
    (his : ∀ e ∈ M.trace s is, ok e.2) (hjs : ∀ e ∈ M.trace s js, ok e.2) :
    observe (M.run s is) = observe (M.run s js) := by
  rw [observe_run ok observe effect hstep his, observe_run ok observe effect hstep hjs]
  exact hperm.foldl_eq' (fun i hi j hj k => hcomm i hi j hj k) _

end Observe

/-! ## Inputs without effect -/

/-- When the inputs that are not kept leave the state alone, those that are kept, on their own, get
the same outputs and end in the same state. -/
theorem replay (keep : ι × ο → Bool)
    (hskip : ∀ s i, keep (i, (M.step s i).1) = false → (M.step s i).2 = s) (s : σ) (is : List ι) :
    M.trace s (((M.trace s is).filter keep).map Prod.fst) = (M.trace s is).filter keep ∧
      M.run s (((M.trace s is).filter keep).map Prod.fst) = M.run s is := by
  induction is generalizing s with
  | nil => exact ⟨rfl, rfl⟩
  | cons i is ih =>
    cases hkeep : keep (i, (M.step s i).1) with
    | true =>
      obtain ⟨htrace, hrun⟩ := ih (M.step s i).2
      rw [trace_cons, List.filter_cons_of_pos hkeep, List.map_cons, trace_cons, run_cons, run_cons]
      exact ⟨congrArg _ htrace, hrun⟩
    | false =>
      rw [trace_cons, List.filter_cons_of_neg (ne_true_of_eq_false hkeep), run_cons,
        hskip s i hkeep]
      exact ih s

end Machine

end PrivacyShield.Lib
