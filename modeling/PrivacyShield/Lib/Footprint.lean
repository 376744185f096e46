import Mathlib.Data.Set.Basic
import PrivacyShield.Lib.Machine

/-!
# Footprints and noninterference

A machine whose state is seen as a family of entries, and whose steps use and write known sets of
them. Inputs that write nothing an observer uses can be left out of a run without the observer
noticing (`Footprint.purge`). When the inputs of two parties write nothing the other party uses,
every interleaving of them answers each party as if it were alone, and all interleavings leave the
same entries (`Footprint.interleave`).
-/

namespace PrivacyShield.Lib

variable {σ ι ο K : Type*} {V : K → Type*}

/-- The two states have the same entries in `D`. -/
def SameOn (get : σ → (k : K) → V k) (D : Set K) (s s' : σ) : Prop := ∀ k ∈ D, get s k = get s' k

namespace SameOn

variable {get : σ → (k : K) → V k} {D : Set K} {s s' s'' : σ}

theorem refl (D : Set K) (s : σ) : SameOn get D s s := fun _ _ => rfl

theorem symm (h : SameOn get D s s') : SameOn get D s' s := fun k hk => (h k hk).symm

theorem trans (h : SameOn get D s s') (h' : SameOn get D s' s'') : SameOn get D s s'' :=
  fun k hk => (h k hk).trans (h' k hk)

theorem mono {E : Set K} (h : SameOn get D s s') (hsub : E ⊆ D) : SameOn get E s s' :=
  fun k hk => h k (hsub hk)

end SameOn

/-- What the steps of `M` use and write, of a state whose entries `get` reads: a step on an input is
determined by the entries it uses, and leaves what it does not write. -/
structure Footprint (M : Machine σ ι ο) (get : σ → (k : K) → V k) where
  uses : ι → Set K
  writes : ι → Set K
  writes_subset : ∀ i, writes i ⊆ uses i
  determined : ∀ {s s' i}, SameOn get (uses i) s s' →
    (M.step s i).1 = (M.step s' i).1 ∧ SameOn get (uses i) (M.step s i).2 (M.step s' i).2
  frame : ∀ {s i k}, k ∉ writes i → get (M.step s i).2 k = get s k

namespace Footprint

variable {M : Machine σ ι ο} {get : σ → (k : K) → V k} (F : Footprint M get)

/-- A step that uses only entries in `D` gives the same output and keeps the agreement on `D`. -/
theorem step_sameOn {D : Set K} {s s' : σ} {i : ι} (huses : F.uses i ⊆ D)
    (h : SameOn get D s s') :
    (M.step s i).1 = (M.step s' i).1 ∧ SameOn get D (M.step s i).2 (M.step s' i).2 := by
  obtain ⟨hout, hnext⟩ := F.determined (h.mono huses)
  refine ⟨hout, fun k hk => ?_⟩
  by_cases hwrite : k ∈ F.writes i
  · exact hnext k (F.writes_subset i hwrite)
  · rw [F.frame hwrite, F.frame hwrite, h k hk]

/-- A step that writes nothing in `D` is not seen there. -/
theorem step_unseen {D : Set K} {i : ι} (hwrites : ∀ k ∈ F.writes i, k ∉ D) (s : σ) :
    SameOn get D (M.step s i).2 s :=
  fun k hk => F.frame fun hwrite => hwrites k hwrite hk

/-- An observer who uses only entries in `D` gets from a run what it gets without the inputs that
write nothing in `D`. -/
theorem purge (mine : ι → Bool) {D : Set K} {s s' : σ} {is : List ι}
    (huses : ∀ i ∈ is, mine i = true → F.uses i ⊆ D)
    (hwrites : ∀ i ∈ is, mine i = false → ∀ k ∈ F.writes i, k ∉ D) (h : SameOn get D s s') :
    (M.trace s is).filter (fun e => mine e.1) = M.trace s' (is.filter mine) ∧
      SameOn get D (M.run s is) (M.run s' (is.filter mine)) := by
  induction is generalizing s s' with
  | nil => exact ⟨rfl, h⟩
  | cons i is ih =>
    have huses' := fun j hj => huses j (List.mem_cons_of_mem i hj)
    have hwrites' := fun j hj => hwrites j (List.mem_cons_of_mem i hj)
    by_cases hi : mine i = true
    · obtain ⟨hout, hnext⟩ := F.step_sameOn (huses i List.mem_cons_self hi) h
      obtain ⟨htrace, hrun⟩ := ih huses' hwrites' hnext
      have hkeep : ((M.trace s (i :: is)).filter fun e => mine e.1) =
          (i, (M.step s i).1) :: (M.trace (M.step s i).2 is).filter fun e => mine e.1 :=
        List.filter_cons_of_pos hi
      rw [hkeep, List.filter_cons_of_pos hi, Machine.trace_cons, htrace, hout]
      exact ⟨rfl, hrun⟩
    · have hunseen := F.step_unseen
        (hwrites i List.mem_cons_self (Bool.eq_false_iff.2 hi)) s
      have hdrop : ((M.trace s (i :: is)).filter fun e => mine e.1) =
          (M.trace (M.step s i).2 is).filter fun e => mine e.1 := List.filter_cons_of_neg hi
      rw [hdrop, List.filter_cons_of_neg hi]
      exact ih huses' hwrites' (hunseen.trans h)

/-- Inputs that write nothing in `D` are not seen there, however many. -/
theorem run_unseen {D : Set K} {s : σ} {is : List ι}
    (hwrites : ∀ i ∈ is, ∀ k ∈ F.writes i, k ∉ D) : SameOn get D (M.run s is) s := by
  refine Machine.run_induction (P := fun t => SameOn get D t s)
    (C := fun i => ∀ k ∈ F.writes i, k ∉ D) (fun t i hi h => ?_) (.refl D s) hwrites
  exact (F.step_unseen hi t).trans h

/-- Runs on inputs that use only entries in `D` keep the agreement on `D`. -/
theorem run_sameOn {D : Set K} {s s' : σ} (is : List ι) (huses : ∀ i ∈ is, F.uses i ⊆ D)
    (h : SameOn get D s s') : SameOn get D (M.run s is) (M.run s' is) := by
  obtain ⟨-, hrun⟩ := F.purge (fun _ => true) (fun i hi _ => huses i hi)
    (fun _ _ hfalse => by cases hfalse) h
  rwa [List.filter_true] at hrun

/-- Neither input writes what the other one uses. -/
def Independent (i j : ι) : Prop :=
  (∀ k ∈ F.writes i, k ∉ F.uses j) ∧ ∀ k ∈ F.writes j, k ∉ F.uses i

/-- Two independent parties: any interleaving answers each as if it were alone, and leaves the
entries that the parties leave one after the other. -/
theorem interleave (mine : ι → Bool) {is : List ι}
    (hindep : ∀ i ∈ is, ∀ j ∈ is, mine i = true → mine j = false → F.Independent i j) (s : σ) :
    (M.trace s is).filter (fun e => mine e.1) = M.trace s (is.filter mine) ∧
    (M.trace s is).filter (fun e => !mine e.1) = M.trace s (is.filter fun i => !mine i) ∧
    ∀ k, get (M.run s is) k =
      get (M.run s (is.filter mine ++ is.filter fun i => !mine i)) k := by
  -- what the others never write, and what the party itself never writes
  let D : Set K := {k | ∀ j ∈ is, mine j = false → k ∉ F.writes j}
  let E : Set K := {k | ∀ i ∈ is, mine i = true → k ∉ F.writes i}
  have husesD : ∀ i ∈ is, mine i = true → F.uses i ⊆ D := fun i hi hmine k hk j hj hother hwrite =>
    (hindep i hi j hj hmine hother).2 k hwrite hk
  have husesE : ∀ j ∈ is, mine j = false → F.uses j ⊆ E := fun j hj hother k hk i hi hmine hwrite =>
    (hindep i hi j hj hmine hother).1 k hwrite hk
  have hwritesD : ∀ j ∈ is, mine j = false → ∀ k ∈ F.writes j, k ∉ D :=
    fun j hj hother k hwrite hk => hk j hj hother hwrite
  have hwritesE : ∀ i ∈ is, mine i = true → ∀ k ∈ F.writes i, k ∉ E :=
    fun i hi hmine k hwrite hk => hk i hi hmine hwrite
  obtain ⟨htrace, hrun⟩ := F.purge mine husesD hwritesD (.refl D s)
  obtain ⟨htrace', hrun'⟩ := F.purge (fun i => !mine i)
    (fun j hj hother => husesE j hj (by simpa using hother))
    (fun i hi hmine => hwritesE i hi (by simpa using hmine)) (.refl E s)
  refine ⟨htrace, htrace', fun k => ?_⟩
  rw [Machine.run_append]
  by_cases hk : k ∈ D
  · have hothers : SameOn get D (M.run (M.run s (is.filter mine)) (is.filter fun i => !mine i))
        (M.run s (is.filter mine)) := by
      refine F.run_unseen fun j hj => ?_
      obtain ⟨hj, hother⟩ := List.mem_filter.1 hj
      exact hwritesD j hj (by simpa using hother)
    rw [hrun k hk, hothers k hk]
  · -- somebody else writes `k`, so the party does not
    have hkE : k ∈ E := by
      intro i hi hmine hwrite
      refine hk fun j hj hother hwrite' => ?_
      exact (hindep i hi j hj hmine hother).1 k hwrite (F.writes_subset j hwrite')
    have hparty : SameOn get E s (M.run s (is.filter mine)) := by
      refine (F.run_unseen fun i hi => ?_).symm
      obtain ⟨hi, hmine⟩ := List.mem_filter.1 hi
      exact hwritesE i hi hmine
    have hothers : ∀ j ∈ is.filter fun i => !mine i, F.uses j ⊆ E := by
      intro j hj
      obtain ⟨hj, hother⟩ := List.mem_filter.1 hj
      exact husesE j hj (by simpa using hother)
    rw [hrun' k hkE, F.run_sameOn _ hothers hparty k hkE]

end Footprint

end PrivacyShield.Lib
