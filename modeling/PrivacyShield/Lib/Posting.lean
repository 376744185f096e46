import Mathlib.Algebra.BigOperators.Group.List.Basic
import Mathlib.Logic.Function.Basic

/-!
# Posting ledgers

A ledger maps account names to balances; an account that was never posted to has none. A posting
`(a, x)` opens `a` if needed and adds `x`, which may be negative, to it.

Postings commute (`Ledger.post_comm`), so the effect of a list of postings does not depend on its
order, and the ledger after a list of postings is determined by the net amount posted to each
account (`Ledger.postAll_apply`).
-/

namespace PrivacyShield.Lib

/-- Balances by account name, `none` for an account that was never opened. -/
abbrev Ledger (A M : Type*) := A → Option M

variable {A M : Type*} [DecidableEq A] [AddCommMonoid M]

/-- The net amount that the postings add to `a`. -/
def netPosted (ps : List (A × M)) (a : A) : M :=
  (ps.map fun p => if p.1 = a then p.2 else 0).sum

@[simp] theorem netPosted_nil (a : A) : netPosted ([] : List (A × M)) a = 0 := rfl

@[simp] theorem netPosted_cons (p : A × M) (ps : List (A × M)) (a : A) :
    netPosted (p :: ps) a = (if p.1 = a then p.2 else 0) + netPosted ps a :=
  List.sum_cons

@[simp] theorem netPosted_append (ps qs : List (A × M)) (a : A) :
    netPosted (ps ++ qs) a = netPosted ps a + netPosted qs a := by
  unfold netPosted
  rw [List.map_append, List.sum_append]

theorem netPosted_of_notMem {ps : List (A × M)} {a : A} (h : a ∉ ps.map Prod.fst) :
    netPosted ps a = 0 := by
  induction ps with
  | nil => rfl
  | cons p ps ih =>
    rw [List.map_cons, List.mem_cons, not_or] at h
    rw [netPosted_cons, if_neg (Ne.symm h.1), ih h.2, add_zero]

namespace Ledger

/-- Add an amount to one account. -/
def post (l : Ledger A M) (p : A × M) : Ledger A M :=
  Function.update l p.1 (some ((l p.1).getD 0 + p.2))

/-- Post a list of amounts. -/
def postAll (l : Ledger A M) (ps : List (A × M)) : Ledger A M := ps.foldl post l

theorem post_apply (l : Ledger A M) (p : A × M) (a : A) :
    l.post p a = if p.1 = a then some ((l a).getD 0 + p.2) else l a := by
  unfold post
  split
  · next h =>
    subst h
    rw [Function.update_self]
  · next h => rw [Function.update_of_ne (Ne.symm h)]

theorem post_apply_of_some {l : Ledger A M} {a : A} {x : M} (h : l a = some x) (y : M) (b : A) :
    l.post (a, y) b = if b = a then some (x + y) else l b := by
  rw [post_apply]
  by_cases hab : b = a
  · subst hab
    rw [if_pos rfl, if_pos rfl, h, Option.getD_some]
  · rw [if_neg (Ne.symm hab), if_neg hab]

/-- Two postings have the same effect in either order, also on one account. -/
theorem post_comm (l : Ledger A M) (p q : A × M) : (l.post p).post q = (l.post q).post p := by
  funext a
  simp only [post_apply]
  by_cases hp : p.1 = a
  · by_cases hq : q.1 = a
    · simp only [hp, hq, if_true, Option.getD_some, add_assoc, add_comm p.2 q.2]
    · simp only [hp, hq, if_true, if_false]
  · by_cases hq : q.1 = a
    · simp only [hp, hq, if_true, if_false]
    · simp only [hp, hq, if_false]

/-- Two postings to one account are one posting of their sum. -/
theorem post_post (l : Ledger A M) (a : A) (x y : M) :
    (l.post (a, x)).post (a, y) = l.post (a, x + y) := by
  funext b
  simp only [post_apply]
  split
  · rw [Option.getD_some, add_assoc]
  · rfl

/-- Posting nothing to an open account. -/
theorem post_zero {l : Ledger A M} {a : A} {x : M} (h : l a = some x) : l.post (a, 0) = l := by
  unfold post
  rw [h, Option.getD_some, add_zero, ← h, Function.update_eq_self]

@[simp] theorem postAll_nil (l : Ledger A M) : l.postAll [] = l := rfl

@[simp] theorem postAll_cons (l : Ledger A M) (p : A × M) (ps : List (A × M)) :
    l.postAll (p :: ps) = (l.post p).postAll ps := rfl

theorem postAll_append (l : Ledger A M) (ps qs : List (A × M)) :
    l.postAll (ps ++ qs) = (l.postAll ps).postAll qs :=
  List.foldl_append

/-- The balances after a list of postings. -/
theorem postAll_apply (l : Ledger A M) (ps : List (A × M)) (a : A) :
    l.postAll ps a =
      if a ∈ ps.map Prod.fst then some ((l a).getD 0 + netPosted ps a) else l a := by
  induction ps generalizing l with
  | nil => rfl
  | cons p ps ih =>
    rw [postAll_cons, ih, netPosted_cons, post_apply]
    by_cases hp : p.1 = a
    · by_cases hmem : a ∈ ps.map Prod.fst
      · simp [hp, hmem, add_assoc]
      · simp [hp, hmem, netPosted_of_notMem hmem]
    · have hmem : a ∈ (p :: ps).map Prod.fst ↔ a ∈ ps.map Prod.fst := by
        rw [List.map_cons, List.mem_cons, or_iff_right (Ne.symm hp)]
      simp only [hmem, hp, if_false, zero_add]

/-- An account's balance, absent accounts counting as zero, grows by what was posted to it. -/
theorem getD_postAll (l : Ledger A M) (ps : List (A × M)) (a : A) :
    (l.postAll ps a).getD 0 = (l a).getD 0 + netPosted ps a := by
  induction ps generalizing l with
  | nil => rw [postAll_nil, netPosted_nil, add_zero]
  | cons p ps ih =>
    rw [postAll_cons, ih, netPosted_cons]
    rw [post_apply]
    split
    · rw [Option.getD_some, add_assoc]
    · rw [zero_add]

/-- Two lists of postings have the same effect in either order. -/
theorem postAll_comm (l : Ledger A M) (ps qs : List (A × M)) :
    (l.postAll ps).postAll qs = (l.postAll qs).postAll ps := by
  rw [← postAll_append, ← postAll_append]
  exact List.perm_append_comm.foldl_eq' (fun p _ q _ l => post_comm l p q) l

end Ledger

end PrivacyShield.Lib
