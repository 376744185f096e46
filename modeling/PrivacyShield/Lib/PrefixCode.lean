import Mathlib.Data.List.Infix
import Mathlib.Data.Set.Function

/-!
# Prefix-free codes

A code is prefix-free when no codeword starts another. A concatenation that begins with a codeword
then splits in one way only (`PrefixFree.append_inj`), whatever the lengths of the codewords are.

A code into words of a fixed length, such as a digest, can only be injective on part of its domain;
on the members of a list this can be decided (`injOn_mem_iff`).
-/

namespace PrivacyShield.Lib

variable {α β γ : Type*}

/-- No codeword is a prefix of the codeword of another value. -/
def PrefixFree (enc : α → List β) : Prop :=
  ∀ a b, enc a <+: enc b → a = b

namespace PrefixFree

/-- The first codeword of a string, and what follows it, are determined by the string. -/
theorem append_inj {enc : α → List β} (h : PrefixFree enc) {a b : α} {u v : List β}
    (heq : enc a ++ u = enc b ++ v) : a = b ∧ u = v := by
  have ha : enc a <+: enc b ++ v := heq ▸ List.prefix_append (enc a) u
  have hb : enc b <+: enc b ++ v := List.prefix_append (enc b) v
  have hab : a = b := by
    rcases List.prefix_or_prefix_of_prefix ha hb with hp | hp
    · exact h a b hp
    · exact (h b a hp).symm
  subst hab
  exact ⟨rfl, List.append_cancel_left heq⟩

/-- Codewords of one length are prefix-free as soon as they are distinct. -/
theorem of_length {enc : α → List β} {n : Nat} (hlen : ∀ a, (enc a).length = n)
    (hinj : Function.Injective enc) : PrefixFree enc :=
  fun a b hp => hinj (hp.eq_of_length (by rw [hlen, hlen]))

/-- A codeword in front keeps a code prefix-free. -/
theorem pair {enc : α → List β} {enc' : γ → List β} (h : PrefixFree enc)
    (h' : PrefixFree enc') : PrefixFree fun p : α × γ => enc p.1 ++ enc' p.2 := by
  rintro ⟨a, c⟩ ⟨b, d⟩ ⟨t, ht⟩
  simp only [List.append_assoc] at ht
  obtain ⟨rfl, hrest⟩ := h.append_inj ht
  rw [h' c d ⟨t, hrest⟩]

end PrefixFree

theorem injOn_mem_iff {f : α → β} {l : List α} :
    Set.InjOn f {a | a ∈ l} ↔ ∀ a ∈ l, ∀ b ∈ l, a = b ∨ f a ≠ f b := by
  refine ⟨fun h a ha b hb => ?_, fun h a ha b hb heq => ?_⟩
  · by_cases heq : f a = f b
    · exact .inl (h ha hb heq)
    · exact .inr heq
  · rcases h a ha b hb with hab | hne
    · exact hab
    · exact absurd heq hne

instance decidableInjOnMem [DecidableEq α] [DecidableEq β] (f : α → β) (l : List α) :
    Decidable (Set.InjOn f {a | a ∈ l}) :=
  decidable_of_iff _ injOn_mem_iff.symm

end PrivacyShield.Lib
