import Mathlib

/-!
# Two maps that are inverse to each other

A one-to-one assignment kept in two partial maps, `f` from the left to the right side and `g` back.
-/

namespace Bimap
open Function Option
variable {α β : Type*} {f : α → Option β} {g : β → Option α} {a : α} {b : β}

def Inverse (f : α → Option β) (g : β → Option α) : Prop := ∀ a b, f a = some b ↔ g b = some a

lemma inverse_empty : Inverse (fun _ : α => (none : Option β)) fun _ => none :=
  fun _ _ => ⟨fun h => (nomatch h), fun h => (nomatch h)⟩

variable [DecidableEq α] [DecidableEq β]

lemma Inverse.insert (h : Inverse f g) (ha : f a = none) (hb : g b = none) :
    Inverse (update f a (some b)) (update g b (some a)) := by
  intro x y
  by_cases hx : x = a
  · subst hx
    rw [update_self]
    by_cases hy : y = b
    · rw [hy, update_self]
      exact ⟨fun _ => rfl, fun _ => rfl⟩
    · rw [update_of_ne hy, ← h x y, ha]
      exact ⟨fun hxy => absurd (some.inj hxy).symm hy, fun hxy => (nomatch hxy)⟩
  · rw [update_of_ne hx]
    by_cases hy : y = b
    · rw [hy, update_self, h x b, hb]
      exact ⟨fun hxy => (nomatch hxy), fun hxy => absurd (some.inj hxy).symm hx⟩
    · rw [update_of_ne hy]
      exact h x y

lemma Inverse.erase (h : Inverse f g) (hab : f a = some b) : Inverse (update f a none) (update g b none) := by
  intro x y
  by_cases hx : x = a
  · subst hx
    rw [update_self]
    by_cases hy : y = b
    · rw [hy, update_self]
      exact ⟨fun hxy => (nomatch hxy), fun hxy => (nomatch hxy)⟩
    · rw [update_of_ne hy, ← h x y, hab]
      exact ⟨fun hxy => (nomatch hxy), fun hxy => absurd (some.inj hxy).symm hy⟩
  · rw [update_of_ne hx]
    by_cases hy : y = b
    · rw [hy, update_self, h x b, (h a b).mp hab]
      exact ⟨fun hxy => absurd (some.inj hxy).symm hx, fun hxy => (nomatch hxy)⟩
    · rw [update_of_ne hy]
      exact h x y

end Bimap
