import Mathlib

/-!
# Ordered maps whose keys are compared by equality

The lookup lemmas of `Std.TreeMap`, stated with `k = a` in place of `compare k a = .eq`.
-/

set_option linter.unusedSectionVars false

namespace Maps
open Std (TreeMap)
variable {α β : Type} [Ord α] [Std.TransOrd α] [Std.LawfulEqOrd α] [DecidableEq α]
  {m : TreeMap α β} {k a : α} {v : β}

lemma get_insert : (m.insert k v)[a]? = if k = a then some v else m[a]? := by
  rw [TreeMap.getElem?_insert]
  exact if_congr Std.LawfulEqCmp.compare_eq_iff_eq rfl rfl

lemma get_erase : (m.erase k)[a]? = if k = a then none else m[a]? := by
  rw [TreeMap.getElem?_erase]
  exact if_congr Std.LawfulEqCmp.compare_eq_iff_eq rfl rfl

lemma mem_of_get (h : m[k]? = some v) : k ∈ m := by
  rw [TreeMap.mem_iff_isSome_getElem?, h]
  rfl

lemma get_eq_none : m[k]? = none ↔ k ∉ m := by
  rw [TreeMap.mem_iff_isSome_getElem?]
  cases m[k]? <;> simp

lemma get_insertIfNew : (m.insertIfNew k v)[a]? = if k = a ∧ m[a]? = none then some v else m[a]? := by
  rw [TreeMap.getElem?_insertIfNew]
  refine if_congr ?_ rfl rfl
  rw [Std.LawfulEqCmp.compare_eq_iff_eq]
  constructor
  · rintro ⟨rfl, hk⟩
    exact ⟨rfl, get_eq_none.mpr hk⟩
  · rintro ⟨rfl, hk⟩
    exact ⟨rfl, get_eq_none.mp hk⟩

lemma mem_insert : a ∈ m.insert k v ↔ k = a ∨ a ∈ m := by rw [TreeMap.mem_insert, Std.LawfulEqCmp.compare_eq_iff_eq]

lemma mem_insertIfNew : a ∈ m.insertIfNew k v ↔ k = a ∨ a ∈ m := by
  rw [TreeMap.mem_insertIfNew, Std.LawfulEqCmp.compare_eq_iff_eq]

lemma size_insert_of_mem (h : k ∈ m) : (m.insert k v).size = m.size := by
  rw [TreeMap.size_insert, if_pos (TreeMap.contains_iff_mem.mpr h)]

lemma size_erase_of_mem (h : k ∈ m) : (m.erase k).size + 1 = m.size := by
  have hpos : m.size ≠ 0 := by
    intro h0
    have hempty : m.isEmpty = true := by
      rw [TreeMap.isEmpty_eq_size_eq_zero, h0]
      rfl
    exact TreeMap.isEmpty_iff_forall_not_mem.mp hempty k h
  rw [TreeMap.size_erase, if_pos (TreeMap.contains_iff_mem.mpr h)]
  omega

end Maps
