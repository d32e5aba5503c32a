import Mathlib

/-!
# Association lists with entries left out

`AList` keeps the order of its entries, so a map with entries left out is compared with the one that never had them.
-/

namespace Assoc
open AList List

universe u v
variable {α : Type u} {β : α → Type v} {P Q : Sigma β → Bool} {m : AList β} {a : α} {b : β a}

def restrict (P : Sigma β → Bool) (m : AList β) : AList β where
  entries := m.entries.filter P
  nodupKeys := m.nodupKeys.sublist filter_sublist

lemma restrict_congr (h : ∀ e ∈ m.entries, P e = Q e) : restrict P m = restrict Q m := ext (filter_congr h)

lemma restrict_all (h : ∀ e ∈ m.entries, P e = true) : restrict P m = m := ext (filter_eq_self.mpr h)

variable [DecidableEq α]

lemma lookup_restrict : (restrict P m).lookup a = (m.lookup a).filter fun b => P ⟨a, b⟩ := by
  apply Option.ext
  intro b
  rw [Option.filter_eq_some_iff, ← Option.mem_def, ← Option.mem_def, mem_lookup_iff, mem_lookup_iff]
  exact mem_filter

lemma notMem_restrict (h : a ∉ m) : a ∉ restrict P m := by
  intro ha
  obtain ⟨b, hb⟩ := Option.isSome_iff_exists.mp (lookup_isSome.mpr ha)
  rw [lookup_restrict, lookup_eq_none.mpr h] at hb
  cases hb

lemma restrict_insert (h : a ∉ m) (hP : P ⟨a, b⟩ = true) : restrict P (m.insert a b) = (restrict P m).insert a b := by
  apply ext
  show (m.insert a b).entries.filter P = _
  rw [entries_insert_of_notMem h, entries_insert_of_notMem (notMem_restrict h), filter_cons_of_pos hP]
  rfl

lemma restrict_insert_drop (h : a ∉ m) (hP : P ⟨a, b⟩ = false) : restrict P (m.insert a b) = restrict P m := by
  apply ext
  show (m.insert a b).entries.filter P = _
  rw [entries_insert_of_notMem h, filter_cons_of_neg (by simp [hP])]
  rfl

lemma kerase_eq_filter {l : List (Sigma β)} (h : l.NodupKeys) : l.kerase a = l.filter fun e => e.1 ≠ a := by
  induction l with
  | nil => rfl
  | cons e l ih =>
    obtain ⟨hnotMem, hl⟩ := nodupKeys_cons.mp h
    by_cases he : a = e.1
    · subst he
      rw [kerase_cons_eq rfl, filter_cons_of_neg (by simp)]
      refine (filter_eq_self.mpr ?_).symm
      intro e' he'
      have hne : e'.1 ≠ e.1 := by
        intro heq
        exact hnotMem (heq ▸ mem_keys_of_mem he')
      simpa using hne
    · rw [kerase_cons_ne he, ih hl, filter_cons_of_pos (by simpa using Ne.symm he)]

lemma entries_erase : (m.erase a).entries = m.entries.filter fun e => e.1 ≠ a := kerase_eq_filter m.nodupKeys

lemma restrict_erase : restrict P (m.erase a) = (restrict P m).erase a := by
  apply ext
  show (m.erase a).entries.filter P = _
  rw [entries_erase, entries_erase, filter_comm]
  rfl

lemma erase_of_notMem (h : a ∉ m) : m.erase a = m := by
  apply ext
  rw [entries_erase]
  refine filter_eq_self.mpr fun e he => ?_
  have hne : e.1 ≠ a := by
    rintro rfl
    exact h (mem_keys.mpr (mem_keys_of_mem he))
  simpa using hne

section
variable {γ : Type v} {m : AList fun _ : α => γ} {k : α} {x y : γ}

lemma lookup_insert : (m.insert k x).lookup a = if a = k then some x else m.lookup a := by
  split
  · subst a
    exact lookup_insert m
  · exact lookup_insert_ne ‹_›

lemma lookup_erase : (m.erase k).lookup a = if a = k then none else m.lookup a := by
  split
  · subst a
    exact lookup_erase k m
  · exact lookup_erase_ne ‹_›

lemma insert_some (h : (m.insert k x).lookup a = some y) : a = k ∧ x = y ∨ a ≠ k ∧ m.lookup a = some y := by
  rw [lookup_insert] at h
  split at h
  · exact .inl ⟨‹_›, Option.some.inj h⟩
  · exact .inr ⟨‹_›, h⟩

lemma erase_some (h : (m.erase k).lookup a = some y) : a ≠ k ∧ m.lookup a = some y := by
  rw [lookup_erase] at h
  split at h
  · cases h
  · exact ⟨‹_›, h⟩

end

end Assoc
