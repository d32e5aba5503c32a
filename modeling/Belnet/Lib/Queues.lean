import Mathlib.Data.List.AList
import Mathlib.Data.Multiset.AddSub
import Mathlib.Data.Multiset.Bind

/-!
# Tables of queues

A map from keys to queues: `append` makes the queue of a key when it is not there, and a queue is taken out as a whole.
-/

namespace Belnet.Queues
open List AList Multiset Option
variable {K α : Type} [DecidableEq K] (m : AList (fun _ : K => List α))

def queue (k : K) : List α := (m.lookup k).getD []

def append (k : K) (xs : List α) : AList (fun _ : K => List α) := m.insert k (queue m k ++ xs)

lemma queue_insert (k k' : K) (q : List α) : queue (m.insert k q) k' = if k' = k then q else queue m k' := by
  unfold queue
  split
  · rename_i h
    subst h
    rw [lookup_insert, getD_some]
  · rename_i h
    rw [lookup_insert_ne h]

lemma queue_append (k k' : K) (xs : List α) :
    queue (append m k xs) k' = if k' = k then queue m k ++ xs else queue m k' := queue_insert m k k' _

lemma queue_erase (k k' : K) : queue (m.erase k) k' = if k' = k then [] else queue m k' := by
  unfold queue
  split
  · rename_i h
    subst h
    rw [lookup_erase, getD_none]
  · rename_i h
    rw [lookup_erase_ne h]

omit [DecidableEq K] in
def items : Multiset α := ↑(m.entries.flatMap Sigma.snd)

lemma items_take (k : K) : items (m.erase k) + ↑(queue m k) = items m := by
  unfold items queue
  by_cases hk : k ∈ m.entries.keys
  · obtain ⟨b, l₁, l₂, _, hl, herase⟩ := exists_of_kerase hk
    have hlook : m.lookup k = some b := by
      refine mem_lookup_iff.mpr ?_
      rw [hl]
      exact mem_append_right _ mem_cons_self
    have he : (m.erase k).entries = l₁ ++ l₂ := herase
    rw [hlook, he, hl, coe_add]
    simp only [flatMap_append, flatMap_cons, getD_some]
    refine coe_eq_coe.mpr ?_
    rw [append_assoc]
    exact Perm.append_left _ perm_append_comm
  · have hlook : m.lookup k = none := lookup_eq_none.mpr hk
    have he : (m.erase k).entries = m.entries := kerase_of_notMem_keys hk
    rw [hlook, he]
    exact add_zero _

lemma items_append (k : K) (xs : List α) : items (append m k xs) = items m + ↑xs := by
  have hentries : (append m k xs).entries = ⟨k, queue m k ++ xs⟩ :: (m.erase k).entries := rfl
  rw [← items_take m k]
  unfold items
  rw [hentries, flatMap_cons, ← coe_add, ← coe_add]
  exact (add_rotate _ _ _).symm

end Belnet.Queues
