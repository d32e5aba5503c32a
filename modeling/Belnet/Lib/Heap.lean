import Mathlib

/-!
# Loops over the top of a priority queue

`Drains lt q out`: a loop that takes the top until the queue is empty hands out `out`.  The top of a `std::priority_queue`
is an element that is `lt` no other; which one of several is left open.
-/

namespace Belnet.Heap
open List
variable {α : Type} [DecidableEq α] {lt : α → α → Prop} {q out : List α}

inductive Drains (lt : α → α → Prop) : List α → List α → Prop
  | empty : Drains lt [] []
  | pop {q out : List α} {top : α} (hmem : top ∈ q) (htop : ∀ x ∈ q, ¬ lt top x) (rest : Drains lt (q.erase top) out) :
      Drains lt q (top :: out)

lemma Drains.perm (h : Drains lt q out) : out.Perm q := by
  induction h with
  | empty => exact .nil
  | pop hmem htop rest ih => exact (ih.cons _).trans (perm_cons_erase hmem).symm

lemma Drains.ordered (h : Drains lt q out) : out.Pairwise fun x y => ¬ lt x y := by
  induction h with
  | empty => exact .nil
  | pop hmem htop rest ih =>
    refine pairwise_cons.mpr ⟨fun x hx => htop x ?_, ih⟩
    exact mem_of_mem_erase (rest.perm.mem_iff.mp hx)

end Belnet.Heap
