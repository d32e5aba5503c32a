import Mathlib.Data.List.Perm.Basic

/-!
# Threads with stacks of calls

The calls in progress of all threads are one list; of two calls of one thread the inner one stands first.
-/

namespace Belnet.Threads
open List
variable {F : Type}

def top (fs : List (ℕ × F)) (t : ℕ) : Option F := (fs.find? fun x => x.1 = t).map Prod.snd

def pop (fs : List (ℕ × F)) (t : ℕ) : List (ℕ × F) := fs.eraseP fun x => x.1 = t

lemma perm_of_top {fs : List (ℕ × F)} {t : ℕ} {f : F} (h : top fs t = some f) : fs.Perm ((t, f) :: pop fs t) := by
  unfold top at h
  unfold pop
  induction fs with
  | nil => cases h
  | cons x fs ih =>
    by_cases hx : x.1 = t
    · rw [find?_cons_of_pos (by simpa using hx)] at h
      rw [eraseP_cons_of_pos (by simpa using hx)]
      obtain ⟨_, _⟩ := x
      cases hx
      cases h
      exact .refl _
    · rw [find?_cons_of_neg (by simpa using hx)] at h
      rw [eraseP_cons_of_neg (by simpa using hx)]
      exact ((ih h).cons x).trans (.swap _ _ _)

end Belnet.Threads
