import Mathlib

/-!
# Ring buffers

A buffer of fixed size is read from `start` on, around its end: its window of `n` elements.
-/

namespace Ring
open List
variable {α : Type*} {m m' x : List α} {start n u : ℕ}

def window (m : List α) (start n : ℕ) : List α := (m.rotate start).take n

lemma take_window (hu : u ≤ n) : (window m start n).take u = window m start u := by
  rw [window, take_take, Nat.min_eq_left hu, window]

lemma rotate_add_mod (hu : u ≤ m.length) :
    m.rotate ((start + u) % m.length) = (m.rotate start).drop u ++ (m.rotate start).take u := by
  rw [rotate_mod, ← rotate_rotate, rotate_eq_drop_append_take (by rw [length_rotate]; exact hu)]

/-- the rest of a window is the window from a later start -/
lemma drop_window (hu : u ≤ n) (hn : n ≤ m.length) :
    (window m start n).drop u = window m ((start + u) % m.length) (n - u) := by
  rw [window, window, rotate_add_mod (hu.trans hn), take_append_of_le_length (by simp; omega), drop_take]

/-- a window in front of the end, and one that goes around it -/
lemma window_eq (hs : start ≤ m.length) :
    window m start n = (m.drop start).take n ++ (m.take start).take (n - (m.length - start)) := by
  rw [window, rotate_eq_drop_append_take hs, take_append, length_drop]

/-- what is written behind a window, in the free part of the buffer, makes it longer -/
lemma window_append (hlen : m'.length = m.length) (hx : n + x.length ≤ m.length)
    (h : m'.rotate ((start + n) % m.length) = x ++ (m.rotate ((start + n) % m.length)).drop x.length) :
    window m' start (n + x.length) = window m start n ++ x := by
  have hleft : m'.rotate ((start + n) % m'.length) = _ := rotate_add_mod (by omega)
  rw [hlen, h, rotate_add_mod (by omega), drop_append_of_le_length (by simp; omega), ← append_assoc] at hleft
  obtain ⟨hdrop, htake⟩ := append_inj' hleft (by simp [hlen])
  rw [window, take_add, ← htake, ← hdrop, take_left, window]

end Ring
