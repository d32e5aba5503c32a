import Mathlib

/-!
# Byte strings: big-endian numbers, bounded reads, writes in place

Bytes are lists of `UInt8`.
-/

abbrev Bytes := List UInt8

abbrev AlignedBuffer (n : ℕ) := List.Vector UInt8 n

instance : LawfulBEq (AlignedBuffer 16) := inferInstance

instance : LawfulBEq (AlignedBuffer 32) := inferInstance

namespace AlignedBuffer

def zero (n : ℕ) : AlignedBuffer n := ⟨List.replicate n 0, List.length_replicate⟩

def ofBytes (n : ℕ) (b : Bytes) : AlignedBuffer n := ⟨(b ++ List.replicate n 0).take n, by simp⟩

lemma ofBytes_append {n : ℕ} (x : AlignedBuffer n) (rest : Bytes) : ofBytes n (x.toList ++ rest) = x := by
  apply List.Vector.eq
  show (x.toList ++ rest ++ List.replicate n 0).take n = x.toList
  rw [List.append_assoc, List.take_append_of_le_length (by simp), List.take_of_length_le (by simp)]

end AlignedBuffer

namespace Bytes

def writeBig : ℕ → ℕ → Bytes
  | 0, _ => []
  | w+1, v => writeBig w (v / 256) ++ [.ofNat v]

def loadBig (b : Bytes) : ℕ := b.foldl (fun acc x => 256 * acc + x.toNat) 0

@[simp] lemma writeBig_length (w v : ℕ) : (writeBig w v).length = w := by
  induction w generalizing v with
  | zero => rfl
  | succ w ih => rw [writeBig, List.length_append, ih, List.length_singleton]

lemma loadBig_snoc (b : Bytes) (x : UInt8) : loadBig (b ++ [x]) = 256 * loadBig b + x.toNat := by
  unfold loadBig
  rw [List.foldl_append]
  rfl

lemma loadBig_writeBig (w v : ℕ) : loadBig (writeBig w v) = v % 256^w := by
  induction w generalizing v with
  | zero => rw [pow_zero, Nat.mod_one]; rfl
  | succ w ih =>
    have hx : (UInt8.ofNat v).toNat = v % 256 := UInt8.toNat_ofNat'
    rw [writeBig, loadBig_snoc, ih, hx, pow_succ, Nat.mul_comm (256^w) 256, Nat.mod_mul]
    omega

variable {b a : Bytes}

lemma loadBig_inj (hlen : a.length = b.length) (h : loadBig a = loadBig b) : a = b := by
  induction a using List.reverseRecOn generalizing b with
  | nil => exact (List.length_eq_zero_iff.mp hlen.symm).symm
  | append_singleton a x ih =>
    rcases List.eq_nil_or_concat b with rfl | ⟨b, y, rfl⟩
    · simp at hlen
    rw [List.concat_eq_append] at hlen h ⊢
    rw [loadBig_snoc, loadBig_snoc] at h
    have hx := x.toNat_lt
    have hy := y.toNat_lt
    have hxy : x = y := UInt8.toNat_inj.mp (by omega)
    have hab : a = b := ih (by simpa using hlen) (by omega)
    rw [hab, hxy]

lemma loadBig_lt (b : Bytes) : loadBig b < 256^b.length := by
  induction b using List.reverseRecOn with
  | nil => simp [loadBig]
  | append_singleton b x =>
    have hx := x.toNat_lt
    rw [loadBig_snoc, List.length_append, List.length_singleton, pow_succ]
    omega

def slice (b : Bytes) (off n : ℕ) : Option Bytes :=
  if off + n ≤ b.length then some ((b.drop off).take n) else none

variable {off n : ℕ}

lemma slice_of_le (h : off + n ≤ b.length) : slice b off n = some ((b.drop off).take n) := if_pos h

lemma slice_eq_none : slice b off n = none ↔ b.length < off + n := by
  unfold slice
  split <;> simp <;> omega

variable {x : Bytes}

lemma length_of_slice (h : slice b off n = some x) : x.length = n := by
  unfold slice at h
  split at h
  · rw [← Option.some.inj h, List.length_take, List.length_drop]
    omega
  · cases h

lemma slice_right {k : ℕ} (hk : a.length = k) : slice (a ++ b) (k + off) n = slice b off n := by
  subst hk
  unfold slice
  rw [List.length_append, List.drop_append, List.drop_eq_nil_of_le (by omega), List.nil_append]
  have e : a.length + off - a.length = off := by omega
  have hiff : a.length + off + n ≤ a.length + b.length ↔ off + n ≤ b.length := by omega
  rw [e, if_congr hiff rfl rfl]

lemma slice_left (hn : a.length = n) : slice (a ++ b) 0 n = some a := by
  subst hn
  rw [slice_of_le (by simp), List.drop_zero, List.take_left]

def overwrite (b : Bytes) (off : ℕ) (x : Bytes) : Bytes := b.take off ++ x ++ b.drop (off + x.length)

lemma overwrite_length (h : off + x.length ≤ b.length) : (overwrite b off x).length = b.length := by
  unfold overwrite
  rw [List.length_append, List.length_append, List.length_take, List.length_drop]
  omega

lemma overwrite_get (h : off + x.length ≤ b.length) (k : ℕ) :
    (overwrite b off x)[k]? = if off ≤ k ∧ k < off + x.length then x[k - off]? else b[k]? := by
  unfold overwrite
  have hlen : (b.take off).length = off := by rw [List.length_take]; omega
  by_cases h1 : k < off
  · rw [List.append_assoc, List.getElem?_append_left (by omega), if_neg (by omega), List.getElem?_take_of_lt h1]
  by_cases h2 : k < off + x.length
  · rw [List.append_assoc, List.getElem?_append_right (by omega), hlen,
      List.getElem?_append_left (by omega), if_pos (by omega)]
  have e : off + x.length + (k - (off + x.length)) = k := by omega
  rw [List.getElem?_append_right (by rw [List.length_append]; omega), List.length_append, hlen,
    List.getElem?_drop, e, if_neg (by omega)]

def part (b : Bytes) (off n : ℕ) : Bytes := (b.drop off).take n

lemma part_length (h : off + n ≤ b.length) : (part b off n).length = n := by
  unfold part
  rw [List.length_take, List.length_drop]
  omega

lemma part_get (b : Bytes) (off n k : ℕ) : (part b off n)[k]? = if k < n then b[off + k]? else none := by
  unfold part
  rw [List.getElem?_take, List.getElem?_drop]

lemma part_overwrite (h : off + x.length ≤ b.length) : part (overwrite b off x) off x.length = x := by
  apply List.ext_getElem?
  intro k
  rw [part_get, overwrite_get h]
  by_cases hk : k < x.length
  · rw [if_pos hk, if_pos (by omega), Nat.add_sub_cancel_left]
  · rw [if_neg hk, List.getElem?_eq_none (by omega)]

lemma part_overwrite_apart {off' : ℕ} (h : off + x.length ≤ b.length)
    (hapart : off' + n ≤ off ∨ off + x.length ≤ off') : part (overwrite b off x) off' n = part b off' n := by
  apply List.ext_getElem?
  intro k
  rw [part_get, part_get, overwrite_get h]
  by_cases hk : k < n
  · rw [if_pos hk, if_pos hk, if_neg (by omega)]
  · rw [if_neg hk, if_neg hk]

lemma part_add (b : Bytes) (off n k : ℕ) : part b off (n + k) = part b off n ++ part b (off + n) k := by
  unfold part
  rw [List.take_add, List.drop_drop]

def blocks (n k : ℕ) : List ℕ := (List.range ((n + k - 1) / k)).map (· * k)

lemma mem_blocks {k : ℕ} (hk : 0 < k) {x : ℕ} : x ∈ blocks n k ↔ x < n ∧ x % k = 0 := by
  unfold blocks
  rw [List.mem_map]
  constructor
  · rintro ⟨i, hi, rfl⟩
    rw [List.mem_range, Nat.lt_div_iff_mul_lt hk] at hi
    refine ⟨?_, Nat.mul_mod_left i k⟩
    show i * k < n
    omega
  · rintro ⟨_, h0⟩
    have e : x / k * k = x := Nat.div_mul_cancel (Nat.dvd_of_mod_eq_zero h0)
    refine ⟨x / k, ?_, e⟩
    rw [List.mem_range, Nat.lt_div_iff_mul_lt hk, e]
    omega

end Bytes
