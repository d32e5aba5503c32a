import Belnet.Lib.Bytes

/-!
# Decimal numbers as text
-/

namespace Decimal
open List Nat

def digit (d : ℕ) : UInt8 := .ofNat (48 + d)

def decimal (n : ℕ) : Bytes := if n = 0 then [48] else ((digits 10 n).reverse).map digit

def isDigit (x : UInt8) : Bool := 48 ≤ x && x ≤ 57

def isSpace (x : UInt8) : Bool := x = 32 || (9 ≤ x && x ≤ 13)

def digitsValue (b : Bytes) : ℕ := (b.takeWhile isDigit).foldl (fun acc x => 10 * acc + (x.toNat - 48)) 0

def strtoull (b : Bytes) : UInt64 :=
  match b.dropWhile isSpace with
  | 45 :: r => if 2^64 ≤ digitsValue r then .ofNat (2^64 - 1) else .ofNat (2^64 - digitsValue r)
  | 43 :: r => .ofNat (min (digitsValue r) (2^64 - 1))
  | r => .ofNat (min (digitsValue r) (2^64 - 1))

def atoi (b : Bytes) : ℤ :=
  match b.dropWhile isSpace with
  | 45 :: r => -(digitsValue r : ℤ)
  | 43 :: r => digitsValue r
  | r => digitsValue r

lemma digit_toNat {d : ℕ} (h : d < 10) : (digit d).toNat = 48 + d := by
  unfold digit
  rw [UInt8.toNat_ofNat']
  omega

lemma isDigit_iff {x : UInt8} : isDigit x = true ↔ 48 ≤ x.toNat ∧ x.toNat ≤ 57 := by
  unfold isDigit
  simp [UInt8.le_iff_toNat_le]

lemma isDigit_digit {d : ℕ} (h : d < 10) : isDigit (digit d) = true := by
  rw [isDigit_iff, digit_toNat h]
  omega

lemma mem_decimal {n : ℕ} {x : UInt8} (h : x ∈ decimal n) : isDigit x = true := by
  unfold decimal at h
  split at h
  · rw [mem_singleton] at h
    subst h
    decide
  · obtain ⟨d, hd, rfl⟩ := mem_map.mp h
    exact isDigit_digit (digits_lt_base (by norm_num) (mem_reverse.mp hd))

lemma decimal_ne_nil (n : ℕ) : decimal n ≠ [] := by
  unfold decimal
  split
  · simp
  · rename_i h
    simp [digits_ne_nil_iff_ne_zero.mpr h]

lemma decimal_length_le {n k : ℕ} (hk : 0 < k) (h : n < 10^k) : (decimal n).length ≤ k := by
  unfold decimal
  split
  · exact hk
  · rw [length_map, length_reverse]
    exact (digits_length_le_iff (by norm_num) n).mpr h

lemma digits_decimal (n : ℕ) : digitsValue (decimal n) = n := by
  have hall : (decimal n).takeWhile isDigit = decimal n := takeWhile_eq_self_iff.mpr fun x hx => mem_decimal hx
  unfold digitsValue
  rw [hall]
  unfold decimal
  split
  · rename_i h
    subst h
    rfl
  -- the fold over the digits is the value of the digit list
  have hfold : ∀ l : List ℕ, (∀ d ∈ l, d < 10) →
      (l.reverse.map digit).foldl (fun acc x => 10 * acc + (x.toNat - 48)) 0 = ofDigits 10 l := by
    intro l
    induction l with
    | nil => intro _; rfl
    | cons d l ih =>
      intro hl
      have hd : d < 10 := hl d mem_cons_self
      rw [reverse_cons, map_append, foldl_append, ih fun x hx => hl x (mem_cons_of_mem d hx), ofDigits_cons]
      simp only [map_cons, map_nil, foldl_cons, foldl_nil, digit_toNat hd]
      omega
  rw [hfold _ fun d hd => digits_lt_base (by norm_num) hd, ofDigits_digits]

lemma dropWhile_decimal (n : ℕ) : ∃ x r, (decimal n).dropWhile isSpace = x :: r ∧ decimal n = x :: r ∧
    x ≠ 45 ∧ x ≠ 43 := by
  obtain ⟨x, r, hxr⟩ := exists_cons_of_ne_nil (decimal_ne_nil n)
  have hx : isDigit x = true := mem_decimal (by rw [hxr]; exact mem_cons_self)
  rw [isDigit_iff] at hx
  have hspace : isSpace x = false := by
    unfold isSpace
    simp only [Bool.or_eq_false_iff, Bool.and_eq_false_iff, decide_eq_false_iff_not, ← UInt8.toNat_inj,
      UInt8.le_iff_toNat_le]
    have h32 : (32 : UInt8).toNat = 32 := rfl
    have h13 : (13 : UInt8).toNat = 13 := rfl
    omega
  refine ⟨x, r, ?_, hxr, ?_, ?_⟩
  · rw [hxr, dropWhile_cons, hspace]
    rfl
  · rintro rfl
    exact absurd hx.1 (by decide)
  · rintro rfl
    exact absurd hx.1 (by decide)

lemma strtoull_decimal {n : ℕ} (h : n < 2^64) : strtoull (decimal n) = .ofNat n := by
  obtain ⟨x, r, hdrop, hxr, hminus, hplus⟩ := dropWhile_decimal n
  unfold strtoull
  rw [hdrop]
  split
  · rename_i heq
    exact absurd (cons.inj heq).1 hminus
  · rename_i heq
    exact absurd (cons.inj heq).1 hplus
  rw [← hxr, digits_decimal]
  congr 1
  omega

lemma atoi_decimal (n : ℕ) : atoi (decimal n) = n := by
  obtain ⟨x, r, hdrop, hxr, hminus, hplus⟩ := dropWhile_decimal n
  unfold atoi
  rw [hdrop]
  split
  · rename_i heq
    exact absurd (cons.inj heq).1 hminus
  · rename_i heq
    exact absurd (cons.inj heq).1 hplus
  · rw [← hxr, digits_decimal]

end Decimal
