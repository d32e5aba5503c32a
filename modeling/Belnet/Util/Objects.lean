import Belnet.Util.Entries

/-!
# Objects that are written and read

A message has objects inside whose writers may refuse, and a parser whose state is more than the message.
-/

namespace Belnet.Util
open Decimal List Reads Nat

/-- a writer that succeeded has moved by the length of `x`, which it appended, unless the buffer is full -/
def Appends (w : Writer) (x : Bytes) : Prop :=
  ∀ b b' : Buf, w b = (true, b') → b.cur ≤ b.data.length →
    b'.cur = b.cur + x.length ∧ b'.cur ≤ b'.data.length ∧ b'.data.length = b.data.length ∧
      (b'.cur < b'.data.length → b'.data.take b'.cur = b.data.take b.cur ++ x)

section
variable {w f g : Writer} {x y : Bytes}

lemma Prints.appends (h : Prints w x) : Appends w x := by
  intro b b' hok hb
  obtain ⟨hcur, hin, hlen⟩ := h.fits hok hb
  refine ⟨hcur, hin, hlen, fun _ => ?_⟩
  obtain ⟨d, hd, -, htake⟩ := h.emits b (by omega)
  have hb' : b' = ⟨d, b.cur + x.length⟩ := (Prod.mk.inj (hok.symm.trans hd)).2
  rw [hb']
  exact htake

lemma Appends.seq (hf : Appends f x) (hg : Appends g y) : Appends (f.seq g) (x ++ y) := by
  intro b b' hok hb
  obtain ⟨b1, h1, h2⟩ := seq_ok hok
  obtain ⟨hcur, hin, hlen, htake⟩ := hf b b1 h1 hb
  obtain ⟨hcur', hin', hlen', htake'⟩ := hg b1 b' h2 hin
  refine ⟨by rw [hcur', hcur, length_append, add_assoc], hin', hlen'.trans hlen, fun hroom => ?_⟩
  rw [htake' hroom, htake (by omega), append_assoc]

lemma Appends.cast (h : Appends w x) (hy : y = x) : Appends w y := hy ▸ h

lemma appends_refused (x : Bytes) : Appends (fun b => (false, b)) x := by
  intro b _ hok
  cases hok

lemma appends_writeAll {α : Type} {w : α → Writer} {x : α → Bytes} {l : List α} (h : ∀ a ∈ l, Appends (w a) (x a)) :
    Appends (writeAll w l) (l.flatMap x) := by
  induction l with
  | nil => exact prints_skip.appends
  | cons a l ih => exact (h a mem_cons_self).seq (ih fun b hb => h b (mem_cons_of_mem a hb))

lemma appends_dictList {α : Type} {w : α → Writer} {x : α → Bytes} (k : Bytes) {l : List α}
    (h : ∀ a ∈ l, Appends (w a) (x a)) : Appends (writeDictList k w l) (str k ++ 108 :: (l.flatMap x ++ [101])) := by
  have hlist := (((prints_writeBytestring k).seq (prints_write [108])).appends.seq (appends_writeAll h)).seq
    (prints_write [101]).appends
  have hassoc : str k ++ 108 :: (l.flatMap x ++ [101]) = str k ++ [108] ++ l.flatMap x ++ [101] := by simp
  rw [hassoc]
  exact hlist

lemma appends_unless {p : Prop} [Decidable p] (h : Appends w x) :
    Appends (if p then skip else w) (if p then [] else x) := by
  split
  · exact prints_skip.appends
  · exact h

lemma Appends.written (h : Appends w x) {b b' : Buf} (hb : b.cur ≤ b.data.length)
    (hok : w.seq endDict b = (true, b')) : (b'.data.take b'.cur).drop b.cur = x ++ [101] := by
  obtain ⟨b1, h1, h2⟩ := seq_ok hok
  obtain ⟨_, hin, _, htake⟩ := h b b1 h1 hb
  have hstart : (b.data.take b.cur).length = b.cur := by rw [length_take]; omega
  unfold endDict write Buf.sizeLeft at h2
  split at h2
  · rename_i hroom
    rw [length_singleton] at hroom
    cases h2
    show ((Bytes.overwrite b1.data b1.cur [101]).take (b1.cur + 1)).drop b.cur = _
    have hone := take_overwrite (x := [101]) hin (le_refl 1)
    rw [hone, htake (by omega), append_assoc, drop_left' hstart]
    rfl
  · cases h2

end

section
variable {σ τ : Type} {sink : Sink τ} {g : σ → τ} {dk : σ → Bytes → Bytes → Decoded σ}
  {s s' : σ}

/-- the object inside `g` gets the entries that `sink` reads -/
def Lifts (sink : Sink τ) (g : σ → τ) (dk : σ → Bytes → Bytes → Decoded σ) : Prop :=
  ∀ s key b, sink (g s) (some key) b = onState g (dk s key b)

variable {c : UInt8}

section
variable (hlift : Lifts sink g dk)
include hlift

lemma Reads.lift {val : Bytes}
    (h : ∀ rest, dk s [c] (val ++ rest) = .ok (some (s', rest))) : Reads sink (g s) (str [c] ++ val) (g s') := by
  apply entry (by simp)
  intro rest
  rw [hlift, h]
  rfl

lemma Reads.liftInt (i : UInt64) (f : UInt64 → Option σ) (h : ∀ b, dk s [c] b = intEntry f b) (hi : f i = some s') :
    Reads sink (g s) (str [c] ++ int i) (g s') := by
  apply lift hlift
  intro _
  rw [h, intEntry_int, hi]
  rfl

lemma Reads.liftBuffer {n : ℕ} (x : AlignedBuffer n) (f : AlignedBuffer n → σ) (h : ∀ b, dk s [c] b = bufferEntry f b := by intro _; rfl)
    (hn : n < 10^9 := by norm_num) : Reads sink (g s) (str [c] ++ str x.toList) (g (f x)) := by
  apply lift hlift
  intro _
  rw [h, bufferEntry_str f x hn]

variable (s c) in
lemma Reads.setInt (set : σ → UInt64 → σ) (i : UInt64) (h : ∀ b, dk s [c] b = intEntry (some <| set s ·) b := by intro _; rfl) :
    Reads sink (g s) (str [c] ++ int i) (g (set s i)) := .liftInt hlift i _ h rfl

/-- the version, which must be `v` and is not kept -/
lemma Reads.liftVersion {v : UInt64} (h : ∀ s b, dk s [c] b = intEntry (fun i => if i = v then some s else none) b)
    (s : σ) : Reads sink (g s) (str [c] ++ int v) (g s) := .liftInt hlift v _ (h s) (if_pos rfl)

variable (s c) in
lemma Reads.setBuffer {n : ℕ} (set : σ → AlignedBuffer n → σ) (x : AlignedBuffer n)
    (h : ∀ b, dk s [c] b = bufferEntry (set s) b := by intro _; rfl) (hn : n < 10^9 := by norm_num) :
    Reads sink (g s) (str [c] ++ str x.toList) (g (set s x)) := .liftBuffer hlift x _ h hn

end

end

def putAll {α β : Type} {n : ℕ} (put : α → β → α) : ℕ → List β → List.Vector α n → List.Vector α n
  | _, [], a => a
  | idx, b :: l, a => if h : idx < n then putAll put (idx + 1) l (a.set ⟨idx, h⟩ (put (a.get ⟨idx, h⟩) b)) else a

section
variable {α β : Type} {n : ℕ} {put : α → β → α}

lemma putAll_get_lt (l : List β) : ∀ (idx : ℕ) (a : List.Vector α n) (i : Fin n), i.1 < idx →
    (putAll put idx l a).get i = a.get i := by
  induction l with
  | nil =>
    intro idx a i _
    rfl
  | cons b l ih =>
    intro idx a i hi
    rw [putAll]
    split
    · rw [ih (idx + 1) _ i (by omega), List.Vector.get_set_of_ne]
      intro heq
      rw [← heq] at hi
      exact absurd hi (lt_irrefl idx)
    · rfl

lemma putAll_get (l : List β) : ∀ (idx : ℕ) (a : List.Vector α n) (i : Fin n) (b : β), idx ≤ i.1 →
    l[i.1 - idx]? = some b → (putAll put idx l a).get i = put (a.get i) b := by
  induction l with
  | nil =>
    intro idx a i b _ hb
    simp at hb
  | cons c l ih =>
    intro idx a i b hi hb
    have hidx : idx < n := lt_of_le_of_lt hi i.2
    rw [putAll, dif_pos hidx]
    by_cases heq : i.1 = idx
    · rw [heq, Nat.sub_self, List.getElem?_cons_zero] at hb
      cases hb
      have hfin : i = ⟨idx, hidx⟩ := Fin.ext heq
      rw [putAll_get_lt l (idx + 1) _ i (by omega), hfin, Vector.get_set_same]
    · rw [show i.1 - idx = (i.1 - (idx + 1)) + 1 by omega, getElem?_cons_succ] at hb
      rw [ih (idx + 1) _ i b (by omega) hb, Vector.get_set_of_ne]
      intro h
      exact heq (congrArg Fin.val h).symm

section
variable {decode : α → Bytes → Decoded α} {x : β → Bytes} (hne : ∀ b, Opens (x b))
    (hdec : ∀ b a rest, decode a (x b ++ rest) = .ok (some (put a b, rest)))
include hne hdec

lemma readElements_all (l : List β) :
    ∀ (idx fuel : ℕ) (a : List.Vector α n) (rest : Bytes), idx + l.length ≤ n → l.length < fuel →
      readElements decode fuel idx a (l.flatMap x ++ 101 :: rest) = .ok (some (putAll put idx l a, rest)) := by
  induction l with
  | nil =>
    intro idx fuel a rest _ hfuel
    obtain ⟨fuel, rfl⟩ : ∃ m, fuel = m + 1 := ⟨fuel - 1, by simp at hfuel; omega⟩
    rw [flatMap_nil, nil_append, readElements, if_pos rfl, putAll]
  | cons b l ih =>
    intro idx fuel a rest hn hfuel
    rw [length_cons] at hn hfuel
    obtain ⟨fuel, rfl⟩ : ∃ m, fuel = m + 1 := ⟨fuel - 1, by omega⟩
    have hidx : idx < n := by omega
    obtain ⟨y, r, hyr, hy⟩ := hne b
    have hassoc : (b :: l).flatMap x ++ 101 :: rest = y :: (r ++ (l.flatMap x ++ 101 :: rest)) := by
      rw [flatMap_cons, hyr]
      simp
    have hback : y :: (r ++ (l.flatMap x ++ 101 :: rest)) = x b ++ (l.flatMap x ++ 101 :: rest) := by
      rw [hyr]
      rfl
    rw [hassoc, readElements, if_neg hy, dif_pos hidx, hback, hdec, putAll, dif_pos hidx]
    exact ih (idx + 1) fuel _ rest (by omega) (by omega)

lemma readArray_all
    {l : List β} (hn : l.length ≤ n)
    (a : List.Vector α n) (rest : Bytes) :
    readArray decode a (108 :: (l.flatMap x ++ [101]) ++ rest) = .ok (some (putAll put 0 l a, rest)) := by
  have hlen := length_le_flatMap hne l
  rw [closed]
  unfold readArray
  rw [if_neg (by simp), if_neg (by simp)]
  apply readElements_all hne hdec
  · omega
  · rw [length_cons, length_append]
    omega

end

end

end Belnet.Util
