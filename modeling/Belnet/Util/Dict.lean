import Belnet.Util.Bencode

/-!
# Dictionaries that are written and read back

`Emits` says what a writer does when there is room.
-/

namespace Belnet.Util
open Decimal List Nat Bytes Writer Buf

/-- the writer appends `x` if there is room for more, and has moved by its length if it succeeds -/
structure Prints (w : Writer) (x : Bytes) : Prop where
  emits : Emits w x
  fits : ∀ {b b' : Buf}, w b = (true, b') → b.cur ≤ b.data.length →
    b'.cur = b.cur + x.length ∧ b'.cur ≤ b'.data.length ∧ b'.data.length = b.data.length

lemma seq_ok {f g : Writer} {b b' : Buf} (h : f.seq g b = (true, b')) : ∃ b1, f b = (true, b1) ∧ g b1 = (true, b') := by
  unfold seq at h
  split at h
  · rename_i b1 h1
    exact ⟨b1, h1, h⟩
  · cases h

variable {x : Bytes} {y : Bytes}

lemma Prints.seq {f g : Writer} (hf : Prints f x) (hg : Prints g y) : Prints (f.seq g) (x ++ y) where
  emits := hf.emits.seq hg.emits
  fits {b b'} h hb := by
    obtain ⟨_, h1, h2⟩ := seq_ok h
    obtain ⟨hcur, hin, hlen⟩ := hf.fits h1 hb
    obtain ⟨hcur', hin', hlen'⟩ := hg.fits h2 hin
    refine ⟨?_, hin', hlen'.trans hlen⟩
    rw [hcur', hcur, length_append, add_assoc]

lemma prints_skip : Prints skip [] where
  emits := emits_skip
  fits h hb := by cases h; exact ⟨rfl, hb, rfl⟩

lemma prints_write (x : Bytes) : Prints (write x) x where
  emits := emits_write x
  fits {b b'} h hb := by
    unfold write sizeLeft at h
    split at h
    · rename_i hroom
      have hlen : (overwrite b.data b.cur x).length = b.data.length := overwrite_length (by omega)
      cases h
      refine ⟨rfl, ?_, hlen⟩
      show b.cur + x.length ≤ (overwrite b.data b.cur x).length
      omega
    · cases h

lemma prints_writef (hx : x ≠ []) : Prints (writef x) x where
  emits := emits_writef hx
  fits {b b'} h hb := by
    have hpos : 0 < x.length := length_pos_iff.mpr hx
    unfold writef sizeLeft at h
    dsimp only at h
    split at h
    · cases h
    rename_i hroom
    have hlen : (overwrite b.data b.cur (x.take (b.data.length - b.cur - 1) ++ [0])).length = b.data.length := by
      apply overwrite_length
      rw [length_append, length_take, length_singleton]
      omega
    rw [if_neg (by omega)] at h
    cases h
    refine ⟨rfl, ?_, hlen⟩
    show b.cur + x.length ≤ (overwrite b.data b.cur _).length
    omega

lemma prints_writeBytestring (x : Bytes) : Prints (writeBytestring x) (str x) :=
  (prints_writef (by simp)).seq (prints_write x)

lemma prints_writeUint64 (i : UInt64) : Prints (writeUint64 i) (int i) :=
  Prints.seq (x := 105 :: decimal i.toNat) (prints_writef (by simp)) (prints_write [101])

lemma prints_dictInt (k : Bytes) (i : UInt64) : Prints (writeDictInt k i) (str k ++ int i) :=
  (prints_writeBytestring k).seq (prints_writeUint64 i)

variable {p : Prop} {w : Writer}

lemma prints_when [Decidable p] (h : Prints w x) :
    Prints (if p then w else skip) (if p then x else []) := by
  split
  · exact h
  · exact prints_skip

lemma prints_unless [Decidable p] (h : Prints w x) :
    Prints (if p then skip else w) (if p then [] else x) := by
  split
  · exact prints_skip
  · exact h

def startList : Writer := write [108]

def writeAll {α : Type} (w : α → Writer) : List α → Writer
  | [] => skip
  | a :: l => (w a).seq (writeAll w l)

variable {α : Type}

lemma prints_writeAll {w : α → Writer} {x : α → Bytes} (h : ∀ a, Prints (w a) (x a)) (l : List α) :
    Prints (writeAll w l) (l.flatMap x) := by
  induction l with
  | nil => exact prints_skip
  | cons a l ih => exact (h a).seq ih

def writeDictList {α : Type} (k : Bytes) (w : α → Writer) (l : List α) : Writer :=
  ((((writeBytestring k).seq startList).seq (writeAll w l)).seq endDict)

lemma prints_dictList {w : α → Writer} {x : α → Bytes} (k : Bytes) (h : ∀ a, Prints (w a) (x a))
    (l : List α) : Prints (writeDictList k w l) (str k ++ 108 :: (l.flatMap x ++ [101])) := by
  have hlist := (((prints_writeBytestring k).seq (prints_write [108])).seq (prints_writeAll h l)).seq (prints_write [101])
  have hassoc : str k ++ 108 :: (l.flatMap x ++ [101]) = str k ++ [108] ++ l.flatMap x ++ [101] := by simp
  rw [hassoc]
  exact hlist

def Writer.into (w : Writer) (n : ℕ) : Option Bytes :=
  match w ⟨replicate n 0, 0⟩ with
  | (true, b) => some (b.data.take b.cur)
  | (false, _) => none

/-- the writer of a dictionary or list written as `x`: its end is a plain copy, which may use all of the room -/
def PrintsDict (w : Writer) (x : Bytes) : Prop := ∃ v y, w = v.seq endDict ∧ x = y ++ [101] ∧ Prints v y

section
variable {w v : Writer} {x y : Bytes}

lemma Prints.dict (h : Prints v y) : PrintsDict (v.seq endDict) (y ++ [101]) := ⟨v, y, rfl, rfl, h⟩

lemma PrintsDict.prints (h : PrintsDict w x) : Prints w x := by
  obtain ⟨v, y, rfl, rfl, hv⟩ := h
  exact hv.seq (prints_write [101])

section
variable {b b' : Buf} (h : PrintsDict w x) (hb : b.cur ≤ b.data.length) (hok : w b = (true, b'))
include h hb hok

lemma PrintsDict.ok : b.cur + x.length ≤ b.data.length ∧ b'.data.take b'.cur = b.data.take b.cur ++ x := by
  obtain ⟨v, y, rfl, rfl, hv⟩ := h
  obtain ⟨_, _, _⟩ := (hv.seq (prints_write [101])).fits hok hb
  have hroom : b.cur + (y ++ [101]).length ≤ b.data.length := by omega
  obtain ⟨d, hd, -, htake⟩ := hv.emits.seq_write (y := [101]) (by simp) hroom
  have hb' := (Prod.mk.inj (hok.symm.trans hd)).2
  refine ⟨hroom, ?_⟩
  rw [hb']
  exact htake

lemma PrintsDict.written : (b'.data.take b'.cur).drop b.cur = x := by
  have hlen : (b.data.take b.cur).length = b.cur := by rw [length_take]; omega
  rw [(h.ok hb hok).2]
  nth_rewrite 1 [← hlen]
  exact drop_left

end

lemma PrintsDict.into_eq (h : PrintsDict w x) (n : ℕ) : w.into n = if x.length ≤ n then some x else none := by
  have hstart : (⟨replicate n 0, 0⟩ : Buf).cur ≤ (replicate n (0 : UInt8)).length := zero_le _
  unfold into
  by_cases hn : x.length ≤ n
  · obtain ⟨v, y, rfl, rfl, hv⟩ := h
    rw [if_pos hn]
    obtain ⟨d, hd, -, htake⟩ := hv.emits.seq_write (y := [101]) (b := ⟨replicate n 0, 0⟩) (by simp)
      (by rw [length_replicate, zero_add]; exact hn)
    have hd' : v.seq endDict ⟨replicate n 0, 0⟩ = (true, ⟨d, 0 + (y ++ [101]).length⟩) := hd
    rw [hd']
    dsimp only
    rw [htake, take_zero, nil_append]
  · rw [if_neg hn]
    cases hrun : w ⟨replicate n 0, 0⟩ with
    | mk ok =>
      cases ok with
      | false => rfl
      | true =>
        have hroom := (h.ok hstart hrun).1
        rw [length_replicate, zero_add] at hroom
        exact absurd hroom hn

end

section
variable {σ : Type} {sink : Sink σ} {s s' s'' : σ} {x y : Bytes}

def Reads (sink : Sink σ) (s : σ) (x : Bytes) (s' : σ) : Prop :=
  ∃ k ≤ x.length, ∀ n rest, readEntries sink (n + k) s (x ++ rest) = readEntries sink n s' rest

lemma Reads.nil : Reads sink s [] s := ⟨0, le_refl 0, fun _ _ => rfl⟩

lemma Reads.append (h : Reads sink s x s') (h' : Reads sink s' y s'') : Reads sink s (x ++ y) s'' := by
  obtain ⟨k, _, hx⟩ := h
  obtain ⟨k', _, hy⟩ := h'
  refine ⟨k' + k, ?_, fun n _ => ?_⟩
  · rw [length_append]
    omega
  · rw [← add_assoc, append_assoc, hx, hy]

lemma str_length_pos (x : Bytes) : 0 < (str x).length := by
  unfold str
  rw [length_append, length_append, length_singleton]
  omega

lemma Reads.entry {key val : Bytes} (hkey : key.length < 10^9)
    (hsink : ∀ rest, sink s (some key) (val ++ rest) = .ok (some (s', rest))) : Reads sink s (str key ++ val) s' := by
  refine ⟨1, ?_, fun n rest => entries_entry hkey (hsink rest)⟩
  have hpos := str_length_pos key
  rw [length_append]
  omega

lemma Reads.when [Decidable p] (h : p → Reads sink s x s') (h' : ¬ p → s' = s) :
    Reads sink s (if p then x else []) s' := by
  split
  · rename_i hp
    exact h hp
  rename_i hp
  rw [h' hp]
  exact .nil

lemma Reads.unless [Decidable p] (h : ¬ p → Reads sink s x s') (h' : p → s' = s) :
    Reads sink s (if p then [] else x) s' := by
  split
  · rename_i hp
    rw [h' hp]
    exact .nil
  · rename_i hp
    exact h hp

lemma closed (y : UInt8) (x rest : Bytes) : y :: (x ++ [101]) ++ rest = y :: (x ++ 101 :: rest) := by simp

/-- The fuel of a dictionary is that of its first `k` keys and more. -/
lemma exists_fuel {k : ℕ} (hk : k ≤ x.length) (s : σ) (rest : Bytes) : ∃ n, readDict sink s (100 :: (x ++ [101]) ++ rest) =
    readEntries sink (n + 1 + k) s (x ++ 101 :: rest) := by
  refine ⟨(x ++ 101 :: rest).length - k, ?_⟩
  rw [closed, readDict_start (by simp), length_append]
  congr 1
  omega

lemma Reads.dict (h : Reads sink s x s') (rest : Bytes) :
    readDict sink s (100 :: (x ++ [101]) ++ rest) = sink s' none rest := by
  obtain ⟨k, hk, hx⟩ := h
  obtain ⟨n, hn⟩ := exists_fuel hk s rest
  rw [hn, hx, entries_end]

lemma Reads.dict_none (h : Reads sink s x s') {c : UInt8} {val : Bytes}
    (hsink : ∀ rest, sink s' (some [c]) (val ++ rest) = .ok none) (rest : Bytes) :
    readDict sink s (100 :: (x ++ (str [c] ++ val) ++ rest)) = .ok none := by
  obtain ⟨k, _, hx⟩ := h
  have hassoc : x ++ (str [c] ++ val) ++ rest = x ++ (str [c] ++ (val ++ rest)) := by simp
  have hfuel : (x ++ (str [c] ++ (val ++ rest))).length + 1 = (x ++ (str [c] ++ (val ++ rest))).length - k + 1 + k := by
    rw [length_append]
    omega
  rw [hassoc, readDict_start (by simp [str]), hfuel, hx,
    entries_round _ ((str_opens [c]).append _) (readString_str (by simp) _), hsink]
  rfl

end

section
variable {x : α → Bytes} (hne : ∀ a, Opens (x a)) (l : List α)
include hne l

lemma readItems_foldlM {σ : Type} {item : σ → Bytes → Decoded σ}
    {add : σ → α → Option σ}
    (hitem : ∀ a ∈ l, ∀ s rest, item s (x a ++ rest) = .ok ((add s a).map fun s => (s, rest))) :
    ∀ s n rest, l.length ≤ n →
      readItems item (n + 1) s (l.flatMap x ++ 101 :: rest) = .ok ((l.foldlM add s).map fun s => (s, rest)) := by
  induction l with
  | nil =>
    intro s n rest _
    exact readItems_end
  | cons a l ih =>
    intro s n rest hn
    obtain ⟨n, rfl⟩ : ∃ m, n = m + 1 := ⟨n - 1, by simp at hn; omega⟩
    rw [flatMap_cons, append_assoc, readItems_round ((hne a).append _), hitem a mem_cons_self, foldlM_cons]
    cases hadd : add s a with
    | none => rfl
    | some s1 => exact ih (fun b hb => hitem b (mem_cons_of_mem a hb)) s1 n rest (le_of_succ_le_succ hn)

lemma length_le_flatMap : l.length ≤ (l.flatMap x).length := by
  induction l with
  | nil => exact le_refl 0
  | cons a l =>
    obtain ⟨y, r, hy, -⟩ := hne a
    rw [flatMap_cons, length_append, hy, length_cons, length_cons]
    omega

lemma readList_foldlM {σ : Type} {item : σ → Bytes → Decoded σ}
    {f : σ → α → Option σ}
    (hitem : ∀ a ∈ l, ∀ s rest, item s (x a ++ rest) = .ok ((f s a).map fun s => (s, rest))) (s : σ) (rest : Bytes) :
    readList item s (108 :: (l.flatMap x ++ [101]) ++ rest) = .ok ((l.foldlM f s).map fun s => (s, rest)) := by
  have hlen := length_le_flatMap hne l
  rw [closed, readList_start (by simp)]
  apply readItems_foldlM hne l hitem
  rw [length_append]
  omega

end

lemma foldlM_collect {β : Type} (f : α → β) (l : List α) :
    ∀ s : List β, l.foldlM (fun s a => some (s ++ [f a])) s = some (s ++ l.map f) := by
  induction l with
  | nil =>
    intro s
    rw [map_nil, append_nil]
    rfl
  | cons a l ih =>
    intro s
    rw [foldlM_cons, map_cons]
    refine (ih (s ++ [f a])).trans ?_
    rw [append_assoc, singleton_append]

lemma readList_collect {β : Type} {read : Bytes → Decoded β} {x : α → Bytes} {f : α → β}
    (hne : ∀ a, Opens (x a)) (l : List α) (h : ∀ a ∈ l, ∀ rest, read (x a ++ rest) = .ok (some (f a, rest)))
    (s : List β) (rest : Bytes) :
    readList (fun l b => do return (← read b).map fun r => (l ++ [r.1], r.2)) s (108 :: (l.flatMap x ++ [101]) ++ rest)
      = .ok (some (s ++ l.map f, rest)) := by
  refine (readList_foldlM (f := fun s a => some (s ++ [f a])) hne l (fun a ha s rest => ?_) s rest).trans ?_
  · rw [h a ha]
    rfl
  · rw [foldlM_collect]
    rfl

lemma discardFrom_str (hx : x.length < 10^9) (n : ℕ) (rest : Bytes) :
    discardFrom (n + 1) (str x ++ rest) = .ok (some rest) := by
  obtain ⟨y, r, hyr, hy⟩ := str_cons x
  have hread := readString_str hx rest
  have hdigit : 48 ≤ y ∧ y ≤ 57 := by
    unfold isDigit at hy
    simpa using hy
  rw [hyr, cons_append] at hread ⊢
  rw [discardFrom, if_neg (digit_ne hy (by decide)), if_neg (digit_ne hy (by decide)), if_neg (digit_ne hy (by decide)),
    if_pos hdigit, hread]
  rfl

lemma discardFrom_int (i : UInt64) (n : ℕ) (rest : Bytes) : discardFrom (n + 1) (int i ++ rest) = .ok (some rest) := by
  have hread := readInteger_int i rest
  have hint : int i ++ rest = 105 :: (decimal i.toNat ++ [101] ++ rest) := rfl
  rw [hint] at hread ⊢
  rw [discardFrom, if_neg (by decide), if_pos rfl, hread]
  rfl

lemma discardFrom_list {x : α → Bytes} (hne : ∀ a, Opens (x a)) (l : List α) {n : ℕ}
    (h : ∀ a ∈ l, ∀ rest, discardFrom n (x a ++ rest) = .ok (some rest)) (rest : Bytes) :
    discardFrom (n + 1) (108 :: (l.flatMap x ++ [101]) ++ rest) = .ok (some rest) := by
  have hfold : ∀ l : List α, l.foldlM (fun (_ : Unit) (_ : α) => some ()) () = some () := by
    intro l
    induction l with
    | nil => rfl
    | cons a l ih => rw [foldlM_cons]; exact ih
  have hlist : readList (fun (_ : Unit) b => do return (← discardFrom n b).map fun b => ((), b)) ()
      (108 :: (l.flatMap x ++ [101]) ++ rest)
      = .ok ((l.foldlM (fun (_ : Unit) (_ : α) => some ()) ()).map fun s => (s, rest)) := by
    apply readList_foldlM hne l
    intro a ha s rest
    rw [h a ha rest]
    rfl
  rw [cons_append, discardFrom, if_pos rfl, ← cons_append, hlist, hfold]
  rfl

def entriesText (l : List (Bytes × Bytes)) : Bytes := l.flatMap fun e => str e.1 ++ e.2

lemma discardFrom_dict (l : List (Bytes × Bytes)) {n : ℕ} (hkey : ∀ e ∈ l, e.1.length < 10^9)
    (h : ∀ e ∈ l, ∀ rest, discardFrom n (e.2 ++ rest) = .ok (some rest)) (rest : Bytes) :
    discardFrom (n + 1) (100 :: (entriesText l ++ [101]) ++ rest) = .ok (some rest) := by
  obtain ⟨sink, hend, hentry, hdiscard⟩ : ∃ sink : Sink Unit, (∀ b, sink () none b = .ok (some ((), b))) ∧
      (∀ key b, sink () (some key) b = do return (← discardFrom n b).map fun b => ((), b)) ∧
      ∀ b, discardFrom (n + 1) (100 :: b) = do return (← readDict sink () (100 :: b)).map Prod.snd := by
    refine ⟨_, ?_, ?_, fun b => (if_neg (by decide)).trans ((if_neg (by decide)).trans (if_pos rfl))⟩
    · exact fun b => rfl
    · exact fun key b => rfl
  have hreads : Reads sink () (entriesText l) () := by
    induction l with
    | nil => exact .nil
    | cons e l ih =>
      have hhead : Reads sink () (str e.1 ++ e.2) () := by
        apply Reads.entry (hkey e mem_cons_self)
        intro rest
        rw [hentry, h e mem_cons_self]
        rfl
      exact hhead.append (ih (fun a ha => hkey a (mem_cons_of_mem e ha)) fun a ha => h a (mem_cons_of_mem e ha))
  rw [cons_append, hdiscard, ← cons_append, hreads.dict rest, hend]
  rfl

lemma le_of_mem_flatMap (f : α → Bytes) {l : List α} {a : α} (h : a ∈ l) :
    (f a).length ≤ (l.flatMap f).length := by
  rw [flatMap_def]
  exact (sublist_flatten_of_mem (mem_map_of_mem h)).length_le

def Skipped (t : Bytes) : Prop := ∀ n, t.length ≤ n → ∀ rest, discardFrom n (t ++ rest) = .ok (some rest)

lemma Skipped.discard {t : Bytes} (h : Skipped t) (rest : Bytes) : discard (t ++ rest) = .ok (some rest) := by
  apply h
  rw [length_append]
  omega

lemma skipped_int (i : UInt64) : Skipped (int i) := by
  intro n hn rest
  obtain ⟨n, rfl⟩ : ∃ m, n = m + 1 := ⟨n - 1, by simp [int] at hn; omega⟩
  exact discardFrom_int i n rest

lemma skipped_str (hx : x.length < 10^9) : Skipped (str x) := by
  intro n _ rest
  have hpos := str_length_pos x
  obtain ⟨n, rfl⟩ : ∃ m, n = m + 1 := ⟨n - 1, by omega⟩
  exact discardFrom_str hx n rest

lemma skipped_list {x : α → Bytes} (hne : ∀ a, Opens (x a)) (l : List α)
    (h : ∀ a ∈ l, Skipped (x a)) : Skipped (108 :: (l.flatMap x ++ [101])) := by
  intro n hn rest
  obtain ⟨n, rfl⟩ : ∃ m, n = m + 1 := ⟨n - 1, by simp at hn; omega⟩
  apply discardFrom_list hne l
  intro a ha rest
  have hsize := le_of_mem_flatMap x ha
  rw [length_cons, length_append] at hn
  exact h a ha n (by omega) rest

lemma le_entriesText {l : List (Bytes × Bytes)} {e : Bytes × Bytes} (h : e ∈ l) :
    (str e.1).length + e.2.length ≤ (entriesText l).length := by
  rw [← length_append]
  exact le_of_mem_flatMap (fun e : Bytes × Bytes => str e.1 ++ e.2) h

lemma skipped_dict (l : List (Bytes × Bytes)) (hkey : ∀ e ∈ l, e.1.length < 10^9) (h : ∀ e ∈ l, Skipped e.2) :
    Skipped (100 :: (entriesText l ++ [101])) := by
  intro n hn rest
  obtain ⟨n, rfl⟩ : ∃ m, n = m + 1 := ⟨n - 1, by simp at hn; omega⟩
  apply discardFrom_dict l hkey
  intro e he rest
  have hsize := le_entriesText he
  rw [length_cons, length_append] at hn
  exact h e he n (by omega) rest

inductive Bencoded : Bytes → Prop
  | int (i : UInt64) : Bencoded (int i)
  | str (x : Bytes) : Bencoded (str x)
  | list (l : List Bytes) (h : ∀ x ∈ l, Bencoded x) : Bencoded (108 :: (l.flatten ++ [101]))
  | dict (l : List (Bytes × Bytes)) (h : ∀ e ∈ l, Bencoded e.2) :
    Bencoded (100 :: (l.flatMap (fun e => Util.str e.1 ++ e.2) ++ [101]))

lemma Bencoded.cons (h : Bencoded x) : Opens x := by
  cases h with
  | int i => exact int_opens i
  | str x => exact str_opens x
  | list l h => exact ⟨108, _, rfl, by decide⟩
  | dict l h => exact ⟨100, _, rfl, by decide⟩

lemma length_lt_of_str (h : (str x).length < 10^9) : x.length < 10^9 := by
  rw [str, length_append] at h
  omega

lemma Bencoded.skipped (h : Bencoded x) : x.length < 10^9 → Skipped x := by
  induction h with
  | int i => exact fun _ => skipped_int i
  | str x => exact fun hlen => skipped_str (length_lt_of_str hlen)
  | list l h ih =>
    intro hlen
    have hattach : l.flatten = l.attach.flatMap fun x => x.1 := by simp [flatMap_def]
    rw [length_cons, length_append] at hlen
    rw [hattach]
    refine skipped_list (α := { x // x ∈ l }) (fun x => (h x.1 x.2).cons) _ fun x _ => ih x.1 x.2 ?_
    have hsize := (sublist_flatten_of_mem x.2).length_le
    omega
  | dict l h ih =>
    intro hlen
    rw [length_cons, length_append] at hlen
    have hsize : ∀ e ∈ l, (Util.str e.1).length + e.2.length < 10^9 := fun e he => by
      have hle : _ ≤ (l.flatMap fun e => Util.str e.1 ++ e.2).length := le_entriesText he
      omega
    refine skipped_dict l (fun e he => length_lt_of_str ?_) fun e he => ih e he ?_
    · exact lt_of_le_of_lt (le_add_right _ _) (hsize e he)
    · exact lt_of_le_of_lt (le_add_left _ _) (hsize e he)

lemma Bencoded.discard (h : Bencoded x) (hlen : x.length < 10^9) (rest : Bytes) :
    discard (x ++ rest) = .ok (some rest) := (h.skipped hlen).discard rest

/-- the bytes between the two positions are `x`, those before stay, and the buffer has its size -/
structure Wrote (b b' : Buf) (x : Bytes) : Prop where
  cur : b'.cur = b.cur + x.length
  text : b'.data.take b'.cur = b.data.take b.cur ++ x
  size : b'.data.length = b.data.length

lemma Emits.wrote {b b' : Buf} (h : Emits w x) (hok : w b = (true, b'))
    (hroom : b.cur + x.length < b.data.length) : Wrote b b' x := by
  obtain ⟨d, hw, hsize, htext⟩ := h b hroom
  cases hok.symm.trans hw
  exact ⟨rfl, htext, hsize⟩

lemma Emits.wrote_write {b b' : Buf} (h : Emits w x) (hy : y ≠ [])
    (hok : w.seq (write y) b = (true, b')) (hroom : b.cur + (x ++ y).length ≤ b.data.length) :
    Wrote b b' (x ++ y) := by
  obtain ⟨d, hw, hsize, htext⟩ := h.seq_write hy hroom
  cases hok.symm.trans hw
  exact ⟨rfl, htext, hsize⟩

lemma writeBytestring_nil {b b' : Buf} (hb : b.cur + 2 = b.data.length) (hok : writeBytestring [] b = (true, b')) :
    b'.data.take (b.cur + 2) = b.data.take b.cur ++ [48, 0] := by
  have hleft : b.sizeLeft = 2 := by
    unfold sizeLeft
    omega
  have hdata : (writef (decimal 0 ++ [58]) b) = (true, ⟨overwrite b.data b.cur [48, 0], b.cur + 2⟩) := by
    unfold writef
    rw [hleft]
    rfl
  unfold writeBytestring seq at hok
  rw [show decimal ([] : Bytes).length = decimal 0 from rfl, hdata] at hok
  have hend : (overwrite b.data b.cur [48, 0]).length = b.cur + 2 := by
    rw [overwrite_length (by show b.cur + 2 ≤ _; omega), hb]
  simp only [write, length_nil, zero_le, if_true] at hok
  cases hok
  show (overwrite (overwrite b.data b.cur [48, 0]) (b.cur + 2) []).take (b.cur + 2) = _
  rw [← Nat.add_zero (b.cur + 2), take_overwrite hend.ge (Nat.le_refl 0), take_zero, append_nil, Nat.add_zero]
  exact take_overwrite (by omega) (le_refl 2)

/-- A write that reports success wrote the right bytes, but for the empty string into exactly two bytes of room. -/
theorem bencode_writes_ok (b : Buf) (hb : b.cur ≤ b.data.length) :
    (∀ d b', writeBytestring d b = (true, b') → (Wrote b b' (str d) ↔ ¬ (d = [] ∧ b.sizeLeft = 2))) ∧
      ∀ i b', writeUint64 i b = (true, b') → Wrote b b' (int i) := by
  constructor
  · intro d b' hok
    obtain ⟨hcur, hin, hlen⟩ := (prints_writeBytestring d).fits hok hb
    have hroom : b.cur + (str d).length ≤ b.data.length := by omega
    by_cases hd : d = []
    · subst hd
      have htwo : (str []).length = 2 := rfl
      unfold Buf.sizeLeft
      rcases lt_or_eq_of_le hroom with hlt | heq
      · exact iff_of_true ((emits_writeBytestring []).wrote hok hlt) (by omega)
      refine iff_of_false (fun hw => ?_) (not_not_intro ⟨rfl, by omega⟩)
      -- the last byte is the zero of `vsnprintf`
      have hzero := writeBytestring_nil (by omega) hok
      rw [← htwo, ← hcur, hw.text] at hzero
      exact absurd (append_cancel_left hzero) (by decide)
    · exact iff_of_true ((emits_writef (by simp)).wrote_write hd hok hroom) fun h => hd h.1
  · intro i b' hok
    obtain ⟨hcur, hin, hlen⟩ := (prints_writeUint64 i).fits hok hb
    exact (emits_writef (by simp)).wrote_write (x := 105 :: decimal i.toNat) (by simp) hok (by
      show b.cur + (int i).length ≤ _
      omega)

theorem bencode_writes_ok_four : Wrote ⟨[9, 9, 9, 9], 1⟩ ⟨[9, 49, 58, 7], 4⟩ (str [7]) :=
  ((bencode_writes_ok ⟨[9, 9, 9, 9], 1⟩ (by decide)).1 [7] _ rfl).mpr (by decide)

/-- the empty string into two bytes: the colon is missing -/
theorem writeBytestring_cut : ∃ b', writeBytestring [] ⟨[9, 9, 9], 1⟩ = (true, b') ∧ b'.data = [9, 48, 0] :=
  ⟨_, rfl, by decide⟩

end Belnet.Util
