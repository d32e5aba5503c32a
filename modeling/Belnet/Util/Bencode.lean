import Belnet.Lib.Decimal
import Belnet.Lib.Run

/-!
# Bencode

Readers and writers of `llarp/util/bencode.{hpp,cpp}` and `llarp/util/buffer.cpp`.  A reader has the list of the bytes
left.
-/

namespace Belnet.Util
open Decimal List Bytes Nat

inductive MemFault where
  | pastEnd
  | outside (off size : ℕ)
deriving DecidableEq, Repr

/-! ## readers -/

/-- the loop of `read_until`: the bytes before the delimiter, at most `n`, and what follows them -/
def readUntil (delim : UInt8) : ℕ → Bytes → Bytes × Bytes
  | _, [] => ([], [])
  | 0, b => ([], b)
  | n + 1, x :: b =>
    if x = delim then ([], x :: b) else (x :: (readUntil delim n b).1, (readUntil delim n b).2)

def readText (delim : UInt8) (n : ℕ) (b : Bytes) : Option (Bytes × Bytes) :=
  let r := readUntil delim n b
  if r.2 = [] ∨ r.1 = [] then none else some r

def readInteger : Bytes → Except MemFault (Option (UInt64 × Bytes))
  | [] => .error .pastEnd
  | x :: b =>
    if x ≠ 105 then .ok none
    else match readText 101 31 b with
      | none => .ok none
      | some (numbuf, rest) => .ok (some (strtoull numbuf, rest.tail))

def readString (b : Bytes) : Option (Bytes × Bytes) :=
  match readText 58 9 b with
  | none => none
  | some (numbuf, rest) =>
    let num := atoi numbuf
    if num < 0 then none
    else if rest.tail.length < num.toNat then none
    else some (rest.tail.take num.toNat, rest.tail.drop num.toNat)

abbrev Decoded (σ : Type) := Except MemFault (Option (σ × Bytes))

abbrev Sink (σ : Type) := σ → Option Bytes → Bytes → Except MemFault (Option (σ × Bytes))

/-- the loop of `bencode_read_dict`; every round reads a key, so the length of the buffer is fuel enough -/
def readEntries {σ : Type} (sink : Sink σ) : ℕ → σ → Bytes → Except MemFault (Option (σ × Bytes))
  | 0, _, _ => .ok none
  | _ + 1, _, [] => .error .pastEnd
  | n + 1, s, x :: b =>
    if x = 101 then sink s none b
    else match readString (x :: b) with
      | none => .ok none
      | some (key, b) => do
        match ← sink s (some key) b with
        | none => return none
        | some (s, b) => readEntries sink n s b

def readDict {σ : Type} (sink : Sink σ) (s : σ) (b : Bytes) : Except MemFault (Option (σ × Bytes)) :=
  if b.length < 2 then .ok none
  else if b.head? ≠ some 100 then .ok none
  else readEntries sink b.length s b.tail

def readBuffer (n : ℕ) (b : Bytes) : Option (AlignedBuffer n × Bytes) :=
  match readString b with
  | none => none
  | some (str, rest) => if str.length = n then some (.ofBytes n str, rest) else none

def startsWith (k key : Bytes) : Bool := k.isPrefixOf key

def intEntry {σ : Type} (f : UInt64 → Option σ) (b : Bytes) : Except MemFault (Option (σ × Bytes)) := do
  match ← readInteger b with
  | none => return none
  | some (i, b) => return (f i).map fun s => (s, b)

def bufferEntry {σ : Type} {n : ℕ} (f : AlignedBuffer n → σ) (b : Bytes) : Except MemFault (Option (σ × Bytes)) :=
  .ok ((readBuffer n b).map fun r => (f r.1, r.2))

/-- the loop of `bencode_read_list` for an array, no more than its elements; each reads a byte, so the length is fuel
enough -/
def readElements {α : Type} {n : ℕ} (decode : α → Bytes → Except MemFault (Option (α × Bytes))) :
    ℕ → ℕ → List.Vector α n → Bytes → Except MemFault (Option (List.Vector α n × Bytes))
  | 0, _, _, _ => .ok none
  | _ + 1, _, _, [] => .error .pastEnd
  | fuel + 1, idx, a, x :: b =>
    if x = 101 then .ok (some (a, b))
    else if h : idx < n then do
      match ← decode (a.get ⟨idx, h⟩) (x :: b) with
      | none => return none
      | some (y, b) => readElements decode fuel (idx + 1) (a.set ⟨idx, h⟩ y) b
    else .ok none

def readArray {α : Type} {n : ℕ} (decode : α → Bytes → Except MemFault (Option (α × Bytes)))
    (a : List.Vector α n) (b : Bytes) : Except MemFault (Option (List.Vector α n × Bytes)) :=
  if b.length < 2 then .ok none
  else if b.head? ≠ some 108 then .ok none
  else readElements decode b.length 0 a b.tail

/-- the loop of `bencode_read_list`; every element reads a byte, so the length of the buffer is fuel enough -/
def readItems {σ : Type} (item : σ → Bytes → Except MemFault (Option (σ × Bytes))) :
    ℕ → σ → Bytes → Except MemFault (Option (σ × Bytes))
  | 0, _, _ => .ok none
  | _ + 1, _, [] => .error .pastEnd
  | fuel + 1, s, x :: b =>
    if x = 101 then .ok (some (s, b))
    else do
      match ← item s (x :: b) with
      | none => return none
      | some (s, b) => readItems item fuel s b

def readList {σ : Type} (item : σ → Bytes → Except MemFault (Option (σ × Bytes))) (s : σ) (b : Bytes) :
    Except MemFault (Option (σ × Bytes)) :=
  if b.length < 2 then .ok none
  else if b.head? ≠ some 108 then .ok none
  else readItems item b.length s b.tail

/-- `bencode_discard`; every level of nesting reads a byte, so the length of the buffer is fuel enough -/
def discardFrom : ℕ → Bytes → Except MemFault (Option Bytes)
  | 0, _ => .ok none
  | _ + 1, [] => .ok (some [])
  | fuel + 1, x :: b =>
    if x = 108 then do
      return (← readList (fun _ b => do return (← discardFrom fuel b).map fun b => ((), b)) () (x :: b)).map Prod.snd
    else if x = 105 then do
      return (← readInteger (x :: b)).map Prod.snd
    else if x = 100 then do
      return (← readDict (fun _ key b => match key with
        | none => .ok (some ((), b))
        | some _ => do return (← discardFrom fuel b).map fun b => ((), b)) () (x :: b)).map Prod.snd
    else if 48 ≤ x ∧ x ≤ 57 then .ok ((readString (x :: b)).map Prod.snd)
    else .ok none

def discard (b : Bytes) : Except MemFault (Option Bytes) := discardFrom (b.length + 1) b

structure Buf where
  data : Bytes
  cur : ℕ

def Buf.sizeLeft (b : Buf) : ℕ := b.data.length - b.cur

abbrev Writer := Buf → Bool × Buf

def Writer.seq (f g : Writer) : Writer := fun b =>
  match f b with
  | (true, b) => g b
  | (false, b) => (false, b)

def write (x : Bytes) : Writer := fun b =>
  if x.length ≤ b.sizeLeft then
    (true, { data := overwrite b.data b.cur x, cur := b.cur + x.length })
  else (false, b)

/-- `vsnprintf` writes at most `size_left` bytes, a zero last; `writef` compares the whole length with the room -/
def writef (text : Bytes) : Writer := fun b =>
  let toWrite := b.sizeLeft
  let data := if toWrite = 0 then b.data
    else overwrite b.data b.cur (text.take (toWrite - 1) ++ [0])
  if text.length = 0 ∨ toWrite < text.length then (false, { b with data := data })
  else (true, { data := data, cur := b.cur + text.length })

def writeBytestring (x : Bytes) : Writer := (writef (decimal x.length ++ [58])).seq (write x)

variable (i : UInt64)

def writeUint64 : Writer := (writef (105 :: decimal i.toNat)).seq (write [101])

def startDict : Writer := write [100]

def endDict : Writer := write [101]

def writeDictInt (k : Bytes) (i : UInt64) : Writer := (writeBytestring k).seq (writeUint64 i)

def skip : Writer := fun b => (true, b)

def str (x : Bytes) : Bytes := decimal x.length ++ [58] ++ x

def int : Bytes := 105 :: decimal i.toNat ++ [101]

/-- with room for more than `x`, the writer appends `x`; behind its position it may leave anything -/
def Emits (w : Writer) (x : Bytes) : Prop :=
  ∀ b : Buf, b.cur + x.length < b.data.length → ∃ d, w b = (true, ⟨d, b.cur + x.length⟩) ∧ d.length = b.data.length ∧
      d.take (b.cur + x.length) = b.data.take b.cur ++ x

variable {x : Bytes} {y : Bytes}

lemma Emits.seq {f g : Writer} (hf : Emits f x) (hg : Emits g y) : Emits (f.seq g) (x ++ y) := by
  intro b hb
  rw [length_append] at hb
  obtain ⟨d, hfb, hd, htake⟩ := hf b (by omega)
  obtain ⟨d', hgb, hd', htake'⟩ := hg ⟨d, b.cur + x.length⟩ (by show b.cur + x.length + y.length < d.length; omega)
  refine ⟨d', ?_, hd'.trans hd, ?_⟩
  · unfold Writer.seq
    rw [hfb]
    dsimp only
    rw [hgb, length_append, add_assoc]
  · rw [length_append, ← add_assoc, htake', htake, append_assoc]

lemma emits_skip : Emits skip [] := by
  intro b _
  exact ⟨b.data, rfl, rfl, by simp⟩

variable {n : ℕ}

lemma take_overwrite {b : Bytes} {off : ℕ} (hoff : off ≤ b.length) (hn : n ≤ x.length) :
    (overwrite b off x).take (off + n) = b.take off ++ x.take n := by
  unfold overwrite
  have hlen : (b.take off).length = off := by rw [length_take]; omega
  rw [append_assoc, take_append, hlen, take_of_length_le (by omega)]
  congr 1
  rw [Nat.add_sub_cancel_left, take_append_of_le_length hn]

lemma emits_write (x : Bytes) : Emits (write x) x := by
  intro b _
  refine ⟨overwrite b.data b.cur x, ?_, overwrite_length (by omega), ?_⟩
  · unfold write Buf.sizeLeft
    rw [if_pos (by omega)]
  · rw [take_overwrite (by omega) le_rfl, take_length]

lemma Emits.seq_write {w : Writer} (hw : Emits w x) (hy : y ≠ []) {b : Buf}
    (hb : b.cur + (x ++ y).length ≤ b.data.length) :
    ∃ d, w.seq (write y) b = (true, ⟨d, b.cur + (x ++ y).length⟩) ∧ d.length = b.data.length ∧
      d.take (b.cur + (x ++ y).length) = b.data.take b.cur ++ (x ++ y) := by
  have hpos : 0 < y.length := length_pos_iff.mpr hy
  rw [length_append] at hb ⊢
  obtain ⟨d, hwb, hd, htake⟩ := hw b (by omega)
  refine ⟨overwrite d (b.cur + x.length) y, ?_, ?_, ?_⟩
  · have hroom : y.length ≤ Buf.sizeLeft ⟨d, b.cur + x.length⟩ := by
      show y.length ≤ d.length - (b.cur + x.length)
      omega
    unfold Writer.seq
    rw [hwb]
    dsimp only [write]
    rw [if_pos hroom, add_assoc]
  · rw [overwrite_length (by omega), hd]
  · rw [← add_assoc, take_overwrite (by omega) le_rfl, take_length, htake, append_assoc]

lemma emits_writef (hx : x ≠ []) : Emits (writef x) x := by
  intro b _
  have hpos : 0 < x.length := length_pos_iff.mpr hx
  have htext : x.take (b.sizeLeft - 1) ++ [0] = x ++ [0] := by
    rw [take_of_length_le]
    unfold Buf.sizeLeft
    omega
  refine ⟨overwrite b.data b.cur (x ++ [0]), ?_, overwrite_length (by simp; omega), ?_⟩
  · unfold writef
    dsimp only
    rw [htext]
    unfold Buf.sizeLeft
    rw [if_neg (by omega), if_neg (by omega)]
  · rw [take_overwrite (by omega) (by simp), take_append_of_le_length le_rfl, take_length]

lemma emits_writeBytestring (x : Bytes) : Emits (writeBytestring x) (str x) :=
  (emits_writef (by simp)).seq (emits_write x)

lemma emits_writeUint64 : Emits (writeUint64 i) (int i) :=
  Emits.seq (x := 105 :: decimal i.toNat) (emits_writef (by simp)) (emits_write [101])

lemma emits_dictInt (k : Bytes) (i : UInt64) : Emits (writeDictInt k i) (str k ++ int i) :=
  (emits_writeBytestring k).seq (emits_writeUint64 i)

variable {delim : UInt8} {rest t : Bytes}

lemma readUntil_append (ht : delim ∉ t) (hn : t.length ≤ n) :
    readUntil delim n (t ++ delim :: rest) = (t, delim :: rest) := by
  induction t generalizing n with
  | nil => cases n <;> simp [readUntil]
  | cons x t ih =>
    obtain ⟨n, rfl⟩ : ∃ k, n = k + 1 := ⟨n - 1, by simp at hn; omega⟩
    have hx : x ≠ delim := fun h => ht (h ▸ mem_cons_self)
    have hrec := ih (fun h => ht (mem_cons_of_mem x h)) (le_of_succ_le_succ hn)
    simp only [cons_append, readUntil, if_neg hx, hrec]

lemma readText_append (ht : delim ∉ t) (hne : t ≠ [])
    (hn : t.length ≤ n) : readText delim n (t ++ delim :: rest) = some (t, delim :: rest) := by
  unfold readText
  rw [readUntil_append ht hn]
  simp [hne]

lemma notMem_decimal {x : UInt8} (n : ℕ) (hx : isDigit x = false) : x ∉ decimal n := by
  intro h
  rw [mem_decimal h] at hx
  cases hx

lemma readInteger_int (rest : Bytes) : readInteger (int i ++ rest) = .ok (some (i, rest)) := by
  have hlen : (decimal i.toNat).length ≤ 31 := by
    have h20 := decimal_length_le (n := i.toNat) (k := 20) (by norm_num) (by have := i.toNat_lt; omega)
    omega
  have htext : readText 101 31 (decimal i.toNat ++ 101 :: rest) = some (decimal i.toNat, 101 :: rest) :=
    readText_append (notMem_decimal _ (by decide)) (decimal_ne_nil _) hlen
  have hassoc : int i ++ rest = 105 :: (decimal i.toNat ++ 101 :: rest) := by simp [int]
  rw [hassoc]
  simp [readInteger, htext, strtoull_decimal i.toNat_lt]

lemma readString_str (hx : x.length < 10^9) (rest : Bytes) : readString (str x ++ rest) = some (x, rest) := by
  have hassoc : str x ++ rest = decimal x.length ++ 58 :: (x ++ rest) := by simp [str]
  unfold readString
  rw [hassoc, readText_append (notMem_decimal _ (by decide)) (decimal_ne_nil _) (decimal_length_le (by norm_num) hx)]
  simp [atoi_decimal]

lemma readBuffer_str (x : AlignedBuffer n) (hn : n < 10^9) (rest : Bytes) :
    readBuffer n (str x.toList ++ rest) = some (x, rest) := by
  have hlen : x.toList.length = n := x.toList_length
  unfold readBuffer
  rw [readString_str (by omega)]
  dsimp only
  rw [if_pos hlen]
  have h := AlignedBuffer.ofBytes_append x []
  rw [append_nil] at h
  rw [h]

variable {σ : Type}

lemma intEntry_int (f : UInt64 → Option σ) (i : UInt64) (rest : Bytes) :
    intEntry f (int i ++ rest) = .ok ((f i).map fun s => (s, rest)) := by
  unfold intEntry
  rw [readInteger_int]
  rfl

lemma bufferEntry_str (f : AlignedBuffer n → σ) (x : AlignedBuffer n) (hn : n < 10^9)
    (rest : Bytes) : bufferEntry f (str x.toList ++ rest) = .ok (some (f x, rest)) := by
  unfold bufferEntry
  rw [readBuffer_str x hn]
  rfl

abbrev Reader (σ : Type) := σ → Except MemFault (Option (σ × Bytes))

def andThen {σ : Type} (e : Except MemFault (Option (σ × Bytes))) (W : Bytes → Reader σ) :
    Except MemFault (Option (σ × Bytes)) :=
  match e with
  | .error e => .error e
  | .ok none => .ok none
  | .ok (some (s, b)) => W b s

abbrev Opens (x : Bytes) : Prop := ∃ y r, x = y :: r ∧ y ≠ 101

lemma Opens.append (h : Opens x) (rest : Bytes) : Opens (x ++ rest) := by
  obtain ⟨y, r, rfl, hy⟩ := h
  exact ⟨y, r ++ rest, rfl, hy⟩

lemma str_cons (x : Bytes) : ∃ y r, str x = y :: r ∧ isDigit y = true := by
  obtain ⟨y, r, hyr⟩ := exists_cons_of_ne_nil (decimal_ne_nil x.length)
  exact ⟨y, r ++ [58] ++ x, by simp [str, hyr], mem_decimal (n := x.length) (by rw [hyr]; exact mem_cons_self)⟩

lemma digit_ne {y z : UInt8} (hy : isDigit y = true) (hz : isDigit z = false) : y ≠ z := by
  rintro rfl
  rw [hy] at hz
  cases hz

lemma str_opens (x : Bytes) : Opens (str x) := by
  obtain ⟨y, r, hyr, hy⟩ := str_cons x
  exact ⟨y, r, hyr, digit_ne hy (by decide)⟩

lemma int_opens : Opens (int i) := ⟨105, _, rfl, by decide⟩

inductive Round : Bytes → Prop
  | out : Round []
  | done (b : Bytes) : Round (101 :: b)
  | unread {b : Bytes} (hb : Opens b) (hread : readString b = none) : Round b
  | entry {b key rest : Bytes} (hb : Opens b) (hread : readString b = some (key, rest)) : Round b

lemma round : ∀ b, Round b
  | [] => .out
  | x :: b => by
    by_cases hx : x = 101
    · rw [hx]
      exact .done b
    cases hread : readString (x :: b) with
    | none => exact .unread ⟨x, b, rfl, hx⟩ hread
    | some => exact .entry ⟨x, b, rfl, hx⟩ hread

section
variable {σ : Type} {sink : Sink σ} {s s' : σ} {b key rest : Bytes} {y : σ × Bytes} (n : ℕ)

lemma andThen_eq_some {e : Decoded σ} {W : Bytes → Reader σ}
    (h : andThen e W = .ok (some y)) : ∃ s b, e = .ok (some (s, b)) ∧ W b s = .ok (some y) := by
  rcases e with f | _ | ⟨s, b⟩
  · cases h
  · cases h
  · exact ⟨s, b, rfl, h⟩

lemma entries_end (rest : Bytes) : readEntries sink (n + 1) s (101 :: rest) = sink s none rest := by
  unfold readEntries
  rw [if_pos rfl]

lemma entries_unread (hb : Opens b) (hread : readString b = none) (s : σ) :
    readEntries sink (n + 1) s b = .ok none := by
  obtain ⟨x, r, rfl, hx⟩ := hb
  rw [readEntries, if_neg hx, hread]

lemma entries_round (hb : Opens b) (hread : readString b = some (key, rest)) (s : σ) :
    readEntries sink (n + 1) s b = andThen (sink s (some key) rest) fun b s => readEntries sink n s b := by
  obtain ⟨x, r, rfl, hx⟩ := hb
  rw [readEntries, if_neg hx, hread]
  dsimp only
  rcases sink s (some key) rest with f | _ | y <;> rfl

variable {n}

lemma entries_some (h : readEntries sink (n + 1) s b = .ok (some y)) :
    (∃ r, b = 101 :: r ∧ sink s none r = .ok (some y)) ∨
    ∃ key rest s' r, Opens b ∧ readString b = some (key, rest) ∧ sink s (some key) rest = .ok (some (s', r)) ∧
      readEntries sink n s' r = .ok (some y) := by
  cases round b with
  | out => cases h
  | done b => exact .inl ⟨b, rfl, (entries_end n b).symm.trans h⟩
  | unread hb hread => rw [entries_unread n hb hread] at h; cases h
  | entry hb hread =>
    rw [entries_round n hb hread] at h
    obtain ⟨s', r, hstep, h⟩ := andThen_eq_some h
    exact .inr ⟨_, _, s', r, hb, hread, hstep, h⟩

lemma entries_entry {val : Bytes} (hkey : key.length < 10^9)
    (hsink : sink s (some key) (val ++ rest) = .ok (some (s', rest))) :
    readEntries sink (n + 1) s (str key ++ val ++ rest) = readEntries sink n s' rest := by
  rw [append_assoc, entries_round n ((str_opens key).append _) (readString_str hkey _), hsink]
  rfl

lemma readDict_start (hb : b ≠ []) : readDict sink s (100 :: b) = readEntries sink (b.length + 1) s b := by
  have hlen : 0 < b.length := length_pos_iff.mpr hb
  unfold readDict
  rw [length_cons, if_neg (by omega), if_neg (by simp)]
  rfl

lemma readDict_some (h : readDict sink s b = .ok (some y)) : readEntries sink b.length s b.tail = .ok (some y) := by
  unfold readDict at h
  split at h
  · cases h
  split at h
  · cases h
  exact h

variable {item : σ → Bytes → Decoded σ}

lemma readItems_round (hb : Opens b) : readItems item (n + 1) s b
    = andThen (item s b) fun b s => readItems item n s b := by
  obtain ⟨x, r, rfl, hx⟩ := hb
  rw [readItems, if_neg hx]
  rcases item s (x :: r) with f | _ | y <;> rfl

lemma readItems_end : readItems item (n + 1) s (101 :: b) = .ok (some (s, b)) := by rw [readItems, if_pos rfl]

lemma readItems_some (h : readItems item (n + 1) s b = .ok (some y)) :
    b = 101 :: y.2 ∧ y.1 = s ∨ ∃ s' r, Opens b ∧ item s b = .ok (some (s', r)) ∧ readItems item n s' r = .ok (some y) := by
  cases b with
  | nil => cases h
  | cons x b =>
    by_cases hx : x = 101
    · rw [hx, readItems_end] at h
      cases h
      exact .inl ⟨by rw [hx], rfl⟩
    have hb : Opens (x :: b) := ⟨x, b, rfl, hx⟩
    rw [readItems_round hb] at h
    obtain ⟨s', r, hstep, h⟩ := andThen_eq_some h
    exact .inr ⟨s', r, hb, hstep, h⟩

lemma readList_start (hb : b ≠ []) : readList item s (108 :: b) = readItems item (b.length + 1) s b := by
  have hlen : 0 < b.length := length_pos_iff.mpr hb
  unfold readList
  rw [length_cons, if_neg (by omega), if_neg (by simp)]
  rfl

lemma readList_some (h : readList item s b = .ok (some y)) : readItems item b.length s b.tail = .ok (some y) := by
  unfold readList at h
  split at h
  · cases h
  split at h
  · cases h
  exact h

end

end Belnet.Util
