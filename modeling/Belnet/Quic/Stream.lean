import Belnet.Lib.Bytes
import Belnet.Lib.Ring
import Belnet.Lib.Run

/-!
# The outgoing buffer of a stream

`Stream` of `llarp/quic/stream.cpp`: a ring of fixed size, or a queue of the user's buffers.  Assertions are compiled
out, as in the default build.
-/

namespace Belnet.Quic
open List Nat Ring Run

/-- an access outside of a buffer, or to the front of an empty queue -/
inductive Fault where
  | outOfRange
deriving DecidableEq

def view (m : Bytes) (pos n : ℕ) : Except Fault Bytes :=
  if pos + n ≤ m.length then .ok ((m.drop pos).take n) else .error .outOfRange

/-- `std::copy` of `x` to `pos` -/
def copy (m : Bytes) (pos : ℕ) (x : Bytes) : Except Fault Bytes :=
  if pos + x.length ≤ m.length then .ok (m.take pos ++ x ++ m.drop (pos + x.length)) else .error .outOfRange

def copyAround (m : Bytes) (wpos : ℕ) (data : Bytes) : Except Fault Bytes :=
  if m.length < wpos + data.length then do
    let split := m.length - wpos
    copy (← copy m wpos (data.take split)) 0 (data.drop split)
  else copy m wpos data

/-- the ring `buffer` is empty where the user gives the buffers; then `start` bytes of the first one are acknowledged -/
structure Stream where
  buffer : Bytes
  userBuffers : List Bytes := []
  start : ℕ := 0
  size : ℕ := 0
  unackedSize : ℕ := 0
  isClosing : Bool := false
deriving DecidableEq

namespace Stream
variable (s : Stream)

def available : ℕ := if s.isClosing ∨ s.buffer = [] then 0 else s.buffer.length - s.size

def unsent : ℕ := s.size - s.unackedSize

def append (data : Bytes) : Except Fault (Bool × Stream) :=
  if s.available < data.length then .ok (false, s) else do
    let wpos := (s.start + s.size) % s.buffer.length
    let buffer ← copyAround s.buffer wpos data
    return (true, { s with buffer := buffer, size := s.size + data.length })

def appendAny (data : Bytes) : Except Fault (ℕ × Stream) := do
  let data := data.take s.available
  let (_, s) ← s.append data
  return (data.length, s)

def appendBuffer (data : Bytes) : Stream :=
  { s with userBuffers := s.userBuffers ++ [data], size := s.size + data.length }

/-- the loop over the buffers of the user, with `bytes` left to free -/
def release : List Bytes → ℕ → ℕ → Except Fault (List Bytes × ℕ)
  | [], start, bytes => if bytes = 0 then .ok ([], start) else .error .outOfRange
  | b :: bufs, start, bytes =>
    if bytes = 0 then .ok (b :: bufs, start)
    else if b.length - start ≤ bytes then release bufs 0 (bytes - (b.length - start))
    else .ok (b :: bufs, start + bytes)

/-- Where `bytes` is more than was sent the code's sizes wrap; these stop at 0. -/
def acknowledge (bytes : ℕ) : Except Fault Stream :=
  let s := { s with unackedSize := s.unackedSize - bytes, size := s.size - bytes }
  if s.buffer ≠ [] then
    .ok { s with start := if s.size = 0 then 0 else (s.start + bytes) % s.buffer.length }
  else if s.size = 0 then .ok { s with userBuffers := [], start := 0 }
  else do
    let (userBuffers, start) ← release s.userBuffers s.start bytes
    return { s with userBuffers := userBuffers, start := start }

def getBufferIt : List Bytes → ℕ → Except Fault (List Bytes × ℕ)
  | [], _ => .error .outOfRange
  | b :: bufs, offset => if b.length ≤ offset then getBufferIt bufs (offset - b.length) else .ok (b :: bufs, offset)

def pending : Except Fault (List Bytes) :=
  if s.unsent = 0 then .ok []
  else if s.buffer ≠ [] then
    let rpos := (s.start + s.unackedSize) % s.buffer.length
    let rend := rpos + s.unsent
    if rend ≤ s.buffer.length then return [← view s.buffer rpos s.unsent]
    else return [← view s.buffer rpos (s.buffer.length - rpos), ← view s.buffer 0 (rend % s.buffer.length)]
  else do
    match ← getBufferIt s.userBuffers (s.start + s.unackedSize) with
    | ([], _) => .error .outOfRange
    | (b :: bufs, offset) => return (← view b offset (b.length - offset)) :: bufs

def wrote (bytes : ℕ) : Stream := { s with unackedSize := s.unackedSize + bytes }

/-- what the buffer holds of the bytes that are sent and not acknowledged -/
def unackedBytes : Bytes :=
  if s.buffer ≠ [] then window s.buffer s.start s.unackedSize
  else (s.userBuffers.flatten.drop s.start).take s.unackedSize

end Stream

inductive Op where
  | append (data : Bytes)
  | appendAny (data : Bytes)
  | appendBuffer (data : Bytes)
  | wrote (bytes : ℕ)
  | acknowledge (bytes : ℕ)

def Stream.step (s : Stream) : Op → Except Fault Stream
  | .append data => Prod.snd <$> s.append data
  | .appendAny data => Prod.snd <$> s.appendAny data
  | .appendBuffer data => .ok (s.appendBuffer data)
  | .wrote bytes => .ok (s.wrote bytes)
  | .acknowledge bytes => s.acknowledge bytes

/-- what the buffer is for: the bytes sent and not acknowledged, and those not sent -/
structure Fifo where
  sent : Bytes := []
  rest : Bytes := []
deriving DecidableEq

namespace Fifo
variable (q : Fifo)

def bytes : Bytes := q.sent ++ q.rest

def push (data : Bytes) : Fifo := { q with rest := q.rest ++ data }

def step (capacity : ℕ) : Op → Fifo
  | .append data => if data.length ≤ capacity - q.bytes.length then q.push data else q
  | .appendAny data => q.push (data.take (capacity - q.bytes.length))
  | .appendBuffer data => q.push data
  | .wrote n => ⟨q.sent ++ q.rest.take n, q.rest.drop n⟩
  | .acknowledge n => { q with sent := q.sent.drop n }

end Fifo

/-- a stream beside the queue that it should be -/
structure Traced where
  stream : Stream
  fifo : Fifo := {}
deriving DecidableEq

namespace Traced

def new (bufferSize : ℕ) : Traced := { stream := { buffer := .replicate bufferSize 0 } }

def step (op : Op) (t : Traced) : Except Fault Traced := do
  let stream ← t.stream.step op
  return ⟨stream, t.fifo.step t.stream.buffer.length op⟩

/-- what a caller has to keep to -/
def Allowed (op : Op) (t : Traced) : Prop :=
  match op with
  | .append _ | .appendAny _ => t.stream.buffer ≠ []
  | .appendBuffer _ => t.stream.buffer = []
  | .wrote n => n ≤ t.stream.unsent
  | .acknowledge n => n ≤ t.stream.unackedSize

instance (op : Op) (t : Traced) : Decidable (Allowed op t) := by
  unfold Allowed
  split <;> infer_instance

end Traced

/-! ## what each operation does to the bytes -/

namespace Stream

/-- an open stream holds the bytes `x`, in a ring of the size `n` from `start` on or in the buffers of the user -/
structure Holds (s : Stream) (n : ℕ) (x : Bytes) : Prop where
  isOpen : s.isClosing = false
  capacity : s.buffer.length = n
  size : s.size = x.length
  ring : s.buffer ≠ [] → x.length ≤ n ∧ window s.buffer s.start x.length = x
  user : s.buffer = [] → s.start ≤ (s.userBuffers.headD []).length ∧ s.userBuffers.flatten.drop s.start = x

variable {s : Stream} {n k : ℕ} {x data : Bytes} {m : Bytes} {pos : ℕ}

variable (data) in
lemma copyAround_spec (hpos : pos ≤ m.length) (hdata : data.length ≤ m.length) :
    ∃ m', copyAround m pos data = .ok m' ∧ m'.length = m.length ∧
      m'.rotate pos = data ++ (m.rotate pos).drop data.length := by
  have htake : (m.take pos).length = pos := length_take_of_le hpos
  unfold copyAround
  rw [rotate_eq_drop_append_take hpos, drop_append, length_drop, drop_drop]
  split
  · rename_i hwrap
    have hsplit : (data.take (m.length - pos)).length = m.length - pos := length_take_of_le (by omega)
    have hfirst : copy m pos (data.take (m.length - pos)) = .ok (m.take pos ++ data.take (m.length - pos)) := by
      rw [copy, if_pos (by omega), hsplit, drop_eq_nil_of_le (by omega), append_nil]
    have hfront : (data.drop (m.length - pos) ++ (m.take pos).drop (data.length - (m.length - pos))).length = pos := by
      simp
      omega
    refine ⟨data.drop (m.length - pos) ++ (m.take pos).drop (data.length - (m.length - pos)) ++
      data.take (m.length - pos), ?_, by rw [length_append, hfront]; omega, ?_⟩
    · dsimp only
      rw [hfirst, ok_bind_eq, copy, if_pos (by simp; omega), take_zero, nil_append, zero_add, length_drop,
        drop_append_of_le_length (by omega), append_assoc]
    have hrot := rotate_append_length_eq (data.drop (m.length - pos) ++
      (m.take pos).drop (data.length - (m.length - pos))) (data.take (m.length - pos))
    rw [hfront] at hrot
    rw [hrot, ← append_assoc, take_append_drop, show m.drop (pos + data.length) = [] from drop_eq_nil_of_le hwrap.le,
      nil_append]
  · rename_i hfits
    refine ⟨m.take pos ++ (data ++ m.drop (pos + data.length)), ?_, by simp; omega, ?_⟩
    · rw [copy, if_pos (by omega), append_assoc]
    · have hrot := rotate_append_length_eq (m.take pos) (data ++ m.drop (pos + data.length))
      rw [htake] at hrot
      rw [hrot, show data.length - (m.length - pos) = 0 by omega, drop_zero, append_assoc]

lemma Holds.append_spec (h : s.Holds n x) (hs : s.buffer ≠ []) (hdata : data.length ≤ n - x.length) :
    ∃ s', s.append data = .ok (true, s') ∧ s'.Holds n (x ++ data) ∧ s'.unackedSize = s.unackedSize := by
  obtain ⟨_, hwin⟩ := h.ring hs
  have hcap := h.capacity
  have havail : ¬ s.available < data.length := by
    rw [available, if_neg (by simp [h.isOpen, hs]), h.size]
    omega
  have hmod := mod_lt (s.start + s.size) (length_pos_iff.mpr hs)
  obtain ⟨m, hm, hlen, hrot⟩ := copyAround_spec data hmod.le (by omega)
  have hsome : m ≠ [] := length_pos_iff.mp (by rw [hlen]; exact length_pos_iff.mpr hs)
  refine ⟨{ s with buffer := m, size := s.size + data.length }, ?_, ⟨h.isOpen, hlen.trans hcap, ?_, fun _ => ⟨?_, ?_⟩,
    fun hnil => absurd hnil hsome⟩, rfl⟩
  · unfold append
    rw [if_neg havail]
    dsimp only
    rw [hm]
    rfl
  · rw [length_append, ← h.size]
  · rw [length_append]
    omega
  · rw [h.size] at hrot
    rw [length_append, window_append hlen (by omega) hrot, hwin]

lemma Holds.appendBuffer (h : s.Holds n x) (hs : s.buffer = []) : (s.appendBuffer data).Holds n (x ++ data) := by
  obtain ⟨hstart, hx⟩ := h.user hs
  refine ⟨h.isOpen, h.capacity, by simp [Stream.appendBuffer, h.size], fun hne => absurd hs hne, fun _ => ?_⟩
  have hle : s.start ≤ s.userBuffers.flatten.length := by
    cases hbufs : s.userBuffers with
    | nil => simpa [hbufs] using hstart
    | cons => exact (hbufs ▸ hstart).trans (by simp)
  have hhead : (s.userBuffers.headD []).length ≤ ((s.userBuffers ++ [data]).headD []).length := by
    cases s.userBuffers <;> simp
  exact ⟨hstart.trans hhead, by simp [Stream.appendBuffer, drop_append_of_le_length hle, hx]⟩

/-- the loop frees what it should, and ends in front of a buffer's end -/
lemma release_spec (bufs : List Bytes) (start bytes : ℕ) (hstart : start ≤ (bufs.headD []).length)
    (hbytes : bytes ≤ (bufs.flatten.drop start).length) : ∃ bufs' start', release bufs start bytes = .ok (bufs', start') ∧
      start' ≤ (bufs'.headD []).length ∧ bufs'.flatten.drop start' = (bufs.flatten.drop start).drop bytes := by
  induction bufs generalizing start bytes with
  | nil => exact ⟨[], start, if_pos (by simpa using hbytes), hstart, by simp⟩
  | cons b bufs ih =>
    change start ≤ b.length at hstart
    rw [flatten_cons, drop_append_of_le_length hstart] at hbytes ⊢
    rw [length_append, length_drop] at hbytes
    unfold release
    split
    · rename_i hzero
      exact ⟨b :: bufs, start, rfl, hstart, by rw [flatten_cons, drop_append_of_le_length hstart, hzero, drop_zero]⟩
    split
    · rename_i hpop
      obtain ⟨bufs', start', heq, hle, hdrop⟩ := ih 0 (bytes - (b.length - start)) (zero_le _) (by
        rw [drop_zero]
        omega)
      have hnil : (b.drop start).drop bytes = [] := drop_eq_nil_of_le (by rw [length_drop]; exact hpop)
      exact ⟨bufs', start', heq, hle, by rw [hdrop, drop_append, hnil, length_drop, nil_append, drop_zero]⟩
    · refine ⟨b :: bufs, start + bytes, rfl, show start + bytes ≤ b.length by omega, ?_⟩
      rw [flatten_cons, drop_append_of_le_length (by omega), drop_append_of_le_length (by rw [length_drop]; omega),
        drop_drop]

lemma Holds.acknowledge_spec (h : s.Holds n x) (hk : k ≤ x.length) : ∃ s', s.acknowledge k = .ok s' ∧
    s'.Holds n (x.drop k) ∧ s'.unackedSize = s.unackedSize - k := by
  have hsize : s.size - k = (x.drop k).length := by rw [length_drop, h.size]
  have hnil (hzero : s.size - k = 0) : x.drop k = [] := length_eq_zero_iff.mp (hsize ▸ hzero)
  unfold acknowledge
  dsimp only
  by_cases hs : s.buffer = []
  · obtain ⟨hstart, hx⟩ := h.user hs
    rw [if_neg (not_not_intro hs)]
    split
    · rename_i hzero
      exact ⟨_, rfl, ⟨h.isOpen, h.capacity, hsize, fun hne => absurd hs hne,
        fun _ => ⟨zero_le _, (hnil hzero).symm⟩⟩, rfl⟩
    · obtain ⟨_, _, heq, hle, hdrop⟩ := release_spec s.userBuffers s.start k hstart (hx ▸ hk)
      rw [heq]
      exact ⟨_, rfl, ⟨h.isOpen, h.capacity, hsize, fun hne => absurd hs hne, fun _ => ⟨hle, by rw [hdrop, hx]⟩⟩, rfl⟩
  · obtain ⟨hle, hwin⟩ := h.ring hs
    have hcap := h.capacity
    rw [if_pos hs]
    refine ⟨_, rfl, ⟨h.isOpen, hcap, hsize, fun _ => ⟨by rw [length_drop]; omega, ?_⟩, fun hne => absurd hne hs⟩, rfl⟩
    dsimp only
    split
    · rename_i hzero
      rw [hnil hzero]
      rfl
    · rw [length_drop, ← drop_window hk (by omega), hwin]

lemma getBufferIt_spec (bufs : List Bytes) (offset : ℕ) (h : offset < bufs.flatten.length) :
    ∃ b rest o, getBufferIt bufs offset = .ok (b :: rest, o) ∧ o ≤ b.length ∧
      b.drop o ++ rest.flatten = bufs.flatten.drop offset := by
  induction bufs generalizing offset with
  | nil => exact absurd h (not_lt_zero _)
  | cons b bufs ih =>
    rw [flatten_cons, length_append] at h
    unfold getBufferIt
    split
    · rename_i hskip
      obtain ⟨b', rest, o, heq, hle, hdrop⟩ := ih (offset - b.length) (by omega)
      exact ⟨b', rest, o, heq, hle, by rw [hdrop, flatten_cons, drop_append, drop_eq_nil_of_le hskip, nil_append]⟩
    · exact ⟨b, bufs, offset, rfl, by omega, by rw [flatten_cons, drop_append_of_le_length (by omega)]⟩

lemma view_eq (h : pos + k ≤ m.length) : view m pos k = .ok ((m.drop pos).take k) := if_pos h

lemma Holds.pending_spec (h : s.Holds n x) (hu : s.unackedSize ≤ x.length) :
    ∃ bufs, s.pending = .ok bufs ∧ bufs.flatten = x.drop s.unackedSize := by
  have hunsent : s.unsent = x.length - s.unackedSize := by rw [unsent, h.size]
  unfold pending
  split
  · exact ⟨[], rfl, (drop_eq_nil_of_le (by omega)).symm⟩
  by_cases hs : s.buffer = []
  · obtain ⟨_, hx⟩ := h.user hs
    have hlen := congrArg length hx
    rw [length_drop] at hlen
    obtain ⟨b, _, o, heq, hle, hdrop⟩ := getBufferIt_spec s.userBuffers (s.start + s.unackedSize) (by omega)
    rw [if_neg (not_not_intro hs), heq, ok_bind_eq]
    dsimp only
    rw [view_eq (by omega), ok_bind_eq]
    refine ⟨_, rfl, ?_⟩
    rw [flatten_cons, take_of_length_le (by rw [length_drop]), hdrop, ← drop_drop, hx]
  · obtain ⟨hle, hwin⟩ := h.ring hs
    have hcap := h.capacity
    have hmod := mod_lt (s.start + s.unackedSize) (length_pos_iff.mpr hs)
    have hrest : x.drop s.unackedSize =
        window s.buffer ((s.start + s.unackedSize) % s.buffer.length) s.unsent := by
      rw [hunsent, ← drop_window hu (by omega), hwin]
    rw [if_pos hs, hrest, window_eq hmod.le]
    dsimp only
    generalize (s.start + s.unackedSize) % s.buffer.length = rpos at *
    split
    · rename_i hfits
      rw [view_eq hfits, show s.unsent - (s.buffer.length - rpos) = 0 by omega]
      exact ⟨_, rfl, by simp⟩
    have hrend : (rpos + s.unsent) % s.buffer.length = s.unsent - (s.buffer.length - rpos) := by
      rw [mod_eq_sub_mod (by omega), mod_eq_of_lt (by omega)]
      omega
    rw [hrend, view_eq (by omega), view_eq (by omega)]
    have hall : (s.buffer.drop rpos).length ≤ s.unsent := by
      rw [length_drop]
      omega
    refine ⟨_, rfl, ?_⟩
    rw [take_of_length_le hall, take_take, min_eq_left (by omega)]
    simp

end Stream

namespace Traced

/-- the stream holds the bytes of the queue, with the sent ones first -/
structure Refines (n : ℕ) (t : Traced) : Prop where
  holds : t.stream.Holds n t.fifo.bytes
  unacked : t.stream.unackedSize = t.fifo.sent.length

namespace Refines
variable {n : ℕ} {t : Traced} (h : t.Refines n)
include h

lemma sent_le : t.stream.unackedSize ≤ t.fifo.bytes.length := by
  rw [h.unacked, Fifo.bytes, length_append]
  omega

lemma unackedBytes_eq : t.stream.unackedBytes = t.fifo.sent := by
  have htake : t.fifo.bytes.take t.stream.unackedSize = t.fifo.sent := by
    rw [h.unacked]
    exact take_left
  unfold Stream.unackedBytes
  split
  · rename_i hs
    rw [← take_window h.sent_le, (h.holds.ring hs).2, htake]
  · rename_i hs
    rw [(h.holds.user (not_not.mp hs)).2, htake]

lemma available_eq (hs : t.stream.buffer ≠ []) : t.stream.available = n - t.fifo.bytes.length := by
  rw [Stream.available, if_neg (by simp [h.holds.isOpen, hs]), h.holds.capacity, h.holds.size]
variable {data : Bytes}

lemma append_full (hs : t.stream.buffer ≠ []) (hdata : n - t.fifo.bytes.length < data.length) :
    t.stream.append data = .ok (false, t.stream) := if_pos (h.available_eq hs ▸ hdata)

lemma push {s : Stream} (hs : s.Holds n (t.fifo.bytes ++ data))
    (hunacked : s.unackedSize = t.stream.unackedSize) : Refines n ⟨s, t.fifo.push data⟩ := by
  rw [Fifo.bytes, append_assoc] at hs
  exact ⟨hs, hunacked.trans h.unacked⟩

lemma append (hs : t.stream.buffer ≠ []) (hdata : data.length ≤ n - t.fifo.bytes.length) :
    ∃ s, t.stream.append data = .ok (true, s) ∧ Refines n ⟨s, t.fifo.push data⟩ := by
  obtain ⟨s, heq, hholds, hunacked⟩ := h.holds.append_spec hs hdata
  exact ⟨s, heq, h.push hholds hunacked⟩

/-- no allowed operation faults, and each does to the bytes what it does to the queue -/
lemma step {op : Op} (ha : Allowed op t) : ∃ t', Traced.step op t = .ok t' ∧ t'.Refines n := by
  have hcap := h.holds.capacity
  cases op with
  | append data =>
    by_cases hdata : data.length ≤ n - t.fifo.bytes.length
    · obtain ⟨s, heq, href⟩ := h.append ha hdata
      exact ⟨_, by simp [Traced.step, Stream.step, heq, Fifo.step, hcap, hdata], href⟩
    · have heq := h.append_full ha (not_le.mp hdata)
      exact ⟨t, by simp [Traced.step, Stream.step, heq, Fifo.step, hcap, hdata], h⟩
  | appendAny data =>
    obtain ⟨s, heq, href⟩ := h.append ha (length_take_le _ data)
    exact ⟨_, by simp [Traced.step, Stream.step, Stream.appendAny, h.available_eq ha, heq, Fifo.step, hcap], href⟩
  | appendBuffer data => exact ⟨_, rfl, h.push (h.holds.appendBuffer ha) rfl⟩
  | wrote k =>
    have hk : k ≤ t.stream.size - t.stream.unackedSize := ha
    rw [h.holds.size, h.unacked, Fifo.bytes, length_append] at hk
    have hsame : (t.fifo.step t.stream.buffer.length (.wrote k)).bytes = t.fifo.bytes := by simp [Fifo.step, Fifo.bytes]
    have hholds : (t.stream.wrote k).Holds n t.fifo.bytes := { h.holds with }
    exact ⟨_, rfl, hsame ▸ hholds, by simp [Fifo.step, Stream.wrote, h.unacked]; omega⟩
  | acknowledge k =>
    have hk : k ≤ t.stream.unackedSize := ha
    obtain ⟨s, heq, hholds, hunacked⟩ := h.holds.acknowledge_spec (hk.trans h.sent_le)
    rw [h.unacked] at hk
    rw [Fifo.bytes, drop_append_of_le_length hk] at hholds
    refine ⟨⟨s, { t.fifo with sent := t.fifo.sent.drop k }⟩, by simp [Traced.step, Stream.step, heq, Fifo.step], hholds, ?_⟩
    rw [hunacked, h.unacked, length_drop]

end Refines

end Traced

/-- A stream is a queue: the bytes not sent are pending, the sent ones are kept until they are acknowledged, no access
is outside of a buffer, and data is refused when there is no room for it. -/
theorem stream_is_fifo (bufferSize : ℕ) {t : Traced}
    (h : Run.Reaches Traced.step Traced.Allowed (Traced.new bufferSize) t) :
    (∃ bufs, t.stream.pending = .ok bufs ∧ bufs.flatten = t.fifo.rest) ∧ t.stream.unackedBytes = t.fifo.sent ∧
      (∀ op, Traced.Allowed op t → ∃ t', Traced.step op t = .ok t') ∧
      (bufferSize ≠ 0 → ∀ data, t.stream.append data = .ok (false, t.stream) ↔
        bufferSize - t.fifo.bytes.length < data.length) := by
  have href : t.Refines bufferSize := by
    refine h.inv (fun op a b ha hallowed hstep => ?_) ?_
    · obtain ⟨b', hb, href⟩ := ha.step hallowed
      rw [hb] at hstep
      cases hstep
      exact href
    · exact ⟨⟨rfl, length_replicate, rfl, fun _ => ⟨zero_le _, rfl⟩, fun _ => ⟨le_refl 0, rfl⟩⟩, rfl⟩
  obtain ⟨bufs, hpending, hbufs⟩ := href.holds.pending_spec href.sent_le
  refine ⟨⟨bufs, hpending, ?_⟩, href.unackedBytes_eq, fun op hop => (href.step hop).imp fun _ => And.left,
    fun hsize data => ?_⟩
  · rw [hbufs, href.unacked, Fifo.bytes, drop_left]
  have hs : t.stream.buffer ≠ [] := fun hnil => hsize (by rw [← href.holds.capacity, hnil]; rfl)
  refine ⟨fun hfail => ?_, href.append_full hs⟩
  by_contra hdata
  obtain ⟨s, heq, -⟩ := href.append hs (not_lt.mp hdata)
  rw [heq] at hfail
  cases hfail

/-- with an empty buffer in front, two bytes are sent and one is acknowledged -/
theorem stream_is_fifo_user : ∃ t, Run.Reaches Traced.step Traced.Allowed (Traced.new 0) t ∧
    t.stream.unackedBytes = [2] ∧ t.fifo.rest = [3] := by
  obtain ⟨t, hrun, hsent, hrest⟩ : ∃ t, Run.execWhile Traced.step Traced.Allowed
      [.appendBuffer [], .appendBuffer [1, 2], .appendBuffer [3], .wrote 2, .acknowledge 1] (Traced.new 0) = some t ∧
      t.fifo.sent = [2] ∧ t.fifo.rest = [3] := Run.some_sat
  have hreach := Run.execWhile_reaches hrun
  exact ⟨t, hreach, (stream_is_fifo 0 hreach).2.1.trans hsent, hrest⟩

end Belnet.Quic
