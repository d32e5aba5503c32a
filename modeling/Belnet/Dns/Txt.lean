import Belnet.Lib.Bytes

/-!
# TXT replies

`Message::AddTXTReply` of `llarp/dns/message.cpp` cuts a text into pieces of up to 256 bytes, with a byte for the
length.
-/

namespace Belnet.Dns
open List UInt8 Nat

structure Question where
  qname : Bytes
  qtype : UInt16
  qclass : UInt16
deriving DecidableEq

structure ResourceRecord where
  rrName : Bytes
  rrType : UInt16
  rrClass : UInt16
  ttl : UInt32
  rData : Bytes
deriving DecidableEq

structure Message where
  questions : List Question
  answers : List ResourceRecord
deriving DecidableEq

abbrev qTypeTXT : UInt16 := 16

abbrev qClassIN : UInt16 := 1

/-- The loop of `AddTXTReply` with the buffer of 1024 bytes; `none` when it throws.  The text's length is fuel enough.
-/
def txtLoop : ℕ → Bytes → Bytes → Option Bytes
  | _, out, [] => some out
  | 0, _, _ => none
  | fuel + 1, out, c :: str =>
    let left := min (c :: str).length 256
    if left ≤ 1024 - (out.length + 1) then
      txtLoop fuel (out ++ ofNat left :: (c :: str).take left) ((c :: str).drop left)
    else none

def Message.addTXTReply (str : Bytes) (ttl : UInt32) (m : Message) : Option Message :=
  match m.questions, txtLoop str.length [] str with
  | q :: _, some rData => some { m with answers := m.answers ++ [⟨q.qname, qTypeTXT, qClassIN, ttl, rData⟩] }
  | _, _ => none

def charStrings : ℕ → Bytes → Option (List Bytes)
  | _, [] => some []
  | 0, _ => none
  | fuel + 1, n :: b =>
    if n.toNat ≤ b.length then (charStrings fuel (b.drop n.toNat)).map (b.take n.toNat :: ·) else none

def Carries (rData str : Bytes) : Prop := ∃ l, charStrings rData.length rData = some l ∧ l.flatten = str

variable {fuel : ℕ} {out str b : Bytes} {l : List Bytes}

lemma charStrings_length (h : charStrings fuel b = some l) :
    b.length = l.length + l.flatten.length ∧ l.flatten.length ≤ 255 * l.length := by
  induction fuel generalizing b l with
  | zero =>
    cases b with
    | nil => cases h; exact ⟨rfl, le_refl 0⟩
    | cons n b => cases h
  | succ fuel ih =>
    cases b with
    | nil => cases h; exact ⟨rfl, le_refl 0⟩
    | cons n b =>
      have hn : n.toNat < 256 := n.toNat_lt
      simp only [charStrings] at h
      split at h
      · rename_i hle
        obtain ⟨_, hl', rfl⟩ := Option.map_eq_some_iff.mp h
        obtain ⟨hlen, _⟩ := ih hl'
        rw [length_drop] at hlen
        simp only [length_cons, flatten_cons, length_append, length_take]
        omega
      · cases h

lemma charStrings_zero (h : charStrings fuel (0 :: b) = some l) :
    ∃ l', l = [] :: l' ∧ b.length = l'.length + l'.flatten.length ∧ l'.flatten.length ≤ 255 * l'.length := by
  cases fuel with
  | zero => cases h
  | succ fuel =>
    simp only [charStrings, UInt8.toNat_zero, zero_le, if_true, drop_zero, take_zero] at h
    obtain ⟨l', hl', rfl⟩ := Option.map_eq_some_iff.mp h
    exact ⟨l', rfl, charStrings_length hl'⟩

lemma txtLoop_length (h : txtLoop fuel out str = some b) :
    out <+: b ∧ b.length = out.length + str.length + (str.length + 255) / 256 := by
  induction fuel generalizing out str with
  | zero =>
    cases str with
    | nil => cases h; exact ⟨prefix_rfl, rfl⟩
    | cons c str => cases h
  | succ fuel ih =>
    cases str with
    | nil => cases h; exact ⟨prefix_rfl, rfl⟩
    | cons c str =>
      rw [txtLoop] at h
      split at h
      · obtain ⟨hpre, hlen⟩ := ih h
        refine ⟨(prefix_append _ _).trans hpre, ?_⟩
        rw [hlen]
        simp only [length_append, length_cons, length_take, length_drop]
        omega
      · cases h

lemma txtLoop_long (hlong : 255 < str.length) (h : txtLoop str.length [] str = some b) : ∃ b', b = 0 :: b' := by
  cases str with
  | nil => cases hlong
  | cons c str =>
    rw [length_cons] at hlong
    have hleft : min (c :: str).length 256 = 256 := by rw [length_cons]; omega
    rw [length_cons, txtLoop, hleft] at h
    split at h
    · obtain ⟨r, hr⟩ := (txtLoop_length h).1
      exact ⟨_, hr.symm⟩
    · cases h

lemma txtLoop_short (hshort : str.length ≤ 255) (hne : str ≠ []) :
    txtLoop str.length [] str = some (ofNat str.length :: str) := by
  obtain ⟨c, r, rfl⟩ := exists_cons_of_ne_nil hne
  have hleft : min (c :: r).length 256 = (c :: r).length := by omega
  rw [length_cons] at hshort
  rw [length_cons, txtLoop, ← length_cons (a := c), hleft]
  rw [if_pos (by simp; omega), take_length, drop_length, nil_append]
  unfold txtLoop
  rfl

lemma carries_short (hshort : str.length ≤ 255) : Carries (ofNat str.length :: str) str := by
  have hn : (ofNat str.length).toNat = str.length := by
    rw [toNat_ofNat']
    exact mod_eq_of_lt (by omega)
  refine ⟨[str], ?_, by simp⟩
  rw [length_cons, charStrings, if_pos (by omega), hn, take_length, drop_length]
  unfold charStrings
  rfl

/-- A text that does not throw is carried by the appended record exactly when it has at most 255 bytes. -/
theorem txt_carries_text_iff {m m' : Message} {ttl : UInt32} (h : m.addTXTReply str ttl = some m') :
    ∃ rr, m'.answers = m.answers ++ [rr] ∧ (Carries rr.rData str ↔ str.length ≤ 255) := by
  unfold Message.addTXTReply at h
  split at h
  · rename_i q qs rData hq hdata
    cases h
    refine ⟨_, rfl, ?_⟩
    show Carries rData str ↔ _
    constructor
    · rintro ⟨l, hl, hflat⟩
      by_contra hlong
      obtain ⟨b', rfl⟩ := txtLoop_long (by omega) hdata
      obtain ⟨l', rfl, hlen, hmax⟩ := charStrings_zero hl
      -- as many strings as there are length bytes cannot hold the text, since the first of them is empty
      have htotal := (txtLoop_length hdata).2
      rw [flatten_cons, nil_append] at hflat
      rw [hflat] at hlen hmax
      rw [length_cons, length_nil] at htotal
      omega
    · intro hshort
      by_cases hne : str = []
      · subst hne
        cases hdata
        exact ⟨[], rfl, rfl⟩
      · rw [txtLoop_short hshort hne] at hdata
        cases hdata
        exact carries_short hshort
  · cases h

def Message.asked : Message := ⟨[⟨[], qTypeTXT, qClassIN⟩], []⟩

theorem txt_carries_text_iff_short : ∃ rr, [⟨[], qTypeTXT, qClassIN, 1, [2, 104, 105]⟩] = [] ++ [rr] ∧
    (Carries (ResourceRecord.rData rr) [104, 105] ↔ [(104 : UInt8), 105].length ≤ 255) :=
  txt_carries_text_iff (show Message.asked.addTXTReply [104, 105] 1 = some { Message.asked with answers :=
    [⟨[], qTypeTXT, qClassIN, 1, [2, 104, 105]⟩] } by decide)

/-- 256 bytes `'a'`: their length byte is zero, and the next one is read as the length of a string -/
theorem txt_of_256_bytes : ∃ rr, Message.asked.addTXTReply (replicate 256 97) 1 = some { Message.asked with answers := [rr] } ∧
    charStrings rr.rData.length rr.rData = none := by
  refine ⟨⟨[], qTypeTXT, qClassIN, 1, 0 :: replicate 256 97⟩, ?_, ?_⟩
  · decide +kernel
  · decide +kernel

end Belnet.Dns
