import Belnet.Service.Messages
import Belnet.Util.Dict

/-!
# Writing and reading the records of hidden services

`BEncode` of `Introduction`, `ServiceInfo` and `ProtocolMessage`, with what `BDecode` makes of the written bytes.
-/

namespace Belnet.Service
open Iwp Util Belnet.Path UInt64 List

lemma prints_entry (k x : Bytes) : Prints (writeEntry k x) (entry k x) :=
  (prints_writeBytestring k).seq (prints_writeBytestring x)

section
variable {σ : Type} {decodeKey : σ → Bytes → Bytes → Decoded σ} {s s' : σ} {x : Bytes}

def keySink (decodeKey : σ → Bytes → Bytes → Except MemFault (Option (σ × Bytes))) : Sink σ := fun s key b =>
  match key with
  | none => .ok (some (s, b))
  | some key => decodeKey s key b

lemma dict_reads (h : Reads (keySink decodeKey) s x s') (rest : Bytes) :
    decodeDict decodeKey s (100 :: (x ++ [101]) ++ rest) = .ok (some (s', rest)) := h.dict rest

variable {c : UInt8}

lemma reads_entry {val : Bytes} (h : ∀ rest, decodeKey s [c] (val ++ rest) = .ok (some (s', rest))) :
    Reads (keySink decodeKey) s (str [c] ++ val) s' := Reads.entry (by simp) h

variable {n : ℕ}

lemma reads_buffer (x : AlignedBuffer n) (f : AlignedBuffer n → σ)
    (h : ∀ b, decodeKey s [c] b = bufferEntry f b := by intro _; rfl) (hn : n < 10^9 := by norm_num) :
    Reads (keySink decodeKey) s (entry [c] x.toList) (f x) := by
  apply reads_entry
  intro _
  rw [h, bufferEntry_str f x hn]

lemma reads_int (i : UInt64) (f : UInt64 → Option σ) (h : ∀ b, decodeKey s [c] b = intEntry f b)
    (hi : f i = some s') : Reads (keySink decodeKey) s (str [c] ++ int i) s' := by
  apply reads_entry
  intro _
  rw [h, intEntry_int f i, hi]
  rfl

variable (decodeKey s c) in
lemma reads_setInt (set : σ → UInt64 → σ) (i : UInt64) (h : ∀ b, decodeKey s [c] b = intEntry (some <| set s ·) b := by intro _; rfl) :
    Reads (keySink decodeKey) s (str [c] ++ int i) (set s i) := reads_int i _ h rfl

variable (decodeKey s c) in
lemma reads_setBuffer (set : σ → AlignedBuffer n → σ) (x : AlignedBuffer n)
    (h : ∀ b, decodeKey s [c] b = bufferEntry (set s) b := by intro _; rfl) (hn : n < 10^9 := by norm_num) :
    Reads (keySink decodeKey) s (entry [c] x.toList) (set s x) := reads_buffer x _ h hn

lemma reads_nonzero (x : AlignedBuffer n) (f : AlignedBuffer n → σ)
    (h : ∀ b, decodeKey s [c] b = bufferEntry f b) (hs : f (.zero n) = s) (hn : n < 10^9 := by norm_num) :
    Reads (keySink decodeKey) s (if isZero x then [] else entry [c] x.toList) (f x) := by
  apply Reads.unless
  · intro _
    exact reads_buffer x f h hn
  · intro hzero
    rw [of_decide_eq_true hzero]
    exact hs

end

def Timestamp (t : Millis) : Prop := -2^63 ≤ t ∧ t < 2^63

instance (t : Millis) : Decidable (Timestamp t) := inferInstanceAs (Decidable (_ ∧ _))

lemma toInt64_ofInt {t : Millis} (h : Timestamp t) : (UInt64.ofInt t).toInt64.toInt = t := by
  have hbits : UInt64.ofInt t = ⟨BitVec.ofInt 64 t⟩ := by
    apply UInt64.toBitVec_inj.mp
    apply BitVec.eq_of_toNat_eq
    show (UInt64.ofNat (t % 2^64).toNat).toNat = (BitVec.ofInt 64 t).toNat
    have hpos : 0 ≤ t % 2^64 := Int.emod_nonneg _ (by norm_num)
    have hlt : t % 2^64 < 2^64 := Int.emod_lt_of_pos _ (by norm_num)
    rw [BitVec.toNat_ofInt, toNat_ofNat', Nat.mod_eq_of_lt (by omega)]
    norm_num
  have hsigned : (ofInt t).toInt64 = Int64.ofInt t := congrArg toInt64 hbits
  rw [hsigned]
  exact Int64.toInt_ofInt_of_le h.1 h.2

namespace Introduction

section
variable (i : Introduction)

def bencode : Writer :=
  (((((startDict.seq (writeEntry [107] i.router.toList)).seq
    (if 0 < i.latency then writeDictInt [108] (.ofInt i.latency) else skip)).seq
    (writeEntry [112] i.pathID.toList)).seq
    (writeDictInt [118] i.version)).seq
    (writeDictInt [120] (.ofInt i.expiresAt))).seq
    endDict

def fields : Bytes :=
  entry [107] i.router.toList ++ (if 0 < i.latency then str [108] ++ int (.ofInt i.latency) else []) ++
    entry [112] i.pathID.toList ++ (str [118] ++ int i.version) ++ (str [120] ++ int (.ofInt i.expiresAt))

def encoding : Bytes := 100 :: (i.fields ++ [101])

lemma prints_bencode : Prints i.bencode i.encoding := by
  have head := ((prints_write [100]).seq (prints_entry [107] i.router.toList)).seq
    (prints_when (p := 0 < i.latency) (prints_dictInt [108] (.ofInt i.latency)))
  have body := ((head.seq (prints_entry [112] i.pathID.toList)).seq (prints_dictInt [118] i.version)).seq
    (prints_dictInt [120] (.ofInt i.expiresAt))
  exact body.seq (prints_write [101])

def InRange : Prop := Timestamp i.latency ∧ Timestamp i.expiresAt

end

instance (i : Introduction) : Decidable i.InRange := inferInstanceAs (Decidable (_ ∧ _))

def received (i : Introduction) : Introduction := { i with latency := max i.latency 0 }

lemma received_eq_iff (i : Introduction) : i.received = i ↔ 0 ≤ i.latency := by
  constructor
  · intro h
    exact max_eq_left_iff.mp (congrArg latency h)
  · intro h
    unfold received
    rw [max_eq_left h]

variable {i : Introduction}

lemma reads_fields (h : i.InRange) : Reads (keySink decodeKey) {} i.fields i.received := by
  have hrouter (s) := reads_setBuffer decodeKey s 107 (fun s x => { s with router := x }) i.router
  have hlatency (s : Introduction) (hs : s.latency = 0) : Reads (keySink decodeKey) s
      (if 0 < i.latency then str [108] ++ int (.ofInt i.latency) else [])
      { s with latency := max i.latency 0 } := by
    apply Reads.when
    · intro hpos
      refine reads_int _ (fun x => some { s with latency := x.toInt64.toInt }) (fun _ => rfl) ?_
      rw [toInt64_ofInt h.1, max_eq_left (le_of_lt hpos)]
    · intro hpos
      rw [max_eq_right (not_lt.mp hpos), ← hs]
  have hpath (s) := reads_setBuffer decodeKey s 112 (fun s x => { s with pathID := x }) i.pathID
  have hversion (s) := reads_setInt decodeKey s 118 (fun s x => { s with version := x }) i.version
  have hexpires (s : Introduction) : Reads (keySink decodeKey) s (str [120] ++ int (.ofInt i.expiresAt))
      { s with expiresAt := i.expiresAt } := by
    refine reads_int _ (fun x => some { s with expiresAt := x.toInt64.toInt }) (fun _ => rfl) ?_
    rw [toInt64_ofInt h.2]
  exact ((((hrouter _).append (hlatency _ rfl)).append (hpath _)).append (hversion _)).append (hexpires _)

lemma bdecode_encoding (h : i.InRange) (rest : Bytes) :
    bdecode {} (i.encoding ++ rest) = .ok (some (i.received, rest)) := by exact dict_reads (reads_fields h) rest

end Introduction

namespace ServiceInfo
variable (info : ServiceInfo)

def bencode : Writer :=
  ((((startDict.seq (writeEntry [101] info.enckey.toList)).seq (writeEntry [115] info.signkey.toList)).seq
    (writeDictInt [118] recordVersion)).seq
    (if isZero info.vanity then skip else writeEntry [120] info.vanity.toList)).seq
    endDict

def fields : Bytes :=
  entry [101] info.enckey.toList ++ entry [115] info.signkey.toList ++ (str [118] ++ int recordVersion) ++
    (if isZero info.vanity then [] else entry [120] info.vanity.toList)

def encoding : Bytes := 100 :: (info.fields ++ [101])

lemma prints_bencode : Prints info.bencode info.encoding := by
  have head := ((prints_write [100]).seq (prints_entry [101] info.enckey.toList)).seq
    (prints_entry [115] info.signkey.toList)
  have body := (head.seq (prints_dictInt [118] recordVersion)).seq
    (prints_unless (p := isZero info.vanity) (prints_entry [120] info.vanity.toList))
  exact body.seq (prints_write [101])

def received : ServiceInfo :=
  { info with version := recordVersion, cachedAddr := info.signkey }

lemma reads_fields : Reads (keySink decodeKey) {} info.fields
    { enckey := info.enckey, signkey := info.signkey, vanity := info.vanity } := by
  have henc (s) := reads_setBuffer decodeKey s 101 (fun s x => { s with enckey := x }) info.enckey
  have hsign (s) := reads_setBuffer decodeKey s 115 (fun s x => { s with signkey := x }) info.signkey
  have hversion (s) := reads_setInt decodeKey s 118 (fun s x => { s with version := x }) recordVersion
  have hvanity (s : ServiceInfo) (hs : s.vanity = .zero 16) : Reads (keySink decodeKey) s
      (if isZero info.vanity then [] else entry [120] info.vanity.toList) { s with vanity := info.vanity } :=
    reads_nonzero info.vanity (fun x => { s with vanity := x }) (fun _ => rfl) (by rw [← hs])
  exact (((henc _).append (hsign _)).append (hversion _)).append (hvanity _ rfl)

lemma bdecode_encoding (rest : Bytes) : bdecode {} (info.encoding ++ rest) = .ok (some (info.received, rest)) := by
  unfold bdecode encoding
  rw [dict_reads (reads_fields info) rest]
  rfl

end ServiceInfo

namespace ProtocolMessage
variable (m : ProtocolMessage)

def bencode : Writer :=
  (((((((startDict.seq (writeDictInt [97] m.proto)).seq
    (if m.payload = [] then skip else writeEntry [100] m.payload)).seq
    ((writeBytestring [105]).seq m.introReply.bencode)).seq
    (writeDictInt [110] m.seqno)).seq
    ((writeBytestring [115]).seq m.sender.bencode)).seq
    (if isZero m.tag then skip else writeEntry [116] m.tag.toList)).seq
    (writeDictInt [118] m.version)).seq
    endDict

def fields : Bytes :=
  (str [97] ++ int m.proto) ++ (if m.payload = [] then [] else entry [100] m.payload) ++
    (str [105] ++ m.introReply.encoding) ++ (str [110] ++ int m.seqno) ++ (str [115] ++ m.sender.encoding) ++
    (if isZero m.tag then [] else entry [116] m.tag.toList) ++ (str [118] ++ int m.version)

def encoding : Bytes := 100 :: (m.fields ++ [101])

lemma prints_bencode : PrintsDict m.bencode m.encoding := by
  have head := ((prints_write [100]).seq (prints_dictInt [97] m.proto)).seq
    (prints_unless (p := m.payload = []) (prints_entry [100] m.payload))
  have intro := (head.seq ((prints_writeBytestring [105]).seq m.introReply.prints_bencode)).seq
    (prints_dictInt [110] m.seqno)
  have body := (intro.seq ((prints_writeBytestring [115]).seq m.sender.prints_bencode)).seq
    (prints_unless (p := isZero m.tag) (prints_entry [116] m.tag.toList))
  exact (body.seq (prints_dictInt [118] m.version)).dict

def received : ProtocolMessage :=
  { m with introReply := m.introReply.received, sender := m.sender.received }

variable {m : ProtocolMessage}

lemma reads_fields (hintro : m.introReply.InRange) (hpayload : m.payload.length < 10^9) :
    Reads (keySink decodeKey) {} m.fields m.received := by
  have hproto (s) := reads_setInt decodeKey s 97 (fun s x => { s with proto := x }) m.proto
  have hdata (s : ProtocolMessage) (hs : s.payload = []) : Reads (keySink decodeKey) s
      (if m.payload = [] then [] else entry [100] m.payload) { s with payload := m.payload } := by
    apply Reads.unless
    · intro _
      apply reads_entry
      intro rest
      show Except.ok ((readString (str m.payload ++ rest)).map _) = _
      rw [readString_str hpayload]
      rfl
    · intro hempty
      rw [hempty, ← hs]
  have hreply (s : ProtocolMessage) (hs : s.introReply = {}) : Reads (keySink decodeKey) s
      (str [105] ++ m.introReply.encoding) { s with introReply := m.introReply.received } := by
    apply reads_entry
    intro rest
    show (do return (← Introduction.bdecode s.introReply (m.introReply.encoding ++ rest)).map _) = _
    rw [hs, Introduction.bdecode_encoding hintro]
    rfl
  have hseqno (s) := reads_setInt decodeKey s 110 (fun s x => { s with seqno := x }) m.seqno
  have hsender (s : ProtocolMessage) (hs : s.sender = {}) : Reads (keySink decodeKey) s
      (str [115] ++ m.sender.encoding) { s with sender := m.sender.received } := by
    apply reads_entry
    intro rest
    show (do return (← ServiceInfo.bdecode s.sender (m.sender.encoding ++ rest)).map _) = _
    rw [hs, ServiceInfo.bdecode_encoding]
    rfl
  have htag (s : ProtocolMessage) (hs : s.tag = .zero 16) : Reads (keySink decodeKey) s
      (if isZero m.tag then [] else entry [116] m.tag.toList) { s with tag := m.tag } :=
    reads_nonzero m.tag (fun x => { s with tag := x }) (fun _ => rfl) (by rw [← hs])
  have hversion (s) := reads_setInt decodeKey s 118 (fun s x => { s with version := x }) m.version
  exact ((((((hproto _).append (hdata _ rfl)).append (hreply _ rfl)).append (hseqno _)).append
    (hsender _ rfl)).append (htag _ rfl)).append (hversion _)

lemma bdecode_encoding (hintro : m.introReply.InRange) (hpayload : m.payload.length < 10^9) :
    bdecode m.encoding = .ok (some m.received) := by
  unfold bdecode
  rw [← append_nil m.encoding, encoding, dict_reads (reads_fields hintro hpayload) []]
  rfl

lemma payload_length_le : m.payload.length ≤ m.encoding.length := by
  unfold encoding fields
  by_cases h : m.payload = []
  · rw [h]
    exact Nat.zero_le _
  rw [if_neg h]
  simp only [entry, str, length_append, length_cons]
  omega

end ProtocolMessage

end Belnet.Service
