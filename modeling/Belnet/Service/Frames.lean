import Belnet.Service.Codec

/-!
# Frames with an encrypted message

`EncryptAndSign` writes the message into 4096 bytes, and assigns it to `D`, which silently takes no more than 2048.
-/

namespace Belnet.Service
open Iwp Util Belnet.Path List ProtocolFrame AlignedBuffer Except

abbrev encryptedSize : ℕ := 2048

namespace ProtocolFrame

def new (pq : ℕ) : ProtocolFrame where
  C := replicate pq 0
  D := []
  F := .zero 16
  N := .zero 32
  R := 0
  T := .zero 16
  Z := .zero 64

def decodeKey (pq : ℕ) (f : ProtocolFrame) (key b : Bytes) : Except MemFault (Option (ProtocolFrame × Bytes)) :=
  if startsWith [65] key then
    .ok ((readString b).bind fun r => if r.1 = [72] then some (f, r.2) else none)
  else if startsWith [68] key then
    .ok ((readString b).bind fun r => if encryptedSize < r.1.length then none else some ({ f with D := r.1 }, r.2))
  else if startsWith [70] key then bufferEntry (fun x => { f with F := x }) b
  else if startsWith [67] key then
    .ok ((readString b).bind fun r => if r.1.length = pq then some ({ f with C := r.1 }, r.2) else none)
  else if startsWith [78] key then bufferEntry (fun x => { f with N := x }) b
  else if startsWith [83] key then intEntry (fun _ => some f) b
  else if startsWith [82] key then intEntry (fun i => some { f with R := i }) b
  else if startsWith [84] key then bufferEntry (fun x => { f with T := x }) b
  else if startsWith [86] key then
    intEntry (fun i => if i = recordVersion then some { f with version := i } else none) b
  else if startsWith [90] key then bufferEntry (fun x => { f with Z := x }) b
  else .ok none

def bdecode (pq : ℕ) (b : Bytes) : Except MemFault (Option (ProtocolFrame × Bytes)) :=
  decodeDict (decodeKey pq) (new pq) b

variable (f : ProtocolFrame)

def assignD (buf : Bytes) : ProtocolFrame :=
  if buf.length ≤ encryptedSize then { f with D := buf } else f

def encryptAndSign (c : Crypto) (sign : Bytes → Option Signature) (f : ProtocolFrame) (msg : ProtocolMessage)
    (sessionKey : SharedSecret) : Option ProtocolFrame :=
  match msg.bencode.into maxProtocolMessageSize with
  | none => none
  | some buf =>
    let f := f.assignD (c.xchacha20 buf sessionKey f.N)
    match { f with Z := .zero 64 }.bencode.into maxProtocolMessageSize with
    | none => none
    | some buf2 => (sign buf2).map fun z => { f with Z := z }

lemma prints_bencode : PrintsDict f.bencode f.encoding := by
  have head := ((prints_write [100]).seq (prints_entry [65] [72])).seq
    (prints_unless (p := f.C.all (· = 0)) (prints_entry [67] f.C))
  have body := (head.seq (prints_when (p := 0 < f.D.length) (prints_entry [68] f.D))).seq
    (prints_entry [70] f.F.toList)
  have nonce := (body.seq (prints_unless (p := isZero f.N) (prints_entry [78] f.N.toList))).seq
    (prints_unless (p := f.R = 0) (prints_dictInt [82] f.R))
  have tagged := (nonce.seq (prints_unless (p := isZero f.T) (prints_entry [84] f.T.toList))).seq
    (prints_dictInt [86] f.version)
  exact (tagged.seq (prints_entry [90] f.Z.toList)).dict

lemma zeros_eq {C : Bytes} (h : C.all (· = 0)) : C = replicate C.length 0 := by
  rw [all_eq_true] at h
  exact eq_replicate_iff.mpr ⟨rfl, fun b hb => of_decide_eq_true (h b hb)⟩

variable {f : ProtocolFrame} {pq : ℕ}

lemma reads_fields (hC : f.C.length = pq) (hsize : f.fields.length < 10^9)
    (hD : f.D.length ≤ encryptedSize) (hversion : f.version = recordVersion) :
    Reads (keySink (decodeKey pq)) (new pq) f.fields f := by
  have htype (s : ProtocolFrame) : Reads (keySink (decodeKey pq)) s (entry [65] [72]) s := by
    apply reads_entry
    intro rest
    show ok ((readString (str [72] ++ rest)).bind _) = _
    rw [readString_str (by simp)]
    rfl
  have hcipher (s : ProtocolFrame) (hs : s.C = (new pq).C) : Reads (keySink (decodeKey pq)) s
      (if f.C.all (· = 0) then [] else entry [67] f.C) { s with C := f.C } := by
    apply Reads.unless
    · intro hne
      have hlen : f.C.length < 10^9 := by
        rw [fields, if_neg hne] at hsize
        simp only [entry, str, length_append] at hsize
        omega
      apply reads_entry
      intro rest
      show ok ((readString (str f.C ++ rest)).bind _) = _
      rw [readString_str hlen, Option.bind_some, if_pos hC]
    · intro hzero
      have hnew : f.C = s.C := by
        rw [zeros_eq hzero, hC, hs]
        rfl
      rw [hnew]
  have hdata (s : ProtocolFrame) (hs : s.D = []) : Reads (keySink (decodeKey pq)) s
      (if 0 < f.D.length then entry [68] f.D else []) { s with D := f.D } := by
    apply Reads.when
    · intro _
      apply reads_entry
      intro rest
      show ok ((readString (str f.D ++ rest)).bind _) = _
      rw [readString_str (lt_of_le_of_lt hD (by norm_num)), Option.bind_some, if_neg (not_lt.mpr hD)]
    · intro hempty
      rw [length_eq_zero_iff.mp (Nat.eq_zero_of_not_pos hempty), ← hs]
  have hpath (s) := reads_setBuffer (decodeKey pq) s 70 (fun s x => { s with F := x }) f.F
  have hnonce (s : ProtocolFrame) (hs : s.N = zero _) : Reads (keySink (decodeKey pq)) s
      (if isZero f.N then [] else entry [78] f.N.toList) { s with N := f.N } :=
    reads_nonzero f.N (fun x => { s with N := x }) (fun _ => rfl) (by rw [← hs])
  have hreset (s : ProtocolFrame) (hs : s.R = 0) : Reads (keySink (decodeKey pq)) s
      (if f.R = 0 then [] else str [82] ++ int f.R) { s with R := f.R } := by
    apply Reads.unless
    · intro _
      exact reads_int f.R (fun i => some { s with R := i }) (fun _ => rfl) rfl
    · intro hzero
      rw [hzero, ← hs]
  have htag (s : ProtocolFrame) (hs : s.T = zero _) : Reads (keySink (decodeKey pq)) s
      (if isZero f.T then [] else entry [84] f.T.toList) { s with T := f.T } :=
    reads_nonzero f.T (fun x => { s with T := x }) (fun _ => rfl) (by rw [← hs])
  have hver (s : ProtocolFrame) : Reads (keySink (decodeKey pq)) s (str [86] ++ int f.version)
      { s with version := f.version } :=
    reads_int f.version (fun i => if i = recordVersion then some { s with version := i } else none) (fun _ => rfl)
      (if_pos hversion)
  have hsig (s) := reads_setBuffer (decodeKey pq) s 90 (fun s x => { s with Z := x }) f.Z
  exact ((((((((htype _).append (hcipher _ rfl)).append (hdata _ rfl)).append (hpath _)).append (hnonce _ rfl)).append
    (hreset _ rfl)).append (htag _ rfl)).append (hver _)).append (hsig _)

lemma bdecode_encoding (hC : f.C.length = pq) (hsize : f.encoding.length < 10^9)
    (hD : f.D.length ≤ encryptedSize) (hversion : f.version = recordVersion) :
    bdecode pq f.encoding = .ok (some (f, [])) := by
  have hfields : f.fields.length < 10^9 := by
    rw [encoding, length_cons, length_append] at hsize
    omega
  unfold bdecode
  rw [encoding, ← append_nil (100 :: (f.fields ++ [101]))]
  exact dict_reads (reads_fields hC hfields hD hversion) []

section
variable {c : Crypto} {sign : Bytes → Option Signature} {f f' : ProtocolFrame} {msg : ProtocolMessage}
  {K : SharedSecret} {pub : ServiceInfo} {pq : ℕ}

lemma encoding_length_sig (f : ProtocolFrame) (z : Signature) :
    { f with Z := z }.encoding.length = { f with Z := zero 64 }.encoding.length := by
  have hz : (entry [90] z.toList).length = (entry [90] (zero 64).toList).length := by
    simp only [entry, str, length_append, Vector.toList_length]
  unfold encoding fields
  simp only [length_cons, length_append, hz]

lemma encryptAndSign_eq (h : f.encryptAndSign c sign msg K = some f') :
    ∃ z, f' = { f.assignD (c.xchacha20 msg.encoding K f.N) with Z := z } ∧
      sign { f' with Z := .zero 64 }.encoding = some z ∧ f'.encoding.length ≤ maxProtocolMessageSize ∧
      msg.encoding.length ≤ maxProtocolMessageSize := by
  unfold encryptAndSign at h
  rw [msg.prints_bencode.into_eq] at h
  split at h
  · cases h
  rename_i buf hbuf
  split at hbuf
  case isFalse => cases hbuf
  rename_i hmsg
  cases hbuf
  dsimp only at h
  generalize f.assignD (c.xchacha20 msg.encoding K f.N) = g at h ⊢
  rw [(prints_bencode _).into_eq] at h
  split at h
  · cases h
  rename_i buf2 hbuf2
  split at hbuf2
  case isFalse => cases hbuf2
  rename_i hlen
  cases hbuf2
  obtain ⟨z, hz, rfl⟩ := Option.map_eq_some_iff.mp h
  refine ⟨z, rfl, hz, ?_, hmsg⟩
  rw [encoding_length_sig]
  exact hlen

lemma encryptAndSign_some {z : Signature} (hmsg : msg.encoding.length ≤ maxProtocolMessageSize)
    (hf : { f.assignD (c.xchacha20 msg.encoding K f.N) with Z := .zero 64 }.encoding.length
      ≤ maxProtocolMessageSize) (hsign : ∀ b, sign b = some z) :
    f.encryptAndSign c sign msg K = some { f.assignD (c.xchacha20 msg.encoding K f.N) with Z := z } := by
  unfold encryptAndSign
  rw [msg.prints_bencode.into_eq, if_pos hmsg]
  dsimp only
  rw [(prints_bencode _).into_eq, if_pos hf]
  dsimp only
  rw [hsign]
  rfl

lemma assignD_header (f : ProtocolFrame) (b : Bytes) (z : Signature) :
    { f.assignD b with Z := z } = { f with D := (f.assignD b).D, Z := z } := by
  unfold assignD
  split <;> rfl

lemma signed_into (f : ProtocolFrame) : f.signed = { f with Z := .zero 64 }.bencode.into maxProtocolMessageSize := by
  unfold signed Writer.into
  generalize bencode { f with Z := .zero 64 } ⟨replicate maxProtocolMessageSize 0, 0⟩ = r
  obtain ⟨ok, b⟩ := r
  cases ok with
  | true => rfl
  | false => rfl

lemma verify_signed (hsign : ∀ b z, sign b = some z → c.verify pub.signkey b z = true)
    (hz : sign { f' with Z := .zero 64 }.encoding = some f'.Z)
    (hlen : f'.encoding.length ≤ maxProtocolMessageSize) : f'.verify c pub = true := by
  have hsigned : f'.signed = some { f' with Z := .zero 64 }.encoding := by
    rw [signed_into, (prints_bencode _).into_eq, if_pos (by rw [← encoding_length_sig f' f'.Z]; exact hlen)]
  unfold verify
  rw [hsigned]
  exact hsign _ _ hz

end

end ProtocolFrame

/-- The message fits, its introduction's latency is not negative, and its sender has the current version. -/
def ProtocolMessage.Lossless (msg : ProtocolMessage) : Prop :=
  msg.encoding.length ≤ encryptedSize ∧ 0 ≤ msg.introReply.latency ∧ msg.sender.version = recordVersion

def ProtocolFrame.Carries (c : Crypto) (pq : ℕ) (pub : ServiceInfo) (K : SharedSecret) (f : ProtocolFrame)
    (msg : ProtocolMessage) : Prop :=
  (f.bencode.into maxProtocolMessageSize).isSome ∧ ∃ g : ProtocolFrame,
    (∀ b b' : Buf, b.cur ≤ b.data.length → f.bencode b = (true, b') →
      bdecode pq ((b'.data.take b'.cur).drop b.cur) = .ok (some (g, []))) ∧
    g.verify c pub = true ∧ ∃ m, g.decryptPayload c K = .ok (some m) ∧ m.proto = msg.proto ∧
      m.payload = msg.payload ∧ m.introReply = msg.introReply ∧ m.sender.same msg.sender ∧ m.tag = msg.tag ∧
      m.seqno = msg.seqno

namespace ProtocolFrame
variable {c : Crypto} {f : ProtocolFrame} {msg : ProtocolMessage} {K : SharedSecret} {pub : ServiceInfo} {pq : ℕ}

lemma Carries.frame_eq (h : f.Carries c pq pub K msg) (hC : f.C.length = pq) (hD : f.D.length ≤ encryptedSize)
    (hversion : f.version = recordVersion) (hlen : f.encoding.length ≤ maxProtocolMessageSize) :
    ∃ m, f.decryptPayload c K = .ok (some m) ∧ m.introReply = msg.introReply ∧ m.sender.same msg.sender := by
  obtain ⟨hinto, g, hread, -, m, hm, -, -, hreply, hsender, -, -⟩ := h
  unfold Writer.into at hinto
  split at hinto
  case h_2 => cases hinto
  rename_i b' hb'
  have hread' := hread _ b' (Nat.zero_le _) hb'
  rw [f.prints_bencode.written (Nat.zero_le _) hb', bdecode_encoding hC (lt_of_le_of_lt hlen (by norm_num)) hD hversion] at hread'
  cases hread'
  exact ⟨m, hm, hreply, hsender⟩

lemma decryptPayload_empty (hD : f.D = []) : f.decryptPayload c K = .ok none := by
  unfold decryptPayload
  rw [hD]
  rfl

end ProtocolFrame

/-- A frame of `EncryptAndSign` carries the whole message if nothing is lost on the way, and, if it was empty, only
then. -/
theorem frames_carry_messages {c : Crypto} {sign : Bytes → Option Signature} {pub : ServiceInfo}
    (hsign : ∀ b z, sign b = some z → c.verify pub.signkey b z = true) {pq : ℕ} {f f' : ProtocolFrame}
    (hC : f.C.length = pq) (hversion : f.version = recordVersion) {msg : ProtocolMessage}
    (hintro : msg.introReply.InRange) {K : SharedSecret} (h : f.encryptAndSign c sign msg K = some f') :
    (msg.Lossless → f'.Carries c pq pub K msg) ∧ (f.D = [] → f'.Carries c pq pub K msg → msg.Lossless) := by
  obtain ⟨z, hf', hz, hlen, hmsg⟩ := encryptAndSign_eq h
  rw [assignD_header] at hf'
  have hC' : f'.C.length = pq := by rw [hf']; exact hC
  have hversion' : f'.version = recordVersion := by rw [hf']; exact hversion
  have hN' : f'.N = f.N := by rw [hf']
  have hZ' : f'.Z = z := by rw [hf']
  have hpayload : msg.payload.length < 10^9 := by
    have := msg.payload_length_le
    exact lt_of_le_of_lt (this.trans hmsg) (by norm_num)
  -- a message that fits is what the frame decrypts to
  have hfits : msg.encoding.length ≤ encryptedSize → f'.D.length ≤ encryptedSize ∧
      f'.decryptPayload c K = .ok (some msg.received) := by
    intro hsize
    have hcrypt : (c.xchacha20 msg.encoding K f.N).length ≤ encryptedSize := by
      rw [Crypto.xchacha20_length]
      exact hsize
    have hD' : f'.D = c.xchacha20 msg.encoding K f.N := by rw [hf', assignD, if_pos hcrypt]
    refine ⟨by rw [hD']; exact hcrypt, ?_⟩
    unfold decryptPayload
    rw [hD', hN', EncryptedFrame.xchacha20_twice, ProtocolMessage.bdecode_encoding hintro hpayload]
  constructor
  · rintro ⟨hsize, hlatency, hsender⟩
    obtain ⟨hD', hdecrypt⟩ := hfits hsize
    refine ⟨?_, f', ?_, ?_, msg.received, hdecrypt, rfl, rfl, ?_, ?_, rfl, rfl⟩
    · rw [f'.prints_bencode.into_eq, if_pos hlen]
      rfl
    · intro b b' hb hb'
      rw [f'.prints_bencode.written hb hb']
      exact bdecode_encoding hC' (lt_of_le_of_lt hlen (by norm_num)) hD' hversion'
    · exact verify_signed hsign (by rw [hZ']; exact hz) hlen
    · exact msg.introReply.received_eq_iff.mpr hlatency
    · exact ⟨rfl, rfl, hsender.symm, rfl⟩
  · intro hD hcarries
    by_cases hsize : msg.encoding.length ≤ encryptedSize
    · obtain ⟨hD', hdecrypt⟩ := hfits hsize
      obtain ⟨m, hm, hreply, hsame⟩ := hcarries.frame_eq hC' hD' hversion' hlen
      rw [hdecrypt] at hm
      cases hm
      exact ⟨hsize, msg.introReply.received_eq_iff.mp hreply, hsame.2.2.1.symm⟩
    · -- the assignment has been refused, and the frame is still empty
      have hcrypt : ¬ (c.xchacha20 msg.encoding K f.N).length ≤ encryptedSize := by
        rw [Crypto.xchacha20_length]
        exact hsize
      have hD' : f'.D = [] := by
        rw [hf', assignD, if_neg hcrypt]
        exact hD
      obtain ⟨m, hm, -, -⟩ := hcarries.frame_eq hC' (by rw [hD']; exact Nat.zero_le _) hversion' hlen
      rw [decryptPayload_empty hD'] at hm
      cases hm

namespace Sample

def sign (_ : Bytes) : Option Signature := some (ofBytes 64 [1])

def pub : ServiceInfo := { signkey := key 1 }

def payloadMsg (n : ℕ) : ProtocolMessage :=
  { payload := replicate n 9, sender := pub, tag := ofBytes 16 [5], seqno := 7 }

lemma sign_verifies (b : Bytes) (z : Signature) (h : sign b = some z) :
    crypto.toCrypto.verify pub.signkey b z = true := by
  cases h
  rfl

end Sample

open Sample

theorem frames_carry_messages_short : ∃ f', (new 1048).encryptAndSign crypto.toCrypto sign (payloadMsg 100)
      (.zero 32) = some f' ∧
    f'.Carries crypto.toCrypto 1048 pub (.zero 32) (payloadMsg 100) := by
  have hmsg : (payloadMsg 100).encoding.length ≤ maxProtocolMessageSize := by decide +kernel
  have hmade := encryptAndSign_some (f := new 1048) (c := crypto.toCrypto)
    (K := .zero 32) (z := ofBytes 64 [1]) hmsg (by decide +kernel) fun _ => rfl
  have hlossless : (payloadMsg 100).Lossless := ⟨by decide +kernel, le_refl _, rfl⟩
  refine ⟨_, hmade, ?_⟩
  exact (frames_carry_messages sign_verifies (by decide +kernel) rfl (by decide) hmade).1 hlossless

/-- a message of 2000 bytes does not fit into `D`: `EncryptAndSign` returns true, and the frame is empty -/
theorem message_left_out : ∃ f', (new 1048).encryptAndSign crypto.toCrypto sign (payloadMsg 2000)
      (.zero 32) = some f' ∧ f'.D = [] ∧
    ¬ f'.Carries crypto.toCrypto 1048 pub (.zero 32) (payloadMsg 2000) := by
  have hlong : ¬ (payloadMsg 2000).encoding.length ≤ encryptedSize := by decide +kernel
  have hrefused : (new 1048).assignD (crypto.toCrypto.xchacha20 (payloadMsg 2000).encoding
      (.zero 32) (new 1048).N) = new 1048 := by
    unfold assignD
    rw [if_neg (by rw [Crypto.xchacha20_length]; exact hlong)]
  have hmsg : (payloadMsg 2000).encoding.length ≤ maxProtocolMessageSize := by decide +kernel
  have hmade := encryptAndSign_some (f := new 1048) (c := crypto.toCrypto)
    (K := .zero 32) (z := ofBytes 64 [1]) hmsg (by rw [hrefused]; decide +kernel) fun _ => rfl
  rw [hrefused] at hmade
  refine ⟨_, hmade, rfl, ?_⟩
  intro hcarries
  obtain ⟨m, hm, -, -⟩ := hcarries.frame_eq (by decide +kernel) (Nat.zero_le _) rfl (by decide +kernel)
  rw [decryptPayload_empty rfl] at hm
  cases hm

end Belnet.Service
