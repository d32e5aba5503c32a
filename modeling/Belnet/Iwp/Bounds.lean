import Belnet.Iwp.Operations

/-!
# Faults of packet handling: reads past the end, bitset indices
-/

namespace Belnet.Iwp
open Std (TreeMap)
open World Run Fault InboundMessage Except Bitset Command List
variable {σ : Type} {env : Env σ} {t : Clock}

def Fault.isRead : Fault → Prop
  | .readPastEnd _ _ => True
  | _ => False

def Fault.isInbound : Fault → Prop
  | .inboundBitset _ => True
  | _ => False

def Fault.isOutbound : Fault → Prop
  | .outboundBitset _ => True
  | _ => False

variable {e : Fault}

lemma Fault.not_isRead_inbound (h : e.isInbound) : ¬ e.isRead := by
  cases e with
  | inboundBitset => exact id
  | _ => cases h

lemma Fault.not_isRead_outbound (h : e.isOutbound) : ¬ e.isRead := by
  cases e with
  | outboundBitset => exact id
  | _ => cases h

lemma Fault.not_isInbound_outbound (h : e.isOutbound) : ¬ e.isInbound := by
  cases e with
  | outboundBitset => exact id
  | _ => cases h

lemma testOutbound_faults (b : Bitset) (i : ℕ) : Faults isOutbound (testOutbound b i) := by
  unfold testOutbound
  split
  · exact .ok _
  · exact .error trivial

lemma unAckedFrom_faults (acks : Bitset) (l : List ℕ) : Faults isOutbound (OutboundMessage.unAckedFrom acks l) := by
  induction l with
  | nil => exact .ok _
  | cons idx l ih => exact (testOutbound_faults _ _).bind fun b _ => ih.bind fun _ _ => .ok _

lemma isTransmitted_faults (m : OutboundMessage) : Faults isOutbound m.isTransmitted := by
  intro e h
  obtain ⟨_, _, he⟩ := allSet_error h
  exact testOutbound_faults _ _ e he

variable (w : World σ)

lemma flush_faults (id : UInt64) : Faults isOutbound (w.flushUnAcked env t id) := by
  unfold flushUnAcked
  split
  · exact .ok _
  · exact (unAckedFrom_faults _ _).bind fun _ _ => .ok _

lemma sendBuffer_faults (buf : Message) (h : Option Handler)
    (priority : UInt16) : Faults isOutbound (w.sendMessageBuffer env t buf h priority) := by
  unfold sendMessageBuffer
  split
  · exact .ok _
  refine Faults.map ?_ _
  split
  · exact flush_faults _ _
  · exact .ok _

lemma sendLIM_faults (h : Option Handler) : Faults isOutbound (w.sendOurLIM env t h) := by
  unfold sendOurLIM
  dsimp only
  split
  · exact .ok _
  split
  · exact .ok _
  split
  · exact .ok _
  · exact (sendBuffer_faults _ _ _ _).bind fun v _ => .ok _

lemma gotLIM_faults (lim : LinkIntroMessage) : Faults isOutbound (w.gotLIM env t lim) := by
  unfold gotLIM
  split
  · exact .ok _
  · unfold gotOutboundLIM
    dsimp only
    split
    · exact .ok _
    · exact sendLIM_faults _ _
  · exact .ok _

lemma handleMessage_faults (rxid : UInt64) (data : Message) : Faults isOutbound (w.handleMessage env t rxid data) := by
  unfold handleMessage
  dsimp only
  split
  · exact .ok _
  split
  · exact gotLIM_faults _ _
  · exact .ok _

lemma completed_faults (msg : InboundMessage) :
    Faults isOutbound (w.handleRecvMsgCompleted env t msg) := by
  refine Faults.map ?_ _
  split
  · exact .ok _
  · exact (handleMessage_faults _ _ _).bind fun v _ => .ok _

lemma pump_faults : Faults isOutbound (w.pump env t) := by
  unfold pump
  refine Faults.map ?_ _
  unfold pumpSend
  split
  · exact Faults.foldlM (fun v => flush_faults v) _ _
  · exact .ok _

lemma setInbound_faults (b : Bitset) (i : ℕ) : Faults isInbound (setInbound b i) := by
  unfold setInbound
  split
  · exact .ok _
  · exact .error trivial

lemma testInbound_faults (b : Bitset) (i : ℕ) : Faults isInbound (testInbound b i) := by
  unfold testInbound
  split
  · exact .ok _
  · exact .error trivial

lemma isCompleted_faults (m : InboundMessage) : Faults isInbound m.isCompleted := by
  intro e h
  obtain ⟨_, _, he⟩ := allSet_error h
  exact testInbound_faults _ _ e he

lemma handleData_faults (m : InboundMessage) (idx : UInt16) (buf : Bytes) (now : Millis) :
    Faults isInbound (m.handleData idx buf now) := by
  unfold handleData
  split
  · exact .ok _
  · exact (setInbound_faults _ _).bind fun b _ => .ok _

lemma allSet_range_error (b : Bitset) (len s : ℕ) :
    (∃ e, allSet (testInbound b) ((range' s len).map (· * fragmentSize)) = .error e) ↔
      max s maxFragments < s + len ∧ ∀ i, s ≤ i → i < maxFragments → b.test i = true := by
  induction len generalizing s with
  | zero =>
    constructor
    · rintro ⟨e, he⟩
      cases he
    · rintro ⟨h, _⟩
      omega
  | succ len ih =>
    rw [range'_succ, map_cons, allSet_cons, Nat.mul_div_cancel s (show 0 < fragmentSize by norm_num)]
    by_cases hs : s < maxFragments
    · have htest : testInbound b s = .ok (b.test s) := if_pos hs
      rw [htest]
      show (∃ e, (if b.test s = true then allSet (testInbound b) _ else .ok false) = .error e) ↔ _
      by_cases hb : b.test s = true
      · rw [if_pos hb, ih (s + 1)]
        refine and_congr (by omega) ⟨fun h i hi hm => ?_, fun h i hi hm => h i (by omega) hm⟩
        by_cases his : i = s
        · rw [his]
          exact hb
        · exact h i (by omega) hm
      · rw [if_neg hb]
        constructor
        · rintro ⟨e, he⟩
          cases he
        · rintro ⟨_, h⟩
          exact absurd (h s le_rfl hs) hb
    · have htest : testInbound b s = .error (.inboundBitset s) := if_neg hs
      rw [htest]
      refine ⟨fun _ => ⟨by omega, fun i hi hm => by omega⟩, fun _ => ⟨_, rfl⟩⟩

lemma isCompleted_error_iff (m : InboundMessage) : (∃ e, m.isCompleted = .error e) ↔
      maxLinkMsgSize < m.data.length ∧ ∀ i < maxFragments, m.acks.test i = true := by
  unfold isCompleted fragments Bytes.blocks
  rw [range_eq_range', allSet_range_error]
  simp only [maxFragments, maxLinkMsgSize, fragmentSize]
  constructor
  · rintro ⟨h, hall⟩
    exact ⟨by omega, fun i hi => hall i (by omega) hi⟩
  · rintro ⟨h, hall⟩
    exact ⟨by omega, fun i _ hi => hall i hi⟩

lemma data_error_iff (m : InboundMessage) (idx : UInt16) (buf : Bytes) (now : Millis) :
    (∃ e, m.handleData idx buf now = .error e) ↔
      idx.toNat + buf.length ≤ m.data.length ∧ maxLinkMsgSize ≤ idx.toNat := by
  unfold handleData setInbound
  by_cases hfit : idx.toNat + buf.length > m.data.length
  · rw [if_pos hfit]
    refine ⟨fun ⟨e, he⟩ => (nomatch he), fun h => by omega⟩
  rw [if_neg hfit]
  by_cases hi : idx.toNat / fragmentSize < maxFragments
  · rw [if_pos hi]
    simp only [maxFragments, fragmentSize] at hi ⊢
    refine ⟨fun ⟨e, he⟩ => (nomatch he), fun h => by omega⟩
  · rw [if_neg hi]
    simp only [maxFragments, maxLinkMsgSize, fragmentSize] at hi ⊢
    refine ⟨fun _ => by omega, fun _ => ⟨_, rfl⟩⟩

variable {p : Packet} {P : Fault → Prop}

lemma readByte_faults {i : ℕ} (h : i < p.length) : Faults P (readByte p i) := by
  obtain ⟨b, hb⟩ := readByte_ok h
  rw [hb]
  exact .ok b

variable {off : ℕ}

lemma readU16_faults (h : off + 2 ≤ p.length) : Faults P (readU16 p off) := by
  obtain ⟨v, hv⟩ := readU16_ok h
  rw [hv]
  exact .ok v

lemma readU64_faults (h : off + 8 ≤ p.length) : Faults P (readU64 p off) := by
  obtain ⟨v, hv⟩ := readU64_ok h
  rw [hv]
  exact .ok v

lemma readBuf_faults {n : ℕ} (h : off + n ≤ p.length) : Faults P (readBuf n p off) := by
  obtain ⟨v, hv⟩ := readBuf_ok h
  rw [hv]
  exact .ok v

lemma readSlice_faults {n : ℕ} (h : off + n ≤ p.length) : Faults P (readSlice p off n) := by
  rw [readSlice_ok h]
  exact .ok _

variable {buf : Bytes} {rxid : UInt64} {msg : InboundMessage} {now : Millis}

lemma first_fragment_faults {sz : UInt16} {d : ShortHash} (h : (new rxid sz d now).handleData 0 buf now = .ok msg)
    : Faults P msg.isCompleted := by
  intro e he
  obtain ⟨_, hall⟩ := (isCompleted_error_iff msg).mp ⟨e, he⟩
  have hsecond := hall 1 (by norm_num)
  unfold handleData at h
  split at h
  · cases h
    exact absurd (show test 0#8 1 = true from hsecond) (by decide)
  · cases h
    exact absurd (show test (set 0#8 0) 1 = true from hsecond) (by decide)

section
variable (p : Packet)

lemma handleXMIT_faults : Faults isOutbound (w.handleXMIT env t p) := by
  unfold handleXMIT
  split
  · exact .ok _
  rename_i hshort
  have hlen : xmitOverhead ≤ p.length := not_lt.mp hshort
  refine (readU16_faults (le_trans (by decide) hlen)).bind fun sz _ => ?_
  refine (readU64_faults (le_trans (by decide) hlen)).bind fun rxid _ => ?_
  refine (readBuf_faults (le_trans (by decide) hlen)).bind fun d _ => ?_
  dsimp only
  split
  · exact .ok _
  split
  · exact .ok _
  split
  · refine (readSlice_faults (by omega)).bind fun buf _ => ?_
    have hfirst : Faults isOutbound ((new rxid sz d t.now).handleData 0 buf t.now) := by
      intro e he
      have hbig := ((data_error_iff _ _ _ _).mp ⟨e, he⟩).2
      exact absurd hbig (by decide)
    refine hfirst.bind fun _ hmsg => ?_
    refine (first_fragment_faults hmsg).bind fun _ _ => ?_
    split
    · exact .ok _
    split
    · exact .ok _
    · exact completed_faults _ _
  · exact .ok _

lemma handleACKS_faults : Faults isOutbound (w.handleACKS env t p) := by
  unfold handleACKS
  split
  · exact .ok _
  rename_i hshort
  have hlen : 11 + packetOverhead ≤ p.length := not_lt.mp hshort
  refine (readU64_faults (le_trans (by decide) hlen)).bind fun _ _ => ?_
  split
  · exact .ok _
  refine (readByte_faults (lt_of_lt_of_le (by decide) hlen)).bind fun _ _ => ?_
  refine (isTransmitted_faults _).bind fun _ _ => ?_
  split
  · exact .ok _
  · exact flush_faults _ _

lemma handleNACK_faults : Faults isOutbound (w.handleNACK env t p) := by
  unfold handleNACK
  split
  · exact .ok _
  rename_i hshort
  have hlen : commandOverhead + 8 + packetOverhead ≤ p.length := not_lt.mp hshort
  exact (readU64_faults (le_trans (by decide) hlen)).bind fun _ _ => .ok _

lemma mackLoop_faults (n ptr : ℕ) (w : World σ) (hlen : packetOverhead + (commandOverhead + ptr) + 8 * n ≤ p.length) :
    Faults P (mackLoop env t p n ptr w) := by
  induction n generalizing ptr w with
  | zero => exact .ok _
  | succ n ih =>
    refine (readU64_faults (by omega)).bind fun _ _ => ?_
    exact ih (ptr + 8) _ (by omega)

lemma handleMACK_faults : Faults isOutbound (w.handleMACK env t p) := by
  unfold handleMACK
  split
  · exact .ok _
  rename_i hshort
  have hlen : 3 + packetOverhead ≤ p.length := not_lt.mp hshort
  refine (readByte_faults (lt_of_lt_of_le (by decide) hlen)).bind fun n _ => ?_
  split
  · exact .ok _
  · exact mackLoop_faults p _ 1 w (by omega)

lemma handleDATA_faults : Faults (fun e => ¬ e.isRead) (w.handleDATA env t p) := by
  unfold handleDATA
  split
  · exact .ok _
  rename_i hshort
  have hlen : commandOverhead + 2 + 8 + packetOverhead ≤ p.length := not_lt.mp hshort
  refine (readU16_faults (le_trans (by decide) hlen)).bind fun _ _ => ?_
  refine (readU64_faults (le_trans (by decide) hlen)).bind fun _ _ => ?_
  split
  · split <;> exact .ok _
  refine (readSlice_faults (by omega)).bind fun _ _ => ?_
  refine ((handleData_faults _ _ _ _).mono fun _ => not_isRead_inbound).bind fun _ _ => ?_
  refine ((isCompleted_faults _).mono fun _ => not_isRead_inbound).bind fun _ _ => ?_
  split
  · split
    · exact (completed_faults _ _).mono fun _ => not_isRead_outbound
    · exact .ok _
  · exact .ok _

end

lemma handlePacket_faults (hlen : packetOverhead + 1 < p.length) :
    Faults (fun e => ¬ e.isRead) (w.handlePacket env t p) := by
  refine (readByte_faults hlen).bind fun _ _ => ?_
  split
  · exact (handleXMIT_faults _ _).mono fun _ => not_isRead_outbound
  · exact handleDATA_faults _ _
  · exact (handleACKS_faults _ _).mono fun _ => not_isRead_outbound
  · exact .ok _
  · exact (handleNACK_faults _ _).mono fun _ => not_isRead_outbound
  · exact .ok _
  · exact (handleMACK_faults _ _).mono fun _ => not_isRead_outbound
  · exact .ok _

variable {w : World σ}

lemma decryptOne_length {q : Packet} (h : w.decryptOne env q = some p) : packetOverhead < p.length := by
  unfold decryptOne at h
  split at h
  · cases h
  rename_i pkt hpkt
  obtain ⟨_, _⟩ := decryptInPlace_length hpkt
  split at h
  · cases h
    omega
  · cases h

/-- Of a packet that passes decryption and the version check only bytes inside are read, exactly when its size is not
`packetOverhead + 1`. -/
theorem packet_reads_inside_iff {w : World σ} {q p : Packet} (h : w.decryptOne env q = some p) :
    (∀ (v : World σ) (t : Clock) (i n : ℕ), v.handlePacket env t p ≠ .error (.readPastEnd i n)) ↔
      p.length ≠ packetOverhead + 1 := by
  have hlen := decryptOne_length h
  constructor
  · intro hall heq
    have hcmd : readByte p (packetOverhead + 1) = .error (.readPastEnd (max (packetOverhead + 1) p.length) p.length) := by
      unfold readByte readSlice
      rw [Bytes.slice_eq_none.mpr (by omega)]
      rfl
    refine hall w ⟨0, 0⟩ (max (packetOverhead + 1) p.length) p.length ?_
    unfold handlePacket
    rw [hcmd]
    rfl
  · intro hne v t i n he
    exact handlePacket_faults v (by omega) _ he trivial

def Sample.versionOnly : Packet := Sample.ready.ctl.sessionKey.toList ++ List.replicate 32 7 ++ [protoVersion]

/-- its command byte is read at index 65 of 65 bytes -/
theorem packet_reads_version_only : Sample.ready.decryptOne Sample.env Sample.versionOnly = some Sample.versionOnly ∧
      Sample.versionOnly.length = 65 ∧
      Sample.ready.handlePacket Sample.env (Sample.clock 0) Sample.versionOnly = .error (.readPastEnd 65 65) :=
  ⟨by decide +kernel, by decide +kernel, rfl⟩

def Sample.ping : Packet :=
  encryptPacket Sample.crypto Sample.ready.ctl.sessionKey (createPacket Sample.env.rng 0 .ping [] 16 16)

theorem packet_reads_ping : Sample.ready.decryptOne Sample.env Sample.ping = some Sample.ping ∧
      ∀ (v : World Unit) (t : Clock) (i n : ℕ),
        v.handlePacket Sample.env t Sample.ping ≠ .error (.readPastEnd i n) := by
  have hping : Sample.ready.decryptOne Sample.env Sample.ping = some Sample.ping := by decide +kernel
  exact ⟨hping, (packet_reads_inside_iff hping).mpr (by decide +kernel)⟩

variable {idx : UInt16}

lemma handleData_test {m m' : InboundMessage} (h : m.handleData idx buf now = .ok m') :
    m'.data.length = m.data.length ∧ ∀ i, m'.acks.test i = true ↔ m.acks.test i = true ∨
      (idx.toNat + buf.length ≤ m.data.length ∧ idx.toNat / fragmentSize = i) := by
  unfold handleData setInbound at h
  split at h
  · cases h
    exact ⟨rfl, fun i => ⟨.inl, fun hi => hi.resolve_right fun hc => by omega⟩⟩
  split at h
  · rename_i hi
    cases h
    refine ⟨Bytes.overwrite_length (by omega), fun i => ?_⟩
    show (set m.acks (idx.toNat / fragmentSize)).test i = true ↔ _
    rw [test_set _ _ _ hi, Bool.or_eq_true, decide_eq_true_iff]
    exact or_congr_right ⟨fun hc => ⟨by omega, hc⟩, fun hc => hc.2⟩
  · cases h

/-- For an announced size `n`: a fragment within `n` has an offset below `maxLinkMsgSize`, and if `n` is over
`maxLinkMsgSize` one of the first `maxFragments` fragments is still missing. -/
def World.FragmentFits (w : World σ) (p : Packet) : Prop :=
  ∀ rxid idx buf msg, IsData p rxid idx buf → w.rx.rxMsgs[rxid]? = some msg →
    (idx.toNat + buf.length ≤ msg.data.length → idx.toNat < maxLinkMsgSize) ∧
    (maxLinkMsgSize < msg.data.length → ∃ i < maxFragments, ¬ (msg.acks.test i = true ∨
      (idx.toNat + buf.length ≤ msg.data.length ∧ idx.toNat / fragmentSize = i)))

def FragmentsFit (i : Clock × Action σ) (w : World σ) : Prop := ∀ p, i.2 = .packet p → w.FragmentFits p

lemma handleData_isCompleted_error_iff (m : InboundMessage) (idx : UInt16) (buf : Bytes) (now : Millis) :
    (∃ e, m.handleData idx buf now >>= (·.isCompleted) = .error e) ↔
      ¬ ((idx.toNat + buf.length ≤ m.data.length → idx.toNat < maxLinkMsgSize) ∧
        (maxLinkMsgSize < m.data.length → ∃ i < maxFragments, ¬ (m.acks.test i = true ∨
          (idx.toNat + buf.length ≤ m.data.length ∧ idx.toNat / fragmentSize = i)))) := by
  cases hd : m.handleData idx buf now with
  | error e =>
    obtain ⟨hfit, hbig⟩ := (data_error_iff m idx buf now).mp ⟨e, hd⟩
    refine ⟨fun _ hc => ?_, fun _ => ⟨e, rfl⟩⟩
    have hlt := hc.1 hfit
    omega
  | ok m' =>
    obtain ⟨hlen, htest⟩ := handleData_test hd
    have hsmall : idx.toNat + buf.length ≤ m.data.length → idx.toNat < maxLinkMsgSize := by
      intro hfit
      by_contra hbig
      obtain ⟨e, he⟩ := (data_error_iff m idx buf now).mpr ⟨hfit, by omega⟩
      rw [hd] at he
      cases he
    show (∃ e, m'.isCompleted = .error e) ↔ _
    rw [isCompleted_error_iff, hlen]
    constructor
    · rintro ⟨hbig, hall⟩ hc
      obtain ⟨i, hi, hno⟩ := hc.2 hbig
      exact hno ((htest i).mp (hall i hi))
    · intro hc
      by_contra hno
      refine hc ⟨hsmall, fun hbig => ?_⟩
      by_contra hall
      refine hno ⟨hbig, fun i hi => (htest i).mpr ?_⟩
      by_contra hi'
      exact hall ⟨i, hi, hi'⟩

lemma isData_of_length (hcmd : readByte p (packetOverhead + 1) = .ok data.toByte)
    (hlen : commandOverhead + 2 + 8 + packetOverhead ≤ p.length) :
    ∃ rxid idx buf, IsData p rxid idx buf := by
  have hidx : ∃ v, readU16 p (packetOverhead + (commandOverhead + 0)) = .ok v := readU16_ok (le_trans (by decide) hlen)
  have hid : ∃ v, readU64 p (packetOverhead + (commandOverhead + 2)) = .ok v := readU64_ok (le_trans (by decide) hlen)
  obtain ⟨idx, hidx⟩ := hidx
  obtain ⟨rxid, hid⟩ := hid
  exact ⟨rxid, idx, _, hcmd, hidx, hid, readSlice_ok (by omega)⟩

lemma IsData.unique {rxid' : UInt64} {idx' : UInt16} {buf' : Bytes}
    (h : IsData p rxid idx buf) (h' : IsData p rxid' idx' buf') :
    rxid = rxid' ∧ idx = idx' ∧ buf = buf' := by
  obtain ⟨_, h1, h2, h3⟩ := h
  obtain ⟨_, h1', h2', h3'⟩ := h'
  exact ⟨ok.inj (h2.symm.trans h2'), ok.inj (h1.symm.trans h1'), ok.inj (h3.symm.trans h3')⟩

lemma handleDATA_unknown (hdata : IsData p rxid idx buf) (hnone : w.rx.rxMsgs[rxid]? = none) :
    ∃ w', w.handleDATA env t p = .ok w' := by
  obtain ⟨_, hidx, hid, hbuf⟩ := hdata
  have hlen := readSlice_le hbuf
  have htouch : (w.touchRX t).rx.rxMsgs[rxid]? = none := hnone
  unfold handleDATA
  rw [if_neg (by omega), hidx, hid]
  simp only [bind, Except.bind, htouch]
  split <;> exact ⟨_, rfl⟩

lemma handleDATA_found (hdata : IsData p rxid idx buf) (hmsg : w.rx.rxMsgs[rxid]? = some msg) :
    w.handleDATA env t p = msg.handleData idx buf t.now >>= fun m => m.isCompleted >>= fun done =>
      if done then
        if m.verify env.crypto then
          ((w.touchRX t).putRX rxid m).handleRecvMsgCompleted env t m
        else .ok ((w.touchRX t).putRX rxid m)
      else .ok ((w.touchRX t).putRX rxid m) := by
  obtain ⟨_, hidx, hid, hbuf⟩ := hdata
  have hlen := readSlice_le hbuf
  have htouch : (w.touchRX t).rx.rxMsgs[rxid]? = some msg := hmsg
  unfold handleDATA
  rw [if_neg (by omega), hidx, hid]
  simp only [bind, Except.bind, htouch, hbuf]
  rfl

lemma handleDATA_inbound_iff (hcmd : readByte p (packetOverhead + 1) = .ok data.toByte) :
    (∃ e : Fault, e.isInbound ∧ w.handleDATA env t p = .error e) ↔ ¬ w.FragmentFits p := by
  by_cases hlen : commandOverhead + 2 + 8 + packetOverhead ≤ p.length
  · obtain ⟨rxid, idx, buf, hdata⟩ := isData_of_length hcmd hlen
    cases hmsg : w.rx.rxMsgs[rxid]? with
    | none =>
      have hok : ∃ w', w.handleDATA env t p = .ok w' := handleDATA_unknown hdata hmsg
      obtain ⟨w', hw'⟩ := hok
      rw [hw']
      refine ⟨fun ⟨e, _, he⟩ => (nomatch he), fun hfit => absurd ?_ hfit⟩
      intro rxid' idx' buf' msg' hdata' hmsg'
      rw [(hdata'.unique hdata).1, hmsg] at hmsg'
      cases hmsg'
    | some msg =>
      have hiff := handleData_isCompleted_error_iff msg idx buf t.now
      have hfits : w.FragmentFits p ↔ _ := ⟨fun h => h rxid idx buf msg hdata hmsg, fun h => by
        intro rxid' idx' buf' msg' hdata' hmsg'
        obtain ⟨rfl, rfl, rfl⟩ := hdata'.unique hdata
        obtain rfl : msg = msg' := Option.some.inj (hmsg.symm.trans hmsg')
        exact h⟩
      rw [hfits, ← hiff, handleDATA_found hdata hmsg]
      constructor
      · rintro ⟨e, hin, he⟩
        rcases error_bind.mp he with he | ⟨m, hm, he⟩
        · exact ⟨e, error_bind.mpr (.inl he)⟩
        rcases error_bind.mp he with he | ⟨done, _, he⟩
        · exact ⟨e, error_bind.mpr (.inr ⟨m, hm, he⟩)⟩
        have hrest : Faults isOutbound (if done then if m.verify env.crypto then
            ((w.touchRX t).putRX rxid m).handleRecvMsgCompleted env t m
            else .ok ((w.touchRX t).putRX rxid m) else .ok ((w.touchRX t).putRX rxid m)) := by
          split
          · split
            · exact completed_faults _ _
            · exact .ok _
          · exact .ok _
        exact absurd hin (not_isInbound_outbound (hrest e he))
      · rintro ⟨e, he⟩
        rcases error_bind.mp he with he | ⟨m, hm, he⟩
        · exact ⟨e, handleData_faults _ _ _ _ e he, error_bind.mpr (.inl he)⟩
        · exact ⟨e, isCompleted_faults _ e he, error_bind.mpr (.inr ⟨m, hm, error_bind.mpr (.inl he)⟩)⟩
  · unfold handleDATA
    rw [if_pos (by omega)]
    refine ⟨fun ⟨e, _, he⟩ => (nomatch he), fun hfit => absurd ?_ hfit⟩
    intro rxid idx buf msg hdata
    have hle := readSlice_le hdata.2.2.2
    omega

lemma packet_inbound_iff (w : World σ) (p : Packet) :
    (∃ e : Fault, e.isInbound ∧ w.handlePacket env t p = .error e) ↔ ¬ w.FragmentFits p := by
  cases hcmd : readByte p (packetOverhead + 1) with
  | error e =>
    -- too short for a command: not a DATA packet, and the fault is a read
    have hfault : w.handlePacket env t p = .error e := by
      unfold handlePacket
      rw [hcmd]
      rfl
    have hread : ¬ e.isInbound := by
      obtain ⟨i, n, rfl⟩ : ∃ i n, e = .readPastEnd i n := by
        rcases error_bind.mp hcmd with hslice | ⟨b, _, hb⟩
        · unfold readSlice at hslice
          split at hslice
          · cases hslice
          · exact ⟨_, _, (error.inj hslice).symm⟩
        · cases hb
      exact id
    rw [hfault]
    refine ⟨fun ⟨_, hin, he⟩ => ?_, fun hfit => absurd ?_ hfit⟩
    · cases he
      exact absurd hin hread
    intro rxid idx buf msg hdata
    have hbyte := hdata.1
    rw [hcmd] at hbyte
    cases hbyte
  | ok cmd =>
    by_cases hdata : cmd = data.toByte
    · subst hdata
      rw [show w.handlePacket env t p = (w.dispatched p).handleDATA env t p by
        unfold handlePacket
        rw [hcmd]
        rfl]
      exact handleDATA_inbound_iff hcmd
    · have hsafe : Faults isOutbound (w.handlePacket env t p) := by
        unfold handlePacket
        rw [hcmd]
        dsimp only [bind, Except.bind]
        split
        · exact handleXMIT_faults _ _
        · rename_i hc
          exact absurd (toByte_ofByte hc).symm hdata
        · exact handleACKS_faults _ _
        · exact .ok _
        · exact handleNACK_faults _ _
        · exact .ok _
        · exact handleMACK_faults _ _
        · exact .ok _
      refine ⟨fun ⟨e, hin, he⟩ => absurd hin (not_isInbound_outbound (hsafe e he)), fun hfit => absurd ?_ hfit⟩
      intro rxid idx buf msg hd
      exact absurd (ok.inj (hcmd.symm.trans hd.1)) hdata

lemma actStep_inbound_iff (i : Clock × Action σ) (w : World σ) :
    (∃ e : Fault, e.isInbound ∧ w.actStep env i = .error e) ↔ ¬ FragmentsFit i w := by
  obtain ⟨t, a⟩ := i
  have hother : Faults isOutbound (w.act env t a) → (∀ p, a ≠ .packet p) →
      ((∃ e : Fault, e.isInbound ∧ w.act env t a = .error e) ↔ ¬ FragmentsFit (t, a) w) := by
    intro hsafe hne
    refine ⟨fun ⟨e, hin, he⟩ => absurd hin (not_isInbound_outbound (hsafe e he)), fun hfit => absurd ?_ hfit⟩
    intro p hp
    exact absurd hp (hne p)
  cases a with
  | packet p =>
    show (∃ e : Fault, e.isInbound ∧ w.handlePacket env t p = .error e) ↔ _
    rw [packet_inbound_iff]
    refine not_congr ⟨fun h q hq => ?_, fun h => h p rfl⟩
    cases hq
    exact h
  | pump => exact hother (pump_faults w) fun p h => (nomatch h)
  | send buf h =>
    exact hother ((sendBuffer_faults _ _ _ _).bind fun v _ => .ok _) fun p h => (nomatch h)
  | renegotiateSession => exact hother (sendLIM_faults _ _) fun p h => (nomatch h)
  | sendMACK | tick | close | sendKeepAlive | parent q => exact hother (.ok _) fun p h => (nomatch h)

/-- From any state, no bitset is used at `maxFragments` or more exactly when every DATA packet's fragment fits. -/
theorem inbound_bitset_safe_iff (w : World σ) (is : List (Clock × Action σ)) :
    (∀ i, exec (actStep env) is w ≠ .error (.inboundBitset i)) ↔ Obeys (actStep env) FragmentsFit is w := by
  rw [← no_fault_iff isInbound actStep_inbound_iff is w]
  constructor
  · intro h e hin he
    cases e with
    | inboundBitset i => exact h i he
    | _ => cases hin
  · intro h i
    exact h (.inboundBitset i) trivial

/-- An XMIT packet announces 65535 bytes, and an empty DATA packet for offset 8192 follows: bit 8 of
eight is set. -/
theorem inbound_bitset_offset_8192 : exec (actStep Sample.env)
      [(Sample.clock 0, .packet (createPacket Sample.env.rng 0 .xmit
          (Bytes.writeBig 2 65535 ++ (Bytes.writeBig 8 0 ++ List.replicate 32 0)) 0 0)),
       (Sample.clock 1, .packet (createPacket Sample.env.rng 1 .data (dataBody 8192 0 []) 0 0))]
      Sample.ready = .error (.inboundBitset 8) := exec_fault (by decide +kernel)

end Belnet.Iwp
