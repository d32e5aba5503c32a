import Belnet.Iwp.Moves

/-!
# What a receiver reads from the packets a session creates

For every packet kind that a session creates, what the handlers read at fixed offsets is what was written.
-/

namespace Belnet.Iwp
open World List OutboundMessage Bytes Except Nat InboundMessage UInt8
variable {r : Rng} {k : ℕ}

lemma Command.toByte_injective {c c' : Command} (h : c.toByte = c'.toByte) : c = c' := by
  have h1 := Command.ofByte_toByte c
  rw [h, Command.ofByte_toByte] at h1
  exact (Option.some.inj h1).symm

lemma command_eq {cmd c : Command} {body : Bytes} {minpad variance : ℕ}
    (h : readByte (createPacket r k cmd body minpad variance) (packetOverhead + 1) = .ok c.toByte) :
    cmd = c := by
  rw [readByte_command] at h
  exact Command.toByte_injective (ok.inj h)

lemma pad_zero (variance : ℕ) : r.pad k 0 variance = [] := rfl

variable {buf : Bytes} {idx : UInt16} {rxid : UInt64}

section
variable {m : OutboundMessage}

lemma xmit_length : (m.xmit r k).length = xmitOverhead + (m.data.take fragmentSize).length := by
  unfold xmit xmitBody
  rw [packet_length, pad_zero]
  simp only [length_append, writeBig_length, Vector.toList_length, length_nil]
  simp only [xmitOverhead]
  omega

lemma IsXmit.of_xmit {sz : UInt16} {h : ShortHash} (hx : IsXmit (m.xmit r k) sz rxid h) :
    sz = .ofNat m.data.length ∧ rxid = m.msgID ∧ h = m.digest := by
  obtain ⟨_, hsz, hid, hd⟩ := hx
  unfold xmit xmitBody at hsz hid hd
  rw [readU16_of_slice (readSlice_body r k .xmit _ 0 0 0 2
    (by rw [append_assoc]; exact slice_left (by simp)))] at hsz
  rw [readU64_slice (readSlice_body r k .xmit _ 0 0 (2 + 0) 8 (by
    rw [append_assoc, slice_right (by simp), append_assoc]
    exact slice_left (by simp)))] at hid
  rw [readBuf_of_slice (readSlice_body r k .xmit _ 0 0 (2 + (8 + 0)) 32 (by
    rw [append_assoc, slice_right (by simp), append_assoc, slice_right (by simp), append_assoc]
    exact slice_left (by simp)))] at hd
  exact ⟨(ok.inj hsz).symm, (ok.inj hid).symm, (ok.inj hd).symm⟩

lemma Carries.of_xmit (hc : Carries (m.xmit r k) rxid idx buf) :
    rxid = m.msgID ∧ idx = 0 ∧ buf = m.data.take fragmentSize := by
  rcases hc with hdata | ⟨_, h, hx, hidx, hlen, hbuf⟩
  · exact absurd (command_eq hdata.1) (by decide)
  obtain ⟨_, hid, _⟩ := hx.of_xmit
  refine ⟨hid, hidx, ?_⟩
  rw [xmit_length, Nat.add_sub_cancel_left] at hlen
  have hoff : (m.xmit r k).length - buf.length = packetOverhead + (commandOverhead + (2 + (8 + (32 + 0)))) := by
    rw [xmit_length, hlen]
    simp only [xmitOverhead]
    omega
  rw [hoff, ← hlen] at hbuf
  unfold xmit xmitBody at hbuf
  rw [readSlice_body r k .xmit _ 0 0 (2 + (8 + (32 + 0))) _ (by
    rw [append_assoc, slice_right (by simp), append_assoc,
      slice_right (by simp), append_assoc, slice_right (by simp)]
    exact slice_left rfl)] at hbuf
  exact (ok.inj hbuf).symm

end

variable {id : UInt64}

lemma IsData.of_dataPacket {i : ℕ} {payload : Bytes} (h : IsData (dataPacket r k i id payload) rxid idx buf) :
    rxid = id ∧ idx = .ofNat i ∧ buf = payload := by
  obtain ⟨_, hidx, hid, hbuf⟩ := h
  have hlen : (dataPacket r k i id payload).length = packetOverhead + (commandOverhead + 10) + payload.length := by
    unfold dataPacket dataBody
    rw [packet_length, pad_zero]
    simp only [length_append, writeBig_length, length_nil]
    omega
  rw [hlen, Nat.add_sub_cancel_left] at hbuf
  unfold dataPacket dataBody at hidx hid hbuf
  rw [readU16_of_slice (readSlice_body r k .data _ 0 0 0 2
    (by rw [append_assoc]; exact slice_left (by simp)))] at hidx
  rw [readU64_slice (readSlice_body r k .data _ 0 0 (2 + 0) 8 (by
    rw [append_assoc, slice_right (by simp), append_assoc]
    exact slice_left (by simp)))] at hid
  rw [readSlice_body r k .data _ 0 0 (2 + (8 + 0)) _ (by
    rw [append_assoc, slice_right (by simp), append_assoc, slice_right (by simp)]
    exact slice_left rfl)] at hbuf
  exact ⟨(ok.inj hid).symm, (ok.inj hidx).symm, (ok.inj hbuf).symm⟩

lemma IsAcks.of_ackPacket {m : InboundMessage} {mask : UInt8}
    (h : IsAcks (m.ackPacket r k) id mask) : id = m.msgID ∧ mask = m.acksBitmask := by
  obtain ⟨_, hid, hmask⟩ := h
  unfold ackPacket ackBody at hid hmask
  rw [readU64_slice (readSlice_body r k .acks _ 16 16 0 8
    (by rw [append_assoc]; exact slice_left (by simp)))] at hid
  have hbyte : readSlice (createPacket r k .acks (writeBig 8 m.msgID.toNat ++ [m.acksBitmask]) 16 16)
      (packetOverhead + (commandOverhead + (8 + 0))) 1 = .ok [m.acksBitmask] :=
    readSlice_body r k .acks _ 16 16 (8 + 0) 1 (by
      rw [append_assoc, slice_right (by simp)]
      exact slice_left rfl)
  unfold readByte at hmask
  rw [hbyte] at hmask
  exact ⟨(ok.inj hid).symm, (ok.inj hmask).symm⟩

section
variable {ids : List UInt64} {minpad variance : ℕ}

lemma readByte_mackBody : readByte (createPacket r k .mack (mackBody ids) minpad variance)
    (packetOverhead + (commandOverhead + 0)) = .ok (.ofNat ids.length) := by
  unfold readByte
  rw [readSlice_body r k .mack (mackBody ids) _ _ 0 1 (slice_left (a := [.ofNat ids.length]) rfl)]
  rfl

lemma readU64_mackBody (xs ys : List UInt64) (id : UInt64) :
    readU64 (createPacket r k .mack (mackBody (xs ++ id :: ys)) minpad variance)
      (packetOverhead + (commandOverhead + (1 + 8 * xs.length))) = .ok id := by
  have hslice : slice ((xs ++ id :: ys).flatMap (fun id => writeBig 8 id.toNat) ++ r.pad k minpad variance)
      (8 * xs.length + 0) 8 = some (writeBig 8 id.toNat) := by
    rw [flatMap_append, append_assoc, slice_right (by simp [length_flatMap, mul_comm]), flatMap_cons, append_assoc]
    exact slice_left (by simp)
  exact readU64_slice (readSlice_body r k .mack (mackBody _) _ _ _ 8
    (slice_right (a := [.ofNat (xs ++ id :: ys).length]) rfl |>.trans hslice))

lemma IsMack.of_mack (hlen : ids.length ≤ maxACKSInMACK)
    (h : IsMack (createPacket r k .mack (mackBody ids) minpad variance) id) : id ∈ ids := by
  obtain ⟨_, n, hn, i, hi, hid⟩ := h
  rw [readByte_mackBody] at hn
  have hlt : i < ids.length := by
    rw [← ok.inj hn, toNat_ofNat', mod_eq_of_lt (lt_of_le_of_lt hlen (by decide))] at hi
    exact hi
  have hread := @readU64_mackBody r k minpad variance (ids.take i) (ids.drop (i + 1)) ids[i]
  rw [← drop_eq_getElem_cons hlt, take_append_drop, length_take_of_le hlt.le, hid] at hread
  rw [ok.inj hread]
  exact getElem_mem hlt

/-! ## multi-acks -/

/-- the ids that the loop of `HandleMACK` looks up -/
def mackLookups (data : Packet) : ℕ → ℕ → Except Fault (List UInt64)
  | 0, _ => .ok []
  | n+1, ptr => do
    let acked ← readU64 data (packetOverhead + (commandOverhead + ptr))
    return acked :: (← mackLookups data n (ptr + 8))

def lookedUp (data : Packet) : Except Fault (List UInt64) :=
  if data.length < 3 + packetOverhead then .ok []
  else do
    let numAcks ← readByte data (packetOverhead + (commandOverhead + 0))
    if data.length < 1 + commandOverhead + packetOverhead + numAcks.toNat * 8 then return []
    else mackLookups data numAcks.toNat 1

section
variable {σ : Type} (env : Env σ) (t : Clock) (v : World σ) (p : Packet)

lemma mackLoop_eq (n ptr : ℕ) : mackLoop env t p n ptr v
    = (mackLookups p n ptr).map fun ids => ids.foldl (fun v id => v.mackOne env t id) v := by
  induction n generalizing ptr v with
  | zero => rfl
  | succ n ih =>
    unfold mackLoop mackLookups
    cases readU64 p (packetOverhead + (commandOverhead + ptr)) with
    | error => rfl
    | ok =>
      refine (ih _ _).trans ?_
      cases mackLookups p n (ptr + 8) <;> rfl

lemma handleMACK_eq : v.handleMACK env t p
    = (lookedUp p).map fun ids => ids.foldl (fun v id => v.mackOne env t id) v := by
  unfold handleMACK lookedUp
  split
  · rfl
  cases readByte p (packetOverhead + (commandOverhead + 0)) with
  | error => rfl
  | ok =>
    dsimp only [bind, Except.bind]
    split
    · rfl
    · exact mackLoop_eq env t v p _ _

end

lemma mackLookups_mackBody (xs ys : List UInt64) :
    mackLookups (createPacket r k .mack (mackBody (xs ++ ys)) minpad variance) ys.length (1 + 8 * xs.length)
      = .ok ys := by
  induction ys generalizing xs with
  | nil => rfl
  | cons id ys ih =>
    have hrest := ih (xs ++ [id])
    rw [append_assoc, singleton_append, length_append, length_singleton, mul_add, ← add_assoc] at hrest
    rw [length_cons]
    unfold mackLookups
    rw [readU64_mackBody]
    show ((mackLookups _ ys.length (1 + 8 * xs.length + 8)).bind fun ids => .ok (id :: ids)) = _
    rw [hrest]
    rfl

lemma lookedUp_mackBody (hlen : ids.length ≤ maxACKSInMACK) :
    lookedUp (createPacket r k .mack (mackBody ids) minpad variance) = .ok ids := by
  have hbody : (mackBody ids).length = 1 + 8 * ids.length := by simp [mackBody, length_flatMap, mul_comm, add_comm]
  have hcount : (ofNat ids.length).toNat = ids.length := by
    rw [toNat_ofNat', mod_eq_of_lt (lt_of_le_of_lt hlen (by decide))]
  unfold lookedUp
  rw [packet_length, hbody, if_neg (by unfold commandOverhead; omega), readByte_mackBody]
  dsimp only [bind, Except.bind]
  rw [hcount, if_neg (by omega)]
  exact mackLookups_mackBody [] ids

variable {σ : Type} (env : Env σ) (t : Clock)

/-- every round sends one packet, whose ids are those that leave the queue -/
lemma sendMACKLoop_batches (n : ℕ) (w : World σ) (hn : w.rx.sendMACKs.length ≤ n) :
    (sendMACKLoop env t n w).rx.sendMACKs = [] ∧ ∃ ps batches, (sendMACKLoop env t n w).created = w.created ++ ps ∧
        Forall₂ (fun p ids => lookedUp p = .ok ids) ps batches ∧ batches.flatten = w.rx.sendMACKs := by
  induction n generalizing w with
  | zero =>
    have hempty := eq_nil_of_length_eq_zero (le_zero.mp hn)
    exact ⟨hempty, [], [], (append_nil _).symm, .nil, hempty.symm⟩
  | succ n ih =>
    unfold sendMACKLoop
    split
    · rename_i hempty
      exact ⟨hempty, [], [], (append_nil _).symm, .nil, hempty.symm⟩
    rename_i hids
    dsimp only
    generalize hw : encryptAndSend env t _ _ = w'
    rw [encryptSend_eq] at hw
    have hrx : w'.rx.sendMACKs = w.rx.sendMACKs.drop maxACKSInMACK := by rw [← hw]
    obtain ⟨hempty, ps, batches, hcreated, hread, hflat⟩ := ih w' (by rw [hrx, length_drop, maxACKSInMACK]; omega)
    refine ⟨hempty, createPacket env.rng w.created.length .mack _ 16 16 :: ps, w.rx.sendMACKs.take maxACKSInMACK :: batches, ?_,
      .cons (lookedUp_mackBody (length_take_le _ _)) hread, ?_⟩
    · rw [hcreated, ← hw, append_assoc]
      rfl
    · rw [flatten_cons, hflat, hrx, take_append_drop]

/-- `SendMACK` empties the queue, and the packets that it creates, handled in any order, look up the queue's ids -/
theorem sendMACK_lookups (w : World σ) :
    (w.sendMACK env t).rx.sendMACKs = [] ∧ ∃ ps : List Packet, (w.sendMACK env t).created = w.created ++ ps ∧
      ∀ ps' : List Packet, ps'.Perm ps → ∃ idss, ps'.mapM lookedUp = .ok idss ∧ idss.flatten.Perm w.rx.sendMACKs ∧
        ∀ {τ : Type} (env' : Env τ) (t' : Clock) (v : World τ), ps'.foldlM (fun v p => v.handleMACK env' t' p) v
          = .ok (idss.flatten.foldl (fun v id => v.mackOne env' t' id) v) := by
  obtain ⟨hempty, ps, batches, hcreated, hread, hflat⟩ := sendMACKLoop_batches env t _ w le_rfl
  refine ⟨hempty, ps, hcreated, fun ps' hperm => ?_⟩
  obtain ⟨idss, hread', hperm'⟩ := perm_comp_forall₂ hperm hread
  refine ⟨idss, ?_, hflat ▸ hperm'.flatten, fun env' t' v => ?_⟩
  · clear hperm hperm'
    induction hread' with
    | nil => rfl
    | cons h _ ih =>
      rw [mapM_cons, h, ih]
      rfl
  · clear hperm hperm'
    induction hread' generalizing v with
    | nil => rfl
    | cons h _ ih =>
      rw [foldlM_cons, handleMACK_eq, h, flatten_cons, foldl_append]
      exact ih _
end
end Belnet.Iwp
