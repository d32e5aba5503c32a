import Belnet.Iwp.Wire
import Belnet.Iwp.Operations

/-!
# What the sender puts on the wire, and how the receiver puts it together
-/

namespace Belnet.Iwp
open Std (TreeMap)
open World Relation List UInt16 Maps Bitset Bytes
variable {σ : Type} {env : Env σ} {t : Clock} {cause : Cause σ}

def Offered (log : List TxEvent) (id : UInt64) (buf : Message) : Prop :=
  buf.length ≤ maxLinkMsgSize ∧ ∃ h, TxEvent.accepted id buf h ∈ log

variable {log : List TxEvent} {id : UInt64} {log' : List TxEvent}

lemma Offered.mono (hlog : ∀ e ∈ log, e ∈ log') {buf : Message}
    (h : Offered log id buf) : Offered log' id buf := by
  obtain ⟨hlen, hd, hmem⟩ := h
  exact ⟨hlen, hd, hlog _ hmem⟩

structure Truthful (c : Crypto) (log : List TxEvent) (p : Packet) : Prop where
  xmit : ∀ sz rxid h, IsXmit p sz rxid h → p.length - xmitOverhead = (min sz (.ofNat fragmentSize)).toNat ∧
      ∃ buf, Offered log rxid buf ∧ sz.toNat = buf.length ∧ h = c.shorthash buf
  carries : ∀ rxid idx x, Carries p rxid idx x → idx.toNat % fragmentSize = 0 ∧
      ∃ buf, Offered log rxid buf ∧ x = (buf.drop idx.toNat).take fragmentSize

def Tx.Backed (c : Crypto) (x : Tx) : Prop :=
  ∀ (id : UInt64) msg, x.txMsgs[id]? = some msg →
    msg.msgID = id ∧ msg.digest = c.shorthash msg.data ∧ Offered x.log id msg.data

structure Sends (c : Crypto) (w : World σ) : Prop where
  msgs : w.tx.Backed c
  packets : ∀ p ∈ w.created, Truthful c w.tx.log p

variable {c : Crypto} {p : Packet}

lemma Truthful.mono (hlog : ∀ e ∈ log, e ∈ log')
    (h : Truthful c log p) : Truthful c log' p := by
  constructor
  · intro sz rxid hd hx
    obtain ⟨hlen, buf, hoff, hrest⟩ := h.xmit sz rxid hd hx
    exact ⟨hlen, buf, hoff.mono hlog, hrest⟩
  · intro rxid idx x hc
    obtain ⟨hidx, buf, hoff, hx⟩ := h.carries rxid idx x hc
    exact ⟨hidx, buf, hoff.mono hlog, hx⟩

variable {r : Rng} {k : ℕ}

lemma Truthful.other {cmd : Command} {body : Bytes}
    {minpad variance : ℕ} (hx : cmd ≠ .xmit) (hd : cmd ≠ .data) :
    Truthful c log (createPacket r k cmd body minpad variance) := by
  constructor
  · intro sz rxid h hxmit
    exact absurd (command_eq hxmit.1) hx
  · intro rxid _ x hc
    rcases hc with hdata | ⟨sz, h, hxmit, _⟩
    · exact absurd (command_eq hdata.1) hd
    · exact absurd (command_eq hxmit.1) hx

lemma toNat_ofNat_of_le {n : ℕ} (h : n ≤ maxLinkMsgSize) : (ofNat n).toNat = n := by
  rw [toNat_ofNat']
  simp only [maxLinkMsgSize] at h
  omega

lemma toNat_min (a b : UInt16) : (min a b).toNat = min a.toNat b.toNat := by
  show (if a ≤ b then a else b).toNat = _
  rw [Nat.min_def]
  by_cases h : a ≤ b
  · rw [if_pos h, if_pos (le_iff_toNat_le.mp h)]
  · rw [if_neg h, if_neg fun h' => h (le_iff_toNat_le.mpr h')]

variable {msg : OutboundMessage}

lemma Truthful.ofXmit
    (hdig : msg.digest = c.shorthash msg.data) (hoff : Offered log msg.msgID msg.data) :
    Truthful c log (msg.xmit r k) := by
  constructor
  · intro _ rxid h hx
    obtain ⟨rfl, rfl, rfl⟩ := hx.of_xmit
    have hsz := toNat_ofNat_of_le hoff.1
    refine ⟨?_, msg.data, hoff, hsz, hdig⟩
    rw [xmit_length, Nat.add_sub_cancel_left, length_take, toNat_min, hsz, toNat_ofNat_of_le (by decide), Nat.min_comm]
  · intro rxid _ x hc
    obtain ⟨rfl, rfl, rfl⟩ := hc.of_xmit
    exact ⟨rfl, msg.data, hoff, rfl⟩

lemma fragment_eq {data : Message} {idx : ℕ} (h : idx < data.length) :
    fragment data idx = (data.drop idx).take fragmentSize := by
  unfold fragment
  split
  · rfl
  rename_i hend
  rw [take_of_length_le (by rw [length_drop]), take_of_length_le]
  rw [length_drop]
  omega

lemma Truthful.ofData {idx : ℕ}
    {data : Message} (hidx : idx ∈ fragments data.length) (_ : idx / fragmentSize < maxFragments)
    (hoff : Offered log id data) : Truthful c log (dataPacket r k idx id (fragment data idx)) := by
  obtain ⟨hlt, hmod⟩ := mem_fragments.mp hidx
  constructor
  · intro sz rxid h hx
    exact absurd (command_eq hx.1) (by decide)
  · intro rxid i x hc
    rcases hc with hd | ⟨sz, h, hx, _⟩
    · obtain ⟨rfl, rfl, rfl⟩ := hd.of_dataPacket
      have hi : (ofNat idx).toNat = idx := toNat_ofNat_of_le (le_of_lt (lt_of_lt_of_le hlt hoff.1))
      rw [hi]
      exact ⟨hmod, data, hoff, fragment_eq hlt⟩
    · exact absurd (command_eq hx.1) (by decide)

lemma Creates.truthful {w : World σ} (h : Creates env w p) (hw : Sends c w) :
    Truthful c w.tx.log p := by
  cases h with
  | xmit hmsg =>
    obtain ⟨rfl, hdig, hoff⟩ := hw.msgs _ _ hmsg
    exact .ofXmit hdig hoff
  | data hmsg hidx hmax =>
    obtain ⟨rfl, hdig, hoff⟩ := hw.msgs _ _ hmsg
    exact .ofData hidx hmax hoff
  | acks hmsg | acksDone | nack | mack | ping | clos => exact .other (by decide) (by decide)

namespace Tx.Backed
variable {c : Crypto} {x : Tx}

lemma put (hx : x.Backed c) {msg' : OutboundMessage}
    (hmsg : x.txMsgs[id]? = some msg) (hid : msg'.msgID = msg.msgID) (hdata : msg'.data = msg.data)
    (hdig : msg'.digest = msg.digest) : (x.put id msg').Backed c := by
  intro k m hm
  have hget : (x.txMsgs.insert id msg')[k]? = some m := hm
  rw [get_insert] at hget
  split at hget
  · rename_i hk
    subst hk
    cases hget
    rw [hid, hdata, hdig]
    exact hx _ _ hmsg
  · exact hx k m hget

lemma leave (hx : x.Backed c) {y : Tx} (hmsgs : ∀ (k : UInt64) m, y.txMsgs[k]? = some m → x.txMsgs[k]? = some m)
    (hlog : ∀ e ∈ x.log, e ∈ y.log) : y.Backed c := by
  intro k m hm
  obtain ⟨hid, hdig, hoff⟩ := hx k m (hmsgs k m hm)
  exact ⟨hid, hdig, hoff.mono hlog⟩

end Tx.Backed

variable {e : TxEvent}

lemma finish_log_mem {x : Tx} {st : DeliveryStatus} (he : e ∈ x.log) : e ∈ (x.finish id msg st).log := by
  rw [finish_log]
  exact mem_append_left _ he

lemma TxMove.log_mem {k : TxKind} {x x' : Tx} (h : TxMove c t cause x k x')
    (he : e ∈ x.log) : e ∈ x'.log := by
  cases h with
  | accept buf hd | reject buf hd => exact mem_append_left _ he
  | ack hp hack hmsg | flushed hmsg => exact he
  | ackDone hp hack hmsg => exact finish_log_mem (x := x.put _ _) he
  | mackDone hp hack hmsg => exact finish_log_mem (x := x.countAcked) he
  | drop hmsg => exact finish_log_mem (x := x.countDropped) he

lemma Move.tx_log {w w' : World σ} (h : Move env t cause w w') (he : e ∈ w.tx.log) : e ∈ w'.tx.log :=
  h.tx_inv (I := fun x => e ∈ x.log) (fun hx => hx.log_mem) he

lemma TxMove.backed {k : TxKind} {x x' : Tx} (h : TxMove c t cause x k x')
    (hx : x.Backed c) : x'.Backed c := by
  cases h with
  | accept buf hd priority hsize hbuf =>
    intro k m hm
    have hget : (x.txMsgs.insertIfNew x.txID _)[k]? = some m := hm
    rw [get_insertIfNew] at hget
    split at hget
    · rename_i hnew
      obtain ⟨rfl, hfree⟩ := hnew
      cases hget
      -- the id was free, so the buffer is not too long
      exact ⟨rfl, rfl, hbuf.resolve_right (get_eq_none.mp hfree), hd, mem_append_right _ mem_cons_self⟩
    · obtain ⟨hid, hdig, hoff⟩ := hx k m hget
      exact ⟨hid, hdig, hoff.mono fun e he => mem_append_left _ he⟩
  | reject buf hd => exact hx.leave (fun k m hm => hm) (fun _ => mem_append_left _)
  | ack hp hack hmsg | flushed hmsg => exact hx.put hmsg rfl rfl rfl
  | ackDone hp hack hmsg =>
    refine hx.leave (fun k m hm => ?_) (fun e he => finish_log_mem (x := x.put _ _) he)
    obtain ⟨hk, hm⟩ := finish_get hm
    have hget : (x.txMsgs.insert _ _)[k]? = some m := hm
    rw [get_insert, if_neg (Ne.symm hk)] at hget
    exact hget
  | mackDone hp hack hmsg =>
    exact hx.leave (fun k m hm => (finish_get (x := x.countAcked) hm).2)
      (fun e he => finish_log_mem (x := x.countAcked) he)
  | drop hmsg =>
    exact hx.leave (fun k m hm => (finish_get (x := x.countDropped) hm).2)
      (fun e he => finish_log_mem (x := x.countDropped) he)

lemma Move.sends {w w' : World σ} (h : Move env t cause w w') (hw : Sends env.crypto w) : Sends env.crypto w' := by
  refine ⟨h.tx_inv (fun hx => hx.backed) hw.msgs, ?_⟩
  have hold : ∀ p ∈ w.created, Truthful env.crypto w'.tx.log p :=
    fun p hp => (hw.packets p hp).mono fun e he => h.tx_log he
  cases h with
  | create hc =>
    intro p hp
    rcases mem_concat.mp hp with hp | rfl
    · exact hw.packets p hp
    · exact hc.truthful hw
  | _ => exact hold

structure Rebuilds (c : Crypto) (data : Message) (m : InboundMessage) : Prop where
  digest : m.digest = c.shorthash data
  length : m.data.length = data.length
  bytes : ∀ i, m.acks.test i = true → ∀ k, k / fragmentSize = i → m.data[k]? = data[k]?

variable {now : Millis} {idx : UInt16} {x : Bytes}

namespace Rebuilds
variable {c : Crypto} {data : Message} {m m' : InboundMessage}

lemma opened {rxid : UInt64} {sz : UInt16} {h : ShortHash} (hsz : sz.toNat = data.length)
    (hh : h = c.shorthash data) : Rebuilds c data (.new rxid sz h now) := by
  refine ⟨hh, ?_, fun i hi => ?_⟩
  · show (replicate sz.toNat (0 : UInt8)).length = _
    rw [length_replicate, hsz]
  · exact absurd (show test 0#8 i = true from hi) (by rw [test, BitVec.getLsbD_zero]; exact Bool.false_ne_true)

lemma handleData (hm : Rebuilds c data m)
    (hidx : idx.toNat % fragmentSize = 0) (hx : x = (data.drop idx.toNat).take fragmentSize)
    (h : m.handleData idx x now = .ok m') : Rebuilds c data m' := by
  unfold InboundMessage.handleData setInbound at h
  split at h
  · cases h
    exact hm
  rename_i hfit
  split at h
  · rename_i hi
    cases h
    have hfit' : idx.toNat + x.length ≤ m.data.length := by omega
    have hxlen : x.length = min fragmentSize (data.length - idx.toNat) := by rw [hx, length_take, length_drop]
    refine ⟨hm.digest, (overwrite_length hfit').trans hm.length, fun i htest k hk => ?_⟩
    have htest' := htest
    show (overwrite m.data idx.toNat x)[k]? = _
    rw [test_set _ _ _ hi] at htest'
    rw [overwrite_get hfit']
    have hlen := hm.length
    simp only [fragmentSize] at hidx hk hxlen htest'
    split
    · rename_i hin
      rw [hx, getElem?_take_of_lt (by simp only [fragmentSize]; omega), getElem?_drop]
      congr 1
      omega
    · rename_i hout
      by_cases hsame : idx.toNat / 1024 = i
      · -- behind the end of both
        rw [getElem?_eq_none (by omega), getElem?_eq_none (by omega)]
      · refine hm.bytes i ?_ k hk
        simpa [hsame] using htest'
  · cases h

lemma complete (hm : Rebuilds c data m) (h : m.isCompleted = .ok true) : m.data = data := by
  apply ext_getElem?
  intro k
  by_cases hk : k < data.length
  · have hmem : k / fragmentSize * fragmentSize ∈ fragments m.data.length := by
      rw [mem_fragments, hm.length]
      refine ⟨lt_of_le_of_lt (Nat.div_mul_le_self k fragmentSize) hk, Nat.mul_mod_left _ _⟩
    have htest := allSet_true h _ hmem
    rw [Nat.mul_div_cancel _ (by norm_num)] at htest
    unfold testInbound at htest
    split at htest
    · exact hm.bytes _ (Except.ok.inj htest) k rfl
    · cases htest
  · rw [getElem?_eq_none (by rw [hm.length]; omega), getElem?_eq_none (by omega)]

end Rebuilds

lemma handleData_same {m m' : InboundMessage}
    (h : m.handleData idx x now = .ok m') : m'.msgID = m.msgID ∧ m'.digest = m.digest := by
  unfold InboundMessage.handleData at h
  split at h
  · cases h
    exact ⟨rfl, rfl⟩
  obtain ⟨b, _, h⟩ := Run.ok_bind.mp h
  cases h
  exact ⟨rfl, rfl⟩

end Belnet.Iwp
