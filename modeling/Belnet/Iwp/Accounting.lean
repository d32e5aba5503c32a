import Belnet.Iwp.Operations

/-!
# Accounting of outgoing messages

Every accepted message is in `m_TXMsgs` until it is acknowledged or dropped.
-/

namespace Belnet.Iwp
open Std (TreeMap)
open World Relation List TxEvent Maps UInt64 Run Option Tx Nat
variable {σ : Type} {env : Env σ} {t : Clock} {cause : Cause σ}

def TxEvent.isAccepted : TxEvent → Bool
  | .accepted _ _ _ => true
  | _ => false

def Tx.accepted (x : Tx) : ℕ := x.log.countP isAccepted

def acceptedOf (i : UInt64) (log : List TxEvent) : List (Option Handler) :=
  log.filterMap fun e => match e with
    | .accepted j _ h => if j = i then some h else none
    | _ => none

def firedOf (i : UInt64) (log : List TxEvent) : List Handler :=
  log.filterMap fun e => match e with
    | .invoked j h _ => if j = i then some h else none
    | _ => none

section
variable (x : Tx) (id : UInt64) (msg : OutboundMessage) (st : DeliveryStatus)
include x id msg st

lemma finish_accepted : (x.finish id msg st).accepted = x.accepted := by
  show (logInvoked x id msg.completed st).log.countP isAccepted = _
  cases msg.completed with
  | none => rfl
  | some h =>
    show (x.log ++ [invoked id h st]).countP isAccepted = _
    rw [countP_append]
    rfl

lemma finish_counters : (x.finish id msg st).txID = x.txID ∧ (x.finish id msg st).totalAckedTX = x.totalAckedTX ∧
      (x.finish id msg st).totalDroppedTX = x.totalDroppedTX ∧
      (x.finish id msg st).totalInFlightTX = x.totalInFlightTX := by
  unfold Tx.finish
  cases msg.completed <;> exact ⟨rfl, rfl, rfl, rfl⟩

end

lemma accept_accepted (c : Crypto) (now : Millis) (x : Tx) (buf : Message) (h : Option Handler)
    (priority : UInt16) : (x.accept c now buf h priority).accepted = x.accepted + 1 := by
  show (x.log ++ [accepted x.txID buf h]).countP isAccepted = _
  rw [countP_append]
  rfl

lemma reject_accepted (x : Tx) (h : Option Handler) :
    ({ x with log := x.log ++ [rejected h .dropped] } : Tx).accepted = x.accepted := by
  show (x.log ++ [rejected h .dropped]).countP isAccepted = _
  rw [countP_append]
  rfl

structure Tx.Balanced (x : Tx) : Prop where
  id_eq : x.txID.toNat = x.accepted
  keys : ∀ k ∈ x.txMsgs, k.toNat < x.accepted
  inFlight : x.totalInFlightTX.toNat = x.txMsgs.size
  total : x.totalAckedTX.toNat + x.totalDroppedTX.toNat + x.totalInFlightTX.toNat = x.accepted

variable {n : UInt64}

lemma toNat_succ (h : n.toNat + 1 < 2^64) : (n + 1).toNat = n.toNat + 1 := by exact mod_eq_of_lt h

lemma toNat_pred (h : 0 < n.toNat) : (n - 1).toNat = n.toNat - 1 := by
  have hn := n.toNat_lt
  rw [UInt64.toNat_sub]
  have h1 : (1 : UInt64).toNat = 1 := rfl
  omega

variable {id : UInt64} {x : Tx}

namespace Tx.Balanced

lemma accept (hx : x.Balanced) (hlt : x.accepted + 1 < 2^64) (c : Crypto) (now : Millis)
    (buf : Message) (h : Option Handler) (priority : UInt16) :
    (x.accept c now buf h priority).Balanced := by
  have hfree : x.txID ∉ x.txMsgs := fun hmem => by
    have hk := hx.keys _ hmem
    rw [hx.id_eq] at hk
    omega
  have hflight : x.totalInFlightTX.toNat + 1 < 2^64 := by
    have htotal := hx.total
    omega
  refine ⟨?_, ?_, ?_, ?_⟩
  · rw [accept_accepted, ← hx.id_eq]
    exact toNat_succ (by rw [hx.id_eq]; exact hlt)
  · intro k hk
    rw [accept_accepted]
    rcases mem_insertIfNew.mp hk with rfl | hk
    · rw [hx.id_eq]
      omega
    · have hlt := hx.keys k hk
      omega
  · show (x.totalInFlightTX + 1).toNat = (x.txMsgs.insertIfNew x.txID _).size
    rw [toNat_succ hflight, TreeMap.size_insertIfNew, if_neg hfree, hx.inFlight]
  · rw [accept_accepted]
    show x.totalAckedTX.toNat + x.totalDroppedTX.toNat + (x.totalInFlightTX + 1).toNat = _
    rw [toNat_succ hflight, ← hx.total]
    omega

lemma put (hx : x.Balanced) (hid : id ∈ x.txMsgs) (msg : OutboundMessage) : (x.put id msg).Balanced := by
  refine ⟨hx.id_eq, ?_, ?_, hx.total⟩
  · intro k hk
    rcases mem_insert.mp hk with rfl | hk
    · exact hx.keys _ hid
    · exact hx.keys k hk
  · show x.totalInFlightTX.toNat = (x.txMsgs.insert id msg).size
    rw [size_insert_of_mem hid]
    exact hx.inFlight

lemma finish {y : Tx} (hx : x.Balanced) (hid : id ∈ x.txMsgs)
    (hy : y = x.countAcked ∨ y = x.countDropped) (msg : OutboundMessage) (st : DeliveryStatus) :
    (y.finish id msg st).Balanced := by
  have hsize := size_erase_of_mem hid
  have hpos : 0 < x.totalInFlightTX.toNat := by
    rw [hx.inFlight]
    omega
  have hpred := toNat_pred hpos
  have htotal := hx.total
  have hid_lt := x.txID.toNat_lt
  rw [hx.id_eq] at hid_lt
  have hacked : (x.totalAckedTX + 1).toNat = x.totalAckedTX.toNat + 1 := toNat_succ (by omega)
  have hdropped : (x.totalDroppedTX + 1).toNat = x.totalDroppedTX.toNat + 1 := toNat_succ (by omega)
  have hkeys : ∀ k ∈ x.txMsgs.erase id, k.toNat < x.accepted := fun k hk =>
    hx.keys k (TreeMap.mem_erase.mp hk).2
  have hmsgs : y.txMsgs = x.txMsgs ∧ y.accepted = x.accepted ∧ y.txID = x.txID := by
    rcases hy with rfl | rfl <;> exact ⟨rfl, rfl, rfl⟩
  obtain ⟨hf1, hf2, hf3, hf4⟩ := finish_counters y id msg st
  refine ⟨?_, ?_, ?_, ?_⟩
  · rw [hf1, finish_accepted, hmsgs.2.2, hmsgs.2.1, hx.id_eq]
  · rw [finish_txMsgs, finish_accepted, hmsgs.1, hmsgs.2.1]
    exact hkeys
  · rw [hf4, finish_txMsgs, hmsgs.1]
    have hflight : y.totalInFlightTX = x.totalInFlightTX - 1 := by rcases hy with rfl | rfl <;> rfl
    rw [hflight, hpred, hx.inFlight]
    omega
  · rw [hf2, hf3, hf4, finish_accepted, hmsgs.2.1]
    rcases hy with rfl | rfl
    · show (x.totalAckedTX + 1).toNat + x.totalDroppedTX.toNat + (x.totalInFlightTX - 1).toNat = _
      omega
    · show x.totalAckedTX.toNat + (x.totalDroppedTX + 1).toNat + (x.totalInFlightTX - 1).toNat = _
      omega

end Tx.Balanced

def Tx.Accounts (x : Tx) : Prop := x.accepted < 2^64 → x.Balanced

variable {c : Crypto} {k : TxKind} {x' : Tx}

lemma TxMove.accounts (h : TxMove c t cause x k x')
    (hacks : ∀ p id mask, cause.pkt = some p → ¬ IsAcks p id mask) (hx : x.Accounts) : x'.Accounts := by
  intro hlt
  cases h with
  | accept buf hd priority =>
    have hlt' : x.accepted + 1 < 2^64 := by
      rw [← accept_accepted c t.now x buf hd priority]
      exact hlt
    exact (hx (by omega)).accept hlt' _ _ _ _ _
  | reject buf hd =>
    have hsame := reject_accepted x hd
    have hb := hx (hsame ▸ hlt)
    exact ⟨hsame.symm ▸ hb.id_eq, hsame.symm ▸ hb.keys, hb.inFlight, hsame.symm ▸ hb.total⟩
  | ack hp hack hmsg | flushed hmsg => exact (hx hlt).put (mem_of_get hmsg) _
  | ackDone hp hack hmsg => exact absurd hack (hacks _ _ _ hp)
  | mackDone hp hack hmsg =>
    refine (hx ?_).finish (mem_of_get hmsg) (.inl rfl) _ _
    rw [← show x.countAcked.accepted = x.accepted from rfl, ← finish_accepted]
    exact hlt
  | drop hmsg =>
    refine (hx ?_).finish (mem_of_get hmsg) (.inr rfl) _ _
    rw [← show x.countDropped.accepted = x.accepted from rfl, ← finish_accepted]
    exact hlt

def World.AcksComplete (w : World σ) (p : Packet) : Prop :=
  ∃ id mask msg, IsAcks p id mask ∧ w.tx.txMsgs[id]? = some msg ∧ (msg.ack mask).isTransmitted = .ok true

variable {w w' : World σ}

lemma Moves.accounts (h : Moves env t .call w w') (hw : w.tx.Accounts) : w'.tx.Accounts :=
  h.inv (I := fun v => v.tx.Accounts)
    (fun _ _ _ hm ha => hm.tx_inv (fun hx hv => hx.accounts (fun _ _ _ hp => (nomatch hp)) hv) ha) hw

lemma handleACKS_accounts {p : Packet} (hcmd : readByte p (packetOverhead + 1) = .ok Command.acks.toByte)
    (h : w.handleACKS env t p = .ok w') (hopen : ¬ w.AcksComplete p) (hw : w.tx.Accounts) :
    w'.tx.Accounts := by
  unfold handleACKS at h
  split at h
  · cases h
    exact hw
  obtain ⟨id, hid, h⟩ := ok_bind.mp h
  split at h
  · cases h
    exact hw
  rename_i msg hmsg
  obtain ⟨mask, hmask, h⟩ := ok_bind.mp h
  obtain ⟨done, hdone, h⟩ := ok_bind.mp h
  cases done with
  | true => exact absurd ⟨id, mask, msg, ⟨hcmd, hid, hmask⟩, hmsg, hdone⟩ hopen
  | false =>
    refine Moves.accounts (flush_moves h) fun hlt => ?_
    exact (hw hlt).put (mem_of_get hmsg) _

def NoAcksCompletion (i : Clock × Action σ) (w : World σ) : Prop := ∀ p, i.2 = .packet p → ¬ w.AcksComplete p

lemma actStep_accounts {i : Clock × Action σ} (hw : w.tx.Accounts)
    (hgood : NoAcksCompletion i w) (h : w.actStep env i = .ok w') : w'.tx.Accounts := by
  by_cases hacks : ∃ p id mask, (i.2.causeIn w).pkt = some p ∧ IsAcks p id mask
  · obtain ⟨p, id, mask, hp, hack⟩ := hacks
    obtain ⟨t, a⟩ := i
    cases a with
    | packet q =>
      obtain rfl : q = p := some.inj hp
      obtain ⟨cmd, hcmd, h⟩ := ok_bind.mp (show w.handlePacket env t q = .ok w' from h)
      have hbyte : cmd = Command.acks.toByte := Except.ok.inj (hcmd.symm.trans hack.1)
      rw [hbyte, Command.ofByte_toByte] at h
      exact handleACKS_accounts hack.1 h (hgood q rfl) hw
    | _ => cases hp
  · have hnot : ∀ p id mask, (i.2.causeIn w).pkt = some p → ¬ IsAcks p id mask :=
      fun p id mask hp hack => hacks ⟨p, id, mask, hp, hack⟩
    exact act_inv (I := fun v => v.tx.Accounts) h (fun _ _ hm hv => hm.tx_inv (fun hx => hx.accounts hnot) hv)
      (fun _ _ htx _ _ hv => by rw [htx]; exact hv) hw

/-- If no ACKS packet completes a message, below `2^64` accepted calls, `totalInFlightTX` is the size of `m_TXMsgs` and
the counters add up to the accepted calls. -/
theorem transmit_accounting {w₀ w : World σ} (h₀ : w₀.tx = {})
    (hrun : Run.Reaches (actStep env) NoAcksCompletion w₀ w) (hcalls : w.tx.accepted < 2^64) :
    w.tx.totalInFlightTX.toNat = w.tx.txMsgs.size ∧
      w.tx.totalAckedTX.toNat + w.tx.totalDroppedTX.toNat + w.tx.totalInFlightTX.toNat = w.tx.accepted := by
  have hinit : w₀.tx.Accounts := by
    intro _
    rw [h₀]
    exact ⟨rfl, fun k hk => absurd hk TreeMap.not_mem_emptyc, rfl, rfl⟩
  have hbal := hrun.inv (I := fun v => v.tx.Accounts) (fun _ _ _ ha => actStep_accounts ha) hinit hcalls
  exact ⟨hbal.inFlight, hbal.total⟩

/-- A one-byte message is acknowledged by an ACKS packet: `m_TXMsgs` is empty, but it still counts as in flight. -/
theorem transmit_accounting_acks : ∃ w, exec (actStep Sample.env) [(Sample.clock 0, .send [1] none 0),
         (Sample.clock 1, .packet (createPacket Sample.env.rng 0 .acks (InboundMessage.ackBody 0 1) 16 16))]
        Sample.ready = .ok w ∧
      w.tx.txMsgs.size = 0 ∧ w.tx.totalInFlightTX.toNat = 1 ∧ w.tx.totalAckedTX.toNat = 0 ∧
      w.tx.totalInFlightTX.toNat ≠ w.tx.txMsgs.size := ok_sat

theorem transmit_accounting_dropped : ∃ w, exec (actStep Sample.env)
        [(Sample.clock 0, .send [1] none 0), (Sample.clock 0, .send [2] none 0),
         (Sample.clock 501, .tick), (Sample.clock 502, .send [3] none 0)] Sample.ready = .ok w ∧
      w.tx.accepted = 3 ∧ w.tx.totalInFlightTX.toNat = w.tx.txMsgs.size ∧
      w.tx.totalAckedTX.toNat + w.tx.totalDroppedTX.toNat + w.tx.totalInFlightTX.toNat = w.tx.accepted := by
  refine ok_then (P := fun w => w.tx.accepted = 3) (by decide +kernel) fun w hw hcalls => ?_
  refine ⟨hcalls, transmit_accounting rfl (exec_reaches ?_ hw) (by omega)⟩
  intro i hi v p hp
  simp only [mem_cons, not_mem_nil, or_false] at hi
  rcases hi with rfl | rfl | rfl | rfl <;> cases hp

/-- With at most one accepted call of id `i`: none, and no message or handler run; or one, whose handler is in
`m_TXMsgs` or was run. -/
structure Tx.Once (i : UInt64) (x : Tx) : Prop where
  none_yet : acceptedOf i x.log = [] → x.txMsgs[i]? = none ∧ firedOf i x.log = []
  one : ∀ h, acceptedOf i x.log = [h] → (∃ msg, x.txMsgs[i]? = some msg ∧ msg.completed = h ∧ firedOf i x.log = []) ∨
      (x.txMsgs[i]? = none ∧ firedOf i x.log = h.toList)

lemma acceptedOf_append (i : UInt64) (l l' : List TxEvent) :
    acceptedOf i (l ++ l') = acceptedOf i l ++ acceptedOf i l' := filterMap_append

lemma firedOf_append (i : UInt64) (l l' : List TxEvent) :
    firedOf i (l ++ l') = firedOf i l ++ firedOf i l' := filterMap_append

lemma logInvoked_acceptedOf (x : Tx) (i id : UInt64) (h : Option Handler) (st : DeliveryStatus) :
    acceptedOf i (logInvoked x id h st).log = acceptedOf i x.log := by
  cases h with
  | none => rfl
  | some h =>
    show acceptedOf i (x.log ++ [invoked id h st]) = _
    rw [acceptedOf_append]
    exact append_nil _

lemma logInvoked_firedOf (x : Tx) (i id : UInt64) (h : Option Handler) (st : DeliveryStatus) :
    firedOf i (logInvoked x id h st).log = firedOf i x.log ++ if id = i then h.toList else [] := by
  cases h with
  | none =>
    show firedOf i x.log = _
    split <;> exact (append_nil _).symm
  | some h =>
    show firedOf i (x.log ++ [invoked id h st]) = _
    by_cases hi : id = i <;> simp [firedOf, hi]

namespace Tx.Once
variable {i : UInt64} {x : Tx}

lemma accept (hx : x.Once i) (c : Crypto) (now : Millis) (buf : Message) (h : Option Handler)
    (priority : UInt16) : (x.accept c now buf h priority).Once i := by
  have hfired : firedOf i (x.accept c now buf h priority).log = firedOf i x.log := by
    show firedOf i (x.log ++ [TxEvent.accepted x.txID buf h]) = _
    rw [firedOf_append]
    exact append_nil _
  have hacc : acceptedOf i (x.accept c now buf h priority).log
      = acceptedOf i x.log ++ if x.txID = i then [h] else [] := by
    show acceptedOf i (x.log ++ [TxEvent.accepted x.txID buf h]) = _
    by_cases hi : x.txID = i <;> simp [acceptedOf, hi]
  have hget : (x.accept c now buf h priority).txMsgs[i]? =
      if x.txID = i ∧ x.txMsgs[i]? = none then
        some (.new c x.txID buf now h priority) else x.txMsgs[i]? := get_insertIfNew
  by_cases hi : x.txID = i
  · rw [if_pos hi] at hacc
    constructor
    · intro h0
      rw [hacc] at h0
      exact absurd h0 (append_ne_nil_of_right_ne_nil _ (cons_ne_nil _ _))
    · intro _ h1
      rw [hacc] at h1
      obtain ⟨hnil, hone⟩ := append_eq_singleton_iff.mp h1 |>.resolve_right (fun hr => cons_ne_nil _ _ hr.2)
      obtain ⟨hfree, hno⟩ := hx.none_yet hnil
      rw [hget, if_pos ⟨hi, hfree⟩, hfired]
      exact .inl ⟨_, rfl, (cons.inj hone).1, hno⟩
  · have hne : ¬ (x.txID = i ∧ x.txMsgs[i]? = none) := fun hc => hi hc.1
    rw [if_neg hi, append_nil] at hacc
    rw [if_neg hne] at hget
    exact ⟨by rw [hacc, hget, hfired]; exact hx.none_yet, by rw [hacc, hget, hfired]; exact hx.one⟩

lemma put (hx : x.Once i) {msg msg' : OutboundMessage} (hmsg : x.txMsgs[id]? = some msg)
    (hsame : msg'.completed = msg.completed) : (x.put id msg').Once i := by
  have hget : (x.put id msg').txMsgs[i]? = if id = i then some msg' else x.txMsgs[i]? := get_insert
  by_cases hi : id = i
  · subst hi
    rw [if_pos rfl] at hget
    refine ⟨fun h0 => absurd (hx.none_yet h0).1 (by rw [hmsg]; exact some_ne_none _), ?_⟩
    intro h h1
    rcases hx.one h h1 with ⟨m, hm, hc, hf⟩ | ⟨hnone, _⟩
    · obtain rfl : msg = m := some.inj (hmsg.symm.trans hm)
      exact .inl ⟨msg', hget, hsame.trans hc, hf⟩
    · rw [hmsg] at hnone
      cases hnone
  · rw [if_neg hi] at hget
    exact ⟨fun h0 => by rw [hget]; exact hx.none_yet h0, fun h h1 => by rw [hget]; exact hx.one h h1⟩

lemma finish (hx : x.Once i) {msg : OutboundMessage} (hmsg : x.txMsgs[id]? = some msg)
    (st : DeliveryStatus) : (x.finish id msg st).Once i := by
  have hget : (x.finish id msg st).txMsgs[i]? = if id = i then none else x.txMsgs[i]? := by
    rw [finish_txMsgs]
    exact get_erase
  have hacc : acceptedOf i (x.finish id msg st).log = acceptedOf i x.log :=
    logInvoked_acceptedOf x i id msg.completed st
  have hfired : firedOf i (x.finish id msg st).log = firedOf i x.log ++ if id = i then msg.completed.toList else [] :=
    logInvoked_firedOf x i id msg.completed st
  by_cases hi : id = i
  · subst hi
    rw [if_pos rfl] at hget hfired
    refine ⟨fun h0 => ?_, fun h h1 => ?_⟩
    · rw [hacc] at h0
      have hnone := (hx.none_yet h0).1
      rw [hmsg] at hnone
      cases hnone
    · rw [hacc] at h1
      rcases hx.one h h1 with ⟨m, hm, hc, hf⟩ | ⟨hnone, _⟩
      · obtain rfl : msg = m := some.inj (hmsg.symm.trans hm)
        rw [hfired, hf, hc]
        exact .inr ⟨hget, rfl⟩
      · rw [hmsg] at hnone
        cases hnone
  · rw [if_neg hi] at hget
    rw [if_neg hi, append_nil] at hfired
    exact ⟨by rw [hacc, hget, hfired]; exact hx.none_yet, by rw [hacc, hget, hfired]; exact hx.one⟩

lemma reject (hx : x.Once i) (h : Option Handler) : ({ x with log := x.log ++ [rejected h .dropped] } : Tx).Once i := by
  have hacc : acceptedOf i (x.log ++ [rejected h .dropped]) = acceptedOf i x.log := by
    rw [acceptedOf_append]
    exact append_nil _
  have hfired : firedOf i (x.log ++ [rejected h .dropped]) = firedOf i x.log := by
    rw [firedOf_append]
    exact append_nil _
  exact ⟨by rw [hacc, hfired]; exact hx.none_yet, by rw [hacc, hfired]; exact hx.one⟩

end Tx.Once

variable {i : UInt64}

lemma TxMove.once (h : TxMove c t cause x k x') (hx : x.Once i) : x'.Once i := by
  cases h with
  | accept buf hd => exact hx.accept _ _ _ _ _
  | reject buf hd => exact hx.reject hd
  | ack hp hack hmsg | flushed hmsg => exact hx.put hmsg rfl
  | ackDone hp hack hmsg =>
    refine Tx.Once.finish (Tx.Once.put hx hmsg ?_) TreeMap.getElem?_insert_self _
    rfl
  | mackDone hp hack hmsg => exact Tx.Once.finish (x := x.countAcked) ⟨hx.none_yet, hx.one⟩ hmsg _
  | drop hmsg => exact Tx.Once.finish (x := x.countDropped) ⟨hx.none_yet, hx.one⟩ hmsg _

def acceptedIds (log : List TxEvent) : List UInt64 :=
  log.filterMap fun e => match e with
    | .accepted j _ _ => some j
    | _ => none

structure Tx.Numbered (first : UInt64) (x : Tx) : Prop where
  ids : acceptedIds x.log = (range x.accepted).map fun k => first + ofNat k
  next : x.txID = first + ofNat x.accepted

lemma acceptedIds_append (l l' : List TxEvent) :
    acceptedIds (l ++ l') = acceptedIds l ++ acceptedIds l' := filterMap_append

lemma finish_acceptedIds (x : Tx) (id : UInt64) (msg : OutboundMessage) (st : DeliveryStatus) :
    acceptedIds (x.finish id msg st).log = acceptedIds x.log := by
  show acceptedIds (logInvoked x id msg.completed st).log = _
  cases msg.completed with
  | none => rfl
  | some h =>
    show acceptedIds (x.log ++ [invoked id h st]) = _
    rw [acceptedIds_append]
    exact append_nil _

variable {first : UInt64}

lemma Tx.Numbered.finish (hx : x.Numbered first) (id : UInt64)
    (msg : OutboundMessage) (st : DeliveryStatus) : (x.finish id msg st).Numbered first :=
  ⟨by rw [finish_acceptedIds, finish_accepted]; exact hx.ids,
    by rw [(finish_counters x id msg st).1, finish_accepted]; exact hx.next⟩

lemma TxMove.numbered (h : TxMove c t cause x k x') (hx : x.Numbered first) : x'.Numbered first := by
  cases h with
  | accept buf hd =>
    constructor
    · show acceptedIds (x.log ++ [accepted x.txID buf hd]) = _
      rw [acceptedIds_append, accept_accepted, range_succ, map_append, hx.ids]
      show _ ++ [x.txID] = _ ++ [first + ofNat x.accepted]
      rw [hx.next]
    · show x.txID + 1 = _
      rw [accept_accepted, hx.next, ofNat_add, add_assoc]
      rfl
  | reject buf hd =>
    have hacc : ({ x with log := x.log ++ [rejected hd .dropped] } : Tx).accepted = x.accepted := reject_accepted x hd
    refine ⟨?_, ?_⟩
    · show acceptedIds (x.log ++ [rejected hd .dropped]) = _
      rw [acceptedIds_append, hacc, ← hx.ids]
      exact append_nil _
    · rw [hacc]
      exact hx.next
  | ack hp hack hmsg | flushed hmsg => exact ⟨hx.ids, hx.next⟩
  | ackDone hp hack hmsg => exact Tx.Numbered.finish (x := x.put _ _) ⟨hx.ids, hx.next⟩ _ _ _
  | mackDone hp hack hmsg => exact Tx.Numbered.finish (x := x.countAcked) ⟨hx.ids, hx.next⟩ _ _ _
  | drop hmsg => exact Tx.Numbered.finish (x := x.countDropped) ⟨hx.ids, hx.next⟩ _ _ _

lemma Tx.Numbered.nodup (hx : x.Numbered first) (hle : x.accepted ≤ 2^64) : (acceptedIds x.log).Nodup := by
  rw [hx.ids]
  refine Nodup.map_on (fun a ha b hb hab => ?_) nodup_range
  have hab' : ofNat a = ofNat b := add_left_cancel hab
  rw [mem_range] at ha hb
  have hnat := congrArg toNat hab'
  rwa [toNat_ofNat', toNat_ofNat', mod_eq_of_lt (by omega), mod_eq_of_lt (by omega)] at hnat

variable {h : Option Handler} {log : List TxEvent} {buf : Message}

lemma mem_acceptedIds (hmem : accepted i buf h ∈ log) : i ∈ acceptedIds log :=
  mem_filterMap.mpr ⟨_, hmem, rfl⟩

lemma acceptedOf_eq_nil (h : i ∉ acceptedIds log) : acceptedOf i log = [] := by
  refine filterMap_eq_nil_iff.mpr fun e he => ?_
  cases e with
  | accepted j buf hd =>
    refine if_neg fun (heq : j = i) => h ?_
    rw [← heq]
    exact mem_acceptedIds he
  | invoked j hd st => rfl
  | rejected hd st => rfl

lemma accepted_unique (hnodup : (acceptedIds log).Nodup) (hmem : accepted i buf h ∈ log) :
    acceptedOf i log = [h] ∧ ∀ buf' h', accepted i buf' h' ∈ log → buf' = buf := by
  induction log with
  | nil => cases hmem
  | cons e log ih =>
    cases e with
    | accepted j b hd =>
      obtain ⟨hj, hrest⟩ := nodup_cons.mp hnodup
      have hcons : acceptedOf i (.accepted j b hd :: log)
          = if j = i then hd :: acceptedOf i log else acceptedOf i log := by
        by_cases hji : j = i <;> simp [acceptedOf, hji]
      by_cases hji : j = i
      · subst hji
        have hno : ∀ b' h', accepted j b' h' ∉ log := fun b' h' hm => hj (mem_acceptedIds hm)
        obtain heq : accepted j buf h = .accepted j b hd := (mem_cons.mp hmem).resolve_right (hno buf h)
        cases heq
        rw [hcons, if_pos rfl, acceptedOf_eq_nil hj]
        refine ⟨rfl, fun buf' h' hm => ?_⟩
        cases (mem_cons.mp hm).resolve_right (hno buf' h')
        rfl
      · have hne : ∀ b' h', accepted i b' h' ≠ .accepted j b hd := fun b' h' heq => by
          cases heq
          exact hji rfl
        obtain ⟨hone, hsame⟩ := ih hrest ((mem_cons.mp hmem).resolve_left (hne buf h))
        rw [hcons, if_neg hji]
        exact ⟨hone, fun buf' h' hm => hsame buf' h' ((mem_cons.mp hm).resolve_left (hne buf' h'))⟩
    | invoked j hd st | rejected hd st =>
      obtain ⟨hone, hsame⟩ := ih hnodup ((mem_cons.mp hmem).resolve_left TxEvent.noConfusion)
      exact ⟨hone, fun buf' h' hm => hsame buf' h' ((mem_cons.mp hm).resolve_left TxEvent.noConfusion)⟩

lemma Tx.Numbered.start (h : x.log = []) : x.Numbered x.txID := by
  have hacc : x.accepted = 0 := by
    unfold accepted
    rw [h]
    rfl
  constructor
  · rw [hacc, h]
    rfl
  · rw [hacc]
    exact (add_zero _).symm

lemma sendMessageBuffer_false
    {priority : UInt16} (hs : w.sendMessageBuffer env t buf h priority = .ok (false, w')) :
    maxSendQueueSize ≤ w.tx.txMsgs.size ∧ w'.tx = { w.tx with log := w.tx.log ++ [rejected h .dropped] } := by
  unfold sendMessageBuffer at hs
  split at hs
  · rename_i hfull
    cases hs
    exact ⟨hfull, rfl⟩
  · obtain ⟨v, _, hs⟩ := ok_map.mp hs
    cases hs

lemma tx_invariant {I : Tx → Prop} {w₀ : World σ}
    (hmove : ∀ t cause k (x x' : Tx), TxMove (σ := σ) env.crypto t cause x k x' → I x → I x')
    (h₀ : I w₀.tx) (hrun : Run.Reaches (actStep env) (fun _ _ => True) w₀ w) : I w.tx :=
  hrun.inv (I := fun v => I v.tx) (fun j a b ha _ hs => act_inv (I := fun v => I v.tx) hs
      (fun _ _ hm hv => hm.tx_inv (fun hx => hmove _ _ _ _ _ hx) hv)
      (fun _ _ htx _ _ hv => by rw [htx]; exact hv) ha) h₀

/-- The handler of a message accepted under `i` (unique up to `2^64` calls) is not run while `i` is in `m_TXMsgs`, and
was run once when it is not.  A rejected call finds `m_TXMsgs` full, runs its handler with `dropped` and changes
nothing. -/
theorem completion_exactly_once {w₀ w : World σ} (h₀ : w₀.tx.txMsgs = ∅) (hlog : w₀.tx.log = [])
    (hrun : Run.Reaches (actStep env) (fun _ _ => True) w₀ w) :
    (∀ i h, acceptedOf i w.tx.log = [some h] → firedOf i w.tx.log = if i ∈ w.tx.txMsgs then [] else [h]) ∧
    (w.tx.accepted ≤ 2^64 → ∀ i buf h, accepted i buf h ∈ w.tx.log → acceptedOf i w.tx.log = [h]) ∧
    (∀ t buf h priority w', w.sendMessageBuffer env t buf h priority = .ok (false, w') →
      maxSendQueueSize ≤ w.tx.txMsgs.size ∧ w'.tx.log = w.tx.log ++ [rejected h .dropped] ∧
        w'.tx.txMsgs = w.tx.txMsgs ∧ w'.tx.txID = w.tx.txID) := by
  refine ⟨?_, ?_, ?_⟩
  · intro i h hone
    have hinit : w₀.tx.Once i := by
      refine ⟨fun _ => ⟨?_, ?_⟩, fun h h1 => ?_⟩
      · rw [h₀]
        exact TreeMap.getElem?_emptyc
      · rw [hlog]
        rfl
      · rw [hlog] at h1
        cases h1
    have honce : w.tx.Once i := tx_invariant (fun _ _ _ _ _ hx => hx.once) hinit hrun
    rcases honce.one _ hone with ⟨msg, hmsg, _, hnone⟩ | ⟨hgone, hfired⟩
    · rw [if_pos (mem_of_get hmsg), hnone]
    · rw [if_neg (get_eq_none.mp hgone), hfired]
      rfl
  · intro hle i buf h hmem
    have hnum : w.tx.Numbered w₀.tx.txID :=
      tx_invariant (fun _ _ _ _ _ hx => hx.numbered) (Tx.Numbered.start hlog) hrun
    exact (accepted_unique (hnum.nodup hle) hmem).1
  · intro t buf h priority w' hs
    obtain ⟨hfull, htx⟩ := sendMessageBuffer_false hs
    rw [htx]
    exact ⟨hfull, rfl, rfl, rfl⟩

theorem completion_exactly_once_dropped : ∃ w, exec (actStep Sample.env)
        [(Sample.clock 0, .send [1] (some 1) 0), (Sample.clock 501, .tick),
         (Sample.clock 502, .send [2] (some 2) 0)] Sample.ready = .ok w ∧
      0 ∉ w.tx.txMsgs ∧ firedOf 0 w.tx.log = [.user 1] ∧
      1 ∈ w.tx.txMsgs ∧ firedOf 1 w.tx.log = [] := by
  refine ok_then (P := fun w => 0 ∉ w.tx.txMsgs ∧ 1 ∈ w.tx.txMsgs ∧ acceptedOf 0 w.tx.log = [some (.user 1)] ∧
    acceptedOf 1 w.tx.log = [some (.user 2)]) (by decide +kernel) ?_
  rintro w hw ⟨h0, h1, ha0, ha1⟩
  have honce := completion_exactly_once rfl rfl (exec_reaches (fun _ _ _ => trivial) hw)
  have hf0 := honce.1 0 _ ha0
  have hf1 := honce.1 1 _ ha1
  rw [if_neg h0] at hf0
  rw [if_pos h1] at hf1
  exact ⟨h0, hf0, h1, hf1⟩

/-- Accepted messages have consecutive ids, also behind `2^64`. -/
theorem accepted_consecutive {w₀ w : World σ} (hlog : w₀.tx.log = [])
    (hrun : Run.Reaches (actStep env) (fun _ _ => True) w₀ w) :
    acceptedIds w.tx.log = (range w.tx.accepted).map fun k => w₀.tx.txID + ofNat k :=
  (tx_invariant (fun _ _ _ _ _ hx => hx.numbered) (Tx.Numbered.start hlog) hrun).ids

theorem accepted_consecutive_three : ∃ w, exec (actStep Sample.env)
      ([1, 2, 3].map fun x => (Sample.clock 0, .send [x] none 0)) Sample.ready = .ok w ∧
    acceptedIds w.tx.log = [0, 1, 2] := by
  refine ok_then (P := fun w => w.tx.accepted = 3) (by decide +kernel) fun w hw hthree => ?_
  rw [accepted_consecutive rfl (exec_reaches (fun _ _ _ => trivial) hw), hthree]
  rfl

end Belnet.Iwp
