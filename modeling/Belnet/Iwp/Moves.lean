import Belnet.Iwp.Session

/-!
# The IWP handshake, the receive path, and the steps of a session

Inbound: an Introduction that verifies, the token, the link intro.  Outbound: the token, then link intros both ways.
-/

namespace Belnet.Iwp
variable {σ : Type}

abbrev introductionSize : ℕ := 32 + 32 + 32 + 64

abbrev tokenSize : ℕ := 24

def rawPacket (r : Rng) (k : ℕ) (body : Bytes) : Packet := r.head k ++ body

namespace World
variable (env : Env σ) (t : Clock)

def introBody (ident onion : PubKey) (n : TunnelNonce) : Bytes := ident.toList ++ (onion.toList ++ n.toList)

variable (w : World σ)

def generateAndSendIntro : World σ :=
  let n := env.rng.nonce w.created.length
  let signbuf := introBody env.ourRC.pubkey (env.toPublic env.routerEncryptionSecret) n
  let z := (env.sign signbuf).getD (.zero 64)
  let req := rawPacket env.rng w.created.length (signbuf ++ z.toList)
  let w := w.encryptAndSend env t req
  let w := w.setState .introduction
  match env.crypto.transportDhClient w.chosenAI.pubkey env.routerEncryptionSecret n with
  | none => w
  | some key => { w with ctl := { w.ctl with sessionKey := key } }

def start : World σ :=
  if w.inbound then w else w.generateAndSendIntro env t

def handleGotIntro (pkt : Packet) : Except Fault (World σ) :=
  if pkt.length < introductionSize + packetOverhead then .ok w
  else do
    let ident ← readBuf 32 pkt packetOverhead
    let onion ← readBuf 32 pkt (packetOverhead + 32)
    let n ← readBuf 32 pkt (packetOverhead + 64)
    let z ← readBuf 64 pkt (packetOverhead + 96)
    let verifybuf ← readSlice pkt packetOverhead 96
    let w := { w with ctl := { w.ctl with expectedIdent := ident, remoteOnionKey := onion } }
    if !env.crypto.verify ident verifybuf z then return w
    else match env.crypto.transportDhServer onion env.transportSecretKey n with
      | none => return w
      | some key =>
        let w := { w with ctl := { w.ctl with sessionKey := key } }
        let reply := rawPacket env.rng w.created.length w.ctl.token.toList
        let w := w.touchRX t
        let w := w.encryptAndSend env t reply
        return w.setState .introduction

def handleCreateSessionRequest (pkt : Packet) : Except Fault (World σ) :=
  match decryptMessageInPlace env.crypto w.ctl.sessionKey pkt with
  | none => .ok w
  | some pkt =>
    if pkt.length < tokenSize + packetOverhead then .ok w
    else do
      let echoed ← readBuf 24 pkt packetOverhead
      if echoed ≠ w.ctl.token then return w
      else
        let w := w.touchRX t
        let w := w.setState .linkIntro
        w.sendOurLIM env t none

def handleGotIntroAck (pkt : Packet) : Except Fault (World σ) :=
  if pkt.length < tokenSize + packetOverhead then .ok w
  else match decryptMessageInPlace env.crypto w.ctl.sessionKey pkt with
    | none => .ok w
    | some pkt => do
      let w := w.touchRX t
      let token ← readBuf 24 pkt packetOverhead
      let w := { w with ctl := { w.ctl with token := token } }
      let reply := rawPacket env.rng w.created.length token.toList
      let w := w.encryptAndSend env t reply
      return w.setState .linkIntro

def handleSessionData (pkt : Packet) : World σ :=
  { w with inq := { w.inq with decryptNext := w.inq.decryptNext ++ [pkt] } }

def recvLL (data : Packet) : Except Fault (Bool × World σ) :=
  let w := { w with
    inq := { w.inq with received := w.inq.received ++ [data] }
    io := { w.io with
      rxRate := w.io.rxRate + UInt64.ofNat data.length, totalPacketsRX := w.io.totalPacketsRX + 1 } }
  match w.ctl.state with
  | .initial =>
    if w.inbound then
      match decryptMessageInPlace env.crypto w.ctl.sessionKey data with
      | some pkt => do return (true, ← w.handleGotIntro env t pkt)
      | none => .ok (false, w)
    else .ok (true, w)
  | .introduction =>
    if w.inbound then do return (true, ← w.handleCreateSessionRequest env t data)
    else do return (true, ← w.handleGotIntroAck env t data)
  | _ => .ok (true, w.handleSessionData data)

def decryptOne (pkt : Packet) : Option Packet :=
  match decryptMessageInPlace env.crypto w.ctl.sessionKey pkt with
  | none => none
  | some pkt => if pkt[packetOverhead]? = some protoVersion then some pkt else none

def pushPlaintext (msgs : List Packet) : World σ :=
  { w with inq := { w.inq with
    plaintextRecv :=
      -- tryPushBack: a full queue drops the packets
      if w.inq.plaintextRecv.length < plaintextQueueSize then w.inq.plaintextRecv ++ [msgs]
      else w.inq.plaintextRecv
    plaintextEmpty := false } }

def decryptWorker (msgs : List Packet) : World σ := w.pushPlaintext (msgs.filterMap (w.decryptOne env))

def runJob : Job → World σ
  | .encrypt msgs => w.encryptWorker env t msgs
  | .decrypt msgs => w.decryptWorker env msgs

def runWork (i : ℕ) : World σ :=
  match w.inq.work[i]? with
  | none => w
  | some job =>
    let w := { w with inq := { w.inq with work := w.inq.work.eraseIdx i } }
    w.runJob env t job

end World

inductive Op (σ : Type) where
  | recvLL (data : Packet)
  | pump
  | tick
  | sendMessageBuffer (buf : Message) (h : Option ℕ) (priority : UInt16)
  | close
  | work (i : ℕ)
  | handlePlaintext
  | renegotiateSession
  | sendKeepAlive
  | parent (p : σ)

def World.step (env : Env σ) (t : Clock) (op : Op σ) (w : World σ) : Except Fault (World σ) :=
  match op with
  | .recvLL data => do return (← w.recvLL env t data).2
  | .pump => w.pump env t
  | .tick => .ok (w.tick env t)
  | .sendMessageBuffer buf h priority =>
    do return (← w.sendMessageBuffer env t buf (h.map Handler.user) priority).2
  | .close => .ok (w.close env t)
  | .work i => .ok (w.runWork env t i)
  | .handlePlaintext => w.handlePlaintext env t
  | .renegotiateSession => w.sendOurLIM env t none
  | .sendKeepAlive => .ok (w.sendKeepAlive env t)
  | .parent p => .ok { w with parent := p }

/-!
## what one operation of a session can do

Every operation is a sequence of small moves, and an invariant is shown once for every move.
-/

open Std (TreeMap)
open World List Relation.ReflTransGen Maps TxEvent

section
variable (env : Env σ)

def Io.send (t : Clock) (ctl : Ctl) (io : Io) (p : Packet) : Io :=
  if ctl.state = .ready then { io with encryptNext := io.encryptNext ++ [p] }
  else
    { (io.encryptNext ++ [p]).foldl (fun io p =>
        let q := encryptPacket env.crypto ctl.sessionKey p
        { io with
          wire := io.wire ++ [q], lastTX := t.wall, txRate := io.txRate + .ofNat q.length })
        { io with encryptNext := io.encryptNext ++ [p] } with
      encryptNext := [] }

lemma encryptWorker_eq (t : Clock) (msgs : List Packet) (w : World σ) :
    w.encryptWorker env t msgs = { w with io := msgs.foldl (fun io p =>
      let q := encryptPacket env.crypto w.ctl.sessionKey p
      { io with
        wire := io.wire ++ [q], lastTX := t.wall, txRate := io.txRate + .ofNat q.length }) w.io } := by
  induction msgs generalizing w with
  | nil => rfl
  | cons p msgs ih =>
    show encryptWorker env t (w.sendLL t (encryptPacket env.crypto w.ctl.sessionKey p)) msgs = _
    rw [ih]
    rfl

lemma encryptSend_eq (t : Clock) (w : World σ) (p : Packet) : w.encryptAndSend env t p
      = { w with created := w.created ++ [p], io := Io.send env t w.ctl w.io p } := by
  unfold encryptAndSend Io.send
  by_cases h : w.ctl.state = .ready
  · simp only [isEstablished, h, decide_true, if_true]
  · simp only [isEstablished, h, decide_false, Bool.false_eq_true, if_false]
    rw [encryptWorker_eq]

def World.shut (w : World σ) : World σ :=
  { w with
    parent := env.unmapAddr w.parent w.remoteAddr
    ctl := { w.ctl with state := .closed, sentClosed := true, calls := w.ctl.calls ++ [.state .closed] } }

lemma close_eq (t : Clock) (w : World σ) : w.close env t =
      if w.ctl.state = .closed then w
      else if w.ctl.sentClosed then w.shut env
      else (w.shut env).encryptAndSend env t (createPacket env.rng w.created.length .clos [] 16 16) := by
  unfold close
  by_cases h : w.ctl.state = .closed
  · rw [if_pos h, if_pos h]
  by_cases hs : w.ctl.sentClosed = true
  · simp only [setState, hs]
    unfold shut
    rw [← hs]
  · simp only [setState, hs]
    rfl

/-- the session at `SessionEstablished`, when the link intro of its remote came in -/
def World.introduced (w : World σ) (rc : RouterContact) : World σ :=
  { w with ctl := { w.ctl with
    state := .ready, gotLIM := .reneg, remoteRC := rc
    calls := w.ctl.calls ++ [.gotLIM .inbound w.ctl.state true, .state .ready] } }

/-- `MapAddr` and `SessionEstablished` for a session just ready, with the `Close` when `MapAddr` refuses -/
def World.establish (w : World σ) (inbound : Bool) : World σ :=
  { w with
    parent :=
      let (p, refused) := env.mapAddr w.parent w.ctl.remoteRC.pubkey w.remoteAddr
      env.sessionEstablished (if refused then env.unmapAddr p w.remoteAddr else p) w.ctl.remoteRC inbound
    ctl :=
      let pk := w.ctl.remoteRC.pubkey
      if (env.mapAddr w.parent pk w.remoteAddr).2 then
        { w.ctl with
          state := .closed
          sentClosed := true
          calls := w.ctl.calls ++ [.mapAddr pk true, .state .closed, .sessionEstablished inbound] }
      else { w.ctl with calls := w.ctl.calls ++ [.mapAddr pk false, .sessionEstablished inbound] } }

end

inductive Creates (env : Env σ) (w : World σ) : Packet → Prop where
  | xmit {id : UInt64} {msg : OutboundMessage} (h : w.tx.txMsgs[id]? = some msg) :
      Creates env w (msg.xmit env.rng w.created.length)
  | data {id : UInt64} {msg : OutboundMessage} {idx : ℕ} (h : w.tx.txMsgs[id]? = some msg)
      (hidx : idx ∈ fragments msg.data.length) (hmax : idx / fragmentSize < maxFragments) :
      Creates env w (dataPacket env.rng w.created.length idx msg.msgID (fragment msg.data idx))
  | acks {rxid : UInt64} {msg : InboundMessage} (h : w.rx.rxMsgs[rxid]? = some msg) :
      Creates env w (msg.ackPacket env.rng w.created.length)
  | acksDone {msg : InboundMessage} {at_ : Millis} (h : RxEvent.delivered msg.msgID msg.data at_ ∈ w.rx.log) :
      Creates env w (msg.ackPacket env.rng w.created.length)
  | nack (rxid : UInt64) :
      Creates env w (createPacket env.rng w.created.length .nack (Bytes.writeBig 8 rxid.toNat) 16 16)
  | mack {ids : List UInt64} (h : ∀ id ∈ ids, id ∈ w.rx.sendMACKs) (hlen : ids.length ≤ maxACKSInMACK) :
      Creates env w (createPacket env.rng w.created.length .mack (mackBody ids) 16 16)
  | ping : Creates env w (createPacket env.rng w.created.length .ping [] 16 16)
  | clos : Creates env w (createPacket env.rng w.created.length .clos [] 16 16)

def IsAcks (p : Packet) (id : UInt64) (mask : UInt8) : Prop :=
  readByte p (packetOverhead + 1) = .ok Command.acks.toByte ∧
    readU64 p (packetOverhead + (commandOverhead + 0)) = .ok id ∧
    readByte p (packetOverhead + (commandOverhead + 8)) = .ok mask

def IsMack (p : Packet) (id : UInt64) : Prop :=
  readByte p (packetOverhead + 1) = .ok Command.mack.toByte ∧
    ∃ n : UInt8, readByte p (packetOverhead + (commandOverhead + 0)) = .ok n ∧
      ∃ i < n.toNat, readU64 p (packetOverhead + (commandOverhead + (1 + 8 * i))) = .ok id

def IsXmit (p : Packet) (sz : UInt16) (rxid : UInt64) (h : ShortHash) : Prop :=
  readByte p (packetOverhead + 1) = .ok Command.xmit.toByte ∧
    readU16 p (packetOverhead + (commandOverhead + 0)) = .ok sz ∧
    readU64 p (packetOverhead + (commandOverhead + 2)) = .ok rxid ∧
    readBuf 32 p (packetOverhead + (commandOverhead + 10)) = .ok h

def IsData (p : Packet) (rxid : UInt64) (idx : UInt16) (buf : Bytes) : Prop :=
  readByte p (packetOverhead + 1) = .ok Command.data.toByte ∧
    readU16 p (packetOverhead + (commandOverhead + 0)) = .ok idx ∧
    readU64 p (packetOverhead + (commandOverhead + 2)) = .ok rxid ∧
    readSlice p (packetOverhead + (commandOverhead + 10))
      (p.length - (packetOverhead + (commandOverhead + 10))) = .ok buf

/-- `p` carries `buf` for offset `idx` of `rxid`: a DATA packet, or an XMIT packet with its first fragment -/
def Carries (p : Packet) (rxid : UInt64) (idx : UInt16) (buf : Bytes) : Prop :=
  IsData p rxid idx buf ∨
  (∃ sz h, IsXmit p sz rxid h ∧ idx = 0 ∧ p.length - xmitOverhead = buf.length ∧
    readSlice p (p.length - buf.length) buf.length = .ok buf)

def Tx.accept (c : Crypto) (now : Millis) (x : Tx) (buf : Message) (h : Option Handler) (priority : UInt16) : Tx :=
  { x with
    txID := x.txID + 1
    txMsgs := x.txMsgs.insertIfNew x.txID (.new c x.txID buf now h priority)
    totalInFlightTX := x.totalInFlightTX + 1
    log := x.log ++ [TxEvent.accepted x.txID buf h] }

def Tx.finish (x : Tx) (id : UInt64) (msg : OutboundMessage) (st : DeliveryStatus) : Tx :=
  let x := Tx.logInvoked x id msg.completed st
  { x with txMsgs := x.txMsgs.erase id }

lemma finish_txMsgs (x : Tx) (id : UInt64) (msg : OutboundMessage) (st : DeliveryStatus) :
    (x.finish id msg st).txMsgs = x.txMsgs.erase id := by
  unfold Tx.finish
  cases msg.completed <;> rfl

variable {id : UInt64}

lemma finish_get {x : Tx} {k : UInt64} {msg m : OutboundMessage} {st : DeliveryStatus}
    (h : (x.finish id msg st).txMsgs[k]? = some m) : k ≠ id ∧ x.txMsgs[k]? = some m := by
  rw [finish_txMsgs, get_erase] at h
  split at h
  · cases h
  · rename_i hk
    exact ⟨fun heq => hk heq.symm, h⟩

lemma finish_log (x : Tx) (id : UInt64) (msg : OutboundMessage) (st : DeliveryStatus) :
    (x.finish id msg st).log = x.log ++ msg.completed.toList.map (invoked id · st) := by
  unfold Tx.finish
  cases msg.completed with
  | none => exact (append_nil _).symm
  | some => rfl

def Tx.put (x : Tx) (id : UInt64) (msg : OutboundMessage) : Tx :=
  { x with txMsgs := x.txMsgs.insert id msg }

def Tx.countAcked (x : Tx) : Tx :=
  { x with totalAckedTX := x.totalAckedTX + 1, totalInFlightTX := x.totalInFlightTX - 1 }

def Tx.countDropped (x : Tx) : Tx :=
  { x with totalDroppedTX := x.totalDroppedTX + 1, totalInFlightTX := x.totalInFlightTX - 1 }

def Rx.put (x : Rx) (rxid : UInt64) (msg : InboundMessage) : Rx :=
  { x with rxMsgs := x.rxMsgs.insert rxid msg }

def Rx.deliver (x : Rx) (now : Millis) (rxid : UInt64) (msg : InboundMessage) : Rx :=
  { x with
    replayFilter := x.replayFilter.insertIfNew msg.msgID now
    rxMsgs := x.rxMsgs.insert rxid msg
    log := x.log ++ [RxEvent.delivered msg.msgID msg.data now] }

/-- `y` is `x` with an entry `msg` for `rxid`: it was there, or the XMIT packet `p` just opened it -/
inductive HasEntry (t : Clock) (p : Packet) (x : Rx) (rxid : UInt64) : InboundMessage → Rx → Prop where
  | old {msg : InboundMessage} (h : x.rxMsgs[rxid]? = some msg) : HasEntry t p x rxid msg x
  | opened {sz : UInt16} {h : ShortHash} (hx : IsXmit p sz rxid h) (hnew : rxid ∉ x.replayFilter)
      (hnone : x.rxMsgs[rxid]? = none) :
      HasEntry t p x rxid (.new rxid sz h t.now) (x.put rxid (.new rxid sz h t.now))

variable {p : Packet} {t : Clock}

lemma HasEntry.same {x y : Rx} {rxid : UInt64} {msg : InboundMessage} (h : HasEntry t p x rxid msg y) :
    y.replayFilter = x.replayFilter ∧ y.sendMACKs = x.sendMACKs ∧ y.log = x.log := by cases h <;> exact ⟨rfl, rfl, rfl⟩

/-- the packet that `HandlePlaintext` dispatches and its state, the entries of `m_RXMsgs` that a `Tick` finds, or the
arguments -/
inductive Cause (σ : Type) where
  | packet (p : Packet) (at_ : World σ)
  | tick (found : TreeMap UInt64 InboundMessage)
  | call

def Cause.pkt : Cause σ → Option Packet
  | .packet p _ => some p
  | _ => none

def Completes (c : Crypto) (t : Clock) (x : Rx) (p : Packet) (data : Message) : Prop :=
  ∃ y rxid idx buf msg msg', Carries p rxid idx buf ∧ HasEntry t p x rxid msg y ∧
    msg.handleData idx buf t.now = .ok msg' ∧ msg'.isCompleted = .ok true ∧
    msg'.verify c = true ∧ msg'.msgID ∉ x.replayFilter ∧ msg'.data = data

def World.Brings (env : Env σ) (t : Clock) (w : World σ) (p : Packet) (lim : LinkIntroMessage) : Prop :=
  lim.verify env t = true ∧ ∃ data, Completes env.crypto t w.rx p data ∧ (env.handleMessage w.parent data).2 = some lim

def Acks (p : Packet) (id : UInt64) (msg : OutboundMessage) : Prop :=
  IsMack p id ∨ ∃ mask, IsAcks p id mask ∧ (msg.ack mask).isTransmitted = .ok true

def World.LimAckedBy (w : World σ) (p : Packet) : Prop :=
  ∃ id msg, w.tx.txMsgs[id]? = some msg ∧ msg.completed = some .outboundLIM ∧ Acks p id msg

def World.ClosedSince (w w₀ : World σ) : Prop :=
  w.ctl.state = .closed → w₀.ctl.state = .closed ∨ ∃ pk, Call.mapAddr pk true ∈ w.ctl.calls

def IsOurLIM (env : Env σ) (buf : Message) : Prop :=
  ∃ n z, let msg : LinkIntroMessage := { rc := env.ourRC, N := n, P := 60000, Z := .zero 64 }
    env.sign (env.encodeLIM msg) = some z ∧ ∃ k, buf = env.encodeLIM { msg with Z := z } ++ replicate k 0

inductive TxKind where
  | offered (buf : Message) (h : Option Handler)
  | acked (id : UInt64) (msg : OutboundMessage)
  | other

def TxKind.handler : TxKind → Option Handler
  | .offered _ h => h
  | .acked _ msg => msg.completed
  | .other => none

inductive TxMove (c : Crypto) (t : Clock) (cause : Cause σ) : Tx → TxKind → Tx → Prop where
  | accept (x : Tx) (buf : Message) (h : Option Handler) (priority : UInt16) (hsize : x.txMsgs.size < maxSendQueueSize)
      (hbuf : buf.length ≤ maxLinkMsgSize ∨ x.txID ∈ x.txMsgs) :
      TxMove c t cause x (.offered buf h) (Tx.accept c t.now x buf h priority)
  | reject (x : Tx) (buf : Message) (h : Option Handler) :
      TxMove c t cause x (.offered buf h) { x with log := x.log ++ [TxEvent.rejected h .dropped] }
  | ack (x : Tx) {p : Packet} {id : UInt64} {msg : OutboundMessage} {mask : UInt8}
      (hp : cause.pkt = some p) (hack : IsAcks p id mask) (hmsg : x.txMsgs[id]? = some msg) :
      TxMove c t cause x .other (x.put id (msg.ack mask))
  | flushed (x : Tx) {id : UInt64} {msg : OutboundMessage} (hmsg : x.txMsgs[id]? = some msg) :
      TxMove c t cause x .other (x.put id { msg with lastFlush := t.now })
  | ackDone (x : Tx) {p : Packet} {id : UInt64} {msg : OutboundMessage} {mask : UInt8}
      (hp : cause.pkt = some p) (hack : IsAcks p id mask) (hmsg : x.txMsgs[id]? = some msg)
      (hdone : (msg.ack mask).isTransmitted = .ok true) :
      TxMove c t cause x (.acked id msg) ((x.put id (msg.ack mask)).finish id (msg.ack mask) .success)
  | mackDone (x : Tx) {p : Packet} {id : UInt64} {msg : OutboundMessage}
      (hp : cause.pkt = some p) (hack : IsMack p id) (hmsg : x.txMsgs[id]? = some msg) :
      TxMove c t cause x (.acked id msg) (x.countAcked.finish id msg .success)
  | drop (x : Tx) {id : UInt64} {msg : OutboundMessage} (hmsg : x.txMsgs[id]? = some msg)
      (htime : msg.isTimedOut t.now = true) :
      TxMove c t cause x .other (x.countDropped.finish id msg .dropped)

variable {c : Crypto} {cause : Cause σ}

lemma TxMove.entry {k : TxKind} {x x' : Tx}
    (h : TxMove c t cause x k x') {m : OutboundMessage} (hm : x'.txMsgs[id]? = some m) :
    (∃ m₀, x.txMsgs[id]? = some m₀ ∧ m.completed = m₀.completed ∧ m.data = m₀.data) ∨
      (k = .offered m.data m.completed ∧ accepted id m.data m.completed ∈ x'.log) := by
  -- a message that is changed in place
  have hput : ∀ {i : UInt64} {m₀ m₁ : OutboundMessage}, x.txMsgs[i]? = some m₀ →
      (x.put i m₁).txMsgs[id]? = some m → m₁.completed = m₀.completed → m₁.data = m₀.data →
      ∃ m₀, x.txMsgs[id]? = some m₀ ∧ m.completed = m₀.completed ∧ m.data = m₀.data := by
    intro i m₀ m₁ h0 hput hc hd
    have hget : (x.txMsgs.insert i m₁)[id]? = some m := hput
    rw [get_insert] at hget
    split at hget
    · rename_i hi
      subst hi
      cases hget
      exact ⟨m₀, h0, hc, hd⟩
    · exact ⟨m, hget, rfl, rfl⟩
  cases h with
  | accept buf hd =>
    have hget : (x.txMsgs.insertIfNew x.txID _)[id]? = some m := hm
    rw [get_insertIfNew] at hget
    split at hget
    · rename_i hnew
      obtain ⟨rfl, _⟩ := hnew
      cases hget
      exact .inr ⟨rfl, mem_append_right _ mem_cons_self⟩
    · exact .inl ⟨m, hget, rfl, rfl⟩
  | reject buf hd => exact .inl ⟨m, hm, rfl, rfl⟩
  | ack hp hack hmsg | flushed hmsg => exact .inl (hput hmsg hm rfl rfl)
  | ackDone hp hack hmsg => exact .inl (hput hmsg (finish_get hm).2 rfl rfl)
  | mackDone hp hack hmsg => exact .inl ⟨m, (finish_get (x := x.countAcked) hm).2, rfl, rfl⟩
  | drop hmsg => exact .inl ⟨m, (finish_get (x := x.countDropped) hm).2, rfl, rfl⟩

lemma TxMove.acked {msg : OutboundMessage}
    {x x' : Tx} (h : TxMove c t cause x (.acked id msg) x') :
    x.txMsgs[id]? = some msg ∧ x'.txMsgs[id]? = none ∧ ∃ p, cause.pkt = some p ∧ Acks p id msg := by
  cases h with
  | ackDone hp hack hmsg hdone =>
    refine ⟨hmsg, ?_, _, hp, .inr ⟨_, hack, hdone⟩⟩
    rw [finish_txMsgs, get_erase, if_pos rfl]
  | mackDone hp hack hmsg =>
    refine ⟨hmsg, ?_, _, hp, .inl hack⟩
    rw [finish_txMsgs, get_erase, if_pos rfl]

inductive Move (env : Env σ) (t : Clock) (cause : Cause σ) : World σ → World σ → Prop where
  | io (w : World σ) (x : Io) : Move env t cause w { w with io := x }
  | create (w : World σ) {p : Packet} (h : Creates env w p) : Move env t cause w { w with created := w.created ++ [p] }
  | tx (w : World σ) {k : TxKind} {x : Tx} (h : TxMove env.crypto t cause w.tx k x)
      (hk : k.handler ≠ some .outboundLIM) : Move env t cause w { w with tx := x }
  -- incoming messages
  | openRX (w : World σ) {p : Packet} {sz : UInt16} {rxid : UInt64} {h : ShortHash}
      (hp : cause.pkt = some p) (hx : IsXmit p sz rxid h) (hnew : rxid ∉ w.rx.replayFilter)
      (hnone : w.rx.rxMsgs[rxid]? = none)
      (hlen : p.length - xmitOverhead ≠ (min sz (.ofNat fragmentSize)).toNat) :
      Move env t cause w (w.putRX rxid (.new rxid sz h t.now))
  | data (w : World σ) {y : Rx} {p : Packet} {rxid : UInt64} {idx : UInt16} {buf : Bytes}
      {msg msg' : InboundMessage} (hp : cause.pkt = some p) (hc : Carries p rxid idx buf)
      (hmsg : HasEntry t p w.rx rxid msg y) (hdata : msg.handleData idx buf t.now = .ok msg')
      (hpart : msg'.isCompleted = .ok false ∨ msg'.verify env.crypto = false ∨ msg'.msgID ∈ w.rx.replayFilter) :
      Move env t cause w { w with rx := y.put rxid msg' }
  | deliver (w : World σ) {y : Rx} {p : Packet} {rxid : UInt64} {idx : UInt16} {buf : Bytes}
      {msg msg' : InboundMessage} (hp : cause.pkt = some p) (hc : Carries p rxid idx buf)
      (hmsg : HasEntry t p w.rx rxid msg y) (hdata : msg.handleData idx buf t.now = .ok msg')
      (hdone : msg'.isCompleted = .ok true) (hver : msg'.verify env.crypto = true)
      (hnew : msg'.msgID ∉ w.rx.replayFilter) :
      Move env t cause w { w with rx := y.deliver t.now rxid msg' }
  | discard (w : World σ) (rxid : UInt64) :
      Move env t cause w { w with rx := { w.rx with rxMsgs := w.rx.rxMsgs.erase rxid } }
  | acksSent (w : World σ) {rxid : UInt64} {msg : InboundMessage} (hmsg : w.rx.rxMsgs[rxid]? = some msg) :
      Move env t cause w (w.putRX rxid { msg with lastACKSent := t.now })
  | timeOut (w : World σ) {found : TreeMap UInt64 InboundMessage} {rxid : UInt64} {msg : InboundMessage}
      (hc : cause = .tick found) (hfound : found[rxid]? = some msg) (htime : msg.isTimedOut t.now = true) :
      Move env t cause w { w with rx := { w.rx with
        replayFilter := w.rx.replayFilter.insertIfNew rxid t.now
        rxMsgs := w.rx.rxMsgs.erase rxid
        log := w.rx.log ++ [RxEvent.timedOut rxid t.now] } }
  | expire (w : World σ) {rxid : UInt64} {since : Millis} (h : w.rx.replayFilter[rxid]? = some since)
      (htime : since + replayWindow ≤ t.now) :
      Move env t cause w { w with rx := { w.rx with
        replayFilter := w.rx.replayFilter.erase rxid
        log := w.rx.log ++ [RxEvent.expired rxid t.now] } }
  | pushMACK (w : World σ) {rxid : UInt64} (h : rxid ∈ w.rx.replayFilter) : Move env t cause w (w.pushMACK rxid)
  | popMACK (w : World σ) (n : ℕ) : Move env t cause w { w with rx := { w.rx with sendMACKs := w.rx.sendMACKs.drop n } }
  -- control
  | shut (w : World σ) (h : w.ctl.state ≠ .closed) : Move env t cause w (w.shut env)
  | message (w : World σ) (data : Message) : Move env t cause w { w with parent := (env.handleMessage w.parent data).1 }
  | limIn (w : World σ) {p : Packet} {w₀ : World σ} {lim : LinkIntroMessage} (hp : cause = .packet p w₀)
      (hctl : w.ctl = w₀.ctl) (hlim : w₀.Brings env t p lim)
      (hook : w.ctl.gotLIM = .inbound) (hpk : lim.rc.pubkey = w.ctl.expectedIdent) :
      Move env t cause w ((w.introduced lim.rc).establish env true)
  -- `x` is the session's outgoing messages with our link intro, or without when it could not be made
  | limOut (w : World σ) {p : Packet} {w₀ : World σ} {lim : LinkIntroMessage} {x : Tx}
      (hp : cause = .packet p w₀) (hlim : w₀.Brings env t p lim)
      (hook : w.ctl.gotLIM = .outbound) (hpk : lim.rc.pubkey = w.ctl.remoteRC.pubkey)
      (hx : x = w.tx ∨ ∃ buf, IsOurLIM env buf ∧ TxMove env.crypto t cause w.tx (.offered buf (some .outboundLIM)) x) :
      Move env t cause w { w with
        tx := x
        ctl := { w.ctl with
          gotLIM := .reneg, remoteRC := lim.rc
          calls := w.ctl.calls ++ [.gotLIM .outbound w.ctl.state true] } }
  | limOther (w : World σ) (same : Bool) (h : w.ctl.gotLIM = .reneg ∨ same = false) :
      Move env t cause w (w.call (.gotLIM w.ctl.gotLIM w.ctl.state same))
  | renegotiate (w : World σ) (lim : LinkIntroMessage) (hook : w.ctl.gotLIM = .reneg) :
      Move env t cause w { w with parent := env.sessionRenegotiate w.parent lim.rc w.ctl.remoteRC }
  | limAcked (w : World σ) {p : Packet} {w₀ : World σ} {id : UInt64} {msg : OutboundMessage} {x : Tx}
      (hp : cause = .packet p w₀) (hby : w₀.LimAckedBy p) (hst : w.ClosedSince w₀)
      (h : TxMove env.crypto t cause w.tx (.acked id msg) x)
      (hc : msg.completed = some .outboundLIM) :
      Move env t cause w (({ w with
        tx := x
        ctl := { w.ctl with
          state := .ready
          calls := w.ctl.calls ++ [.limAcked w.ctl.state, .state .ready] } } : World σ).establish env false)

abbrev Moves (env : Env σ) (t : Clock) (cause : Cause σ) : World σ → World σ → Prop :=
  Relation.ReflTransGen (Move env t cause)

section
variable {env : Env σ} {t : Clock} {cause : Cause σ} {w w' : World σ}

lemma Move.inq_eq (h : Move env t cause w w') : w'.inq = w.inq := by cases h <;> rfl

lemma Moves.inq_eq (h : Moves env t cause w w') : w'.inq = w.inq := by
  induction h with
  | refl => rfl
  | tail _ hm ih => rw [hm.inq_eq, ih]

lemma Move.tx_inv {I : Tx → Prop} (h : Move env t cause w w')
    (htx : ∀ {k : TxKind} {x x' : Tx}, TxMove env.crypto t cause x k x' → I x → I x')
    (hw : I w.tx) : I w'.tx := by
  cases h with
  | tx h | limAcked hp hby hst h => exact htx h hw
  | limOut hp hlim hook hpk hx =>
    rcases hx with rfl | ⟨_, _, hx⟩
    · exact hw
    · exact htx hx hw
  | _ => exact hw

lemma Moves.inv {I : World σ → Prop} (h : Moves env t cause w w')
    (hmove : ∀ a b, a.inq = w.inq → Move env t cause a b → I a → I b) (h0 : I w) : I w' := by
  induction h with
  | refl => exact h0
  | tail hs hm ih => exact hmove _ _ (Moves.inq_eq hs) hm ih

lemma establish_calls (env : Env σ) (w : World σ) (inbound : Bool) :
    w.ctl.calls <+: (w.establish env inbound).ctl.calls := by
  unfold establish
  dsimp only
  split <;> exact prefix_append _ _

lemma Move.calls (h : Move env t cause w w') : w.ctl.calls <+: w'.ctl.calls := by
  cases h with
  | shut hst | limOut hp hlim hook hpk | limOther => exact prefix_append _ _
  | limIn hp hctl hlim hook hpk =>
    refine IsPrefix.trans ?_ (establish_calls env _ true)
    exact prefix_append _ _
  | limAcked hp hby hst h =>
    refine IsPrefix.trans ?_ (establish_calls env _ false)
    exact prefix_append _ _
  | _ => exact prefix_refl _

lemma Moves.calls (h : Moves env t cause w w') : w.ctl.calls <+: w'.ctl.calls := by
  induction h with
  | refl => exact prefix_refl _
  | tail _ hm ih => exact ih.trans hm.calls

lemma Moves.rx_log (h : Moves env t cause w w') {e : RxEvent} (he : e ∈ w.rx.log) : e ∈ w'.rx.log :=
  h.inv (I := fun v => e ∈ v.rx.log) (fun a b _ hm ha => by
      cases hm with
      | data hp hc hmsg hdata =>
        rw [← hmsg.same.2.2] at ha
        exact ha
      | deliver hp hc hmsg hdata =>
        rw [← hmsg.same.2.2] at ha
        exact mem_append_left _ ha
      | timeOut hc hfound htime | expire h htime => exact mem_append_left _ ha
      | _ => exact ha) he

lemma Moves.sent (h : Creates env w p) (x : Io) : Moves env t cause w { w with created := w.created ++ [p], io := x } :=
  (single (.create w h)).tail (.io { w with created := w.created ++ [p] } x)

lemma Moves.encryptAndSend (h : Creates env w p) : Moves env t cause w (w.encryptAndSend env t p) := by
  rw [encryptSend_eq]
  exact Moves.sent h _

lemma Moves.close (w : World σ) : Moves env t cause w (w.close env t) := by
  rw [close_eq]
  split
  · exact .refl
  rename_i hst
  split
  · exact .single (.shut w hst)
  · exact (single (.shut w hst)).trans (Moves.encryptAndSend .clos)

lemma establish_eq (env : Env σ) (t : Clock) (w : World σ) (hst : w.ctl.state = .ready) (inbound : Bool) :
    (w.mapAddr env t w.ctl.remoteRC.pubkey).sessionEstablished env inbound = w.establish env inbound ∨
      ∃ x, (w.mapAddr env t w.ctl.remoteRC.pubkey).sessionEstablished env inbound = { w.establish env inbound with
            created := w.created ++ [createPacket env.rng w.created.length .clos [] 16 16], io := x } := by
  unfold mapAddr establish
  by_cases hr : (env.mapAddr w.parent w.ctl.remoteRC.pubkey w.remoteAddr).2 = true
  · simp only [hr, if_true]
    rw [close_eq]
    have hne : ¬ (State.ready = State.closed) := by decide
    simp only [call, hst, hne, if_false]
    by_cases hs : w.ctl.sentClosed = true
    · refine .inl ?_
      simp only [hs, if_true, shut, sessionEstablished, call, append_assoc, cons_append, nil_append]
    refine .inr ?_
    simp only [hs, Bool.false_eq_true, if_false, encryptSend_eq, shut,
      sessionEstablished, call, append_assoc, cons_append, nil_append]
    exact ⟨_, rfl⟩
  · refine .inl ?_
    simp only [hr, Bool.false_eq_true, if_false, sessionEstablished, call, append_assoc, cons_append, nil_append]

lemma establish_ctl (env : Env σ) (t : Clock) (w : World σ) (hst : w.ctl.state = .ready) (inbound : Bool) :
    ((w.mapAddr env t w.ctl.remoteRC.pubkey).sessionEstablished env inbound).ctl = (w.establish env inbound).ctl := by
  rcases establish_eq env t w hst inbound with heq | ⟨x, heq⟩ <;> rw [heq]

lemma Moves.establish (w : World σ) (hst : w.ctl.state = .ready) (inbound : Bool) :
    Moves env t cause (w.establish env inbound)
      ((w.mapAddr env t w.ctl.remoteRC.pubkey).sessionEstablished env inbound) := by
  rcases establish_eq env t w hst inbound with heq | ⟨x, heq⟩
  · rw [heq]
  · rw [heq]
    exact Moves.sent (w := w.establish env inbound) .clos x

end

end Belnet.Iwp
