import Belnet.Lib.Maps
import Belnet.Iwp.MessageBuffer

/-!
# The IWP session: its state and what it does to its parent

The members of `llarp::iwp::Session` by subject.  Four fields only record what happened and are never read by the
program.
-/

namespace Belnet.Iwp
open Std (TreeMap)

structure SockAddr where
  ip : BitVec 128
  port : UInt16
deriving DecidableEq, Repr

structure AddressInfo where
  dialect : String
  pubkey : PubKey
  addr : SockAddr
deriving DecidableEq

structure RouterContact where
  pubkey : PubKey
  addrs : List AddressInfo
  routerVersion : Option (ℕ × ℕ × ℕ)
  rest : Bytes
deriving DecidableEq

def RouterContact.isPublicRouter (rc : RouterContact) : Bool := rc.routerVersion.isSome && !rc.addrs.isEmpty

structure LinkIntroMessage where
  rc : RouterContact
  N : Bytes
  P : ℕ
  Z : Signature

abbrev limMaxSize : ℕ := 1024 + 256

/-! ## the state of a session -/

inductive State where
  | initial
  | introduction
  | linkIntro
  | ready
  | closed
deriving DecidableEq, Repr

inductive Hook where
  | inbound | outbound | reneg
deriving DecidableEq, Repr

inductive TxEvent where
  | accepted (id : UInt64) (data : Message) (h : Option Handler)
  | invoked (id : UInt64) (h : Handler) (st : DeliveryStatus)
  | rejected (h : Option Handler) (st : DeliveryStatus)
deriving DecidableEq

inductive RxEvent where
  | delivered (rxid : UInt64) (data : Message) (at_ : Millis)
  | timedOut (rxid : UInt64) (at_ : Millis)
  | expired (rxid : UInt64) (at_ : Millis)
deriving DecidableEq

inductive Call where
  | state (st : State)
  /-- a verified link intro reached `GotLIM` in state `st`; `same` says whether its key is the
  expected one -/
  | gotLIM (hook : Hook) (st : State) (same : Bool)
  | limAcked (st : State)
  | mapAddr (pk : PubKey) (refused : Bool)
  | sessionEstablished (inbound : Bool)
deriving DecidableEq

inductive Job where
  | encrypt (pkts : List Packet)
  | decrypt (pkts : List Packet)

structure Tx where
  txID : UInt64 := 0
  txMsgs : TreeMap UInt64 OutboundMessage := ∅
  totalAckedTX : UInt64 := 0
  totalDroppedTX : UInt64 := 0
  totalInFlightTX : UInt64 := 0
  log : List TxEvent := []

structure Rx where
  rxMsgs : TreeMap UInt64 InboundMessage := ∅
  replayFilter : TreeMap UInt64 Millis := ∅
  sendMACKs : List UInt64 := []
  log : List RxEvent := []

structure Ctl where
  state : State := .initial
  gotLIM : Hook
  remoteRC : RouterContact
  sessionKey : SharedSecret
  token : AlignedBuffer 24
  expectedIdent : PubKey := .zero 32
  remoteOnionKey : PubKey := .zero 32
  sentClosed : Bool := false
  calls : List Call := []

structure Io where
  lastTX : Millis := 0
  lastRX : Millis := 0
  txRate : UInt64 := 0
  rxRate : UInt64 := 0
  resetRatesAt : Millis := 0
  currentRateTX : UInt64 := 0
  currentRateRX : UInt64 := 0
  totalPacketsRX : UInt64 := 0
  encryptNext : List Packet := []
  wire : List Packet := []

structure Inq where
  decryptNext : List Packet := []
  plaintextRecv : List (List Packet) := []
  plaintextEmpty : Bool := true
  work : List Job := []
  received : List Packet := []
  handled : List Packet := []

structure Session where
  inbound : Bool
  createdAt : Millis
  remoteAddr : SockAddr
  chosenAI : AddressInfo
  tx : Tx := {}
  rx : Rx := {}
  ctl : Ctl
  io : Io := {}
  inq : Inq := {}
  created : List Packet := []

structure Clock where
  now : Millis
  wall : Millis

/-- what the sessions of one router share: its contact and keys, and the functions that they call -/
structure Node where
  crypto : Crypto
  ourRC : RouterContact
  routerEncryptionSecret : SecretKey
  transportSecretKey : SecretKey
  toPublic : SecretKey → PubKey
  sign : Bytes → Option Signature
  encodeLIM : LinkIntroMessage → Bytes
  rcVerify : RouterContact → Millis → Bool

/-- the environment of a session: its randomness, and what it calls on the link layer `σ` that it belongs to -/
structure Env (σ : Type) extends Node where
  rng : Rng
  unmapAddr : σ → SockAddr → σ
  mapAddr : σ → PubKey → SockAddr → σ × Bool
  sessionEstablished : σ → RouterContact → Bool → σ
  sessionRenegotiate : σ → RouterContact → RouterContact → σ
  handleMessage : σ → Bytes → σ × Option LinkIntroMessage

structure World (σ : Type) extends Session where
  parent : σ

variable {σ : Type}

def LinkIntroMessage.verify (env : Env σ) (t : Clock) (msg : LinkIntroMessage) : Bool :=
  let buf := env.encodeLIM { msg with Z := .zero 64 }
  decide (buf.length ≤ limMaxSize) && env.crypto.verify msg.rc.pubkey buf msg.Z && env.rcVerify msg.rc t.wall

def Session.newOutbound (c : Crypto) (now : Millis) (rc : RouterContact) (ai : AddressInfo) : Session where
  inbound := false
  createdAt := now
  remoteAddr := ai.addr
  chosenAI := ai
  ctl :=
    { gotLIM := .outbound
      remoteRC := rc
      sessionKey := c.shorthash rc.pubkey.toList
      token := .zero 24 }

def RouterContact.empty : RouterContact := ⟨.zero 32, [], none, []⟩

def AddressInfo.empty : AddressInfo := ⟨"", .zero 32, ⟨0, 0⟩⟩

def Session.newInbound (c : Crypto) (now : Millis) (src : SockAddr) (ourKey : PubKey)
    (token : AlignedBuffer 24) : Session where
  inbound := true
  createdAt := now
  remoteAddr := src
  chosenAI := AddressInfo.empty
  ctl :=
    { gotLIM := .inbound
      remoteRC := .empty
      sessionKey := c.shorthash ourKey.toList
      token := token }

def Tx.logInvoked (x : Tx) (id : UInt64) (h : Option Handler) (st : DeliveryStatus) : Tx :=
  match h with
  | none => x
  | some h => { x with log := x.log ++ [.invoked id h st] }

namespace World
variable (env : Env σ) (t : Clock)

section
variable (w : World σ)

def sendLL (p : Packet) : World σ :=
  { w with io := { w.io with
      wire := w.io.wire ++ [p], lastTX := t.wall, txRate := w.io.txRate + .ofNat p.length } }

def encryptWorker (msgs : List Packet) : World σ :=
  msgs.foldl (fun w p => w.sendLL t (encryptPacket env.crypto w.ctl.sessionKey p)) w

def isEstablished : Bool := w.ctl.state = .ready

def encryptAndSend (p : Packet) : World σ :=
  let w := { w with created := w.created ++ [p], io := { w.io with encryptNext := w.io.encryptNext ++ [p] } }
  if w.isEstablished then w
  else
    let w := w.encryptWorker env t w.io.encryptNext
    { w with io := { w.io with encryptNext := [] } }

def touchRX : World σ := { w with io := { w.io with lastRX := t.now } }

/-! ## state changes and calls on the parent -/

def call (c : Call) : World σ := { w with ctl := { w.ctl with calls := w.ctl.calls ++ [c] } }

def setState (st : State) : World σ :=
  { w with ctl := { w.ctl with state := st, calls := w.ctl.calls ++ [.state st] } }

def close : World σ :=
  if w.ctl.state = .closed then w
  else
    let closeMsg := createPacket env.rng w.created.length .clos [] 16 16
    let w := { w with parent := env.unmapAddr w.parent w.remoteAddr }
    let w := w.setState .closed
    if w.ctl.sentClosed then w
    else
      let w := { w with ctl := { w.ctl with sentClosed := true } }
      w.encryptAndSend env t closeMsg

def mapAddr (pk : PubKey) : World σ :=
  let (p, refused) := env.mapAddr w.parent pk w.remoteAddr
  let w := { w with parent := p }
  let w := w.call (.mapAddr pk refused)
  if refused then w.close env t else w

def sessionEstablished (inbound : Bool) : World σ :=
  let w := { w with parent := env.sessionEstablished w.parent w.ctl.remoteRC inbound }
  w.call (.sessionEstablished inbound)

def limAcked : World σ :=
  let w := w.call (.limAcked w.ctl.state)
  let w := w.setState .ready
  let w := w.mapAddr env t w.ctl.remoteRC.pubkey
  w.sessionEstablished env false

def runHandler (h : Option Handler) (st : DeliveryStatus) : World σ :=
  match h, st with
  | some .outboundLIM, .success => w.limAcked env t
  | _, _ => w

def finish (id : UInt64) (msg : OutboundMessage) (st : DeliveryStatus) : World σ :=
  let w := { w with tx := Tx.logInvoked w.tx id msg.completed st }
  let w := w.runHandler env t msg.completed st
  { w with tx := { w.tx with txMsgs := w.tx.txMsgs.erase id } }

def flushUnAcked (id : UInt64) : Except Fault (World σ) :=
  match w.tx.txMsgs[id]? with
  | none => .ok w
  | some msg => do
    let idxs ← msg.unAcked
    let w := idxs.foldl (fun w idx =>
      w.encryptAndSend env t (dataPacket env.rng w.created.length idx msg.msgID (fragment msg.data idx))) w
    return { w with tx := { w.tx with txMsgs := w.tx.txMsgs.insert id { msg with lastFlush := t.now } } }

/-- the new message with its first packet -/
def enter (buf : Message) (completed : Option Handler) (priority : UInt16) : World σ :=
  let msgid := w.tx.txID
  let msg := .new env.crypto msgid buf t.now completed priority
  -- emplace: a message that already has this id stays
  let w := { w with tx := { w.tx with
    txID := msgid + 1
    txMsgs := w.tx.txMsgs.insertIfNew msgid msg
    log := w.tx.log ++ [TxEvent.accepted msgid buf completed] } }
  let msg := (w.tx.txMsgs[msgid]?).getD msg
  w.encryptAndSend env t (msg.xmit env.rng w.created.length)

def inFlight (n : UInt64) : World σ := { w with tx := { w.tx with totalInFlightTX := n } }

def sendMessageBuffer (buf : Message) (completed : Option Handler) (priority : UInt16) :
    Except Fault (Bool × World σ) :=
  if w.tx.txMsgs.size ≥ maxSendQueueSize then
    .ok (false, { w with tx := { w.tx with log := w.tx.log ++ [TxEvent.rejected completed .dropped] } })
  else
    let msgid := w.tx.txID
    let w := w.enter env t buf completed priority
    (fun w => (true, w.inFlight (w.tx.totalInFlightTX + 1))) <$>
      if buf.length > fragmentSize then w.flushUnAcked env t msgid else .ok w

def sendOurLIM (h : Option Handler) : Except Fault (World σ) :=
  let msg : LinkIntroMessage :=
    { rc := env.ourRC, N := env.rng.limNonce w.created.length, P := 60000, Z := .zero 64 }
  let signbuf := env.encodeLIM msg
  if signbuf.length > limMaxSize then .ok w
  else match env.sign signbuf with
    | none => .ok w
    | some z =>
      let data := env.encodeLIM { msg with Z := z }
      if data.length > limMaxSize + packetOverhead then .ok w
      else do
        let buf := data ++ List.replicate (limMaxSize + packetOverhead - data.length) 0
        let (_, w) ← w.sendMessageBuffer env t buf h 0
        return w

section
variable (msg : LinkIntroMessage)

def gotInboundLIM : World σ :=
  let w := w.call (.gotLIM .inbound w.ctl.state (msg.rc.pubkey = w.ctl.expectedIdent))
  if msg.rc.pubkey ≠ w.ctl.expectedIdent then w
  else
    let w := w.setState .ready
    let w := { w with ctl := { w.ctl with gotLIM := .reneg, remoteRC := msg.rc } }
    let w := w.mapAddr env t w.ctl.remoteRC.pubkey
    w.sessionEstablished env true

def gotOutboundLIM : Except Fault (World σ) :=
  let w := w.call (.gotLIM .outbound w.ctl.state (msg.rc.pubkey = w.ctl.remoteRC.pubkey))
  if msg.rc.pubkey ≠ w.ctl.remoteRC.pubkey then .ok w
  else
    let w := { w with ctl := { w.ctl with remoteRC := msg.rc, gotLIM := .reneg } }
    w.sendOurLIM env t (some .outboundLIM)

def gotRenegLIM : World σ :=
  let w := w.call (.gotLIM .reneg w.ctl.state (msg.rc.pubkey = w.ctl.remoteRC.pubkey))
  { w with parent := env.sessionRenegotiate w.parent msg.rc w.ctl.remoteRC }

def gotLIM : Except Fault (World σ) :=
  match w.ctl.gotLIM with
  | .inbound => .ok (w.gotInboundLIM env t msg)
  | .outbound => w.gotOutboundLIM env t msg
  | .reneg => .ok (w.gotRenegLIM env msg)

end

def handleMessage (rxid : UInt64) (data : Message) : Except Fault (World σ) :=
  let w := { w with rx := { w.rx with log := w.rx.log ++ [RxEvent.delivered rxid data t.now] } }
  let (p, lim) := env.handleMessage w.parent data
  let w := { w with parent := p }
  match lim with
  | none => .ok w
  | some msg => if msg.verify env t then w.gotLIM env t msg else .ok w

def handleRecvMsgCompleted (msg : InboundMessage) : Except Fault (World σ) :=
  let rxid := msg.msgID
  (fun w => { w with rx := { w.rx with rxMsgs := w.rx.rxMsgs.erase rxid } }) <$>
    if rxid ∈ w.rx.replayFilter then .ok w
    else do
      let w := { w with rx := { w.rx with replayFilter := w.rx.replayFilter.insertIfNew rxid t.now } }
      let w ← w.handleMessage env t rxid msg.data
      return w.encryptAndSend env t (msg.ackPacket env.rng w.created.length)

def pushMACK (rxid : UInt64) : World σ :=
  { w with rx := { w.rx with sendMACKs := w.rx.sendMACKs.orderedInsert (· ≤ ·) rxid } }

def putRX (rxid : UInt64) (msg : InboundMessage) : World σ :=
  { w with rx := { w.rx with rxMsgs := w.rx.rxMsgs.insert rxid msg } }

/-! ## packet handlers -/

abbrev xmitOverhead : ℕ := commandOverhead + packetOverhead + 2 + 8 + 32

def handleXMIT (data : Packet) : Except Fault (World σ) :=
  if data.length < xmitOverhead then .ok w
  else do
    let sz ← readU16 data (packetOverhead + (commandOverhead + 0))
    let rxid ← readU64 data (packetOverhead + (commandOverhead + 2))
    let h ← readBuf 32 data (packetOverhead + (commandOverhead + 10))
    let w := w.touchRX t
    -- check for replay
    if rxid ∈ w.rx.replayFilter then return w.pushMACK rxid
    else match w.rx.rxMsgs[rxid]? with
      | some _ => return w
      | none =>
        let msg := .new rxid sz h t.now
        let w := w.putRX rxid msg
        let sz := min sz (.ofNat fragmentSize)
        if data.length - xmitOverhead = sz.toNat then do
          let buf ← readSlice data (data.length - sz.toNat) sz.toNat
          let msg ← msg.handleData 0 buf t.now
          let w := w.putRX rxid msg
          if !(← msg.isCompleted) then return w
          else if !msg.verify env.crypto then return w
          else w.handleRecvMsgCompleted env t msg
        else return w

def handleDATA (data : Packet) : Except Fault (World σ) :=
  if data.length < commandOverhead + 2 + 8 + packetOverhead then .ok w
  else do
    let w := w.touchRX t
    let sz ← readU16 data (packetOverhead + (commandOverhead + 0))
    let rxid ← readU64 data (packetOverhead + (commandOverhead + 2))
    match w.rx.rxMsgs[rxid]? with
    | none =>
      if rxid ∈ w.rx.replayFilter then return w.pushMACK rxid
      else
        let nack := createPacket env.rng w.created.length .nack (Bytes.writeBig 8 rxid.toNat) 16 16
        return w.encryptAndSend env t nack
    | some msg =>
      let buf ← readSlice data (packetOverhead + (commandOverhead + 10))
        (data.length - (packetOverhead + (commandOverhead + 10)))
      let msg ← msg.handleData sz buf t.now
      let w := w.putRX rxid msg
      if ← msg.isCompleted then
        if msg.verify env.crypto then w.handleRecvMsgCompleted env t msg else return w
      else return w

def handleACKS (data : Packet) : Except Fault (World σ) :=
  if data.length < 11 + packetOverhead then .ok w
  else do
    let w := w.touchRX t
    let txid ← readU64 data (packetOverhead + (commandOverhead + 0))
    match w.tx.txMsgs[txid]? with
    | none => return w
    | some msg =>
      let mask ← readByte data (packetOverhead + (commandOverhead + 8))
      let msg := msg.ack mask
      let w := { w with tx := { w.tx with txMsgs := w.tx.txMsgs.insert txid msg } }
      if ← msg.isTransmitted then return w.finish env t txid msg .success
      else w.flushUnAcked env t txid

def handleNACK (data : Packet) : Except Fault (World σ) :=
  if data.length < commandOverhead + 8 + packetOverhead then .ok w
  else do
    let txid ← readU64 data (packetOverhead + (commandOverhead + 0))
    let w := match w.tx.txMsgs[txid]? with
      | none => w
      | some msg => w.encryptAndSend env t (msg.xmit env.rng w.created.length)
    return w.touchRX t

def mackOne (acked : UInt64) : World σ :=
  match w.tx.txMsgs[acked]? with
  | none => w
  | some msg =>
    let w := { w with tx := { w.tx with
      totalAckedTX := w.tx.totalAckedTX + 1, totalInFlightTX := w.tx.totalInFlightTX - 1 } }
    w.finish env t acked msg .success

end

def mackLoop (data : Packet) : ℕ → ℕ → World σ → Except Fault (World σ)
  | 0, _, w => .ok w
  | n+1, ptr, w => do
    let acked ← readU64 data (packetOverhead + (commandOverhead + ptr))
    mackLoop data n (ptr + 8) (w.mackOne env t acked)

def handleMACK (w : World σ) (data : Packet) : Except Fault (World σ) :=
  if data.length < 3 + packetOverhead then .ok w
  else do
    let numAcks ← readByte data (packetOverhead + (commandOverhead + 0))
    if data.length < 1 + commandOverhead + packetOverhead + numAcks.toNat * 8 then return w
    else mackLoop env t data numAcks.toNat 1 w

def handlePING (w : World σ) (_ : Packet) : World σ := w.touchRX t

def handleCLOS (w : World σ) (_ : Packet) : World σ := w.close env t

def handlePacket (w : World σ) (data : Packet) : Except Fault (World σ) := do
  let w := { w with inq := { w.inq with handled := w.inq.handled ++ [data] } }
  let cmd ← readByte data (packetOverhead + 1)
  match Command.ofByte cmd with
  | some .xmit => w.handleXMIT env t data
  | some .data => w.handleDATA env t data
  | some .acks => w.handleACKS env t data
  | some .ping => return w.handlePING t data
  | some .nack => w.handleNACK env t data
  | some .clos => return w.handleCLOS env t data
  | some .mack => w.handleMACK env t data
  | none => return w

def mackBody (ids : List UInt64) : Bytes := .ofNat ids.length :: ids.flatMap (fun id => Bytes.writeBig 8 id.toNat)

/-- the loop of `SendMACK`; every round takes at least one id, so `n` rounds are enough for `n` ids -/
def sendMACKLoop : ℕ → World σ → World σ
  | 0, w => w
  | n+1, w =>
    if w.rx.sendMACKs = [] then w
    else
      let ids := w.rx.sendMACKs.take maxACKSInMACK
      let mack := createPacket env.rng w.created.length .mack (mackBody ids) 16 16
      let w := { w with rx := { w.rx with sendMACKs := w.rx.sendMACKs.drop maxACKSInMACK } }
      sendMACKLoop n (w.encryptAndSend env t mack)

variable (w : World σ)

def sendMACK : World σ := sendMACKLoop env t w.rx.sendMACKs.length w

def handlePlaintext : Except Fault (World σ) :=
  if w.inq.plaintextEmpty then .ok w
  else do
    let queue := w.inq.plaintextRecv.flatten
    let w := { w with inq := { w.inq with plaintextEmpty := true, plaintextRecv := [] } }
    let w ← queue.foldlM (fun w p => w.handlePacket env t p) w
    return w.sendMACK env t

def shouldPing : Bool := w.ctl.state = .ready ∧ t.now - w.io.lastTX > pingInterval

def sendKeepAlive : World σ :=
  if w.ctl.state = .ready then
    w.encryptAndSend env t (createPacket env.rng w.created.length .ping [] 16 16)
  else w

def sendACKS (rxid : UInt64) : World σ :=
  match w.rx.rxMsgs[rxid]? with
  | none => w
  | some msg =>
    if msg.shouldSendACKS t.now then
      let w := w.encryptAndSend env t (msg.ackPacket env.rng w.created.length)
      w.putRX rxid { msg with lastACKSent := t.now }
    else w

/-- the ids of the messages to flush: the priority queue of `Pump` pops the largest for `operator<` first -/
def toResend : List UInt64 :=
  ((w.tx.txMsgs.toList.filter (fun m => m.2.shouldFlush t.now)).insertionSort (fun a b => !a.2.lt b.2)).map (·.1)

/-- the packets that `Pump` sends -/
def pumpSend : Except Fault (World σ) :=
  if w.ctl.state = .ready ∨ w.ctl.state = .linkIntro then
    let w := if w.shouldPing t then w.sendKeepAlive env t else w
    let w := w.rx.rxMsgs.keys.foldl (fun w id => w.sendACKS env t id) w
    (w.toResend t).foldlM (fun w id => w.flushUnAcked env t id) w
  else .ok w

/-- the jobs that `Pump` queues -/
def queueWork : World σ :=
  let w := if w.io.encryptNext = [] then w
    else { w with
      inq := { w.inq with work := w.inq.work ++ [.encrypt w.io.encryptNext] }
      io := { w.io with encryptNext := [] } }
  if w.inq.decryptNext = [] then w
    else { w with inq := { w.inq with
      work := w.inq.work ++ [.decrypt w.inq.decryptNext], decryptNext := [] } }

def pump : Except Fault (World σ) := queueWork <$> w.pumpSend env t

def dropTimedOut (id : UInt64) : World σ :=
  match w.tx.txMsgs[id]? with
  | none => w
  | some msg =>
    if msg.isTimedOut t.now then
      let w := { w with tx := { w.tx with
        totalDroppedTX := w.tx.totalDroppedTX + 1, totalInFlightTX := w.tx.totalInFlightTX - 1 } }
      w.finish env t id msg .dropped
    else w

def timeOutRX (rxid : UInt64) : World σ :=
  match w.rx.rxMsgs[rxid]? with
  | none => w
  | some msg =>
    if msg.isTimedOut t.now then
      { w with rx := { w.rx with
        replayFilter := w.rx.replayFilter.insertIfNew rxid t.now
        rxMsgs := w.rx.rxMsgs.erase rxid
        log := w.rx.log ++ [RxEvent.timedOut rxid t.now] } }
    else w

def expireReplay (rxid : UInt64) : World σ :=
  match w.rx.replayFilter[rxid]? with
  | none => w
  | some since =>
    if since + replayWindow ≤ t.now then
      { w with rx := { w.rx with
        replayFilter := w.rx.replayFilter.erase rxid
        log := w.rx.log ++ [RxEvent.expired rxid t.now] } }
    else w

def resetRates : World σ :=
  { w with io := { w.io with
    currentRateTX := w.io.txRate, currentRateRX := w.io.rxRate, rxRate := 0, txRate := 0 } }

def tick : World σ :=
  let w := if t.now ≥ w.io.resetRatesAt then
      let w := w.resetRates
      { w with io := { w.io with resetRatesAt := t.now + 1000 } }
    else w
  -- remove pending outbound messsages that timed out, inform waiters
  let w := w.tx.txMsgs.keys.foldl (fun w id => w.dropTimedOut env t id) w
  -- remove pending inbound messages that timed out
  let w := w.rx.rxMsgs.keys.foldl (fun w id => w.timeOutRX t id) w
  -- decay replay window
  w.rx.replayFilter.keys.foldl (fun w id => w.expireReplay t id) w

def timedOut (s : Session) (now : Millis) : Bool :=
  if s.ctl.state = .ready then
    now > s.io.lastRX ∧ now - s.io.lastRX >
      (if s.inbound ∧ ¬ s.ctl.remoteRC.isPublicRouter then defaultLinkSessionLifetime
       else sessionAliveTimeout)
  else now - s.createdAt ≥ linkLayerConnectTimeout

end World

end Belnet.Iwp
