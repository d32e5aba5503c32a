import Mathlib.Data.List.AList
import Belnet.Iwp.Receive

/-!
# The link layer

`ILinkLayer` of `llarp/link/server.cpp`, with `llarp/iwp/linklayer.cpp`: three maps over sessions, and what changes
them.
-/

namespace Belnet.Link
open Iwp

structure LinkMaps where
  authedLinks : List (PubKey × ℕ) := []
  authedAddrs : AList (fun _ : SockAddr => PubKey) := ∅
  pending : AList (fun _ : SockAddr => ℕ) := ∅

namespace LinkMaps
variable (m : LinkMaps)

def hasSessionTo (pk : PubKey) : Bool := m.authedLinks.any (fun e => e.1 = pk)

def findSessionByPubkey (pk : PubKey) : Option ℕ := (m.authedLinks.find? (fun e => e.1 = pk)).map Prod.snd

def equalRange (pk : PubKey) : List (PubKey × ℕ) := m.authedLinks.filter (fun e => e.1 = pk)

def unmapAddr (addr : SockAddr) : LinkMaps :=
  { m with authedAddrs := m.authedAddrs.erase addr }

/-- `MapAddr` for a session with remote address `addr`; the flag: it is refused, and is to be closed -/
def mapAddr (pk : PubKey) (addr : SockAddr) : LinkMaps × Bool :=
  match m.pending.lookup addr with
  | none => (m, false)
  | some id =>
    if m.hasSessionTo pk then (m, true)
    else
      ({ authedAddrs :=
          -- `emplace` keeps an entry that is there
          if addr ∈ m.authedAddrs then m.authedAddrs else m.authedAddrs.insert addr pk
         authedLinks := m.authedLinks ++ [(pk, id)]
         pending := m.pending.erase addr }, false)

def all : List ℕ := m.authedLinks.map Prod.snd ++ m.pending.entries.map Sigma.snd

end LinkMaps

structure Config extends Node where
  rng : ℕ → Rng
  token : ℕ → AlignedBuffer 24
  parse : Bytes → Option LinkIntroMessage
  inbound : Bool

def Config.env (cfg : Config) (id : ℕ) : Env LinkMaps where
  toNode := cfg.toNode
  rng := cfg.rng id
  unmapAddr := LinkMaps.unmapAddr
  mapAddr := LinkMaps.mapAddr
  sessionEstablished := fun m _ _ => m
  sessionRenegotiate := fun m _ _ => m
  handleMessage := fun m data => (m, cfg.parse data)

structure Layer where
  maps : LinkMaps := {}
  sessions : List Session := []

namespace Layer

def world (L : Layer) (s : Session) : World LinkMaps := { toSession := s, parent := L.maps }

def put (L : Layer) (id : ℕ) (w : World LinkMaps) : Layer :=
  { maps := w.parent, sessions := L.sessions.set id w.toSession }

section
variable (cfg : Config) (t : Clock)

def runOn (op : Op LinkMaps) (L : Layer) (id : ℕ) : Except Fault Layer :=
  match L.sessions[id]? with
  | none => .ok L
  | some s => do return L.put id (← World.step (cfg.env id) t op (L.world s))

def recvOn (pkt : Packet) (L : Layer) (id : ℕ) : Except Fault (Bool × Layer) :=
  match L.sessions[id]? with
  | none => .ok (true, L)
  | some s => do
    let (success, w) ← (L.world s).recvLL (cfg.env id) t pkt
    return (success, L.put id w)

variable (L : Layer)

def putSession (s : Session) : Layer :=
  { maps := { L.maps with pending := L.maps.pending.insert s.remoteAddr L.sessions.length }
    sessions := L.sessions ++ [s] }

/-! ## operations -/

def sessionAt (src : SockAddr) : Option ℕ :=
  match L.maps.authedAddrs.lookup src with
  | some pk => L.maps.findSessionByPubkey pk
  | none => L.maps.pending.lookup src

def isNewSession (src : SockAddr) : Bool :=
  (L.maps.authedAddrs.lookup src).isNone && (L.maps.pending.lookup src).isNone && cfg.inbound

def recvFrom (src : SockAddr) (pkt : Packet) : Except Fault Layer :=
  if L.isNewSession cfg src then do
    let id := L.sessions.length
    let s := Session.newInbound cfg.crypto t.now src cfg.ourRC.pubkey (cfg.token id)
    let (success, L) ← (L.putSession s).recvOn cfg t pkt id
    return if success then L else { L with maps := { L.maps with pending := L.maps.pending.erase src } }
  else
    match L.sessionAt src with
    | none => .ok L
    | some id => do return (← L.recvOn cfg t pkt id).2

def pickAddress (rc : RouterContact) : Option AddressInfo := rc.addrs.find? (fun ai => ai.dialect = "iwp")

/-- the address that `TryEstablishTo` makes a session for; `NewOutboundSession` throws on an inbound link, before any
change -/
def picksFor (rc : RouterContact) : Option AddressInfo :=
  if L.maps.hasSessionTo rc.pubkey then none
  else (pickAddress rc).filter (fun ai => (L.maps.pending.lookup ai.addr).isNone && !cfg.inbound)

def tryEstablishTo (rc : RouterContact) : Layer :=
  match L.picksFor cfg rc with
  | none => L
  | some ai =>
    let id := L.sessions.length
    let s := Session.newOutbound cfg.crypto t.now rc ai
    let L := L.putSession s
    L.put id ((L.world s).start (cfg.env id) t)

def pumpAuthed (e : PubKey × ℕ) : Except Fault Layer :=
  match L.sessions[e.2]? with
  | none => .ok L
  | some s =>
    if World.timedOut s t.now then do
      let L ← L.runOn cfg t .close e.2
      let m := L.maps.unmapAddr s.remoteAddr
      return { L with maps := { m with authedLinks := m.authedLinks.erase e } }
    else L.runOn cfg t .pump e.2

def pumpPending (e : Sigma (fun _ : SockAddr => ℕ)) : Except Fault Layer :=
  match L.sessions[e.2]? with
  | none => .ok L
  | some s =>
    if World.timedOut s t.now then
      let m := L.maps.unmapAddr s.remoteAddr
      .ok { L with maps := { m with pending := m.pending.erase e.1 } }
    else L.runOn cfg t .pump e.2

def pump : Except Fault Layer := do
  let L ← L.maps.authedLinks.foldlM (pumpAuthed cfg t) L
  L.maps.pending.entries.foldlM (pumpPending cfg t) L

def tick : Except Fault Layer := L.maps.all.foldlM (runOn cfg t .tick) L

def stop : Except Fault Layer := L.maps.all.foldlM (runOn cfg t .close) L

def closeEntry (e : PubKey × ℕ) : Except Fault Layer := do
  let L ← L.runOn cfg t .close e.2
  return { L with maps := { L.maps with authedLinks := L.maps.authedLinks.erase e } }

variable (remote : PubKey)

def closeSessionTo : Except Fault Layer := (L.maps.equalRange remote).foldlM (closeEntry cfg t) L

def keepAlive (e : PubKey × ℕ) : Except Fault Layer :=
  match L.sessions[e.2]? with
  | none => .ok L
  | some s => if (L.world s).shouldPing t then L.runOn cfg t .sendKeepAlive e.2 else .ok L

def keepAliveSessionTo : Except Fault Layer := (L.maps.equalRange remote).foldlM (keepAlive cfg t) L

def lowestBacklog : Option ℕ :=
  let backlog := fun e : PubKey × ℕ => (L.sessions[e.2]?).elim 0 (fun s => s.tx.txMsgs.size)
  ((L.maps.equalRange remote).foldl (fun best e =>
    match best with
    | none => some e
    | some b => if backlog e < backlog b then some e else best) none).map Prod.snd

def sendTo (buf : Message) (completed : Option ℕ) (priority : UInt16) : Except Fault Layer :=
  match L.lowestBacklog remote with
  | none => .ok L
  | some id => L.runOn cfg t (.sendMessageBuffer buf completed priority) id

def handleWakeupPlaintext : Except Fault Layer := L.maps.all.foldlM (runOn cfg t .handlePlaintext) L

end

end Layer

/-- `close` and `renegotiate` are calls of the router on a visited session; `work` is a job for a session, in a map or
not -/
inductive LayerOp where
  | recvFrom (src : SockAddr) (pkt : Packet)
  | tryEstablishTo (rc : RouterContact)
  | pump
  | tick
  | stop
  | closeSessionTo (remote : PubKey)
  | keepAliveSessionTo (remote : PubKey)
  | sendTo (remote : PubKey) (buf : Message) (completed : Option ℕ) (priority : UInt16)
  | handleWakeupPlaintext
  | close (id : ℕ)
  | renegotiate (id : ℕ)
  | work (id i : ℕ)

def Layer.step (cfg : Config) (i : Clock × LayerOp) (L : Layer) : Except Fault Layer :=
  match i.2 with
  | .recvFrom src pkt => L.recvFrom cfg i.1 src pkt
  | .tryEstablishTo rc => .ok (L.tryEstablishTo cfg i.1 rc)
  | .pump => L.pump cfg i.1
  | .tick => L.tick cfg i.1
  | .stop => L.stop cfg i.1
  | .closeSessionTo remote => L.closeSessionTo cfg i.1 remote
  | .keepAliveSessionTo remote => L.keepAliveSessionTo cfg i.1 remote
  | .sendTo remote buf completed priority => L.sendTo cfg i.1 remote buf completed priority
  | .handleWakeupPlaintext => L.handleWakeupPlaintext cfg i.1
  | .close id => if id ∈ L.maps.all then L.runOn cfg i.1 .close id else .ok L
  | .renegotiate id => if id ∈ L.maps.all then L.runOn cfg i.1 .renegotiateSession id else .ok L
  | .work id k => L.runOn cfg i.1 (.work k) id

end Belnet.Link
