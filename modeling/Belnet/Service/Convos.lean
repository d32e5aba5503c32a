import Belnet.Service.Messages

/-!
# Conversations of a service endpoint

The sessions of `llarp/service/endpoint.cpp` and the way of a frame: logic thread, worker, perhaps an authentication,
and back.
-/

namespace Belnet.Service
open Iwp Util Belnet.Path

/-! ## the table -/

structure Session where
  replyIntro : Introduction := {}
  sharedKey : SharedSecret := .zero 32
  remote : ServiceInfo := {}
  intro : Introduction := {}
  inbound : Bool := false
deriving DecidableEq

/-- work on a frame, with what the logic thread has looked up for it; a path is known by its endpoint -/
inductive Job where
  | handshake (path : RouterID) (frame : ProtocolFrame)
  | data (path : RouterID) (frame : ProtocolFrame) (si : ServiceInfo) (shared : SharedSecret)
deriving DecidableEq

structure Handshake where
  path : RouterID
  frame : ProtocolFrame
  msg : ProtocolMessage
  sharedKey : SharedSecret
deriving DecidableEq

structure RecvDataEvent where
  fromPath : RouterID
  frame : ProtocolFrame
  msg : ProtocolMessage
deriving DecidableEq

structure Delivery where
  frame : ProtocolFrame
  msg : ProtocolMessage
  remote : Option ServiceInfo
deriving DecidableEq

@[ext] structure Endpoint where
  sessions : AList (fun _ : ConvoTag => Session) := ∅
  outbound : List Address := []
  jobs : List Job := []
  auths : List Handshake := []
  recvQueue : List RecvDataEvent := []
  delivered : List Delivery := []

structure Config where
  crypto : ServiceCrypto
  identity : Identity
  authPolicy : Bool

namespace Endpoint
variable (s : Endpoint)

def wantsOutboundSession (addr : Address) : Bool := addr ∈ s.outbound

section
variable (tag : ConvoTag)

def hasConvoTag : Bool := (s.sessions.lookup tag).isSome

def hasInboundConvo (addr : Address) : Bool := s.sessions.entries.any fun e => e.2.remote.addr = addr ∧ e.2.inbound

def putSenderFor (info : ServiceInfo) (inbound : Bool) : Endpoint :=
  if isZero info.addr then s
  else match s.sessions.lookup tag with
    | some _ => s
    | none =>
      if s.wantsOutboundSession info.addr && inbound then s
      else { s with sessions := s.sessions.insert tag { inbound := inbound, remote := info } }

def getSenderFor : Option ServiceInfo := (s.sessions.lookup tag).map fun x => x.remote.updateAddr

def putIntroFor (intro : Introduction) : Endpoint :=
  { s with sessions := s.sessions.insert tag { (s.sessions.lookup tag).getD {} with intro := intro } }

def putReplyIntroFor (intro : Introduction) : Endpoint :=
  match s.sessions.lookup tag with
  | none => s
  | some x => { s with sessions := s.sessions.insert tag { x with replyIntro := intro } }

def putCachedSessionKeyFor (k : SharedSecret) : Endpoint :=
  { s with sessions := s.sessions.insert tag { (s.sessions.lookup tag).getD {} with sharedKey := k } }

def removeConvoTag : Endpoint := { s with sessions := s.sessions.erase tag }

end

def handleDataMessage (path : RouterID) (frame : ProtocolFrame) (msg : ProtocolMessage) : Endpoint :=
  let s := s.putSenderFor msg.tag msg.sender true
  let intro := if s.hasInboundConvo msg.sender.addr
    then { msg.introReply with pathID := frame.F, router := path } else msg.introReply
  let s := s.putReplyIntroFor msg.tag intro
  { s with delivered := s.delivered ++ [⟨frame, msg, (s.sessions.lookup msg.tag).map Session.remote⟩] }

def asyncDecryptAndVerify (path : RouterID) (frame : ProtocolFrame) : Option Endpoint :=
  -- we need to dh
  if isZero frame.T then some { s with jobs := s.jobs ++ [.handshake path frame] }
  else match s.sessions.lookup frame.T with
    | none => none
    | some x =>
      if isZero x.sharedKey || isZero x.remote.updateAddr.addr then none
      else some { s with jobs := s.jobs ++ [.data path frame x.remote.updateAddr x.sharedKey] }

def handleHiddenServiceFrame (cfg : Config) (s : Endpoint) (path : RouterID) (frame : ProtocolFrame) : Endpoint :=
  if frame.R ≠ 0 then
    -- handle discard
    match s.getSenderFor frame.T with
    | none => s
    | some si => if frame.verify cfg.crypto.toCrypto si then s.removeConvoTag frame.T else s
  else match s.asyncDecryptAndVerify path frame with
    | some s => s
    | none => s.removeConvoTag frame.T

/-- a worker does a job: `busy`: an authentication for the tag is pending, `full`: the queue is full.  After a bad
signature the tag is reset in a later step. -/
def work (cfg : Config) (busy full : Bool) (s : Endpoint) : Job → Except MemFault Endpoint
  | .handshake path frame =>
    match cfg.crypto.pqeDecrypt frame.C cfg.identity.pq with
    | none => .ok s
    | some K => do
      match ← frame.decryptPayload cfg.crypto.toCrypto K with
      | none => return s
      | some msg =>
        -- verify signature of outer message after we parsed the inner message
        if !frame.verify cfg.crypto.toCrypto msg.sender then return s
        else if s.hasConvoTag msg.tag then return s
        else match cfg.crypto.dhServer msg.sender.enckey cfg.identity.enckey frame.N with
          | none => return s
          | some sharedSecret =>
            let sharedKey := cfg.crypto.shorthash (K.toList ++ sharedSecret.toList)
            if cfg.authPolicy && busy then return s
            else return { s with auths := s.auths ++ [⟨path, frame, msg, sharedKey⟩] }
  | .data path frame si shared =>
    if !frame.verify cfg.crypto.toCrypto si then .ok s
    else do
      match ← frame.decryptPayload cfg.crypto.toCrypto shared with
      | none => return s
      | some msg =>
        if full then return s
        else return { s with recvQueue := s.recvQueue ++ [⟨path, frame, msg⟩] }

def authResult (cfg : Config) (accepted : Bool) (s : Endpoint) (h : Handshake) : Endpoint :=
  if accepted || !cfg.authPolicy then
    let s := s.putSenderFor h.msg.tag h.msg.sender (!s.wantsOutboundSession h.msg.sender.addr)
    let s := s.putReplyIntroFor h.msg.tag h.msg.introReply
    let s := s.putCachedSessionKeyFor h.msg.tag h.sharedKey
    s.handleDataMessage h.path h.frame h.msg
  else s

end Endpoint

inductive Op where
  | frame (path : RouterID) (f : ProtocolFrame)
  | work (i : ℕ) (busy full : Bool)
  | auth (i : ℕ) (accepted : Bool)
  | flush
  | remove (tag : ConvoTag)
  | markAddressOutbound (addr : Address)
  /-- our own conversations: `EnsurePathTo` ourselves, `SwapIntros`, `AsyncGenIntro`, and the result of a key exchange -/
  | ensureSelf (tag : ConvoTag)
  | swapIntros (tag : ConvoTag) (info : ServiceInfo) (intro : Introduction)
  | genIntro (tag : ConvoTag) (info : ServiceInfo)
  | keyExchanged (tag : ConvoTag) (info : ServiceInfo) (key : SharedSecret) (intro reply : Introduction)

def Endpoint.step (cfg : Config) : Op → Endpoint → Except MemFault Endpoint
  | .frame path f, s => .ok (s.handleHiddenServiceFrame cfg path f)
  | .work i busy full, s =>
    match s.jobs[i]? with
    | none => .ok s
    | some job => Endpoint.work cfg busy full { s with jobs := s.jobs.eraseIdx i } job
  | .auth i accepted, s =>
    match s.auths[i]? with
    | none => .ok s
    | some h => .ok (Endpoint.authResult cfg accepted { s with auths := s.auths.eraseIdx i } h)
  | .flush, s =>
    match s.recvQueue with
    | [] => .ok s
    | ev :: rest => .ok (Endpoint.handleDataMessage { s with recvQueue := rest } ev.fromPath ev.frame ev.msg)
  | .remove tag, s => .ok (s.removeConvoTag tag)
  | .markAddressOutbound addr, s => .ok { s with outbound := addr :: s.outbound }
  | .ensureSelf tag, s =>
    let s := s.putSenderFor tag cfg.identity.pub true
    -- the index operator makes a session where there is none
    .ok { s with sessions := s.sessions.insert tag ((s.sessions.lookup tag).getD {}) }
  | .swapIntros tag info intro, s => .ok ((s.putSenderFor tag info false).putIntroFor tag intro)
  | .genIntro tag info, s => .ok (s.putSenderFor tag info false)
  | .keyExchanged tag info key intro reply, s =>
    .ok ((((s.putSenderFor tag info false).putCachedSessionKeyFor tag key).putIntroFor tag intro).putReplyIntroFor
      tag reply)

def Op.cause (s : Endpoint) : Op → Option ProtocolFrame
  | .frame _ f => some f
  | .work i _ _ => s.jobs[i]?.map fun
    | .handshake _ f => f
    | .data _ f _ _ => f
  | .auth i _ => s.auths[i]?.map Handshake.frame
  | .flush => s.recvQueue.head?.map RecvDataEvent.frame
  | _ => none

end Belnet.Service
