import Belnet.Router.NodeDB

/-!
# Lookups of router contacts

`llarp/router/rc_lookup_handler.cpp`, the router part of `llarp/dht/context.cpp` with its jobs and messages, and the
lookups of `llarp/service/endpoint.cpp` over a path.
-/

namespace Belnet.Router
open Iwp hiding RouterContact
open Belnet.Path hiding RouterContact
open Dht Router

/-! ## state -/

structure Config extends RouterEnv where
  ourKey : RouterID
  isMasterNode : Bool
  useWhitelist : Bool
  allowTransit : Bool
  strictConnectPubkeys : List RouterID
  bootstrapRCList : List RouterContact

inductive LookupHandler where
  | dhtLookupResult (remote : RouterID)
  | dhtLookupForExplore (pk : RouterID)
deriving DecidableEq

structure RouterLookup where
  target : RouterID
  whoasked : TXOwner
  resultHandler : Option LookupHandler
  localPath : Option PathID
deriving DecidableEq

inductive RCRequestResult where
  | success | invalidRouter | routerNotFound | badRC
deriving DecidableEq

/-- the callbacks of `GetRC`: of the session maker, of a path build that timed out, and of `Router::LookupRouter` -/
inductive RCRequestCallback where
  | session | pathBuildTimeout | routerLookup

/-- a pending lookup of an endpoint; `peer` and `asked`, where its message went and its id, are not in the source -/
structure RouterLookupJob where
  handler : Option LookupHandler
  txid : ℕ
  started : Millis
  peer : RouterID
  asked : ℕ

structure GotRouter where
  peer : RouterID
  txid : ℕ
  foundRCs : List RouterContact
deriving DecidableEq

inductive Job where
  | verifyGotRouter (ep : ℕ) (msg : GotRouter) (rc : RouterContact)
  | checkRC (rc : RouterContact)

inductive Call where
  | gotRouter (ep : ℕ) (msg : GotRouter) (rc : RouterContact) (valid : Bool)
  | putRC (rc : RouterContact)
  | delNode (k : Key)
deriving DecidableEq

inductive Source where
  | bootstrap | own | disk | network

structure Insertion where
  rc : RouterContact
  source : Source

structure Report where
  router : RouterID
  rc : Option RouterContact
  result : RCRequestResult
deriving DecidableEq

inductive Requester where
  | peer (k : Key)
  | path (p : PathID)

structure Reply where
  requester : Requester
  txid : ℕ
  target : RouterID
  foundRCs : List RouterContact

structure State where
  whitelistRouters : List RouterID := []
  greylistRouters : List RouterID := []
  paths : List PathID := []
  ourRC : RouterContact
  nodedb : NodeDB := {}
  nodes : AList (fun _ : Key => RouterContact) := ∅
  ids : ℕ
  routerLookups : TXHolder RouterID RouterLookup := {}
  exploreLookups : TXHolder RouterID RouterID := {}
  pendingCallbacks : AList (fun _ : RouterID => List RCRequestCallback) := ∅
  pendingRouters : AList (fun _ : ℕ × RouterID => RouterLookupJob) := ∅
  jobs : List Job := []
  calls : List Call := []
  inserted : List Insertion := []
  handed : List RouterContact := []
  reported : List Report := []
  replies : List Reply := []

variable (cfg : Config) (now : Millis)

/-! ## the lookup handler -/

def remoteInBootstrap (remote : RouterID) : Bool := cfg.bootstrapRCList.any fun rc => rc.pubkey = remote

def sessionIsAllowed (s : State) (remote : RouterID) : Bool :=
  if !cfg.strictConnectPubkeys.isEmpty && !(remote ∈ cfg.strictConnectPubkeys) && !remoteInBootstrap cfg remote then
    false
  else if !cfg.useWhitelist then true
  else remote ∈ s.whitelistRouters || remote ∈ s.greylistRouters

namespace State

def putIfNewer (s : State) (rc : RouterContact) : State :=
  { s with
    nodedb := s.nodedb.putIfNewer now rc
    inserted := if s.nodedb.accepts rc then s.inserted ++ [⟨rc, .network⟩] else s.inserted }

def put (s : State) (source : Source) (rc : RouterContact) : State :=
  { s with nodedb := s.nodedb.put now rc, inserted := s.inserted ++ [⟨rc, source⟩] }

def remove (s : State) (pk : RouterID) : State := { s with nodedb := s.nodedb.remove pk }

def putNode (s : State) (rc : RouterContact) : State :=
  match s.nodes.lookup rc.pubkey with
  | none => { s with nodes := s.nodes.insert rc.pubkey rc }
  | some old => if old.lastUpdated < rc.lastUpdated then { s with nodes := s.nodes.insert rc.pubkey rc } else s

def delNode (s : State) (k : Key) : State := { s with nodes := s.nodes.erase k }

def runCall (s : State) : Call → State
  | .putRC rc => (s.putIfNewer now rc).putNode rc
  | .delNode k => s.delNode k
  | .gotRouter _ _ _ _ => s

end State

def checks (s : State) (rc : RouterContact) : Bool := sessionIsAllowed cfg s rc.pubkey && rc.verify cfg.toRouterEnv

def checkCalls (s : State) (rc : RouterContact) : List Call :=
  if !sessionIsAllowed cfg s rc.pubkey then [.delNode rc.pubkey]
  else if rc.verify cfg.toRouterEnv && rc.isPublicRouter then [.putRC rc]
  else []

def checkRC (s : State) (rc : RouterContact) : State := (checkCalls cfg s rc).foldl (State.runCall now) s

def runCallback (router : RouterID) (rc : Option RouterContact) (result : RCRequestResult) (s : State) :
    RCRequestCallback → State
  | .session => s
  | .pathBuildTimeout =>
    match result, rc with
    | .success, some rc => s.putIfNewer now rc
    | _, _ => s.remove router
  | .routerLookup =>
    match result, rc with
    | .success, some rc => { s with handed := s.handed ++ [rc] }
    | _, _ => s

def finalizeRequest (s : State) (router : RouterID) (rc : Option RouterContact) (result : RCRequestResult) : State :=
  let callbacks := (s.pendingCallbacks.lookup router).getD []
  let s : State :=
    { s with
      pendingCallbacks := s.pendingCallbacks.erase router
      reported := s.reported ++ [⟨router, rc, result⟩] }
  callbacks.foldl (runCallback now router rc result) s

def handleDHTLookupResult (s : State) (remote : RouterID) : List RouterContact → State
  | [] => finalizeRequest now s remote none .routerNotFound
  | rc :: _ =>
    if !sessionIsAllowed cfg s remote then finalizeRequest now s remote (some rc) .invalidRouter
    else
      let s' := checkRC cfg now s rc
      if checks cfg s rc then finalizeRequest now s' remote (some rc) .success
      else finalizeRequest now s' remote (some rc) .badRC

def runHandler (s : State) (results : List RouterContact) (h : LookupHandler) : State :=
  let s : State := { s with handed := s.handed ++ results }
  match h with
  | .dhtLookupResult remote => handleDHTLookupResult cfg now s remote results
  | .dhtLookupForExplore _ => results.foldl (checkRC cfg now) s

/-! ## transactions of the DHT -/

variable (values : List RouterContact)

def validated : List RouterContact := values.filter fun rc => rc.verify cfg.toRouterEnv

/-- one round of the loop of `RecursiveRouterLookup::SendReply`: a contact that is not newer is not checked -/
def selectChecked (s : State × RouterContact) (rc : RouterContact) : State × RouterContact :=
  if s.2.otherIsNewer rc then
    if checks cfg s.1 rc then (checkRC cfg now s.1 rc, rc) else (checkRC cfg now s.1 rc, s.2)
  else s

def selectFound (s : State) (values : List RouterContact) : State × List RouterContact :=
  if values.isEmpty then (s, [])
  else
    let r := values.foldl (selectChecked cfg now) (s, .new cfg.toRouterEnv)
    (r.1, [r.2])

def selectLocal : List RouterContact :=
  let found := values.foldl (fun found rc => if rc.otherIsNewer found then rc else found) (.new cfg.toRouterEnv)
  if isZero found.pubkey then [] else [found]

def reply (s : State) (requester : Requester) (txid : ℕ) (target : RouterID) (rcs : List RouterContact) : State :=
  { s with replies := s.replies ++ [⟨requester, txid, target, rcs⟩] }

def sendReply (s : State) (tx : RouterLookup) : State :=
  match tx.localPath with
  | some p =>
    if p ∈ s.paths then reply s (.path p) tx.whoasked.txid tx.target (selectLocal cfg (validated cfg values)) else s
  | none =>
    let r := selectFound cfg now s (validated cfg values)
    let s := match tx.resultHandler with
      | none => r.1
      | some h => runHandler cfg now r.1 r.2 h
    if tx.whoasked.node ≠ cfg.ourKey then reply s (.peer tx.whoasked.node) tx.whoasked.txid tx.target r.2 else s

def inform (s : State) (key : RouterID) (values : List RouterContact) : State :=
  let r := s.routerLookups.inform key
  (r.2.map Prod.snd).foldl (sendReply cfg now values) { s with routerLookups := r.1 }

def expireRouterLookups (s : State) : State := (s.routerLookups.expired now).foldl (fun s k => inform cfg now s k []) s

def startLookup (s : State) (askpeer : Key) (tx : RouterLookup) : State :=
  { s with
    ids := s.ids + 1
    routerLookups := (s.routerLookups.newTX now ⟨askpeer, s.ids + 1⟩ tx.target tx TXHolder.requestTimeout).1 }

def findClosest (s : State) (target : Key) : Option Key :=
  if s.nodes.entries.isEmpty then none
  else some (s.nodes.keys.foldl (fun (r : ℕ × Key) k =>
    if distance target k < r.1 then (distance target k, k) else r) (256^32 - 1, .zero 32)).2

def lookupRouter (s : State) (target : RouterID) (h : LookupHandler) : State × Bool :=
  match findClosest s target with
  | none => (s, false)
  | some askpeer => (startLookup now s askpeer ⟨target, ⟨cfg.ourKey, 0⟩, some h, none⟩, true)

def exploreNetworkVia (s : State) (askpeer : Key) : State :=
  { s with
    ids := s.ids + 1
    exploreLookups := (s.exploreLookups.newTX now ⟨askpeer, s.ids + 1⟩ askpeer askpeer TXHolder.requestTimeout).1 }

def exploreFound (s : State) (pk : RouterID) : State :=
  if (s.nodedb.get pk).isSome then s else (lookupRouter cfg now s pk (.dhtLookupForExplore pk)).1

def informExplore (s : State) (key : RouterID) (near : List RouterID) : State :=
  let r := s.exploreLookups.inform key
  r.2.foldl (fun s _ => near.foldl (exploreFound cfg now) s) { s with exploreLookups := r.1 }

/-- a path that `LookupRouterAnon` can send on: the router at its end, the id of the message and that of the job -/
structure AnonPath where
  peer : RouterID
  asked : ℕ
  txid : ℕ

def lookupRouterAnon (s : State) (ep : ℕ) (router : RouterID) (h : Option LookupHandler) :
    Option AnonPath → State × Bool
  | none => (s, false)
  | some p =>
    match s.pendingRouters.lookup (ep, router) with
    | some _ => (s, false)
    | none =>
      ({ s with pendingRouters := s.pendingRouters.insert (ep, router) ⟨h, p.txid, now, p.peer, p.asked⟩ }, true)

def lookupAnonymously (s : State) (router : RouterID) (h : LookupHandler) : List (ℕ × Option AnonPath) → State × Bool
  | [] => (s, false)
  | (ep, p) :: eps =>
    let r := lookupRouterAnon now s ep router (some h) p
    if r.2 then r else lookupAnonymously s router h eps

def informResult (s : State) (router : RouterID) (job : RouterLookupJob) (results : List RouterContact) : State :=
  let s := if results.isEmpty then s.remove router else s
  match job.handler with
  | none => s
  | some h => runHandler cfg now s results h

def finishJob (results : List RouterContact) (s : State) (k : ℕ × RouterID) : State :=
  match s.pendingRouters.lookup k with
  | none => s
  | some job => informResult cfg now { s with pendingRouters := s.pendingRouters.erase k } k.2 job results

def jobsOf (s : State) (ep : ℕ) (p : RouterLookupJob → Bool) : List (ℕ × RouterID) :=
  (s.pendingRouters.entries.filter fun e => e.1.1 = ep ∧ p e.2).map Sigma.fst

/-! ## messages -/

def lookupRC (s : State) (router : RouterID) (eps : List (ℕ × Option AnonPath)) : State :=
  let anon := if cfg.isMasterNode then (s, false) else lookupAnonymously now s router (.dhtLookupResult router) eps
  if anon.2 then anon.1
  else
    let sent := lookupRouter cfg now s router (.dhtLookupResult router)
    if sent.2 then sent.1 else finalizeRequest now s router none .routerNotFound

def awaitRC (s : State) (router : RouterID) (callback : Option RCRequestCallback) : State :=
  { s with
    pendingCallbacks :=
      s.pendingCallbacks.insert router ((s.pendingCallbacks.lookup router).getD [] ++ callback.toList) }

def answerRC (s : State) (router : RouterID) (callback : Option RCRequestCallback) (rc : RouterContact) : State :=
  let s := callback.toList.foldl (runCallback now router (some rc) .success) s
  finalizeRequest now s router (some rc) .success

def getRC (s : State) (router : RouterID) (callback : Option RCRequestCallback) (forceLookup : Bool)
    (eps : List (ℕ × Option AnonPath)) : State :=
  match (if forceLookup then none else s.nodedb.get router) with
  | some rc => answerRC now s router callback rc
  | none =>
    if (s.pendingCallbacks.lookup router).isSome then awaitRC s router callback
    else lookupRC cfg now (awaitRC s router callback) router eps

def lookupRouterRelayed (s : State) (requester : Key) (txid : ℕ) (target : Key) (recursive : Bool) : State :=
  if target = cfg.ourKey then reply s (.peer requester) txid target [s.ourRC]
  else if !sessionIsAllowed cfg s target then reply s (.peer requester) txid target []
  else
    let rc := s.nodedb.findClosestTo cfg.toRouterEnv target
    if rc.pubkey = target then
      if rc.expiresSoon now then startLookup now s rc.pubkey ⟨target, ⟨requester, txid⟩, none, none⟩
      else reply s (.peer requester) txid target [rc]
    else if recursive then
      if distance target rc.pubkey < distance target cfg.ourKey then
        startLookup now s rc.pubkey ⟨target, ⟨requester, txid⟩, none, none⟩
      else reply s (.peer requester) txid target []
    -- the reply names the closer router and no contact
    else reply s (.peer requester) txid target []

def findRouter (s : State) (sender : Key) (txid : ℕ) (target : Key) (exploritory iterative : Bool) : State :=
  if !cfg.allowTransit then s
  else if (s.routerLookups.tx.lookup ⟨sender, txid⟩).isSome then s
  else if isZero target then s
  else if exploritory then s
  else lookupRouterRelayed cfg now s sender txid target (!iterative)

def relayedFindRouter (s : State) (path : PathID) (txid : ℕ) (target : RouterID) : State :=
  let answer := fun rcs => if path ∈ s.paths then reply s (.path path) txid target rcs else s
  if target = cfg.ourKey then answer [s.ourRC]
  else if !sessionIsAllowed cfg s target then answer []
  else
    let rc := s.nodedb.findClosestTo cfg.toRouterEnv target
    if rc.pubkey = target then answer [rc]
    else startLookup now s rc.pubkey ⟨target, ⟨cfg.ourKey, txid⟩, none, some path⟩

def storeAll (s : State) : List RouterContact → State
  | [] => s
  | rc :: rcs => if checks cfg s rc then storeAll (checkRC cfg now s rc) rcs else checkRC cfg now s rc

def gotRouter (s : State) (sender : Key) (txid : ℕ) (foundRCs : List RouterContact) (nearKeys : List RouterID) : State :=
  match s.exploreLookups.tx.lookup ⟨sender, txid⟩ with
  | some target => informExplore cfg now s (if nearKeys.isEmpty then target else sender) nearKeys
  | none =>
    match s.routerLookups.tx.lookup ⟨sender, txid⟩ with
    | some tx =>
      match foundRCs with
      | [] => inform cfg now s tx.target []
      | rc :: _ => if isZero rc.pubkey then s else inform cfg now s rc.pubkey foundRCs
    | none => storeAll cfg now s foundRCs

def relayedGotRouter (s : State) (ep : ℕ) (msg : GotRouter) : State :=
  if msg.foundRCs.isEmpty then (jobsOf s ep fun j => j.txid = msg.txid).foldl (finishJob cfg now []) s
  else { s with jobs := s.jobs ++ msg.foundRCs.map (Job.verifyGotRouter ep msg) }

def runJob (s : State) : Job → State
  | .verifyGotRouter ep msg rc => { s with calls := s.calls ++ [.gotRouter ep msg rc (rc.verify cfg.toRouterEnv)] }
  | .checkRC rc => { s with calls := s.calls ++ checkCalls cfg s rc }

/-- on the event loop; the contact of a `GotRouter` message is inserted whether it is valid or not -/
def runLoopCall (s : State) : Call → State
  | .gotRouter ep msg rc valid =>
    finishJob cfg now (if valid then msg.foundRCs else []) (s.putIfNewer now rc) (ep, rc.pubkey)
  | c => s.runCall now c

def loadRC (s : State) (rc : RouterContact) : State :=
  if rc.fromOurNetwork cfg.toRouterEnv && !rc.isExpired now && rc.verifySignature cfg.toRouterEnv &&
      (s.nodedb.get rc.pubkey).isNone then
    s.put now .disk rc
  else s

def saveRC (s : State) (rc : RouterContact) : State :=
  let s : State := { s with ourRC := rc }
  if rc.verify cfg.toRouterEnv && cfg.isMasterNode then s.put now .own rc else s

inductive Op where
  | setRouterWhitelist (whitelist greylist : List RouterID)
  | setPaths (paths : List PathID)
  | loadFromDisk (rcs : List RouterContact)
  | bootstrap
  | saveRC (rc : RouterContact)
  | sessionEstablished (rc : RouterContact) (inbound : Bool)
  | renegotiate (newrc oldrc : RouterContact)
  | getRC (router : RouterID) (callback : Option RCRequestCallback) (forceLookup : Bool)
      (eps : List (ℕ × Option AnonPath))
  | ensureRouterIsKnown (ep : ℕ) (router : RouterID) (path : Option AnonPath)
  | exploreNetworkVia (peer : Key)
  | findRouter (sender : Key) (txid : ℕ) (target : Key) (exploritory iterative : Bool)
  | relayedFindRouter (path : PathID) (txid : ℕ) (target : RouterID)
  | gotRouter (sender : Key) (txid : ℕ) (foundRCs : List RouterContact) (nearKeys : List RouterID)
  | relayedGotRouter (ep : ℕ) (msg : GotRouter)
  | work (i : ℕ)
  | call (i : ℕ)
  | expire
  | expirePendingRouters (ep : ℕ)
  | removeStaleRCs (cutoff : Millis)
  | removeRC (router : RouterID)
  | delNode (k : Key)

def step (op : Millis × Op) (s : State) : Except Empty State :=
  let now := op.1
  .ok <| match op.2 with
  | .setRouterWhitelist wl gl => if wl.isEmpty then s else { s with whitelistRouters := wl, greylistRouters := gl }
  | .setPaths paths => { s with paths := paths }
  | .loadFromDisk rcs => rcs.foldl (loadRC cfg now) s
  | .bootstrap => cfg.bootstrapRCList.foldl (fun s rc => (s.put now .bootstrap rc).putNode rc) s
  | .saveRC rc => saveRC cfg now s rc
  | .sessionEstablished rc inbound =>
    if !sessionIsAllowed cfg s rc.pubkey then s
    else if inbound then checkRC cfg now s rc
    else { s with jobs := s.jobs ++ [.checkRC rc] }
  | .renegotiate newrc oldrc =>
    if newrc.pubkey ≠ oldrc.pubkey || !sessionIsAllowed cfg s newrc.pubkey then s
    else
      let s : State := { s with jobs := s.jobs ++ [.checkRC newrc] }
      if (s.nodes.lookup newrc.pubkey).isSome then s.putNode newrc else s
  | .getRC router callback forceLookup eps => getRC cfg now s router callback forceLookup eps
  | .ensureRouterIsKnown ep router path =>
    if isZero router || (s.nodedb.get router).isSome then s else (lookupRouterAnon now s ep router none path).1
  | .exploreNetworkVia peer => exploreNetworkVia now s peer
  | .findRouter sender txid target exploritory iterative =>
    findRouter cfg now s sender txid target exploritory iterative
  | .relayedFindRouter path txid target => relayedFindRouter cfg now s path txid target
  | .gotRouter sender txid foundRCs nearKeys => gotRouter cfg now s sender txid foundRCs nearKeys
  | .relayedGotRouter ep msg => relayedGotRouter cfg now s ep msg
  | .work i =>
    match s.jobs[i]? with
    | none => s
    | some j => runJob cfg { s with jobs := s.jobs.eraseIdx i } j
  | .call i =>
    match s.calls[i]? with
    | none => s
    | some c => runLoopCall cfg now { s with calls := s.calls.eraseIdx i } c
  | .expire =>
    let s := expireRouterLookups cfg now s
    (s.exploreLookups.expired now).foldl (fun s k => informExplore cfg now s k []) s
  | .expirePendingRouters ep =>
    (jobsOf s ep fun j => j.started ≤ now ∧ 30000 < now - j.started).foldl (finishJob cfg now []) s
  | .removeStaleRCs cutoff =>
    { s with nodedb := s.nodedb.removeStaleRCs (cfg.bootstrapRCList.map fun rc => rc.pubkey) cutoff }
  | .removeRC router => s.remove router
  | .delNode k => s.delNode k

namespace Sample

def crypto : Crypto where
  shorthash := fun _ => .zero 32
  hmac := fun _ _ => none
  keystream := fun _ _ _ => 0
  verify := fun _ b sig => b.head? = sig.toList.head?
  transportDhClient := fun _ _ _ => none
  transportDhServer := fun _ _ _ => none

def key (n : UInt8) : RouterID := .ofBytes 32 [n]

def contact (n sig : UInt8) : RouterContact where
  pubkey := key n
  addrs := [⟨"iwp", key n, ⟨BitVec.ofNat 128 n.toNat, 0⟩⟩]
  routerVersion := some (0, 0, 0)
  rest := []
  enckey := key n
  netID := .zero 8
  signature := .ofBytes 64 [sig]
  lastUpdated := 1
  version := 1
  signedBtDict := [1]

def client : Config where
  crypto := crypto
  defaultNetID := .zero 8
  isBogon := fun _ => false
  blockBogons := true
  encodeSigned := fun _ => none
  ourKey := key 9
  isMasterNode := false
  useWhitelist := false
  allowTransit := true
  strictConnectPubkeys := []
  bootstrapRCList := [contact 3 1]

end Sample

end Belnet.Router
