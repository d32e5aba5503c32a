import Belnet.Handlers.Tun
import Belnet.Lib.Assoc
import Belnet.Lib.Heap

/-!
# The exit of a router

`ExitEndpoint` of `llarp/handlers/exit.cpp`, with `llarp/exit/endpoint.cpp`, the queue of `llarp/exit/session.cpp` and
the handlers of `llarp/path/transit_hop.cpp`.
-/

namespace Belnet.Handlers
open Net Function Heap List

structure ExitConfig (Key : Type) where
  us : Key
  zero : Key
  ourRange : IPRange
  permitExit : Bool

structure Exit (Key PathID : Type) where
  key : Key
  currentPath : Option PathID
  ip : IP
deriving DecidableEq

structure MNodeSession (Cb : Type) where
  pending : List Cb

structure ExitEndpoint (Key PathID Cb : Type) where
  keyToIP : Key → Option IP
  ipToKey : IP → Option Key
  ipActivity : IP → Option ℕ
  nextAddr : IP
  mnodeKeys : Key → Bool
  mnodeSessions : AList fun _ : Key => Option (MNodeSession Cb)
  activeExits : List (Exit Key PathID)
  paths : PathID → Option Key

inductive SessionFault where
  | nullSession
deriving DecidableEq

namespace ExitEndpoint
variable {Key PathID Cb : Type} [DecidableEq Key] [DecidableEq PathID] (c : ExitConfig Key)

def start : ExitEndpoint Key PathID Cb where
  keyToIP := update (fun _ => none) c.us (some c.ourRange.addr)
  ipToKey := update (fun _ => none) c.ourRange.addr (some c.us)
  ipActivity := update (fun _ => none) c.ourRange.addr (some timeMax)
  nextAddr := c.ourRange.addr
  mnodeKeys k := k = c.us
  mnodeSessions := ∅
  activeExits := []
  paths _ := none

def delEndpointInfo (paths : PathID → Option Key) (ep : Exit Key PathID) : PathID → Option Key :=
  match ep.currentPath with
  | none => paths
  | some path => update paths path none

def eraseExits (dead : Exit Key PathID → Bool) (s : ExitEndpoint Key PathID Cb) : ExitEndpoint Key PathID Cb :=
  { s with
    activeExits := s.activeExits.filter fun ep => !dead ep
    paths := (s.activeExits.filter dead).foldl delEndpointInfo s.paths }

def kickIdentOffExit (pk : Key) (s : ExitEndpoint Key PathID Cb) : ExitEndpoint Key PathID Cb :=
  let ip := (s.keyToIP pk).getD 0
  eraseExits (fun ep => ep.key = pk)
    { s with keyToIP := update s.keyToIP pk none, ipToKey := update s.ipToKey ip none }

def markIPActive (now : ℕ) (ip : IP) (s : ExitEndpoint Key PathID Cb) : ExitEndpoint Key PathID Cb :=
  { s with ipActivity := update s.ipActivity ip (some now) }

/-- the loop that looks for the oldest activity, in the order `order` of the hash map -/
def oldestActivity (activity : IP → Option ℕ) (order : List IP) : IP × ℕ :=
  order.foldl (fun found ip => match activity ip with
    | none => found
    | some t => if t < found.2 then (ip, t) else found) (0, timeMax)

def allocateNewAddress (order : List IP) (s : ExitEndpoint Key PathID Cb) : IP × ExitEndpoint Key PathID Cb :=
  if s.nextAddr < c.ourRange.highestAddr then (s.nextAddr + 1, { s with nextAddr := s.nextAddr + 1 })
  else
    let found := (oldestActivity s.ipActivity order).1
    -- `m_IPToKey[found]` makes an entry with the key of zeros where there is none
    let pk := (s.ipToKey found).getD c.zero
    (found, kickIdentOffExit pk { s with ipToKey := update s.ipToKey found (some pk) })

def getIPForIdent (pk : Key) (now : ℕ) (order : List IP) (s : ExitEndpoint Key PathID Cb) :
    IP × ExitEndpoint Key PathID Cb :=
  match s.keyToIP pk with
  | some found => (found, s.markIPActive now found)
  | none =>
    let (found, s) := s.allocateNewAddress c order
    -- `emplace` leaves an entry as it is
    if (s.keyToIP pk).isSome then (found, s)
    else
      let s := { s with keyToIP := update s.keyToIP pk (some found) }
      if (s.ipToKey found).isSome then (found, s)
      else (found, markIPActive now found { s with ipToKey := update s.ipToKey found (some pk) })

/-! ## sessions -/

def obtainMasterNodeIP (other : Key) (now : ℕ) (order : List IP) (s : ExitEndpoint Key PathID Cb) :
    IP × ExitEndpoint Key PathID Cb :=
  if other = c.us then (c.ourRange.addr, s)
  else
    let (ip, s) := s.getIPForIdent c other now order
    if s.mnodeKeys other then (ip, s)
    else (ip, { s with
      mnodeKeys := update s.mnodeKeys other true
      mnodeSessions := s.mnodeSessions.insert other (some ⟨[]⟩) })

/-- `allowed` is the answer of `SessionIsAllowed`; a callback that is not allowed is called with a null pointer -/
def obtainMNodeSession (router : Key) (cb : Cb) (allowed : Bool) (now : ℕ) (order : List IP)
    (s : ExitEndpoint Key PathID Cb) : Except SessionFault (ExitEndpoint Key PathID Cb) :=
  if !allowed then .ok s
  else
    let s := (s.obtainMasterNodeIP c router now order).2
    match s.mnodeSessions.lookup router with
    | some (some session) =>
      .ok { s with mnodeSessions := s.mnodeSessions.insert router (some ⟨session.pending ++ [cb]⟩) }
    | _ => .error .nullSession

def callPendingCallbacks (router : Key) (s : ExitEndpoint Key PathID Cb) : ExitEndpoint Key PathID Cb :=
  match s.mnodeSessions.lookup router with
  | some (some _) => { s with mnodeSessions := s.mnodeSessions.insert router (some ⟨[]⟩) }
  | _ => s

def hasNullSession (s : ExitEndpoint Key PathID Cb) : Bool := s.mnodeSessions.entries.any fun e => e.2.isNone

def flush (s : ExitEndpoint Key PathID Cb) : Except SessionFault (ExitEndpoint Key PathID Cb) :=
  if s.hasNullSession then .error .nullSession else .ok s

def tick (oldSession : Key → Bool) (oldExit : Exit Key PathID → Bool) (s : ExitEndpoint Key PathID Cb) :
    Except SessionFault (ExitEndpoint Key PathID Cb) :=
  if s.hasNullSession then .error .nullSession
  else .ok (eraseExits oldExit
    { s with mnodeSessions := Assoc.restrict (fun e => !oldSession e.1) s.mnodeSessions })

/-- `handler` is the `RXID` that `GetByUpstream` gives, `prevIsRouter` from `TransitHopPreviousIsRouter`, `pos` the
place in the multimap -/
def allocateNewExit (pk : Key) (path : PathID) (wantInternet : Bool) (handler : Option PathID) (prevIsRouter : Bool)
    (pos : ℕ) (now : ℕ) (order : List IP) (s : ExitEndpoint Key PathID Cb) : Bool × ExitEndpoint Key PathID Cb :=
  if wantInternet && !c.permitExit then (false, s)
  else match handler with
    | none => (false, s)
    | some rxID =>
      let (ip, s) := s.getIPForIdent c pk now order
      ((s.keyToIP pk).isSome, { s with
        mnodeKeys := if prevIsRouter then update s.mnodeKeys pk true else s.mnodeKeys
        activeExits := s.activeExits.take pos ++ ⟨pk, some rxID, ip⟩ :: s.activeExits.drop pos
        paths := update s.paths path (some pk) })

def findEndpointByPath (pick : ℕ) (path : PathID) (s : ExitEndpoint Key PathID Cb) : Option (Exit Key PathID) :=
  match s.paths path with
  | none => none
  | some pk =>
    let found := s.activeExits.filter fun ep => ep.key = pk
    found[pick % found.length]?

def removeExit (ep : Exit Key PathID) (s : ExitEndpoint Key PathID Cb) : ExitEndpoint Key PathID Cb :=
  let same := fun e : Exit Key PathID => decide (e.key = ep.key) && decide (e.currentPath = ep.currentPath)
  match s.activeExits.find? same with
  | none => s
  | some gone => { s with activeExits := s.activeExits.eraseP same, paths := delEndpointInfo s.paths gone }

/-- `HandleCloseExitMessage` on `path`; `verified`: signed by the endpoint's key, `sent`: the reply is sent -/
def closeExit (path : PathID) (pick : ℕ) (verified sent : Bool) (s : ExitEndpoint Key PathID Cb) :
    ExitEndpoint Key PathID Cb :=
  match s.findEndpointByPath pick path with
  | none => s
  | some ep => if verified && sent then s.removeExit ep else s

/-- `HandleUpdateExitMessage` on `next` for the endpoint of `path`; `handler` is the `RXID` of the hop for `next` -/
def updateExit (path next : PathID) (pick : ℕ) (verified : Bool) (handler : Option PathID)
    (s : ExitEndpoint Key PathID Cb) : ExitEndpoint Key PathID Cb :=
  match s.findEndpointByPath pick path with
  | none => s
  | some ep =>
    if !verified || (s.paths next).isSome then s
    else { s with
      paths := update s.paths next (some ep.key)
      activeExits := s.activeExits.replace ep { ep with currentPath := handler } }

inductive Op (Key PathID Cb : Type) where
  | getIPForIdent (pk : Key) (now : ℕ) (order : List IP)
  | obtainMasterNodeIP (other : Key) (now : ℕ) (order : List IP)
  | obtainMNodeSession (router : Key) (cb : Cb) (allowed : Bool) (now : ℕ) (order : List IP)
  | allocateNewExit (pk : Key) (path : PathID) (wantInternet : Bool) (handler : Option PathID) (prevIsRouter : Bool)
      (pos now : ℕ) (order : List IP)
  | kickIdentOffExit (pk : Key)
  | markIPActive (now : ℕ) (ip : IP)
  | callPendingCallbacks (router : Key)
  | closeExit (path : PathID) (pick : ℕ) (verified sent : Bool)
  | updateExit (path next : PathID) (pick : ℕ) (verified : Bool) (handler : Option PathID)
  | flush
  | tick (oldSession : Key → Bool) (oldExit : Exit Key PathID → Bool)

/-- A transfer message only reads `findEndpointByPath`; its packets go into the queue of the endpoint. -/
def step : Op Key PathID Cb → ExitEndpoint Key PathID Cb → Except SessionFault (ExitEndpoint Key PathID Cb)
  | .getIPForIdent pk now order, s => .ok (s.getIPForIdent c pk now order).2
  | .obtainMasterNodeIP other now order, s => .ok (s.obtainMasterNodeIP c other now order).2
  | .obtainMNodeSession router cb allowed now order, s => s.obtainMNodeSession c router cb allowed now order
  | .allocateNewExit pk path wantInternet handler prevIsRouter pos now order, s =>
    .ok (s.allocateNewExit c pk path wantInternet handler prevIsRouter pos now order).2
  | .kickIdentOffExit pk, s => .ok (s.kickIdentOffExit pk)
  | .markIPActive now ip, s => .ok (s.markIPActive now ip)
  | .callPendingCallbacks router, s => .ok (s.callPendingCallbacks router)
  | .closeExit path pick verified sent, s => .ok (s.closeExit path pick verified sent)
  | .updateExit path next pick verified handler, s => .ok (s.updateExit path next pick verified handler)
  | .flush, s => s.flush
  | .tick oldSession oldExit, s => s.tick oldSession oldExit

/-- a visitor that answers `false` stops the walk, which then answers `true` -/
def visitEndpoints {τ : Type} (visit : Exit Key PathID → τ → Bool × τ) : List (Exit Key PathID) → τ → Bool × τ
  | [], t => (false, t)
  | ep :: eps, t => if (visit ep t).1 then visitEndpoints visit eps (visit ep t).2 else (true, (visit ep t).2)

/-- `pathByRouter` is the `RXID` that the session with a master node gives; a tag is the `RXID` of a path -/
def getBestConvoTagFor (zero : PathID) (pathByRouter : Key → Option PathID) (rid : Key)
    (s : ExitEndpoint Key PathID Cb) : Option PathID :=
  let (stopped, tag) := visitEndpoints (fun ep tag => (true, ep.currentPath.getD tag))
    (s.activeExits.filter fun ep => ep.key = rid) zero
  if stopped && tag ≠ zero then some tag else (s.mnodeSessions.lookup rid).bind fun _ => pathByRouter rid

/-- `hasPath` is `GetPathByID` of the sessions -/
def getEndpointWithConvoTag (hasPath : Key → PathID → Bool) (tag : PathID) (s : ExitEndpoint Key PathID Cb) : Option Key :=
  (s.paths tag).or (s.mnodeSessions.keys.find? (hasPath · tag))

omit [DecidableEq Key] [DecidableEq PathID] in
lemma visitEndpoints_all {τ : Type} (tagOf : Exit Key PathID → τ → τ) (eps : List (Exit Key PathID)) (t : τ) :
    (visitEndpoints (fun ep t => (true, tagOf ep t)) eps t).1 = false := by
  induction eps generalizing t with
  | nil => rfl
  | cons ep eps ih => exact ih _

/-- The visitor never stops the walk, so the conversations with exits are not used: one is found exactly when a session
with its router has the path of one of the endpoints. -/
theorem convo_found_iff (zero : PathID) (pathByRouter : Key → Option PathID) (hasPath : Key → PathID → Bool) (rid : Key)
    (s : ExitEndpoint Key PathID Cb) :
    (∃ tag, s.getBestConvoTagFor zero pathByRouter rid = some tag ∧
      (∃ ep ∈ s.activeExits, ep.key = rid ∧ ep.currentPath = some tag) ∧
      ((∀ ep ∈ s.activeExits, ∀ path, ep.currentPath = some path → s.paths path = some ep.key) →
        s.getEndpointWithConvoTag hasPath tag = some rid)) ↔
    ∃ session ep tag, s.mnodeSessions.lookup rid = some session ∧ pathByRouter rid = some tag ∧
      ep ∈ s.activeExits ∧ ep.key = rid ∧ ep.currentPath = some tag := by
  have hanswer : s.getBestConvoTagFor zero pathByRouter rid
      = (s.mnodeSessions.lookup rid).bind fun _ => pathByRouter rid := by
    unfold getBestConvoTagFor
    dsimp only
    rw [visitEndpoints_all]
    rfl
  rw [hanswer]
  constructor
  · rintro ⟨tag, htag, ⟨ep, hmem, hkey, hpath⟩, -⟩
    obtain ⟨session, hsession, htag⟩ := Option.bind_eq_some_iff.mp htag
    exact ⟨session, ep, tag, hsession, htag, hmem, hkey, hpath⟩
  · rintro ⟨session, ep, tag, hsession, htag, hmem, rfl, hpath⟩
    refine ⟨tag, by rw [hsession]; exact htag, ⟨ep, hmem, rfl, hpath⟩, fun hrecorded => ?_⟩
    rw [getEndpointWithConvoTag, hrecorded ep hmem tag hpath]
    rfl

/-- the exit of the key 7 is on the path 5 -/
theorem exit_without_conversation : getBestConvoTagFor 0 (fun _ => none) 7
    { (start ⟨1, 0, TunEndpoint.sampleRange, true⟩ : ExitEndpoint ℕ ℕ ℕ) with activeExits := [⟨7, some 5, 3⟩] } = none :=
  rfl

end ExitEndpoint

/-! ## the order of packets -/

structure UpstreamBuffer where
  pkt : Bytes
  counter : UInt64
deriving DecidableEq

structure InetPacket where
  dst : IP
  timestamp : ℤ
deriving DecidableEq

/-- `Endpoint::Flush`, and `FlushDownstream` with pairs for buffers -/
abbrev Flushes : List UpstreamBuffer → List UpstreamBuffer → Prop := Drains (·.counter < ·.counter)

/-- `ExitEndpoint::Flush` forwards the packets whose destination has a key -/
def Forwards (hasKey : IP → Bool) (q out : List InetPacket) : Prop :=
  ∃ popped, Drains (·.timestamp < ·.timestamp) q popped ∧ out = popped.filter (hasKey ·.dst)

/-- The queues hand out the newest packet first. -/
theorem packets_in_order_iff (hasKey : IP → Bool) :
    (∀ q out, Flushes q out → (out.Pairwise (·.counter < ·.counter) ↔ q.length ≤ 1)) ∧
    ∀ q out, Forwards hasKey q out → (out.Pairwise (·.timestamp ≤ ·.timestamp) ↔
      ∀ x ∈ q, ∀ y ∈ q, hasKey x.dst → hasKey y.dst → x.timestamp = y.timestamp) := by
  refine ⟨fun q out h => ?_, ?_⟩
  · rw [← h.perm.length_eq]
    rcases out with _ | ⟨x, _ | ⟨y, out⟩⟩
    · simp
    · simp
    · have hxy := rel_of_pairwise_cons h.ordered mem_cons_self
      exact ⟨fun hup => absurd (rel_of_pairwise_cons hup mem_cons_self) hxy, by simp⟩
  · rintro q out ⟨popped, hpops, rfl⟩
    have hmem : ∀ x, x ∈ popped.filter (hasKey ·.dst) ↔ x ∈ q ∧ hasKey x.dst := by simp [hpops.perm.mem_iff]
    constructor
    · intro hup x hx y hy hkx hky
      have : Std.Symm fun x y : InetPacket => x.timestamp = y.timestamp := ⟨fun _ _ => Eq.symm⟩
      have hsame : (popped.filter (hasKey ·.dst)).Pairwise fun x y => x.timestamp = y.timestamp :=
        (hup.and (hpops.ordered.filter _)).imp fun h => le_antisymm h.1 (not_lt.mp h.2)
      exact hsame.forall_of_forall (fun x _ => (rfl : x.timestamp = _)) ((hmem x).mpr ⟨hx, hkx⟩) ((hmem y).mpr ⟨hy, hky⟩)
    · intro hsame
      refine pairwise_of_forall_mem_list fun x hx y hy => ?_
      obtain ⟨hx, hkx⟩ := (hmem x).mp hx
      obtain ⟨hy, hky⟩ := (hmem y).mp hy
      exact (hsame x hx y hy hkx hky).le

/-- counter 1 waits for counter 2 -/
theorem second_packet_first : Flushes [⟨[10], 1⟩, ⟨[20], 2⟩] [⟨[20], 2⟩, ⟨[10], 1⟩] :=
  .pop (by decide) (by decide) (.pop (by decide) (by decide) .empty)

end Belnet.Handlers
