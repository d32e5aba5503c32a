import Belnet.Lib.Queues
import Belnet.Lib.Run
import Belnet.Dht.TXHolder
import Mathlib.Logic.Function.Basic
import Mathlib.Tactic.Abel

/-!
# Requests of router contacts and the lookups behind them

`RCLookupHandler` of `llarp/router/rc_lookup_handler.cpp`.
-/

namespace Belnet.Router
open Dht List Multiset Queues Function
open Iwp (Millis)
variable {R : Type} [DecidableEq R]

/-! ## the model -/

/-- what a lookup is for: its handler is `HandleDHTLookupResult` of the router, or something else -/
inductive LookupKind where
  | request | other

inductive RequestFrame (R : Type) where
  | direct (router : R)
  | finalize (router : R) (todo : List ℕ)

def RequestFrame.todo : RequestFrame R → List ℕ
  | .direct _ => []
  | .finalize _ todo => todo

inductive Base (R : Type) where
  | idle
  | informResult (ep : ℕ) (router : R)
  | inform (key : R) (current : TXOwner) (todo : List TXOwner)

structure Requests (R : Type) [DecidableEq R] where
  pendingCallbacks : AList (fun _ : R => List ℕ)
  pendingRouters : ℕ × R → Option LookupKind
  lookups : TXHolder R LookupKind
  ids : ℕ
  stack : List (RequestFrame R)
  base : Base R
  calls : List ℕ
  next : ℕ

namespace Requests

def start : Requests R := ⟨∅, fun _ => none, {}, 0, [], .idle, [], 0⟩

def finalizeRequest (router : R) (s : Requests R) : Requests R :=
  let moved := queue s.pendingCallbacks router
  let s := { s with pendingCallbacks := s.pendingCallbacks.erase router }
  match moved with
  | [] => s
  | c :: cs => { s with calls := s.calls ++ [c], stack := .finalize router cs :: s.stack }

def lookupRouterAnon (ep : ℕ) (router : R) (kind : LookupKind) (sends : Bool) (s : Requests R) : Bool × Requests R :=
  match s.pendingRouters (ep, router) with
  | some _ => (false, s)
  | none =>
    if sends then (true, { s with pendingRouters := update s.pendingRouters (ep, router) (some kind) })
    else (false, s)

def lookupAnonymously (router : R) : List (ℕ × Bool) → Requests R → Bool × Requests R
  | [], s => (false, s)
  | (ep, sends) :: eps, s =>
    let r := s.lookupRouterAnon ep router .request sends
    if r.1 then r else lookupAnonymously router eps s

def newTX (now : Millis) (router : R) (kind : LookupKind) (askpeer : Key) (s : Requests R) : Requests R :=
  { s with
    lookups := (s.lookups.newTX now ⟨askpeer, s.ids + 1⟩ router kind TXHolder.requestTimeout).1
    ids := s.ids + 1 }

def lookupRouter (now : Millis) (router : R) (askpeer : Option Key) (s : Requests R) : Bool × Requests R :=
  match askpeer with
  | none => (false, s)
  | some askpeer => (true, s.newTX now router .request askpeer)

variable (isMasterNode : Bool)

def startLookup (now : Millis) (router : R) (eps : List (ℕ × Bool)) (askpeer : Option Key)
    (s : Requests R) : Requests R :=
  let anon := if isMasterNode then (false, s) else s.lookupAnonymously router eps
  if anon.1 then anon.2
  else
    let sent := s.lookupRouter now router askpeer
    if sent.1 then sent.2 else s.finalizeRequest router

def getRC (now : Millis) (router : R) (callback forceLookup known : Bool) (eps : List (ℕ × Bool))
    (askpeer : Option Key) (s : Requests R) : Requests R :=
  if !forceLookup && known then
    if callback then
      { s with calls := s.calls ++ [s.next], next := s.next + 1, stack := .direct router :: s.stack }
    else s.finalizeRequest router
  else
    let shouldDoLookup := (s.pendingCallbacks.lookup router).isNone
    let s :=
      if callback then
        { s with pendingCallbacks := append s.pendingCallbacks router [s.next], next := s.next + 1 }
      else { s with pendingCallbacks := append s.pendingCallbacks router [] }
    if shouldDoLookup then s.startLookup isMasterNode now router eps askpeer else s

def eraseTX (o : TXOwner) (s : Requests R) : Requests R :=
  { s with lookups := { s.lookups with tx := s.lookups.tx.erase o } }

def inform (key : R) : List TXOwner → Requests R → Requests R
  | [], s => { s with
      lookups := { s.lookups with
        waiting := s.lookups.waiting.filter fun w => w.1 ≠ key
        timeouts := s.lookups.timeouts.erase key }
      base := .idle }
  | o :: todo, s => match s.lookups.tx.lookup o with
    | none => inform key todo s
    | some .other => inform key todo (s.eraseTX o)
    | some .request =>
      let s := finalizeRequest key { s with base := .inform key o todo }
      if s.stack.isEmpty then inform key todo (s.eraseTX o) else s

def settle (s : Requests R) : Requests R :=
  if s.stack.isEmpty then match s.base with
    | .idle => s
    | .informResult ep router =>
      { s with pendingRouters := update s.pendingRouters (ep, router) none, base := .idle }
    | .inform key o todo => inform key todo (s.eraseTX o)
  else s

def callbackReturns (s : Requests R) : Requests R := match s.stack with
  | [] => s
  | .direct router :: stack => settle (finalizeRequest router { s with stack := stack })
  | .finalize router (c :: cs) :: stack => { s with calls := s.calls ++ [c], stack := .finalize router cs :: stack }
  | .finalize _ [] :: stack => settle { s with stack := stack }

def jobResult (ep : ℕ) (router : R) (s : Requests R) : Requests R :=
  match s.pendingRouters (ep, router) with
  | none => s
  | some .other => { s with pendingRouters := update s.pendingRouters (ep, router) none }
  | some .request => settle (finalizeRequest router { s with base := .informResult ep router })

inductive Op (R : Type) where
  | getRC (now : Millis) (router : R) (callback forceLookup known : Bool) (eps : List (ℕ × Bool)) (askpeer : Option Key)
  | lookupRouterAnon (ep : ℕ) (router : R) (sends : Bool)
  | newTX (now : Millis) (router : R) (askpeer : Key)
  | jobResult (ep : ℕ) (router : R)
  | dhtResult (key : R)
  | callbackReturns

def step : Op R → Requests R → Except Empty (Requests R)
  | .getRC now router callback forceLookup known eps askpeer, s =>
    .ok (s.getRC isMasterNode now router callback forceLookup known eps askpeer)
  | .lookupRouterAnon ep router sends, s => .ok (s.lookupRouterAnon ep router .other sends).2
  | .newTX now router askpeer, s => .ok (s.newTX now router .other askpeer)
  | .jobResult ep router, s => .ok (match s.base with
    | .idle => if s.stack.isEmpty then s.jobResult ep router else s
    | _ => s)
  | .dhtResult key, s => .ok (match s.base with
    | .idle => if s.stack.isEmpty then s.inform key (s.lookups.waitingFor key) else s
    | _ => s)
  | .callbackReturns, s => .ok s.callbackReturns

def tokens (s : Requests R) : Multiset ℕ := ↑s.calls + items s.pendingCallbacks + ↑(s.stack.flatMap RequestFrame.todo)

structure Moves (s s' : Requests R) : Prop where
  tokens : s'.tokens = s.tokens
  next : s'.next = s.next

variable {s : Requests R}

lemma Moves.rfl : Moves s s := ⟨.refl _, .refl _⟩

variable {s' : Requests R}

lemma Moves.trans {s'' : Requests R} (h : Moves s s') (h' : Moves s' s'') : Moves s s'' :=
  ⟨h'.tokens.trans h.tokens, h'.next.trans h.next⟩

lemma Moves.of_lookups {pendingRouters : ℕ × R → Option LookupKind} {lookups : TXHolder R LookupKind}
    {ids : ℕ} {base : Base R} :
    Moves s { s with pendingRouters := pendingRouters, lookups := lookups, ids := ids, base := base } :=
  ⟨Eq.refl _, Eq.refl _⟩

lemma finalize_moves (router : R) (s : Requests R) : Moves s (s.finalizeRequest router) := by
  have htake := items_take s.pendingCallbacks router
  unfold finalizeRequest
  cases hq : queue s.pendingCallbacks router with
  | nil =>
    rw [hq] at htake
    refine ⟨?_, Eq.refl _⟩
    simp only [Requests.tokens, ← htake, coe_nil, add_zero]
  | cons =>
    rw [hq, ← cons_coe, ← singleton_add] at htake
    refine ⟨?_, Eq.refl _⟩
    simp only [Requests.tokens, ← htake, flatMap_cons, RequestFrame.todo, ← coe_add, coe_singleton]
    abel

lemma inform_moves (key : R) (todo : List TXOwner) (s : Requests R) : Moves s (s.inform key todo) := by
  induction todo generalizing s with
  | nil => exact ⟨Eq.refl _, Eq.refl _⟩
  | cons o todo ih =>
    unfold inform
    split
    · exact ih s
    · exact Moves.of_lookups.trans (ih (s.eraseTX o))
    have h : Moves s (finalizeRequest key { s with base := .inform key o todo }) :=
      Moves.of_lookups.trans (finalize_moves key _)
    dsimp only
    split
    · exact h.trans (Moves.of_lookups.trans (ih _))
    · exact h

lemma settle_moves (s : Requests R) : Moves s s.settle := by
  unfold settle
  split
  · split
    · exact .rfl
    · exact .of_lookups
    · exact Moves.of_lookups.trans (inform_moves _ _ (s.eraseTX _))
  · exact .rfl

lemma callbackReturns_moves (s : Requests R) : Moves s s.callbackReturns := by
  unfold callbackReturns
  split
  · exact .rfl
  · rename_i router stack hstack
    have h : Moves s { s with stack := stack } := by
      refine ⟨?_, Eq.refl _⟩
      simp [Requests.tokens, hstack, RequestFrame.todo]
    exact (h.trans (finalize_moves router _)).trans (settle_moves _)
  · rename_i router c cs stack hstack
    refine ⟨?_, Eq.refl _⟩
    simp only [Requests.tokens, hstack, flatMap_cons, RequestFrame.todo, ← coe_add, ← cons_coe, ← singleton_add]
    abel
  · rename_i stack hstack
    have h : Moves s { s with stack := stack } := by
      refine ⟨?_, Eq.refl _⟩
      simp [Requests.tokens, hstack, RequestFrame.todo]
    exact h.trans (settle_moves _)

lemma jobResult_moves (ep : ℕ) (router : R) (s : Requests R) : Moves s (s.jobResult ep router) := by
  unfold jobResult
  split
  · exact .rfl
  · exact .of_lookups
  · exact (Moves.of_lookups.trans (finalize_moves router _)).trans (settle_moves _)

def CanAsk (s : Requests R) (router : R) (e : ℕ × Bool) : Prop := e.2 = true ∧ s.pendingRouters (e.1, router) = none

lemma anon_eq (ep : ℕ) (router : R) (kind : LookupKind) (sends : Bool) (s : Requests R) :
    (CanAsk s router (ep, sends) ∧ s.lookupRouterAnon ep router kind sends =
      (true, { s with pendingRouters := update s.pendingRouters (ep, router) (some kind) })) ∨
    (¬ CanAsk s router (ep, sends) ∧ s.lookupRouterAnon ep router kind sends = (false, s)) := by
  unfold lookupRouterAnon CanAsk
  cases hp : s.pendingRouters (ep, router) with
  | some => exact .inr ⟨(fun h => nomatch h.2), rfl⟩
  | none =>
    cases sends with
    | true => exact .inl ⟨⟨rfl, rfl⟩, rfl⟩
    | false => exact .inr ⟨(fun h => nomatch h.1), rfl⟩

lemma lookupAnonymously_eq (router : R) (eps : List (ℕ × Bool)) (s : Requests R) :
    (∃ e ∈ eps, CanAsk s router e ∧ s.lookupAnonymously router eps =
      (true, { s with pendingRouters := update s.pendingRouters (e.1, router) (some .request) })) ∨
    ((∀ e ∈ eps, ¬ CanAsk s router e) ∧ s.lookupAnonymously router eps = (false, s)) := by
  induction eps with
  | nil => exact .inr ⟨fun e he => absurd he not_mem_nil, rfl⟩
  | cons e eps ih =>
    obtain ⟨ep, sends⟩ := e
    unfold lookupAnonymously
    rcases anon_eq ep router .request sends s with ⟨hcan, heq⟩ | ⟨hcan, heq⟩
    · rw [heq]
      exact .inl ⟨(ep, sends), mem_cons_self, hcan, rfl⟩
    rw [heq]
    rcases ih with ⟨e, he, hcan', heq'⟩ | ⟨hall, heq'⟩
    · exact .inl ⟨e, mem_cons_of_mem _ he, hcan', heq'⟩
    · exact .inr ⟨forall_mem_cons.mpr ⟨hcan, hall⟩, heq'⟩

lemma startLookup_eq (now : Millis) (router : R) (eps : List (ℕ × Bool)) (askpeer : Option Key) (s : Requests R) :
    (isMasterNode = false ∧ ∃ e ∈ eps, CanAsk s router e ∧ s.startLookup isMasterNode now router eps askpeer =
      { s with pendingRouters := update s.pendingRouters (e.1, router) (some .request) }) ∨
    ((isMasterNode = false → ∀ e ∈ eps, ¬ CanAsk s router e) ∧ ((∃ peer, askpeer = some peer ∧
        s.startLookup isMasterNode now router eps askpeer = s.newTX now router .request peer) ∨
      (askpeer = none ∧ s.startLookup isMasterNode now router eps askpeer = s.finalizeRequest router))) := by
  have hdht : (∃ peer, askpeer = some peer ∧
        (if (s.lookupRouter now router askpeer).1 then (s.lookupRouter now router askpeer).2 else s.finalizeRequest router)
          = s.newTX now router .request peer) ∨
      (askpeer = none ∧
        (if (s.lookupRouter now router askpeer).1 then (s.lookupRouter now router askpeer).2 else s.finalizeRequest router)
          = s.finalizeRequest router) := by
    cases askpeer with
    | none => exact .inr ⟨rfl, rfl⟩
    | some peer => exact .inl ⟨peer, rfl, rfl⟩
  unfold startLookup
  cases isMasterNode with
  | true => exact .inr ⟨(fun h => nomatch h), hdht⟩
  | false =>
    rcases lookupAnonymously_eq router eps s with ⟨e, he, hcan, heq⟩ | ⟨hall, heq⟩
    · refine .inl ⟨rfl, e, he, hcan, ?_⟩
      simp only [heq, Bool.false_eq_true, if_false, if_true]
    · refine .inr ⟨fun _ => hall, ?_⟩
      simpa only [heq, Bool.false_eq_true, if_false] using hdht

lemma startLookup_moves (now : Millis) (router : R) (eps : List (ℕ × Bool))
    (askpeer : Option Key) (s : Requests R) : Moves s (s.startLookup isMasterNode now router eps askpeer) := by
  rcases startLookup_eq isMasterNode now router eps askpeer s with ⟨-, e, -, -, heq⟩ | ⟨-, ⟨_, -, heq⟩ | ⟨-, heq⟩⟩
  · rw [heq]
    exact .of_lookups
  · rw [heq]
    exact .of_lookups
  · rw [heq]
    exact finalize_moves router s

def Placed (s : Requests R) : Prop := s.tokens = Multiset.range s.next

lemma Moves.placed (h : Moves s s') (hs : Placed s) : Placed s' := by
  unfold Placed
  rw [h.tokens, h.next]
  exact hs

lemma Placed.getRC (hs : Placed s) (isMasterNode : Bool) (now : Millis) (router : R)
    (callback forceLookup known : Bool) (eps : List (ℕ × Bool)) (askpeer : Option Key) :
    Placed (s.getRC isMasterNode now router callback forceLookup known eps askpeer) := by
  -- one more callback, called or kept
  have hnew : ∀ s' : Requests R, s'.tokens = {s.next} + s.tokens → s'.next = s.next + 1 → Placed s' := by
    intro s' ht hn
    unfold Placed
    rw [ht, hn, Multiset.range_succ, hs, Multiset.singleton_add]
  unfold Requests.getRC
  dsimp only
  split
  · split
    · refine hnew _ ?_ rfl
      simp only [Requests.tokens, flatMap_cons, RequestFrame.todo, nil_append, ← coe_add, coe_singleton]
      abel
    · exact (finalize_moves router s).placed hs
  · have hkept : Placed (if callback = true then
        { s with pendingCallbacks := append s.pendingCallbacks router [s.next], next := s.next + 1 }
      else { s with pendingCallbacks := append s.pendingCallbacks router [] }) := by
      split
      · refine hnew _ ?_ rfl
        simp only [Requests.tokens, items_append, coe_singleton]
        abel
      · unfold Placed Requests.tokens
        rw [items_append, coe_nil, add_zero]
        exact hs
    split
    · exact (startLookup_moves isMasterNode now router eps askpeer _).placed hkept
    · exact hkept

lemma Placed.step {isMasterNode : Bool} {op : Op R} (hs : Placed s)
    (h : Requests.step isMasterNode op s = .ok s') : Placed s' := by
  cases op with obtain rfl := Except.ok.inj h
  | getRC now router callback forceLookup known eps askpeer => exact hs.getRC ..
  | lookupRouterAnon ep router sends =>
    rcases anon_eq ep router .other sends s with ⟨-, heq⟩ | ⟨-, heq⟩
    · rw [heq]
      exact Moves.of_lookups.placed hs
    · rw [heq]
      exact hs
  | newTX now router askpeer => exact Moves.of_lookups.placed hs
  | jobResult ep router =>
    split
    · split
      · exact (jobResult_moves ..).placed hs
      · exact hs
    · exact hs
  | dhtResult =>
    split
    · split
      · exact (inform_moves ..).placed hs
      · exact hs
    · exact hs
  | callbackReturns => exact (callbackReturns_moves s).placed hs

lemma placed_start : Placed (start : Requests R) := rfl

end Requests

end Belnet.Router
