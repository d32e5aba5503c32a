import Belnet.Lib.Queues
import Belnet.Lib.RoundRobin
import Belnet.Path.Messages

/-!
# Outbound messages

`OutboundMessageHandler` of `llarp/router/outbound_message_handler.cpp`.
-/

namespace Belnet.Router
open List Function RoundRobin Queues Nat

open Iwp (Millis)
open Belnet.Path (PathID RouterID)

/-! ## the model -/

inductive SendStatus where
  | success
  | timeout
  | noLink
  | invalidRouter
  | routerNotFound
  | congestion

abbrev maxPathQueueSize : ℕ := 100

abbrev maxOutboundQueueSize : ℕ := 1000

abbrev maxOutboundMessagesPerTick : ℕ := 500

structure DecayingHashSet (α : Type) where
  interval : Millis
  values : List (α × Millis) := []

namespace DecayingHashSet
variable {α : Type} [DecidableEq α] (s : DecayingHashSet α)

def contains (v : α) : Bool := s.values.any fun x => x.1 = v

def insert (v : α) (now : Millis) : DecayingHashSet α :=
  if s.contains v then s else { s with values := (v, now) :: s.values }

def decay (now : Millis) : DecayingHashSet α :=
  { s with values := s.values.filter fun x => now < s.interval + x.2 }

end DecayingHashSet

structure MessageQueueEntry where
  priority : UInt16
  message : Bytes
  inform : Option ℕ
  pathid : PathID
  router : RouterID
deriving DecidableEq

abbrev MessageQueue := List MessageQueueEntry

def MessageQueue.push (q : MessageQueue) (e : MessageQueueEntry) : MessageQueue :=
  q.takeWhile (fun x => x.priority ≤ e.priority) ++ e :: q.dropWhile fun x => x.priority ≤ e.priority

abbrev zeroID : PathID := .zero 16

structure OutboundMessageHandler where
  maxQueueSize : ℕ
  outboundQueue : List MessageQueueEntry
  recentlyRemovedPaths : DecayingHashSet PathID
  removedSomePaths : Bool
  pendingSessionMessageQueues : AList (fun _ : RouterID => MessageQueue)
  outboundMessageQueues : AList (fun _ : PathID => MessageQueue)
  roundRobinOrder : List PathID
  sent : List (PathID × MessageQueueEntry)
  informed : List (ℕ × SendStatus)

namespace OutboundMessageHandler

def init (maxQueueSize : ℕ) : OutboundMessageHandler where
  maxQueueSize := maxQueueSize
  outboundQueue := []
  recentlyRemovedPaths := { interval := 5000 }
  removedSomePaths := false
  pendingSessionMessageQueues := ∅
  outboundMessageQueues := AList.singleton zeroID []
  roundRobinOrder := []
  sent := []
  informed := []

def doCallback (callback : Option ℕ) (status : SendStatus) (s : OutboundMessageHandler) : OutboundMessageHandler :=
  match callback with
  | some c => { s with informed := s.informed ++ [(c, status)] }
  | none => s

def queueOutboundMessage (entry : MessageQueueEntry) (s : OutboundMessageHandler) : OutboundMessageHandler :=
  if s.outboundQueue.length < s.maxQueueSize then { s with outboundQueue := s.outboundQueue ++ [entry] }
  else s.doCallback entry.inform .congestion

/-- the destination is allowed, the message is encoded, there is a session; the session maker gets the other requests
-/
def queueMessage (allowed encoded hasSession : Bool) (ent : MessageQueueEntry) (s : OutboundMessageHandler) :
    Bool × OutboundMessageHandler :=
  if !allowed then (true, s.doCallback ent.inform .invalidRouter)
  else if !encoded then (false, s)
  else if hasSession then (true, s.queueOutboundMessage ent)
  else
    (true, { s with
      pendingSessionMessageQueues := s.pendingSessionMessageQueues.insert ent.router
        (MessageQueue.push (queue s.pendingSessionMessageQueues ent.router) ent) })

def removePath (now : Millis) (pathid : PathID) (s : OutboundMessageHandler) : OutboundMessageHandler :=
  { s with
    recentlyRemovedPaths := s.recentlyRemovedPaths.insert pathid now
    outboundMessageQueues := s.outboundMessageQueues.erase pathid
    removedSomePaths := true }

section
variable (s : OutboundMessageHandler)

def queue (pathid : PathID) : MessageQueue := Queues.queue s.outboundMessageQueues pathid

def processEntry (entry : MessageQueueEntry) : OutboundMessageHandler :=
  if s.recentlyRemovedPaths.contains entry.pathid then s
  else
    let isNew := !decide (entry.pathid ∈ s.outboundMessageQueues)
    let pathQueue := s.queue entry.pathid
    let s := if isNew && !Path.isZero entry.pathid then { s with roundRobinOrder := s.roundRobinOrder ++ [entry.pathid] } else s
    if pathQueue.length < maxPathQueueSize || Path.isZero entry.pathid then
      { s with outboundMessageQueues := s.outboundMessageQueues.insert entry.pathid (pathQueue.push entry) }
    else
      { s with outboundMessageQueues := s.outboundMessageQueues.insert entry.pathid pathQueue }.doCallback
        entry.inform .congestion

def processOutboundQueue : OutboundMessageHandler := s.outboundQueue.foldl processEntry { s with outboundQueue := [] }

def sendRouting : OutboundMessageHandler :=
  { s with
    outboundMessageQueues := s.outboundMessageQueues.insert zeroID []
    sent := s.sent ++ (s.queue zeroID).map fun e => (zeroID, e) }

def dropStale (queues : AList (fun _ : PathID => MessageQueue)) : ℕ → List PathID → List PathID
  | 0, order => order
  | _ + 1, [] => []
  | n + 1, pathid :: order => dropStale queues n (if pathid ∈ queues then order ++ [pathid] else order)

def removeStale : OutboundMessageHandler :=
  { s with
    roundRobinOrder :=
      if s.removedSomePaths then dropStale s.outboundMessageQueues s.roundRobinOrder.length s.roundRobinOrder
      else s.roundRobinOrder
    removedSomePaths := false }

end

def visit (pathid : PathID) (rest : List PathID) (s : OutboundMessageHandler) : Bool × OutboundMessageHandler :=
  match s.queue pathid with
  | e :: q => (true, { s with
      roundRobinOrder := rest ++ [pathid]
      outboundMessageQueues := s.outboundMessageQueues.insert pathid q
      sent := s.sent ++ [(pathid, e)] })
  | [] => (false, { s with
      roundRobinOrder := rest ++ [pathid]
      outboundMessageQueues := s.outboundMessageQueues.insert pathid [] })

/-- The loop of `SendRoundRobin`, to `consecutive_empty` behind it.  `sentCount` stays as it was. -/
def sendLoop (numQueues sentCount : ℕ) : ℕ → ℕ → OutboundMessageHandler → Option (ℕ × OutboundMessageHandler)
  | 0, _, _ => none
  | fuel + 1, consecutiveEmpty, s =>
    if sentCount < maxOutboundMessagesPerTick then
      match s.roundRobinOrder with
      | [] => none
      | pathid :: rest =>
        let r := s.visit pathid rest
        let consecutiveEmpty := if r.1 then 1 else consecutiveEmpty + 1
        -- if num_queues empty queues in a row, all queues empty
        if consecutiveEmpty = numQueues then some (consecutiveEmpty, r.2)
        else sendLoop numQueues sentCount fuel consecutiveEmpty r.2
    else some (consecutiveEmpty, s)

section
variable (s : OutboundMessageHandler)

def fuel : ℕ := s.roundRobinOrder.length * ((s.roundRobinOrder.map fun p => (s.queue p).length).sum + 1)

def sendRoundRobin : Option (Bool × OutboundMessageHandler) :=
  let s := s.sendRouting.removeStale
  let numQueues := s.roundRobinOrder.length
  if numQueues = 0 then some (false, s)
  else (sendLoop numQueues 0 s.fuel 0 s).map fun r => (decide (r.1 ≠ numQueues), r.2)

def pump (now : Millis) (s : OutboundMessageHandler) : Option (Bool × OutboundMessageHandler) :=
  ({ s with recentlyRemovedPaths := s.recentlyRemovedPaths.decay now }).processOutboundQueue.sendRoundRobin

def len (pathid : PathID) : ℕ := (s.queue pathid).length

def places : List ℕ := RoundRobin.places s.len s.roundRobinOrder

end

structure Turns (new : List (PathID × MessageQueueEntry)) (s s' : OutboundMessageHandler) : Prop where
  order : s'.roundRobinOrder.Perm s.roundRobinOrder
  kept : ∀ p ∈ s.outboundMessageQueues, p ∈ s'.outboundMessageQueues
  keys : ∀ p ∈ s'.outboundMessageQueues, p ∈ s.outboundMessageQueues ∨ p ∈ s.roundRobinOrder
  queue : ∀ p ∉ s.roundRobinOrder, s'.queue p = s.queue p
  sent : s'.sent = s.sent ++ new
  source : ∀ x ∈ new, s.len x.1 ≠ 0
  shorter : ∀ p, s'.len p ≤ s.len p
  left : s'.places.sum + new.length = s.places.sum
  removed : s'.recentlyRemovedPaths = s.recentlyRemovedPaths ∧ s'.removedSomePaths = s.removedSomePaths
  waiting : s'.outboundQueue = s.outboundQueue

variable {new : List (PathID × MessageQueueEntry)} {s s' : OutboundMessageHandler}

lemma Turns.trans {new' : List (PathID × MessageQueueEntry)} {s'' : OutboundMessageHandler} (h : Turns new s s')
    (h' : Turns new' s' s'') : Turns (new ++ new') s s'' where
  order := h'.order.trans h.order
  kept p hp := h'.kept p (h.kept p hp)
  keys p hp := by
    rcases h'.keys p hp with hp | hp
    · exact h.keys p hp
    · exact .inr (h.order.mem_iff.mp hp)
  queue p hp := (h'.queue p fun hp' => hp (h.order.mem_iff.mp hp')).trans (h.queue p hp)
  sent := by rw [h'.sent, h.sent, append_assoc]
  source x hx := by
    rcases mem_append.mp hx with hx | hx
    · exact h.source x hx
    have hlen := h'.source x hx
    have hle := h.shorter x.1
    omega
  shorter p := (h'.shorter p).trans (h.shorter p)
  left := by
    rw [length_append]
    have hleft := h.left
    have hleft' := h'.left
    omega
  removed := ⟨h'.removed.1.trans h.removed.1, h'.removed.2.trans h.removed.2⟩
  waiting := h'.waiting.trans h.waiting

variable {p : PathID}

section
variable {s : OutboundMessageHandler} {pathid : PathID} {rest : List PathID}

lemma visit_len : (s.visit pathid rest).2.len = Function.update s.len pathid (s.len pathid - 1) := by
  funext p
  have hqueue := Queues.queue_insert s.outboundMessageQueues pathid p
  unfold visit
  split
  · rename_i e q hq
    unfold len queue
    rw [hqueue]
    split
    · rename_i hp
      subst hp
      rw [update_self]
      have hlen : (Queues.queue s.outboundMessageQueues p).length = q.length + 1 := congrArg List.length hq
      rw [hlen]
      rfl
    · rename_i hp
      rw [update_of_ne hp]
  · rename_i hq
    unfold len queue
    rw [hqueue]
    split
    · rename_i hp
      subst hp
      rw [update_self]
      have hlen : (Queues.queue s.outboundMessageQueues p).length = 0 := congrArg List.length hq
      rw [hlen]
      rfl
    · rename_i hp
      rw [update_of_ne hp]

lemma visit_order : (s.visit pathid rest).2.roundRobinOrder = rest ++ [pathid] := by
  unfold visit
  split <;> rfl

lemma visit_sends : (s.visit pathid rest).1 = true ↔ s.len pathid ≠ 0 := by
  unfold visit len
  split
  · rename_i e q hq
    rw [hq]
    exact ⟨fun _ => succ_ne_zero _, fun _ => rfl⟩
  · rename_i hq
    rw [hq]
    exact ⟨nofun, fun h => absurd rfl h⟩

lemma visit_places (horder : s.roundRobinOrder = pathid :: rest) : ∃ a c, s.places = a :: c ∧
    (s.visit pathid rest).2.places = c ++ [a - 1] ∧ ((s.visit pathid rest).1 = true ↔ a ≠ 0) := by
  obtain ⟨a, c, hplaces, hrotated, ha⟩ := places_rotate s.len pathid rest
  refine ⟨a, c, ?_, ?_, ?_⟩
  · unfold places
    rw [horder, hplaces]
  · unfold places
    rw [visit_len, visit_order, hrotated]
  · rw [visit_sends, not_iff_not]
    exact ha.symm

lemma visit_keys (p : PathID) :
    p ∈ (s.visit pathid rest).2.outboundMessageQueues ↔ p = pathid ∨ p ∈ s.outboundMessageQueues := by
  unfold visit
  split <;> exact AList.mem_insert _

lemma visit_queue_of_ne (hp : p ≠ pathid) : (s.visit pathid rest).2.queue p = s.queue p := by
  unfold visit queue
  split <;> rw [queue_insert, if_neg hp]

def tops (s : OutboundMessageHandler) (pathid : PathID) : List (PathID × MessageQueueEntry) :=
  ((s.queue pathid).take 1).map fun e => (pathid, e)

lemma visit_sent : (s.visit pathid rest).2.sent = s.sent ++ s.tops pathid := by
  unfold visit tops
  split
  · rename_i e q hq
    rw [hq]
    rfl
  · rename_i hq
    rw [hq]
    exact (append_nil _).symm

lemma tops_length (rest : List PathID) : (s.tops pathid).length = if (s.visit pathid rest).1 then 1 else 0 := by
  unfold tops
  rw [length_map, length_take]
  by_cases hsends : (s.visit pathid rest).1 = true
  · have hlen := visit_sends.mp hsends
    rw [if_pos hsends]
    unfold len at hlen
    omega
  · have hlen : ¬ s.len pathid ≠ 0 := fun h => hsends (visit_sends.mpr h)
    rw [if_neg hsends]
    unfold len at hlen
    omega

lemma visit_removed : (s.visit pathid rest).2.recentlyRemovedPaths = s.recentlyRemovedPaths ∧
    (s.visit pathid rest).2.removedSomePaths = s.removedSomePaths := by
  unfold visit
  split <;> exact ⟨rfl, rfl⟩

lemma visit_waiting : (s.visit pathid rest).2.outboundQueue = s.outboundQueue := by
  unfold visit
  split <;> rfl

lemma visit_left (horder : s.roundRobinOrder = pathid :: rest) :
    (s.visit pathid rest).2.places.sum + (s.tops pathid).length = s.places.sum := by
  obtain ⟨a, c, hplaces, hrotated, ha⟩ := visit_places horder
  rw [hplaces, hrotated, tops_length rest, sum_append_nat, sum_singleton, sum_cons]
  by_cases hsends : (s.visit pathid rest).1 = true
  · have ha := ha.mp hsends
    rw [if_pos hsends]
    omega
  · have ha : a = 0 := not_not.mp fun h => hsends (ha.mpr h)
    rw [if_neg hsends]
    omega

lemma visit_turns (horder : s.roundRobinOrder = pathid :: rest) : Turns (s.tops pathid) s (s.visit pathid rest).2 where
  order := by
    rw [visit_order, horder]
    exact perm_append_singleton pathid rest
  kept p hp := (visit_keys p).mpr (.inr hp)
  keys p hp := by
    rcases (visit_keys p).mp hp with rfl | hp
    · exact .inr (horder ▸ mem_cons_self)
    · exact .inl hp
  queue p hp := by
    refine visit_queue_of_ne ?_
    rintro rfl
    exact hp (horder ▸ mem_cons_self)
  sent := visit_sent
  source x hx := by
    obtain ⟨e, he, rfl⟩ := mem_map.mp hx
    exact ne_of_gt (length_pos_of_mem (mem_of_mem_take he))
  shorter p := by
    rw [visit_len]
    by_cases hp : p = pathid
    · subst hp
      rw [update_self]
      exact sub_le _ _
    · rw [update_of_ne hp]
  left := visit_left horder
  removed := visit_removed
  waiting := visit_waiting

end

def toServe (s : OutboundMessageHandler) (consecutiveEmpty : ℕ) : ℕ :=
  if RoundRobin.peak (s.places.take (s.roundRobinOrder.length - consecutiveEmpty)) = 0 then 0
  else RoundRobin.served 0 s.places

lemma places_length (s : OutboundMessageHandler) : s.places.length = s.roundRobinOrder.length :=
  RoundRobin.places_length _ _

lemma toServe_visit {pathid : PathID} {rest : List PathID}
    (horder : s.roundRobinOrder = pathid :: rest) {consecutiveEmpty : ℕ} (hlt : consecutiveEmpty < s.roundRobinOrder.length) :
    let r := s.visit pathid rest
    let consecutiveEmpty' := if r.1 then 1 else consecutiveEmpty + 1
    s.toServe consecutiveEmpty = (s.tops pathid).length +
      if consecutiveEmpty' = s.roundRobinOrder.length then 0 else r.2.toServe consecutiveEmpty' := by
  obtain ⟨a, c, hplaces, hrotated, ha⟩ := visit_places horder
  have hlen : s.roundRobinOrder.length = c.length + 1 := by rw [← places_length, hplaces]; rfl
  have hlen' : (s.visit pathid rest).2.roundRobinOrder.length = c.length + 1 := by
    rw [← places_length, hrotated, length_append]
    rfl
  dsimp only
  rw [tops_length rest]
  unfold toServe
  rw [hplaces, hrotated, hlen, hlen']
  rw [hlen] at hlt
  by_cases hsends : (s.visit pathid rest).1 = true
  · -- a message is sent
    obtain ⟨b, rfl⟩ := exists_eq_succ_of_ne_zero (ha.mp hsends)
    have htake : (c ++ [b + 1 - 1]).take (c.length + 1 - 1) = c := take_left
    obtain ⟨k, hk⟩ := exists_eq_succ_of_ne_zero (sub_ne_zero_of_lt hlt)
    rw [if_pos hsends, if_pos hsends, hk, take_succ_cons, peak_cons, if_neg (by omega), served_succ_cons, htake]
    congr 1
    by_cases hone : 1 = c.length + 1
    · have hc : c = [] := eq_nil_of_length_eq_zero (by omega)
      rw [if_pos hone, hc, peak_nil, if_pos rfl]
    · rw [if_neg hone]
      rfl
  · -- the queue is empty
    have hzero : a = 0 := not_not.mp fun h => hsends (ha.mpr h)
    subst hzero
    obtain ⟨k, hk⟩ := exists_eq_succ_of_ne_zero (sub_ne_zero_of_lt hlt)
    have hk' : c.length + 1 - (consecutiveEmpty + 1) = k := by omega
    have htake : (c ++ [0 - 1]).take k = c.take k := take_append_of_le_length (by omega)
    rw [if_neg hsends, if_neg hsends, hk, hk', take_succ_cons, peak_cons, htake, zero_max, served_zero_cons, zero_add]
    by_cases hone : consecutiveEmpty + 1 = c.length + 1
    · have hzero : k = 0 := by omega
      rw [if_pos hone, hzero, take_zero, peak_nil, if_pos rfl]
    · rw [if_neg hone]

lemma sendLoop_turns (n fuel : ℕ) : ∀ (consecutiveEmpty : ℕ) (s : OutboundMessageHandler), s.roundRobinOrder.length = n →
    consecutiveEmpty < n → n * s.places.sum + (n - consecutiveEmpty) ≤ fuel →
    ∃ new s', sendLoop n 0 fuel consecutiveEmpty s = some (n, s') ∧ Turns new s s' ∧
      new.length = s.toServe consecutiveEmpty := by
  induction fuel with
  | zero =>
    intro consecutiveEmpty s hn hlt hfuel
    omega
  | succ fuel ih =>
    intro consecutiveEmpty s hn hlt hfuel
    cases horder : s.roundRobinOrder with
    | nil =>
      rw [horder] at hn
      exact absurd hlt (by rw [← hn]; exact not_lt_zero _)
    | cons pathid rest =>
      have hturns := visit_turns horder
      have hserve := toServe_visit horder (hn ▸ hlt)
      have hleft := visit_left horder
      rw [tops_length rest] at hleft
      dsimp only at hserve
      rw [sendLoop, if_pos (by norm_num), horder]
      dsimp only
      rw [hn] at hserve
      generalize hnext : (if (s.visit pathid rest).1 = true then 1 else consecutiveEmpty + 1) = next at hserve ⊢
      by_cases hend : next = n
      · rw [if_pos hend, add_zero] at hserve
        rw [if_pos hend, hend]
        exact ⟨_, _, rfl, hturns, hserve.symm⟩
      rw [if_neg hend] at hserve
      rw [if_neg hend]
      have hn' : (s.visit pathid rest).2.roundRobinOrder.length = n := hturns.order.length_eq.trans hn
      have hround : next < n ∧ n * (s.visit pathid rest).2.places.sum + (n - next) ≤ fuel := by
        by_cases hsends : (s.visit pathid rest).1 = true
        · rw [if_pos hsends] at hnext hleft
          rw [← hleft, mul_succ] at hfuel
          omega
        rw [if_neg hsends] at hnext hleft
        rw [add_zero] at hleft
        rw [hleft]
        omega
      obtain ⟨new, s', hloop, hturns', hnew⟩ := ih next _ hn' hround.1 hround.2
      refine ⟨s.tops pathid ++ new, s', hloop, hturns.trans hturns', ?_⟩
      rw [length_append, hnew, hserve]

lemma dropStale_eq (queues : AList (fun _ : PathID => MessageQueue)) (visited order : List PathID) :
    dropStale queues order.length (order ++ visited) = visited ++ order.filter fun p => p ∈ queues := by
  induction order generalizing visited with
  | nil => rw [nil_append, filter_nil, append_nil]; rfl
  | cons p order ih =>
    rw [length_cons, cons_append, dropStale]
    split
    · rename_i hp
      rw [append_assoc, ih, filter_cons_of_pos (by simpa using hp), append_assoc]
      rfl
    · rename_i hp
      rw [ih, filter_cons_of_neg (by simpa using hp)]

section
variable (s : OutboundMessageHandler)

def turnOrder : List PathID :=
  if s.removedSomePaths then s.roundRobinOrder.filter fun p => p = zeroID ∨ p ∈ s.outboundMessageQueues else s.roundRobinOrder

def pathLen (pathid : PathID) : ℕ := if pathid = zeroID then 0 else s.len pathid

def turns : List ℕ := RoundRobin.places s.pathLen s.turnOrder

lemma ready_order : s.sendRouting.removeStale.roundRobinOrder = s.turnOrder := by
  have hdrop := dropStale_eq s.sendRouting.outboundMessageQueues [] s.roundRobinOrder
  rw [append_nil, nil_append] at hdrop
  show (if s.removedSomePaths = true then dropStale _ s.roundRobinOrder.length s.roundRobinOrder else _) = _
  rw [hdrop]
  have hmem : ∀ p, p ∈ s.sendRouting.outboundMessageQueues ↔ p = zeroID ∨ p ∈ s.outboundMessageQueues :=
    fun p => AList.mem_insert _
  simp only [hmem]
  rfl

lemma ready_len : s.sendRouting.removeStale.len = s.pathLen := by
  funext p
  have hqueue : s.sendRouting.removeStale.queue p = if p = zeroID then [] else s.queue p :=
    queue_insert s.outboundMessageQueues zeroID p []
  unfold len pathLen
  rw [hqueue]
  split <;> rfl

lemma ready_places : s.sendRouting.removeStale.places = s.turns := by
  unfold places turns
  rw [ready_len, ready_order]

lemma Turns.refl : Turns [] s s where
  order := .refl _
  kept _ hp := hp
  keys _ hp := .inl hp
  queue _ _ := rfl
  sent := (append_nil _).symm
  source _ hx := absurd hx not_mem_nil
  shorter _ := le_refl _
  left := rfl
  removed := ⟨rfl, rfl⟩
  waiting := rfl

lemma sendRoundRobin_turns : ∃ new s', s.sendRoundRobin = some (false, s') ∧
    Turns new s.sendRouting.removeStale s' ∧ new.length = RoundRobin.served 0 s.turns := by
  have hplaces := ready_places s
  have hlength := places_length s.sendRouting.removeStale
  unfold sendRoundRobin
  generalize s.sendRouting.removeStale = r at hplaces hlength ⊢
  dsimp only
  split
  · rename_i hnone
    have hturns : s.turns = [] := by
      rw [← hplaces]
      exact eq_nil_of_length_eq_zero (hlength.trans hnone)
    rw [hturns]
    exact ⟨[], r, rfl, .refl r, rfl⟩
  · rename_i hsome
    have hfuel : r.roundRobinOrder.length * r.places.sum + (r.roundRobinOrder.length - 0) ≤ r.fuel := by
      have hsum : r.places.sum ≤ (r.roundRobinOrder.map fun p => (r.queue p).length).sum := places_sum_le _ _
      exact Nat.add_le_add_right (Nat.mul_le_mul_left _ hsum) _
    obtain ⟨new, s', hloop, hturns, hnew⟩ := sendLoop_turns _ r.fuel 0 r rfl (pos_of_ne_zero hsome) hfuel
    refine ⟨new, s', ?_, hturns, ?_⟩
    · rw [hloop]
      simp
    unfold toServe at hnew
    rw [Nat.sub_zero, ← hlength, take_length, hplaces] at hnew
    split at hnew
    · rename_i hpeak
      rw [hnew, served_of_peak hpeak]
    · exact hnew

end

structure Listed (s : OutboundMessageHandler) : Prop where
  nodup : s.roundRobinOrder.Nodup
  mem_iff : ∀ p, p ∈ s.roundRobinOrder ↔ p ≠ zeroID ∧ p ∈ s.outboundMessageQueues

lemma queue_of_not_mem (hp : p ∉ s.outboundMessageQueues) : s.queue p = [] := by
  unfold queue Queues.queue
  rw [AList.lookup_eq_none.mpr hp]
  rfl

lemma Listed.turnOrder (h : s.Listed) : s.turnOrder = s.roundRobinOrder := by
  unfold OutboundMessageHandler.turnOrder
  split
  · refine filter_eq_self.mpr fun p hp => ?_
    rw [decide_eq_true_eq]
    exact .inr ((h.mem_iff p).mp hp).2
  · rfl

lemma Listed.turns (h : s.Listed) : s.turns = s.roundRobinOrder.map s.len := by
  unfold OutboundMessageHandler.turns
  rw [h.turnOrder, places_of_nodup _ h.nodup]
  refine map_congr_left fun p hp => ?_
  exact if_neg ((h.mem_iff p).mp hp).1

lemma Turns.drained_iff (hs : s.Listed)
    (h : Turns new s.sendRouting.removeStale s') : (∀ p ≠ zeroID, s'.queue p = []) ↔ s'.places.sum = 0 := by
  have horder := h.order
  rw [ready_order, hs.turnOrder] at horder
  unfold places
  rw [places_of_nodup _ (horder.nodup_iff.mpr hs.nodup), sum_eq_zero_iff]
  constructor
  · intro hempty x hx
    obtain ⟨p, hp, rfl⟩ := mem_map.mp hx
    have hne := ((hs.mem_iff p).mp (horder.mem_iff.mp hp)).1
    unfold len
    rw [hempty p hne]
    rfl
  · intro hzero p hne
    by_cases hp : p ∈ s'.roundRobinOrder
    · exact eq_nil_of_length_eq_zero (hzero _ (mem_map_of_mem hp))
    -- a path that is not listed has no queue
    have hp : p ∉ s.roundRobinOrder := fun h => hp (horder.mem_iff.mpr h)
    have hqueue : s'.queue p = s.sendRouting.removeStale.queue p := by
      refine h.queue p ?_
      rw [ready_order, hs.turnOrder]
      exact hp
    have hready : s.sendRouting.removeStale.queue p = if p = zeroID then [] else s.queue p :=
      queue_insert s.outboundMessageQueues zeroID p []
    rw [hqueue, hready, if_neg hne]
    exact queue_of_not_mem fun hmem => hp ((hs.mem_iff p).mpr ⟨hne, hmem⟩)

/-- With an order of the paths that have a queue, the queues are empty whenever `SendRoundRobin` says so exactly if
none is longer than one before it, or by more than one than one behind it. -/
theorem drained_queues_iff {s : OutboundMessageHandler} (hs : s.Listed) : ∃ more s', s.sendRoundRobin = some (more, s') ∧
    ((more = false → ∀ p ≠ zeroID, s'.queue p = []) ↔
      ∀ pre a post, s.roundRobinOrder.map (fun p => (s.queue p).length) = pre ++ a :: post →
        a ≤ max (RoundRobin.peak pre) (RoundRobin.peak post + 1)) := by
  obtain ⟨new, s', hreturns, hturns, hnew⟩ := sendRoundRobin_turns s
  refine ⟨false, s', hreturns, ?_⟩
  have hleft := hturns.left
  rw [ready_places, hnew] at hleft
  have hlens : s.turns = s.roundRobinOrder.map fun p => (s.queue p).length := hs.turns
  have hall := served_eq_sum_iff s.turns 0
  simp only [zero_max] at hall
  rw [← hlens, ← hall, forall_prop_of_true rfl, hturns.drained_iff hs]
  omega

def examplePath (i : ℕ) : PathID := ⟨.ofNat (i + 1) :: List.replicate 15 0, rfl⟩

def exampleMessage (i : ℕ) : MessageQueueEntry := ⟨0, [], none, examplePath i, .zero 32⟩

def paths (n l : ℕ) : OutboundMessageHandler :=
  { init maxOutboundQueueSize with
    outboundMessageQueues :=
      (range n).foldl (fun m i => m.insert (examplePath i) (replicate l (exampleMessage i))) (AList.singleton zeroID [])
    roundRobinOrder := (range n).map examplePath }

lemma paths_listed {n l : ℕ} (hnodup : (zeroID :: (paths n l).roundRobinOrder).Nodup)
    (hkeys : (paths n l).outboundMessageQueues.keys.Perm (zeroID :: (paths n l).roundRobinOrder)) : (paths n l).Listed := by
  obtain ⟨hzero, hnodup⟩ := nodup_cons.mp hnodup
  refine ⟨hnodup, fun p => ?_⟩
  rw [AList.mem_keys, hkeys.mem_iff, mem_cons]
  constructor
  · intro hp
    refine ⟨?_, .inr hp⟩
    rintro rfl
    exact hzero hp
  · rintro ⟨hne, hp⟩
    exact hp.resolve_left hne

theorem paths_two_drained : ∃ more s', (paths 2 1).sendRoundRobin = some (more, s') ∧
    (more = false → ∀ p ≠ zeroID, s'.queue p = []) := by
  obtain ⟨more, s', hreturns, hiff⟩ := drained_queues_iff (paths_listed (n := 2) (l := 1) (by decide +kernel) (by decide +kernel))
  refine ⟨more, s', hreturns, hiff.mpr fun pre a post h => ?_⟩
  have ha : a ∈ [1, 1] := by
    have hlens : (paths 2 1).roundRobinOrder.map (fun p => ((paths 2 1).queue p).length) = [1, 1] := by decide
    rw [← hlens, h]
    exact mem_append_right _ mem_cons_self
  have hone : a = 1 := by simpa using ha
  rw [hone]
  exact le_max_of_le_right (le_add_left 1 _)

/-- one path with two messages: one is sent, and the answer is that nothing is left -/
theorem message_left : (paths 1 2).Listed ∧ ∃ s', (paths 1 2).sendRoundRobin = some (false, s') ∧
    s'.queue (examplePath 0) = [exampleMessage 0] := ⟨paths_listed (by decide +kernel) (by decide +kernel), _, rfl, rfl⟩

lemma zero_not_sent (h : Turns new s.sendRouting.removeStale s') : ∀ x ∈ new, x.1 ≠ zeroID := by
  intro x hx hzero
  have hlen := h.source x hx
  rw [ready_len] at hlen
  exact hlen (if_pos hzero)

lemma sendRoundRobin_sent (s : OutboundMessageHandler) : ∃ new s', s.sendRoundRobin = some (false, s') ∧
    s'.sent = s.sent ++ (s.queue zeroID).map (fun e => (zeroID, e)) ++ new ∧ (∀ x ∈ new, x.1 ≠ zeroID) ∧
    new.length = RoundRobin.served 0 s.turns := by
  obtain ⟨new, s', hreturns, hturns, hnew⟩ := sendRoundRobin_turns s
  exact ⟨new, s', hreturns, hturns.sent, zero_not_sent hturns, hnew⟩

lemma fromPaths_length {routing : List MessageQueueEntry} (hnew : ∀ x ∈ new, x.1 ≠ zeroID) :
    ((routing.map (fun e => (zeroID, e)) ++ new).filter fun x => x.1 ≠ zeroID).length = new.length := by
  have hrouting : (routing.map fun e => (zeroID, e)).filter (fun x => x.1 ≠ zeroID) = [] := by
    refine filter_eq_nil_iff.mpr fun x hx => ?_
    obtain ⟨e, -, rfl⟩ := mem_map.mp hx
    simp
  have hpaths : new.filter (fun x => x.1 ≠ zeroID) = new := filter_eq_self.mpr fun x hx => by simpa using hnew x hx
  rw [filter_append, hrouting, hpaths, nil_append]

/-- The cap holds exactly if it bounds what is served in turn: of each place as many messages as a place before it has,
or one more than one behind it. -/
theorem cap_holds_iff (s : OutboundMessageHandler) : ∃ more s' new, s.sendRoundRobin = some (more, s') ∧
    s'.sent = s.sent ++ new ∧ ((new.filter fun x => x.1 ≠ zeroID).length ≤ maxOutboundMessagesPerTick ↔
      RoundRobin.served 0 s.turns ≤ maxOutboundMessagesPerTick) := by
  obtain ⟨new, s', hreturns, hsent, hpaths, hnew⟩ := sendRoundRobin_sent s
  refine ⟨false, s', _, hreturns, hsent.trans (append_assoc _ _ _), ?_⟩
  rw [fromPaths_length hpaths, hnew]

/-- six paths with a hundred messages each are emptied in one call -/
theorem cap_exceeded : ∃ s' new, (paths 6 100).sendRoundRobin = some (false, s') ∧ s'.sent = (paths 6 100).sent ++ new ∧
    (new.filter fun x => x.1 ≠ zeroID).length = 600 := by
  obtain ⟨new, s', hreturns, hsent, hpaths, hnew⟩ := sendRoundRobin_sent (paths 6 100)
  refine ⟨s', _, hreturns, hsent.trans (append_assoc _ _ _), ?_⟩
  rw [fromPaths_length hpaths, hnew, (paths_listed (by decide +kernel) (by decide +kernel)).turns]
  decide

end OutboundMessageHandler

/-!
## the order of queued link messages

The queues of `OutboundMessageHandler` use `std::greater`: their top is the message of the lowest priority.
-/

open MessageQueueEntry

namespace MessageQueue
variable {q : MessageQueue} {e : MessageQueueEntry}

def after (ops : List (Option MessageQueueEntry)) : MessageQueue :=
  ops.foldl (fun q op => match op with
    | some e => q.push e
    | none => q.tail) []

lemma push_cons (x : MessageQueueEntry) (q : MessageQueue) (e : MessageQueueEntry) :
    MessageQueue.push (x :: q) e = if x.priority ≤ e.priority then x :: q.push e else e :: x :: q := by
  unfold push
  by_cases hle : x.priority ≤ e.priority
  · simp only [takeWhile_cons, dropWhile_cons, hle, decide_true, if_true, cons_append]
  · simp only [takeWhile_cons, dropWhile_cons, hle, decide_false, if_false, Bool.false_eq_true, nil_append]

lemma mem_push {y : MessageQueueEntry} : y ∈ q.push e ↔ y = e ∨ y ∈ q := by
  unfold push
  conv_rhs => rw [← takeWhile_append_dropWhile (p := fun x => decide (x.priority ≤ e.priority)) (l := q)]
  rw [mem_append, mem_cons, mem_append]
  exact or_left_comm

lemma push_sorted (h : q.Pairwise (·.priority ≤ ·.priority)) (e : MessageQueueEntry) :
    (q.push e).Pairwise (·.priority ≤ ·.priority) := by
  induction q with
  | nil => exact pairwise_singleton _ e
  | cons x q ih =>
    obtain ⟨hx, hq⟩ := pairwise_cons.mp h
    rw [push_cons]
    split
    · rename_i hle
      refine pairwise_cons.mpr ⟨fun y hy => ?_, ih hq⟩
      rcases mem_push.mp hy with rfl | hy
      · exact hle
      · exact hx y hy
    · rename_i hle
      have hlt : e.priority ≤ x.priority := UInt16.le_of_lt (UInt16.not_le.mp hle)
      refine pairwise_cons.mpr ⟨fun y hy => ?_, h⟩
      rcases mem_cons.mp hy with rfl | hy
      · exact hlt
      · exact UInt16.le_trans hlt (hx y hy)

lemma after_sorted (ops : List (Option MessageQueueEntry)) : (after ops).Pairwise (·.priority ≤ ·.priority) := by
  refine foldlRecOn (motive := fun q : MessageQueue => q.Pairwise (·.priority ≤ ·.priority)) ops _ .nil ?_
  intro q hq op _
  cases op with
  | some e => exact push_sorted hq e
  | none => exact hq.tail

end MessageQueue

/-- A popped message has the lowest priority of its queue, so none higher stays behind only when all have one priority.
-/
theorem lowest_priority_first {ops : List (Option MessageQueueEntry)} {e : MessageQueueEntry} {q : MessageQueue}
    (h : MessageQueue.after ops = e :: q) :
    (∀ x ∈ q, e.priority ≤ x.priority) ∧ ((∀ x ∈ q, x.priority ≤ e.priority) ↔ ∀ x ∈ q, x.priority = e.priority) := by
  have hsorted := MessageQueue.after_sorted ops
  rw [h] at hsorted
  have hlow : ∀ x ∈ q, e.priority ≤ x.priority := (pairwise_cons.mp hsorted).1
  refine ⟨hlow, fun hhigh x hx => UInt16.le_antisymm (hhigh x hx) (hlow x hx), fun heq x hx => ?_⟩
  exact UInt16.le_of_eq (heq x hx)

def MessageQueueEntry.ofPriority (p : UInt16) : MessageQueueEntry := ⟨p, [], none, zeroID, .zero 32⟩

theorem lowest_priority_first_two : (∀ x ∈ [ofPriority 9], (ofPriority 1).priority ≤ x.priority) ∧
      ((∀ x ∈ [ofPriority 9], x.priority ≤ (ofPriority 1).priority) ↔
        ∀ x ∈ [ofPriority 9], x.priority = (ofPriority 1).priority) :=
  lowest_priority_first (show MessageQueue.after [some (.ofPriority 9), some (.ofPriority 1)] = _ by decide)

/-- a message of priority 1 is popped before one of priority 9 -/
theorem low_priority_overtakes : (MessageQueue.after [some (.ofPriority 9), some (.ofPriority 1)]).map (·.priority)
    = [1, 9] := by decide

end Belnet.Router
