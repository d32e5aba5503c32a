import Belnet.Router.NodeDB
import Belnet.Router.OutboundMessages

/-!
# Contacts that are handed on

`RCGossiper` of `llarp/router/rc_gossiper.cpp` and offers to the node database; which peers a contact goes to is left
out.
-/

namespace Belnet.Router
open List
open Iwp (Millis)
open Belnet.Path (RouterID)

abbrev gossipFilterDecayInterval : Millis := 30 * 60 * 1000

abbrev gossipOurRCInterval : Millis := gossipFilterDecayInterval * 2 - 5 * 60 * 1000

/-- `sent` only records what was sent, of each router since it was last forgotten -/
structure RCGossiper where
  ourRouterID : RouterID
  lastGossipedOurRC : Millis := 0
  filter : DecayingHashSet RouterID := ⟨gossipFilterDecayInterval, []⟩
  sent : List (RouterID × Millis) := []

inductive GossipOp where
  | decay
  | forget (pk : RouterID)
  | gossipRC (rc : RouterContact)

namespace RCGossiper
variable (s : RCGossiper) (now : Millis)

def shouldGossipOurRC : Bool := s.lastGossipedOurRC + gossipOurRCInterval ≤ now

def forget (pk : RouterID) : RCGossiper :=
  { s with
    filter := { s.filter with values := s.filter.values.filter (·.1 ≠ pk) }
    lastGossipedOurRC := if s.ourRouterID = pk then 0 else s.lastGossipedOurRC
    sent := s.sent.filter (·.1 ≠ pk) }

def gossipRC (rc : RouterContact) : RCGossiper :=
  if !rc.isPublicRouter || s.filter.contains rc.pubkey then s
  else
    let s := { s with filter := s.filter.insert rc.pubkey now }
    let sends := { s with sent := (rc.pubkey, now) :: s.sent }
    if rc.pubkey ≠ s.ourRouterID then sends
    else if s.shouldGossipOurRC now then { sends with lastGossipedOurRC := now }
    else s

/-- the clock goes on by `op.1` -/
def step (s : Millis × RCGossiper) (op : ℕ × GossipOp) : Millis × RCGossiper :=
  let now := s.1 + op.1
  (now, match op.2 with
    | .decay => { s.2 with filter := s.2.filter.decay now }
    | .forget pk => s.2.forget pk
    | .gossipRC rc => s.2.gossipRC now rc)

def Apart (our : RouterID) (later earlier : RouterID × Millis) : Prop :=
  later.1 = earlier.1 →
    earlier.2 + (if later.1 = our then gossipOurRCInterval else gossipFilterDecayInterval) ≤ later.2

structure Spaced (s : Millis × RCGossiper) : Prop where
  interval : s.2.filter.interval = gossipFilterDecayInterval
  filtered : ∀ e ∈ s.2.sent, (∃ t, e.2 ≤ t ∧ (e.1, t) ∈ s.2.filter.values) ∨ e.2 + gossipFilterDecayInterval ≤ s.1
  ours : ∀ e ∈ s.2.sent, e.1 = s.2.ourRouterID → e.2 ≤ s.2.lastGossipedOurRC
  apart : s.2.sent.Pairwise (Apart s.2.ourRouterID)

lemma Spaced.step {s : Millis × RCGossiper} (h : Spaced s) (op : ℕ × GossipOp) : Spaced (RCGossiper.step s op) := by
  obtain ⟨hinterval, hfiltered, hours, hapart⟩ := h
  unfold RCGossiper.step
  cases op.2 with
  | decay =>
    refine ⟨hinterval, fun e he => ?_, hours, hapart⟩
    have hold := hfiltered e he
    simp only [DecayingHashSet.decay, mem_filter, hinterval]
    grind
  | forget pk => refine ⟨hinterval, ?_, ?_, hapart.filter _⟩ <;> grind [forget]
  | gossipRC rc =>
    dsimp only
    unfold gossipRC
    split
    · exact ⟨hinterval, by grind, hours, hapart⟩
    rename_i hnew
    obtain ⟨-, hnew⟩ := Bool.or_eq_false_iff.mp (Bool.not_eq_true _ ▸ hnew)
    -- what was sent of a router that the filter does not contain is old
    have hgone : ∀ e ∈ s.2.sent, e.1 = rc.pubkey → e.2 + gossipFilterDecayInterval ≤ s.1 := by
      have hall := any_eq_false.mp hnew
      grind
    simp only [DecayingHashSet.insert, hnew, Bool.false_eq_true, if_false]
    split
    · exact ⟨hinterval, by grind, by grind, pairwise_cons.mpr ⟨by grind [Apart], hapart⟩⟩
    split
    · exact ⟨hinterval, by grind, by grind, pairwise_cons.mpr ⟨by grind [Apart, shouldGossipOurRC], hapart⟩⟩
    · exact ⟨hinterval, by grind, hours, hapart⟩

/-- A router's contact is sent once in 30 minutes, our own once in 55 minutes, unless the router is forgotten. -/
theorem gossip_spaced (ourRouterID : RouterID) (now : Millis) (ops : List (ℕ × GossipOp)) :
    let s := (ops.foldl step (now, { ourRouterID })).2
    s.sent.Pairwise (Apart s.ourRouterID) :=
  (foldlRecOn (motive := Spaced) ops _ ⟨rfl, by simp, by simp, .nil⟩ fun _ h op _ => h.step op).apart

end RCGossiper

namespace NodeDB

lemma get_putIfNewer (db : NodeDB) (now : Millis) (rc : RouterContact) (pk : RouterID) :
    (db.putIfNewer now rc).get pk =
      if rc.pubkey = pk then argAux (fun b c => c.lastUpdated < b.lastUpdated) (db.get pk) rc else db.get pk := by
  unfold putIfNewer
  by_cases hpk : rc.pubkey = pk
  · unfold accepts
    subst hpk
    have hput : (db.put now rc).get rc.pubkey = some rc := by simp [get, put]
    cases hold : db.get rc.pubkey with
    | none => simpa [argAux]
    | some old =>
      by_cases hnew : old.lastUpdated < rc.lastUpdated <;> simp [argAux, RouterContact.otherIsNewer, hnew, hput, hold]
  · have hput : (db.put now rc).get pk = db.get pk := by simp [get, put, Ne.symm hpk]
    split <;> simp [hput]

/-- After any offers the database has the newest contact of each router, of equally new ones the first. -/
theorem newest_kept (offers : List (Millis × RouterContact)) (pk : RouterID) :
    (offers.foldl (fun db o => putIfNewer db o.1 o.2) {}).get pk =
      ((offers.map Prod.snd).filter (·.pubkey = pk)).argmax (·.lastUpdated) := by
  induction offers using reverseRecOn with
  | nil => rfl
  | append_singleton offers o ih =>
    rw [foldl_concat, get_putIfNewer, ih, map_append, map_singleton, filter_append]
    by_cases hpk : o.2.pubkey = pk
    · simp only [hpk, if_true, filter_cons, filter_nil, decide_true]
      rw [argmax, argmax, foldl_concat]
    · simp [hpk]

end NodeDB
end Belnet.Router
