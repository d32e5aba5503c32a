import Belnet.Router.Works

/-!
# Lookups of routers come closer to their target

`Context::LookupRouterRelayed` answers a lookup, or forwards it to the router closest to the target in its database.
-/

namespace Belnet.Router
open Iwp hiding RouterContact
open Belnet.Path hiding RouterContact
open Dht List NodeDB List.Vector

structure Hop where
  cfg : Config
  now : Millis
  state : State
  requester : Key
  txid : ℕ
  recursive : Bool

namespace Hop
variable (h : Hop) (target : Key)

def Forwards (peer : Key) : Prop :=
  lookupRouterRelayed h.cfg h.now h.state h.requester h.txid target h.recursive =
    startLookup h.now h.state peer ⟨target, ⟨h.requester, h.txid⟩, none, none⟩

end Hop

lemma closer_nonzero {location : Key} (l : List RouterContact) (hl : ∀ rc ∈ l, isZero rc.pubkey = false)
    (rc : RouterContact) (hrc : isZero rc.pubkey = false) :
    isZero (l.foldl (closer location) rc).pubkey = false := by
  induction l generalizing rc with
  | nil => exact hrc
  | cons v l ih =>
    obtain ⟨hv, hl⟩ := forall_mem_cons.mp hl
    apply ih hl
    unfold closer
    split
    · exact hv
    split
    · exact hv
    · exact hrc

variable {db : NodeDB}

lemma findClosestTo_mem (env : RouterEnv) (location : Key) (hne : db.all ≠ []) (hzero : db.get (.zero 32) = none) :
    db.get (db.findClosestTo env location).pubkey = some (db.findClosestTo env location) := by
  have hall : ∀ rc ∈ db.all, isZero rc.pubkey = false := by
    intro rc hrc
    obtain ⟨e, he, rfl⟩ := mem_map.mp hrc
    refine decide_eq_false fun hz => ?_
    have hkey := db.mem_entries_keyed he
    have hlook : db.entries.lookup e.1 = some e.2 := AList.mem_lookup_iff.mpr he
    rw [← hkey, hz] at hlook
    unfold NodeDB.get at hzero
    rw [hlook] at hzero
    cases hzero
  refine (closest_cases db env location).resolve_left fun hnew => ?_
  cases hdb : db.all with
  | nil => exact hne hdb
  | cons v l =>
    rw [hdb] at hall
    obtain ⟨hv, hl⟩ := forall_mem_cons.mp hall
    have hnonzero : isZero (l.foldl (closer location) v).pubkey = false := closer_nonzero l hl v hv
    have hfound : db.findClosestTo env location = l.foldl (closer location) v := by
      unfold findClosestTo
      rw [hdb, foldl_cons]
      rfl
    rw [← hfound, hnew] at hnonzero
    cases hnonzero

lemma findClosestTo_empty (env : RouterEnv) (location : Key) (hdb : db.all = []) :
    db.findClosestTo env location = RouterContact.new env := by
  unfold findClosestTo
  rw [hdb]
  rfl

variable {h : Hop} {target peer : Key} {now : Millis} {s : State} {tx : RouterLookup}

lemma start_ne_reply {requester : Requester} {txid : ℕ}
    {rcs : List RouterContact} : reply s requester txid target rcs ≠ startLookup now s peer tx := by
  intro heq
  have hids : s.ids = s.ids + 1 := congrArg State.ids heq
  exact absurd hids (Nat.ne_of_lt (Nat.lt_succ_self _))

lemma startLookup_peer {peer' : Key} (heq : startLookup now s peer tx = startLookup now s peer' tx) : peer = peer' := by
  have hwaiting : s.routerLookups.waiting ++ [(tx.target, (⟨peer, s.ids + 1⟩ : TXOwner))] =
      s.routerLookups.waiting ++ [(tx.target, ⟨peer', s.ids + 1⟩)] := congrArg (fun s => s.routerLookups.waiting) heq
  cases append_cancel_left hwaiting
  rfl

lemma forwards_iff : h.Forwards target peer ↔ target ≠ h.cfg.ourKey ∧ sessionIsAllowed h.cfg h.state target = true ∧
    peer = (h.state.nodedb.findClosestTo h.cfg.toRouterEnv target).pubkey ∧
    if peer = target then (h.state.nodedb.findClosestTo h.cfg.toRouterEnv target).expiresSoon h.now = true
    else h.recursive = true ∧ distance target peer < distance target h.cfg.ourKey := by
  unfold Hop.Forwards lookupRouterRelayed
  dsimp only
  generalize hrc : h.state.nodedb.findClosestTo h.cfg.toRouterEnv target = rc
  by_cases hself : target = h.cfg.ourKey
  · rw [if_pos hself]
    exact ⟨fun heq => absurd heq start_ne_reply, fun hc => absurd hself hc.1⟩
  rw [if_neg hself]
  cases hallowed : sessionIsAllowed h.cfg h.state target with
  | false =>
    refine ⟨fun heq => absurd heq start_ne_reply, fun hc => ?_⟩
    cases hc.2.1
  | true =>
    simp only [Bool.not_true, Bool.false_eq_true, if_false]
    by_cases htarget : rc.pubkey = target
    · rw [if_pos htarget]
      split
      · rename_i hexpires
        constructor
        · intro heq
          have hpeer := startLookup_peer heq
          exact ⟨hself, trivial, hpeer.symm, by rw [if_pos (hpeer.symm.trans htarget)]; exact hexpires⟩
        · rintro ⟨-, -, rfl, -⟩
          rfl
      · rename_i hexpires
        refine ⟨fun heq => absurd heq start_ne_reply, ?_⟩
        rintro ⟨-, -, rfl, hc⟩
        rw [if_pos htarget] at hc
        exact absurd hc hexpires
    · rw [if_neg htarget]
      split
      · rename_i hrecursive
        split
        · rename_i hcloser
          constructor
          · intro heq
            have hpeer := startLookup_peer heq
            subst hpeer
            exact ⟨hself, trivial, rfl, by rw [if_neg htarget]; exact ⟨hrecursive, hcloser⟩⟩
          · rintro ⟨-, -, rfl, -⟩
            rfl
        · rename_i hcloser
          refine ⟨fun heq => absurd heq start_ne_reply, ?_⟩
          rintro ⟨-, -, rfl, hc⟩
          rw [if_neg htarget] at hc
          exact absurd hc.2 hcloser
      · rename_i hrecursive
        refine ⟨fun heq => absurd heq start_ne_reply, ?_⟩
        rintro ⟨-, -, rfl, hc⟩
        rw [if_neg htarget] at hc
        exact absurd hc.1 hrecursive

lemma distance_self (target : Key) : distance target target = 0 := by
  have hzero : Key.xor target target = List.Vector.replicate 32 0 := by
    apply ext
    intro i
    unfold Key.xor
    rw [get_map₂, UInt8.xor_self, get_replicate]
  unfold distance
  rw [hzero]
  decide

lemma distance_pos (hne : target ≠ peer) : 0 < distance target peer := by
  refine Nat.pos_of_ne_zero fun hzero => ?_
  rw [← distance_self target] at hzero
  exact hne (distance_inj hzero).symm

lemma forwards_closer (hf : h.Forwards target peer) : distance target peer < distance target h.cfg.ourKey := by
  obtain ⟨hself, -, -, hc⟩ := forwards_iff.mp hf
  split at hc
  · rename_i heq
    rw [heq, distance_self]
    exact distance_pos hself
  · exact hc.2

/-- `peer` is the key of a contact in the database, and closer to the target than the router itself -/
def Hop.Advances (h : Hop) (target peer : Key) : Prop :=
  (∃ rc, h.state.nodedb.get peer = some rc) ∧ distance target peer < distance target h.cfg.ourKey

lemma advances_iff (hzero : h.state.nodedb.get (.zero 32) = none) (htarget : isZero target = false) :
    (∀ peer, h.Forwards target peer → h.Advances target peer) ↔
      h.state.nodedb.all ≠ [] ∨ target = h.cfg.ourKey ∨ sessionIsAllowed h.cfg h.state target = false ∨
        h.recursive = false ∨ distance target h.cfg.ourKey ≤ distance target (.zero 32) := by
  by_cases hdb : h.state.nodedb.all = []
  · -- nothing is known: the contact that is asked is the one of the constructor
    have hkey : (h.state.nodedb.findClosestTo h.cfg.toRouterEnv target).pubkey = .zero 32 := by
      rw [findClosestTo_empty _ _ hdb]
      rfl
    have hne : .zero 32 ≠ target := fun heq => absurd heq.symm (of_decide_eq_false htarget)
    constructor
    · intro hall
      by_contra hcond
      simp only [not_or, ne_eq, not_not, not_le, Bool.not_eq_false] at hcond
      obtain ⟨-, hself, hallowed, hrecursive, hcloser⟩ := hcond
      have hforwards : h.Forwards target (.zero 32) :=
        forwards_iff.mpr ⟨hself, hallowed, hkey.symm, by rw [if_neg hne]; exact ⟨hrecursive, hcloser⟩⟩
      obtain ⟨⟨_, hrc⟩, -⟩ := hall _ hforwards
      rw [hzero] at hrc
      cases hrc
    · intro hcond peer hf
      obtain ⟨hself, hallowed, hpeer, hc⟩ := forwards_iff.mp hf
      rw [hkey] at hpeer
      subst hpeer
      rw [if_neg hne] at hc
      rcases hcond with hcond | hcond | hcond | hcond | hcond
      · exact absurd hdb hcond
      · exact absurd hcond hself
      · rw [hcond] at hallowed
        cases hallowed
      · rw [hcond] at hc
        cases hc.1
      · exact absurd hc.2 (Nat.not_lt.mpr hcond)
  · refine ⟨fun _ => Or.inl hdb, fun _ peer hf => ⟨?_, forwards_closer hf⟩⟩
    obtain ⟨-, -, hpeer, -⟩ := forwards_iff.mp hf
    rw [hpeer]
    exact ⟨_, findClosestTo_mem h.cfg.toRouterEnv target hdb hzero⟩

abbrev Chain (target : Key) (hops : List Hop) : Prop := hops.IsChain fun h h' => h.Forwards target h'.cfg.ourKey

lemma chain_closer {hops : List Hop} (hc : Chain target hops) :
    hops.Pairwise fun h h' => distance target h'.cfg.ourKey < distance target h.cfg.ourKey := by
  have hcloser : hops.IsChain fun h h' => distance target h'.cfg.ourKey < distance target h.cfg.ourKey :=
    hc.imp fun h h' hf => forwards_closer hf
  have : IsTrans Hop fun h h' => distance target h'.cfg.ourKey < distance target h.cfg.ourKey :=
    ⟨fun a b c hab hbc => hbc.trans hab⟩
  exact isChain_iff_pairwise.mp hcloser

/-- All that a router forwards goes to a known contact closer to the target, exactly if the database is not empty, or
nothing is forwarded since the target is the router itself or not allowed, it is not recursive, or the zero key is no
closer.  No router is twice in a chain of forwards. -/
theorem lookups_progress (target : Key) : (∀ h : Hop, h.state.nodedb.get (.zero 32) = none → isZero target = false →
      ((∀ peer, h.Forwards target peer → h.Advances target peer) ↔
        h.state.nodedb.all ≠ [] ∨ target = h.cfg.ourKey ∨ sessionIsAllowed h.cfg h.state target = false ∨
          h.recursive = false ∨ distance target h.cfg.ourKey ≤ distance target (.zero 32))) ∧
    ∀ hops, Chain target hops → (hops.map fun h => h.cfg.ourKey).Nodup ∧
      ∀ routers : Finset Key, (∀ h ∈ hops, h.cfg.ourKey ∈ routers) → hops.length ≤ routers.card := by
  refine ⟨fun h hzero htarget => advances_iff hzero htarget, fun hops hc => ?_⟩
  have hnodup : (hops.map fun h => h.cfg.ourKey).Nodup := by
    refine pairwise_map.mpr ((chain_closer hc).imp fun {h h'} hlt heq => ?_)
    rw [heq] at hlt
    exact lt_irrefl _ hlt
  refine ⟨hnodup, fun routers hmem => ?_⟩
  have hsub : (hops.map fun h => h.cfg.ourKey).toFinset ⊆ routers := by
    intro k hk
    obtain ⟨h, hh, rfl⟩ := mem_map.mp (mem_toFinset.mp hk)
    exact hmem h hh
  have hcard := Finset.card_le_card hsub
  rw [toFinset_card_of_nodup hnodup, length_map] at hcard
  exact hcard

namespace Sample

def hop (rcs : List RouterContact) : Hop where
  cfg := client
  now := 2
  state := { ourRC := contact 9 1, nodedb := rcs.foldl (fun db rc => db.put 0 rc) {}, ids := 0 }
  requester := key 7
  txid := 3
  recursive := true

end Sample

open Sample

/-- A router that knows no other router forwards the lookup of router 1 to the zero key, which is nobody's key. -/
theorem lookup_forwarded_to_nobody : (hop []).Forwards (key 1) (.zero 32) ∧ ¬ (hop []).Advances (key 1) (.zero 32) := by
  refine ⟨forwards_iff.mpr ⟨by decide, by decide, rfl, ?_⟩, ?_⟩
  · rw [if_neg (by decide)]
    exact ⟨rfl, by decide +kernel⟩
  · rintro ⟨⟨rc, hrc⟩, -⟩
    cases hrc

theorem lookups_progress_known : (hop [contact 3 1]).Forwards (key 1) (key 3) ∧
      (hop [contact 3 1]).Advances (key 1) (key 3) := by
  have hforwards : (hop [contact 3 1]).Forwards (key 1) (key 3) := by
    refine forwards_iff.mpr ⟨by decide, by decide, by decide +kernel, ?_⟩
    rw [if_neg (by decide)]
    exact ⟨rfl, by decide +kernel⟩
  refine ⟨hforwards, ?_⟩
  have hall : (hop [contact 3 1]).state.nodedb.all ≠ [] := by decide +kernel
  exact ((lookups_progress (key 1)).1 (hop [contact 3 1]) (by decide +kernel)
    (by decide +kernel)).mpr (Or.inl hall) _ hforwards

end Belnet.Router
