import Belnet.Link.Layer
import Belnet.Iwp.Closing
import Belnet.Lib.Assoc

/-!
# Sessions and their addresses

`m_AuthedAddrs` is keyed by address, and every session that closes or times out erases the entry of its address.

* `step_consistent`  what each call keeps, when no second session is tried at an address;
* `ready_is_reachable`, `found_at_its_address`  sessions and packets from their addresses.
-/

namespace Belnet.Link
open Iwp Relation List Function AList Option Session Layer Run LinkMaps

def AwaitsLIM (s : Session) (id : UInt64) : Prop :=
  ∃ msg, s.tx.txMsgs[id]? = some msg ∧ msg.completed = some .outboundLIM

structure LimOnce (s : Session) : Prop where
  hook : ∀ {id}, AwaitsLIM s id → s.ctl.gotLIM = .reneg
  once : ∀ {id id'}, AwaitsLIM s id → AwaitsLIM s id' → id = id'

structure Settled (s : Session) : Prop where
  state : s.ctl.state = .ready ∨ s.ctl.state = .closed
  hook : s.ctl.gotLIM = .reneg
  none : ∀ id, ¬ AwaitsLIM s id

variable {s : Session}

lemma Settled.limOnce (h : Settled s) : LimOnce s :=
  ⟨fun ha => absurd ha (h.none _), fun ha => absurd ha (h.none _)⟩

lemma AwaitsLIM.of_txMove {σ : Type} {c : Crypto} {t : Clock} {cause : Cause σ} {k : TxKind}
    {s' : Session} (h : TxMove c t cause s.tx k s'.tx) (hk : k.handler ≠ some .outboundLIM) {id : UInt64}
    (ha : AwaitsLIM s' id) : AwaitsLIM s id := by
  obtain ⟨_, hmsg, hc⟩ := ha
  rcases h.entry hmsg with ⟨m₀, hm₀, hc₀, _⟩ | ⟨rfl, _⟩
  · exact ⟨m₀, hm₀, hc₀ ▸ hc⟩
  · exact absurd hc hk

lemma offered_get {σ : Type} {c : Crypto} {t : Clock} {cause : Cause σ} {buf : Message}
    {h : Option Handler} {x x' : Tx} (hx : TxMove c t cause x (.offered buf h) x') {id : UInt64}
    {m : OutboundMessage} (hm : x'.txMsgs[id]? = some m) : x.txMsgs[id]? = some m ∨ x.txID = id := by
  cases hx with
  | reject => exact .inl hm
  | accept =>
    have hget : (x.txMsgs.insertIfNew x.txID _)[id]? = some m := hm
    rw [Maps.get_insertIfNew] at hget
    split at hget
    · rename_i hnew
      exact .inr hnew.1
    · exact .inl hget

variable {id : ℕ} {m : LinkMaps}

lemma mem_all :
    id ∈ m.all ↔ (∃ pk, (pk, id) ∈ m.authedLinks) ∨ ∃ a, m.pending.lookup a = some id := by
  have hpend : id ∈ m.pending.entries.map Sigma.snd ↔ ∃ a, m.pending.lookup a = some id := by
    constructor
    · intro h
      obtain ⟨⟨a, i⟩, he, hi⟩ := mem_map.mp h
      cases hi
      exact ⟨a, mem_lookup_iff.mpr he⟩
    · rintro ⟨a, ha⟩
      exact mem_map.mpr ⟨⟨a, id⟩, mem_lookup_iff.mp ha, rfl⟩
  unfold LinkMaps.all
  rw [mem_append, hpend]
  refine or_congr_left ⟨fun h => ?_, fun ⟨pk, h⟩ => mem_map.mpr ⟨_, h, rfl⟩⟩
  obtain ⟨⟨pk, i⟩, he, hi⟩ := mem_map.mp h
  cases hi
  exact ⟨pk, he⟩

structure Inv (m : LinkMaps) (S : ℕ → Option Session) : Prop where
  pending : ∀ {a id}, m.pending.lookup a = some id → ∃ s, S id = some s ∧ s.remoteAddr = a
  authed : ∀ {pk id}, (pk, id) ∈ m.authedLinks → ∃ s, S id = some s ∧ Settled s ∧ m.pending.lookup s.remoteAddr = none ∧
    m.authedAddrs.lookup s.remoteAddr = if s.ctl.state = .ready then some pk else none
  mapped : ∀ {a pk}, m.authedAddrs.lookup a = some pk →
    ∃ id s, (pk, id) ∈ m.authedLinks ∧ S id = some s ∧ s.remoteAddr = a
  distinct : ∀ {e e' : PubKey × ℕ} {s s'}, e ∈ m.authedLinks → e' ∈ m.authedLinks → S e.2 = some s →
    S e'.2 = some s' → s.remoteAddr = s'.remoteAddr → e = e'
  keys : (m.authedLinks.map Prod.fst).Nodup
  once : ∀ {id s}, S id = some s → LimOnce s

def Free (m : LinkMaps) (S : ℕ → Option Session) (a : SockAddr) : Prop :=
  ∀ e ∈ m.authedLinks, ∀ s, S e.2 = some s → s.remoteAddr ≠ a

variable {a : SockAddr} {e : PubKey × ℕ} {pk : PubKey}

section
variable {m : LinkMaps} {S : ℕ → Option Session}

lemma Inv.free (h : Inv m S) (hp : m.pending.lookup a = some id) : Free m S a := by
  rintro ⟨_, i⟩ he s hs rfl
  obtain ⟨_, hs', _, hnone, _⟩ := h.authed he
  cases hs.symm.trans hs'
  rw [hnone] at hp
  cases hp

lemma Inv.unmapped (h : Inv m S) (hfree : Free m S a) : m.authedAddrs.lookup a = none := by
  rw [eq_none_iff_forall_ne_some]
  intro _ hpk
  obtain ⟨_, s, he, hs, ha⟩ := h.mapped hpk
  exact hfree _ he s hs ha

variable {u : Session}

lemma Inv.elsewhere (h : Inv m S) (hs : S id = some s) (hid : id ∈ m.all)
    (he : e ∈ m.authedLinks) (hu : S e.2 = some u) (hne : e.2 ≠ id) : u.remoteAddr ≠ s.remoteAddr := by
  intro haddr
  rcases mem_all.mp hid with ⟨_, hpk⟩ | ⟨a, ha⟩
  · exact hne (congrArg Prod.snd (h.distinct he hpk hu hs haddr))
  obtain ⟨_, hs', rfl⟩ := h.pending ha
  cases hs.symm.trans hs'
  exact h.free ha e he u hu haddr

section
variable {id : ℕ} {s s' : Session}

lemma update_cases {i : ℕ} (h : update S id (some s') i = some u) : (i = id ∧ u = s') ∨ (i ≠ id ∧ S i = some u) := by
  rw [update_apply] at h
  split at h
  · rename_i hi
    cases h
    exact .inl ⟨hi, rfl⟩
  · rename_i hi
    exact .inr ⟨hi, h⟩

section
variable {i : ℕ} (hs : S id = some s) (haddr : s'.remoteAddr = s.remoteAddr)
include hs haddr

lemma addr_before (h : update S id (some s') i = some u) : ∃ u₀, S i = some u₀ ∧ u₀.remoteAddr = u.remoteAddr := by
  rcases update_cases h with ⟨rfl, rfl⟩ | ⟨_, hu⟩
  · exact ⟨s, hs, haddr.symm⟩
  · exact ⟨u, hu, rfl⟩

lemma addr_after (h : S i = some u) : ∃ u', update S id (some s') i = some u' ∧ u'.remoteAddr = u.remoteAddr := by
  by_cases hi : i = id
  · subst hi
    cases hs.symm.trans h
    exact ⟨s', update_self .., haddr⟩
  · exact ⟨u, (update_of_ne hi ..).trans h, rfl⟩

end

section
variable (h : Inv m S) (hs : S id = some s)
include h hs

lemma Inv.changed (haddr : s'.remoteAddr = s.remoteAddr)
    (honce : LimOnce s') {addrs : AList (fun _ : SockAddr => PubKey)}
    (hauthed : ∀ {pk i}, (pk, i) ∈ m.authedLinks → ∃ u, update S id (some s') i = some u ∧
      Settled u ∧ m.pending.lookup u.remoteAddr = none ∧
      addrs.lookup u.remoteAddr = if u.ctl.state = .ready then some pk else none)
    (hmapped : ∀ {a pk}, addrs.lookup a = some pk → m.authedAddrs.lookup a = some pk) :
    Inv { m with authedAddrs := addrs } (update S id (some s')) where
  pending ha := by
    obtain ⟨u, hu, rfl⟩ := h.pending ha
    exact addr_after hs haddr hu
  authed := hauthed
  mapped ha := by
    obtain ⟨i, u, he, hu, rfl⟩ := h.mapped (hmapped ha)
    obtain ⟨u', hu', haddr'⟩ := addr_after hs haddr hu
    exact ⟨i, u', he, hu', haddr'⟩
  distinct he he' hu hu' heq := by
    obtain ⟨_, hu₀, ha⟩ := addr_before hs haddr hu
    obtain ⟨_, hu₀', ha'⟩ := addr_before hs haddr hu'
    exact h.distinct he he' hu₀ hu₀' (ha.trans (heq.trans ha'.symm))
  keys := h.keys
  once hu := by
    rcases update_cases hu with ⟨_, rfl⟩ | ⟨_, hu⟩
    · exact honce
    · exact h.once hu

lemma Inv.touch (haddr : s'.remoteAddr = s.remoteAddr) (honce : LimOnce s')
    (hset : ∀ pk, (pk, id) ∈ m.authedLinks → Settled s' ∧ s'.ctl.state = s.ctl.state) :
    Inv m (update S id (some s')) := by
  refine h.changed hs haddr honce (fun {pk i} he => ?_) fun ha => ha
  obtain ⟨u, hu, hsettled, hpend, hmap⟩ := h.authed he
  by_cases hi : i = id
  · subst hi
    cases hs.symm.trans hu
    obtain ⟨hs', hst⟩ := hset pk he
    rw [← haddr] at hpend hmap
    rw [← hst] at hmap
    exact ⟨s', update_self .., hs', hpend, hmap⟩
  · exact ⟨u, (update_of_ne hi ..).trans hu, hsettled, hpend, hmap⟩

lemma Inv.shut (hid : id ∈ m.all) (s' : Session)
    (haddr : s'.remoteAddr = s.remoteAddr) (hst : s'.ctl.state = .closed) (honce : LimOnce s')
    (hset : ∀ pk, (pk, id) ∈ m.authedLinks → Settled s') :
    Inv (m.unmapAddr s.remoteAddr) (update S id (some s')) := by
  refine h.changed hs haddr honce (fun {pk i} he => ?_) fun {a pk} ha => ?_
  · obtain ⟨u, hu, hsettled, hpend, hmap⟩ := h.authed he
    by_cases hi : i = id
    · subst hi
      cases hs.symm.trans hu
      refine ⟨s', update_self .., hset pk he, by rw [haddr]; exact hpend, ?_⟩
      rw [if_neg (by rw [hst]; nofun), haddr, lookup_erase]
    · -- the address of another session is not touched
      have hne := h.elsewhere hs hid he hu hi
      refine ⟨u, (update_of_ne hi ..).trans hu, hsettled, hpend, ?_⟩
      rw [lookup_erase_ne hne]
      exact hmap
  · exact (Assoc.erase_some ha).2

lemma Inv.enter (hp : m.pending.lookup s.remoteAddr = some id)
    (hpk : m.hasSessionTo pk = false) (haddr : s'.remoteAddr = s.remoteAddr)
    (hst : s'.ctl.state = .ready) (hset : Settled s') :
    Inv { authedAddrs := m.authedAddrs.insert s.remoteAddr pk
          authedLinks := m.authedLinks ++ [(pk, id)]
          pending := m.pending.erase s.remoteAddr } (update S id (some s')) := by
  have hfree := h.free hp
  -- the sessions that were in `m_AuthedLinks` are others, with other addresses
  have hold : ∀ {pk' i}, (pk', i) ∈ m.authedLinks → ∃ u, S i = some u ∧
      update S id (some s') i = some u ∧ u.remoteAddr ≠ s.remoteAddr := by
    intro pk' i he
    obtain ⟨u, hu, _⟩ := h.authed he
    have hne := hfree _ he u hu
    have hi : i ≠ id := by
      rintro rfl
      cases hs.symm.trans hu
      exact hne rfl
    exact ⟨u, hu, (update_of_ne hi ..).trans hu, hne⟩
  have hnew : ∀ {e : PubKey × ℕ}, e ∈ m.authedLinks ++ [(pk, id)] → e ∈ m.authedLinks ∨ e = (pk, id) :=
    fun he => (mem_append.mp he).imp_right mem_singleton.mp
  refine ⟨fun {a i} ha => ?_, fun {pk' i} he => ?_, fun {a pk'} ha => ?_, fun {e e' u u'} he he' hu hu' heq => ?_,
    ?_, fun {i u} hu => ?_⟩
  · obtain ⟨u, hu, rfl⟩ := h.pending (Assoc.erase_some ha).2
    exact addr_after hs haddr hu
  · rcases hnew he with he | he
    · obtain ⟨u, hu, hu', hne⟩ := hold he
      obtain ⟨u₀, hu₀, hsettled, hpend, hmap⟩ := h.authed he
      cases hu.symm.trans hu₀
      exact ⟨u, hu', hsettled, (lookup_erase_ne hne).trans hpend, (lookup_insert_ne hne).trans hmap⟩
    · cases he
      refine ⟨s', update_self .., hset, ?_, ?_⟩
      · rw [haddr, lookup_erase]
      · rw [haddr, lookup_insert, if_pos hst]
  · rcases Assoc.insert_some ha with ⟨hne, rfl⟩ | ⟨-, ha⟩
    · exact ⟨id, s', mem_append_right _ mem_cons_self, update_self .., haddr.trans hne.symm⟩
    obtain ⟨i, u, he, hu, rfl⟩ := h.mapped ha
    obtain ⟨u', hu', haddr'⟩ := addr_after hs haddr hu
    exact ⟨i, u', mem_append_left _ he, hu', haddr'⟩
  · obtain ⟨u₀, hu₀, ha⟩ := addr_before hs haddr hu
    obtain ⟨u₀', hu₀', ha'⟩ := addr_before hs haddr hu'
    have hsame : u₀.remoteAddr = u₀'.remoteAddr := ha.trans (heq.trans ha'.symm)
    rcases hnew he with he | rfl <;> rcases hnew he' with he' | rfl
    · exact h.distinct he he' hu₀ hu₀' hsame
    · cases hs.symm.trans hu₀'
      exact absurd hsame (hfree e he u₀ hu₀)
    · cases hs.symm.trans hu₀
      exact absurd hsame.symm (hfree e' he' u₀' hu₀')
    · rfl
  · rw [map_append, nodup_append]
    refine ⟨h.keys, nodup_singleton _, ?_⟩
    intro k hk _ hk' heq
    obtain ⟨e, he, rfl⟩ := mem_map.mp hk
    rw [map_singleton, mem_singleton] at hk'
    have hnone := any_eq_false.mp hpk e he
    exact hnone (decide_eq_true (heq.trans hk'))
  · rcases update_cases hu with ⟨_, rfl⟩ | ⟨_, hu⟩
    · exact hset.limOnce
    · exact h.once hu

end

end

lemma Inv.putSession (h : Inv m S) (hid : S id = none)
    (hfree : Free m S s.remoteAddr) (honce : LimOnce s) :
    Inv { m with pending := m.pending.insert s.remoteAddr id } (update S id (some s)) := by
  have hold : ∀ {i u}, S i = some u → update S id (some s) i = some u := by
    intro i u hu
    have hi : i ≠ id := by
      rintro rfl
      rw [hid] at hu
      cases hu
    exact (update_of_ne hi ..).trans hu
  refine ⟨fun {a i} ha => ?_, fun {pk i} he => ?_, fun {a pk} ha => ?_, fun {e e' u _} he he' hu hu' heq => ?_,
    h.keys, fun {i u} hu => ?_⟩
  · rcases Assoc.insert_some ha with ⟨hne, rfl⟩ | ⟨-, ha⟩
    · exact ⟨s, update_self .., hne.symm⟩
    · obtain ⟨u, hu, haddr⟩ := h.pending ha
      exact ⟨u, hold hu, haddr⟩
  · obtain ⟨u, hu, hsettled, hpend, hmap⟩ := h.authed he
    exact ⟨u, hold hu, hsettled, (lookup_insert_ne (hfree _ he u hu)).trans hpend, hmap⟩
  · obtain ⟨i, u, he, hu, haddr⟩ := h.mapped ha
    exact ⟨i, u, he, hold hu, haddr⟩
  · obtain ⟨_, hu₀, _⟩ := h.authed (show (e.1, e.2) ∈ m.authedLinks from he)
    obtain ⟨_, hu₀', _⟩ := h.authed (show (e'.1, e'.2) ∈ m.authedLinks from he')
    cases (hold hu₀).symm.trans hu
    cases (hold hu₀').symm.trans hu'
    exact h.distinct he he' hu₀ hu₀' heq
  · rcases update_cases hu with ⟨_, rfl⟩ | ⟨_, hu⟩
    · exact honce
    · exact h.once hu

lemma Inv.forget (h : Inv m S) (a : SockAddr) : Inv { m with pending := m.pending.erase a } S := by
  refine ⟨fun {_ i} ha => ?_, fun {_ i} he => ?_, h.mapped, h.distinct, h.keys, h.once⟩
  · exact h.pending (Assoc.erase_some ha).2
  · obtain ⟨u, hu, hsettled, hpend, hmap⟩ := h.authed he
    refine ⟨u, hu, hsettled, ?_, hmap⟩
    rw [Assoc.lookup_erase, hpend, ite_self]

lemma Inv.unmap (h : Inv m S) (hnone : m.authedAddrs.lookup a = none) : Inv (m.unmapAddr a) S := by
  have hsame : ∀ a', (m.authedAddrs.erase a).lookup a' = m.authedAddrs.lookup a' := by
    intro a'
    rw [Assoc.lookup_erase, ← hnone]
    split
    · rw [‹a' = a›]
    · rfl
  refine ⟨h.pending, fun he => ?_, fun ha => h.mapped ((hsame _).symm.trans ha), h.distinct, h.keys, h.once⟩
  obtain ⟨u, hu, hsettled, hpend, hmap⟩ := h.authed he
  exact ⟨u, hu, hsettled, hpend, (hsame _).trans hmap⟩

lemma Inv.removeLink (h : Inv m S) (hs : S e.2 = some s)
    (hnone : m.authedAddrs.lookup s.remoteAddr = none) :
    Inv { m with authedLinks := m.authedLinks.erase e } S := by
  refine ⟨h.pending, fun he => h.authed (mem_of_mem_erase he), fun {a _} ha => ?_,
    fun he he' => h.distinct (mem_of_mem_erase he) (mem_of_mem_erase he'), ?_, h.once⟩
  · obtain ⟨i, u, he, hu, rfl⟩ := h.mapped ha
    refine ⟨i, u, (mem_erase_of_ne ?_).mpr he, hu, rfl⟩
    rintro rfl
    cases hs.symm.trans hu
    rw [hnone] at ha
    cases ha
  · exact h.keys.sublist ((erase_sublist).map Prod.fst)

end

structure Grown (m m' : LinkMaps) : Prop where
  links : ∀ e ∈ m.authedLinks, e ∈ m'.authedLinks
  all : ∀ id ∈ m.all, id ∈ m'.all

lemma Grown.refl (m : LinkMaps) : Grown m m := ⟨fun _ h => h, fun _ h => h⟩

lemma Grown.trans {m₁ m₂ m₃ : LinkMaps} (h : Grown m₁ m₂) (h' : Grown m₂ m₃) : Grown m₁ m₃ :=
  ⟨fun e he => h'.links e (h.links e he), fun id hid => h'.all id (h.all id hid)⟩

/-- The session `id`, in the maps, is now `w`; the others are those of `S`, and the maps began as `m₀`. -/
structure Held (S : ℕ → Option Session) (id : ℕ) (m₀ : LinkMaps) (w : World LinkMaps) : Prop where
  inv : Inv w.parent (update S id (some w.toSession))
  grown : Grown m₀ w.parent
  here : id ∈ w.parent.all

variable {cause : Cause LinkMaps}

section
variable {cfg : Config} {t : Clock} {S : ℕ → Option Session} {id : ℕ} {m₀ : LinkMaps} {w w' : World LinkMaps}

section
variable (h : Held S id m₀ w)
include h

lemma Held.limOnce : LimOnce w.toSession := h.inv.once (update_self ..)

lemma Held.settled (he : (pk, id) ∈ w.parent.authedLinks) : Settled w.toSession := by
  obtain ⟨s, hs, hset, _⟩ := h.inv.authed he
  rw [update_self] at hs
  cases hs
  exact hset

lemma Held.pending (hnot : ¬ Settled w.toSession) : w.parent.pending.lookup w.remoteAddr = some id := by
  rcases mem_all.mp h.here with ⟨_, he⟩ | ⟨a, ha⟩
  · exact absurd (h.settled he) hnot
  obtain ⟨s, hs, rfl⟩ := h.inv.pending ha
  rw [update_self] at hs
  cases hs
  exact ha

section
variable (hp : w'.parent = w.parent) (ha : w'.remoteAddr = w.remoteAddr)
include hp ha

lemma Held.touch (honce : LimOnce w'.toSession)
    (hset : Settled w.toSession → Settled w'.toSession ∧ w'.ctl.state = w.ctl.state) :
    Held S id m₀ w' := by
  refine ⟨?_, hp ▸ h.grown, hp ▸ h.here⟩
  have hinv := h.inv.touch (update_self ..) ha honce fun _ he => hset (h.settled he)
  rw [update_idem] at hinv
  rw [hp]
  exact hinv

lemma Held.same (htx : ∀ {i}, AwaitsLIM w'.toSession i → AwaitsLIM w.toSession i)
    (hst : w'.ctl.state = w.ctl.state) (hhook : w'.ctl.gotLIM = w.ctl.gotLIM) : Held S id m₀ w' := by
  have honce := h.limOnce
  refine h.touch hp ha ⟨fun hi => hhook.trans (honce.hook (htx hi)), fun hi hi' => honce.once (htx hi) (htx hi')⟩
    fun hset => ⟨⟨?_, hhook.trans hset.hook, fun i hi => hset.none i (htx hi)⟩, hst⟩
  rw [hst]
  exact hset.state

end

lemma Held.shut : Held S id m₀ (w.shut (cfg.env id)) := by
  refine ⟨?_, ⟨h.grown.links, h.grown.all⟩, h.here⟩
  have honce : LimOnce (w.shut (cfg.env id)).toSession := ⟨h.limOnce.hook, h.limOnce.once⟩
  have hinv := h.inv.shut (update_self ..) h.here (w.shut (cfg.env id)).toSession rfl rfl honce
    fun _ he => ⟨.inr rfl, (h.settled he).hook, (h.settled he).none⟩
  rw [update_idem] at hinv
  exact hinv

end

lemma establish_mapAddr (cfg : Config) (id : ℕ) {refused : Bool} (inbound : Bool)
    (h : w.parent.mapAddr w.ctl.remoteRC.pubkey w.remoteAddr = (m, refused)) :
    (w.establish (cfg.env id) inbound).parent = (if refused then m.unmapAddr w.remoteAddr else m) ∧
      (w.establish (cfg.env id) inbound).ctl.state = (if refused then .closed else w.ctl.state) ∧
      (w.establish (cfg.env id) inbound).ctl.gotLIM = w.ctl.gotLIM := by
  have hflag : ((cfg.env id).mapAddr w.parent w.ctl.remoteRC.pubkey w.remoteAddr).2 = refused := congrArg Prod.snd h
  refine ⟨?_, ?_, ?_⟩
  · show (if (w.parent.mapAddr w.ctl.remoteRC.pubkey w.remoteAddr).2 then
        (w.parent.mapAddr w.ctl.remoteRC.pubkey w.remoteAddr).1.unmapAddr w.remoteAddr
      else (w.parent.mapAddr w.ctl.remoteRC.pubkey w.remoteAddr).1) = _
    rw [h]
  all_goals
    unfold World.establish
    dsimp only
    rw [hflag]
    cases refused <;> rfl

lemma Held.establish (h : Held S id m₀ w) (hnot : ¬ Settled w.toSession) (hp : w'.parent = w.parent)
    (ha : w'.remoteAddr = w.remoteAddr) (hset : Settled w'.toSession) (hst : w'.ctl.state = .ready)
    (inbound : Bool) : Held S id m₀ (w'.establish (cfg.env id) inbound) := by
  have hpend := h.pending hnot
  have hs : update S id (some w.toSession) id = some w.toSession := update_self ..
  by_cases hpk : w.parent.hasSessionTo w'.ctl.remoteRC.pubkey = true
  · have hrefuse : w'.parent.mapAddr w'.ctl.remoteRC.pubkey w'.remoteAddr = (w.parent, true) := by
      unfold mapAddr
      rw [hp, ha, hpend]
      exact if_pos hpk
    obtain ⟨hparent, hstate, hhook⟩ := establish_mapAddr cfg id inbound hrefuse
    have hclosed : Settled (w'.establish (cfg.env id) inbound).toSession :=
      ⟨.inr hstate, hhook.trans hset.hook, hset.none⟩
    have hinv := h.inv.shut hs h.here _ (by exact ha) hstate hclosed.limOnce fun _ _ => hclosed
    rw [update_idem, ← ha] at hinv
    refine ⟨?_, ?_, ?_⟩ <;> rw [hparent]
    · exact hinv
    · exact ⟨h.grown.links, h.grown.all⟩
    · exact h.here
  · have hfree := lookup_eq_none.mp (h.inv.unmapped (h.inv.free hpend))
    have hadmit : w'.parent.mapAddr w'.ctl.remoteRC.pubkey w'.remoteAddr =
        ({ authedAddrs := w.parent.authedAddrs.insert w.remoteAddr w'.ctl.remoteRC.pubkey
           authedLinks := w.parent.authedLinks ++ [(w'.ctl.remoteRC.pubkey, id)]
           pending := w.parent.pending.erase w.remoteAddr }, false) := by
      unfold mapAddr
      rw [hp, ha, hpend]
      simp only [hpk, hfree, if_false, Bool.false_eq_true]
    obtain ⟨hparent, hstate, hhook⟩ := establish_mapAddr cfg id inbound hadmit
    have hready : Settled (w'.establish (cfg.env id) inbound).toSession :=
      ⟨.inl (hstate.trans hst), hhook.trans hset.hook, hset.none⟩
    have hinv := h.inv.enter hs hpend (Bool.eq_false_iff.mpr hpk) (by exact ha) (hstate.trans hst) hready
    rw [update_idem] at hinv
    have hmem : (w'.ctl.remoteRC.pubkey, id) ∈ w.parent.authedLinks ++ [(w'.ctl.remoteRC.pubkey, id)] :=
      mem_append_right _ mem_cons_self
    have hgrown : Grown w.parent (w'.establish (cfg.env id) inbound).parent := by
      rw [hparent]
      refine ⟨fun e he => mem_append_left _ he, fun i hi => mem_all.mpr ?_⟩
      rcases mem_all.mp hi with ⟨pk, he⟩ | ⟨a, hi⟩
      · exact .inl ⟨pk, mem_append_left _ he⟩
      by_cases hne : a = w.remoteAddr
      · rw [hne, hpend] at hi
        cases hi
        exact .inl ⟨_, hmem⟩
      · exact .inr ⟨a, (lookup_erase_ne hne).trans hi⟩
    refine ⟨?_, h.grown.trans hgrown, hgrown.all id h.here⟩
    rw [hparent]
    exact hinv

lemma Held.move (h : Held S id m₀ w) (hm : Move (cfg.env id) t cause w w') : Held S id m₀ w' := by
  cases hm with
  | tx htx hk => exact h.same rfl rfl (AwaitsLIM.of_txMove htx hk) rfl rfl
  | shut hst => exact h.shut
  | limIn hp hctl hlim hook hpk =>
    -- the hook is not changed before, so our link intro was not sent
    have hnot : ¬ Settled w.toSession := fun hset => by
      rw [hset.hook] at hook
      cases hook
    refine Held.establish h hnot (by rfl) (by rfl) ⟨.inl rfl, by rfl, fun i ha => ?_⟩ rfl true
    have hreneg : w.ctl.gotLIM = .reneg := h.limOnce.hook ha
    rw [hook] at hreneg
    cases hreneg
  | limOut hp hlim hook hpk hx =>
    have hnone : ∀ {i}, ¬ AwaitsLIM w.toSession i := fun ha => by
      rw [h.limOnce.hook ha] at hook
      cases hook
    refine h.touch rfl rfl ⟨fun _ => rfl, fun {i _} ha ha' => ?_⟩ fun hset => ?_
    · obtain ⟨msg, hmsg, hc⟩ := ha
      obtain ⟨msg', hmsg', hc'⟩ := ha'
      rcases hx with rfl | ⟨_, _, hx⟩
      · exact absurd ⟨msg, hmsg, hc⟩ hnone
      rcases offered_get hx hmsg with hold | rfl
      · exact absurd ⟨msg, hold, hc⟩ hnone
      rcases offered_get hx hmsg' with hold | rfl
      · exact absurd ⟨msg', hold, hc'⟩ hnone
      · rfl
    · rw [hset.hook] at hook
      cases hook
  | limAcked hp hby hst htx hc =>
    obtain ⟨hmsg, hgone, _⟩ := htx.acked
    have hnot : ¬ Settled w.toSession := fun hset => hset.none _ ⟨_, hmsg, hc⟩
    have hhook := h.limOnce.hook ⟨_, hmsg, hc⟩
    refine Held.establish h hnot (by rfl) (by rfl) ⟨.inl rfl, by exact hhook, fun i ha => ?_⟩ rfl false
    -- the acknowledged message was the only one
    obtain ⟨msg', hmsg', hc'⟩ := ha
    rcases htx.entry hmsg' with ⟨m₁, hm₁, hc₁, _⟩ | ⟨hk, _⟩
    · cases h.limOnce.once ⟨m₁, hm₁, hc₁ ▸ hc'⟩ ⟨_, hmsg, hc⟩
      exact some_ne_none _ (hmsg'.symm.trans hgone)
    · cases hk
  | _ => exact h.same rfl rfl (fun ha => ha) rfl rfl

lemma Held.moves (h : Held S id m₀ w) (hm : Moves (cfg.env id) t cause w w') : Held S id m₀ w' := by
  induction hm with
  | refl => exact h
  | tail _ hm ih => exact ih.move hm

lemma not_settled_early (h : s.ctl.state.early = true) : ¬ Settled s := by
  intro hset
  rcases hset.state with hst | hst <;> rw [hst] at h <;> cases h

lemma Held.receipt {c : Packet} (h : Held S id m₀ w) (hr : Receipt (cfg.env id) t c w w') : Held S id m₀ w' := by
  cases hr with
  | introduced x hst hin hdec hintro hkey | introAcked x token hst hout hdec =>
    exact h.touch rfl rfl ⟨h.limOnce.hook, h.limOnce.once⟩
      fun hset => absurd hset (not_settled_early (by rw [hst]; rfl))
  | echoed x hst hin hdec htoken hmoves =>
    refine Held.moves ?_ hmoves
    exact h.touch rfl rfl ⟨h.limOnce.hook, h.limOnce.once⟩
      fun hset => absurd hset (not_settled_early (by rw [hst]; rfl))
  | _ => exact h.same rfl rfl (fun ha => ha) rfl rfl

lemma Held.changes (h : Held S id m₀ w) (hc : ReflTransGen (Change (cfg.env id) t) w w') : Held S id m₀ w' := by
  induction hc with
  | refl => exact h
  | tail _ hc ih =>
    cases hc with
    | receipt hr => exact ih.receipt hr
    | move hm => exact ih.move hm
    | dispatch v | requeue v => exact ih.same rfl rfl (fun ha => ha) rfl rfl

end

def Layer.Consistent (L : Layer) : Prop := Inv L.maps (fun i => L.sessions[i]?)

section
variable {cfg : Config} {t : Clock} {L L' : Layer} {id : ℕ} {s : Session} {w : World LinkMaps}

lemma put_sessions (hs : L.sessions[id]? = some s) : (fun i => (L.put id w).sessions[i]?)
      = Function.update (fun i => L.sessions[i]?) id (some w.toSession) := by
  have hlt : id < L.sessions.length := (List.getElem?_eq_some_iff.mp hs).1
  funext i
  show (L.sessions.set id w.toSession)[i]? = _
  rw [getElem?_set, update_apply]
  by_cases hi : id = i
  · rw [if_pos hi, if_pos hi.symm, if_pos hlt]
  · rw [if_neg hi, if_neg (Ne.symm hi)]

lemma Layer.Consistent.held (hL : L.Consistent) (hs : L.sessions[id]? = some s) (hid : id ∈ L.maps.all) :
    Held (fun i => L.sessions[i]?) id L.maps (L.world s) := by
  refine ⟨?_, .refl _, hid⟩
  have hsame : update (fun i => L.sessions[i]?) id (some s) = fun i => L.sessions[i]? := update_eq_self_iff.mpr hs.symm
  show Inv L.maps (update (fun i => L.sessions[i]?) id (some s))
  rw [hsame]
  exact hL

lemma Held.put (hs : L.sessions[id]? = some s) (h : Held (fun i => L.sessions[i]?) id L.maps w) :
    (L.put id w).Consistent ∧ Grown L.maps (L.put id w).maps := by
  refine ⟨?_, h.grown⟩
  unfold Layer.Consistent
  rw [put_sessions hs]
  exact h.inv

lemma runOn_consistent {op : Op LinkMaps} (h : L.runOn cfg t op id = .ok L') (hL : L.Consistent)
    (hid : id ∈ L.maps.all) (hop : ∀ p, op ≠ .parent p := by nofun) : L'.Consistent ∧ Grown L.maps L'.maps := by
  unfold runOn at h
  split at h
  · cases h
    exact ⟨hL, .refl _⟩
  rename_i s hs
  obtain ⟨w, hw, h⟩ := ok_bind.mp h
  cases h
  exact ((hL.held hs hid).changes (step_changes hw hop)).put hs

lemma recvOn_consistent {pkt : Packet} {success : Bool} (h : L.recvOn cfg t pkt id = .ok (success, L'))
    (hL : L.Consistent) (hid : id ∈ L.maps.all) : L'.Consistent := by
  unfold recvOn at h
  split at h
  · cases h
    exact hL
  rename_i s hs
  obtain ⟨⟨b, w⟩, hw, h⟩ := ok_bind.mp h
  cases h
  exact (((hL.held hs hid).receipt (recvLL_receipt hw)).put hs).1

lemma work_consistent {k : ℕ} (h : L.runOn cfg t (.work k) id = .ok L') (hL : L.Consistent) : L'.Consistent := by
  unfold runOn at h
  split at h
  · cases h
    exact hL
  rename_i s hs
  cases h
  have honce : LimOnce s := hL.once hs
  unfold Layer.Consistent
  rw [put_sessions hs, runWork_requeue]
  refine hL.touch hs rfl ⟨honce.hook, honce.once⟩ fun _ he => ?_
  obtain ⟨_, hs', hset, _⟩ := hL.authed he
  cases hs.symm.trans hs'
  exact ⟨⟨hset.state, hset.hook, hset.none⟩, rfl⟩

lemma fold_runOn_consistent {op : Op LinkMaps} {ids : List ℕ} (h : ids.foldlM (runOn cfg t op) L = .ok L')
    (hL : L.Consistent) (hids : ∀ id ∈ ids, id ∈ L.maps.all) (hop : ∀ p, op ≠ .parent p := by nofun) :
    L'.Consistent := by
  induction ids generalizing L with
  | nil =>
    cases h
    exact hL
  | cons id ids ih =>
    obtain ⟨_, h₁, h⟩ := ok_bind.mp h
    obtain ⟨hL₁, hgrown⟩ := runOn_consistent h₁ hL (hids id mem_cons_self) hop
    exact ih h hL₁ fun i hi => hgrown.all i (hids i (mem_cons_of_mem id hi))

lemma close_closed (env : Env LinkMaps) (w : World LinkMaps) :
    (w.close env t).ctl.state = .closed ∧ (w.close env t).remoteAddr = w.remoteAddr := by
  rw [close_eq]
  split
  · rename_i hst
    exact ⟨hst, rfl⟩
  split
  · exact ⟨rfl, rfl⟩
  · rw [encryptSend_eq]
    exact ⟨rfl, rfl⟩

lemma close_entry (h : L.runOn cfg t .close e.2 = .ok L') (hL : L.Consistent)
    (he : e ∈ L.maps.authedLinks) (hs : L.sessions[e.2]? = some s) :
    L'.Consistent ∧ Grown L.maps L'.maps ∧ ∃ s', L'.sessions[e.2]? = some s' ∧
      s'.remoteAddr = s.remoteAddr ∧ L'.maps.authedAddrs.lookup s'.remoteAddr = none := by
  obtain ⟨hL', hgrown⟩ := runOn_consistent h hL (mem_all.mpr (.inl ⟨e.1, he⟩))
  refine ⟨hL', hgrown, ?_⟩
  obtain ⟨s', hs', _, _, hmap⟩ := hL'.authed (hgrown.links e he)
  unfold runOn at h
  rw [hs] at h
  cases h
  obtain ⟨hst, haddr⟩ := close_closed (t := t) (cfg.env e.2) (L.world s)
  have hput := (congrFun (put_sessions (w := (L.world s).close (cfg.env e.2) t) hs) e.2).symm.trans hs'
  rw [update_self] at hput
  cases hput
  refine ⟨_, hs', haddr, hmap.trans ?_⟩
  rw [if_neg (by rw [hst]; nofun)]

def WorksOff (f : Layer → PubKey × ℕ → Except Fault Layer) : Prop :=
  ∀ {L L' e}, f L e = .ok L' → L.Consistent → e ∈ L.maps.authedLinks →
    L'.Consistent ∧ ∀ e' ∈ L.maps.authedLinks, e' ≠ e → e' ∈ L'.maps.authedLinks

variable {f : Layer → PubKey × ℕ → Except Fault Layer}

lemma links_consistent
    (hf : WorksOff f) {es : List (PubKey × ℕ)} (h : es.foldlM f L = .ok L') (hL : L.Consistent)
    (hes : ∀ e ∈ es, e ∈ L.maps.authedLinks) (hnodup : es.Nodup) : L'.Consistent := by
  induction es generalizing L with
  | nil =>
    cases h
    exact hL
  | cons e es ih =>
    obtain ⟨hnot, hnodup⟩ := nodup_cons.mp hnodup
    obtain ⟨_, h₁, h⟩ := ok_bind.mp h
    obtain ⟨hL₁, hkeep⟩ := hf h₁ hL (hes e mem_cons_self)
    refine ih h hL₁ (fun e' he' => hkeep e' (hes e' (mem_cons_of_mem e he')) ?_) hnodup
    rintro rfl
    exact hnot he'

lemma pumpAuthed_consistent : WorksOff (pumpAuthed cfg t) := by
  intro L _ e h hL he
  unfold pumpAuthed at h
  split at h
  · cases h
    exact ⟨hL, fun _ he' _ => he'⟩
  rename_i s hs
  split at h
  · obtain ⟨_, h₁, h⟩ := ok_bind.mp h
    cases h
    obtain ⟨hL₁, hgrown, _, hs', haddr, hnone⟩ := close_entry h₁ hL he hs
    rw [haddr] at hnone
    have hunmap := Inv.unmap hL₁ hnone
    refine ⟨hunmap.removeLink hs' ?_, fun e' he' hne => (mem_erase_of_ne hne).mpr (hgrown.links e' he')⟩
    rw [haddr]
    exact lookup_erase _ _
  · obtain ⟨hL', hgrown⟩ := runOn_consistent h hL (mem_all.mpr (.inl ⟨e.1, he⟩))
    exact ⟨hL', fun e' he' _ => hgrown.links e' he'⟩

lemma closeEntry_consistent : WorksOff (closeEntry cfg t) := by
  intro L _ e h hL he
  obtain ⟨_, h₁, h⟩ := ok_bind.mp h
  cases h
  obtain ⟨s, hs, _⟩ := hL.authed (show (e.1, e.2) ∈ L.maps.authedLinks from he)
  obtain ⟨hL₁, hgrown, _, hs', _, hnone⟩ := close_entry h₁ hL he hs
  exact ⟨Inv.removeLink hL₁ hs' hnone, fun e' he' hne => (mem_erase_of_ne hne).mpr (hgrown.links e' he')⟩

lemma keepAlive_consistent : WorksOff (keepAlive cfg t) := by
  intro L _ e h hL he
  unfold keepAlive at h
  split at h
  · cases h
    exact ⟨hL, fun _ he' _ => he'⟩
  split at h
  · obtain ⟨hL', hgrown⟩ := runOn_consistent h hL (mem_all.mpr (.inl ⟨e.1, he⟩))
    exact ⟨hL', fun e' he' _ => hgrown.links e' he'⟩
  · cases h
    exact ⟨hL, fun _ he' _ => he'⟩

lemma moves_pending {w w' : World LinkMaps} (hc : cause.pkt = none)
    (h : Moves (cfg.env id) t cause w w') : w'.parent.pending = w.parent.pending := by
  induction h with
  | refl => rfl
  | tail _ hm ih =>
    refine Eq.trans ?_ ih
    cases hm with
    | limIn hp | limOut hp | limAcked hp => exact absurd (hp ▸ hc) nofun
    | _ => rfl

lemma pump_pending (h : L.runOn cfg t .pump id = .ok L') : L'.maps.pending = L.maps.pending := by
  unfold runOn at h
  split at h
  · cases h
    rfl
  obtain ⟨w, hw, h⟩ := ok_bind.mp h
  cases h
  obtain ⟨v, hv, rfl⟩ : ∃ v, Moves (cfg.env id) t .call _ v ∧ w = v.queueWork := pump_moves hw
  rw [queueWork_requeue]
  exact moves_pending rfl hv

lemma pumpPending_consistent {e : Sigma (fun _ : SockAddr => ℕ)} (h : L.pumpPending cfg t e = .ok L')
    (hL : L.Consistent) (he : L.maps.pending.lookup e.1 = some e.2) :
    L'.Consistent ∧ ∀ a, a ≠ e.1 → L'.maps.pending.lookup a = L.maps.pending.lookup a := by
  unfold pumpPending at h
  split at h
  · cases h
    exact ⟨hL, fun _ _ => rfl⟩
  rename_i s hs
  split at h
  · cases h
    obtain ⟨_, hs', haddr⟩ := hL.pending he
    cases hs.symm.trans hs'
    have hnone := hL.unmapped (hL.free he)
    rw [haddr]
    exact ⟨(Inv.unmap hL hnone).forget e.1, fun a ha => lookup_erase_ne ha⟩
  · have hall := mem_all.mpr (.inr ⟨e.1, he⟩)
    refine ⟨(runOn_consistent h hL hall).1, fun a _ => ?_⟩
    rw [pump_pending h]

lemma pending_consistent {es : List (Sigma (fun _ : SockAddr => ℕ))}
    (h : es.foldlM (pumpPending cfg t) L = .ok L') (hL : L.Consistent)
    (hes : ∀ e ∈ es, L.maps.pending.lookup e.1 = some e.2) (hnodup : es.NodupKeys) : L'.Consistent := by
  induction es generalizing L with
  | nil =>
    cases h
    exact hL
  | cons e es ih =>
    obtain ⟨hnot, hnodup⟩ := nodupKeys_cons.mp hnodup
    obtain ⟨_, h₁, h⟩ := ok_bind.mp h
    obtain ⟨hL₁, hkeep⟩ := pumpPending_consistent h₁ hL (hes e mem_cons_self)
    refine ih h hL₁ (fun e' he' => ?_) hnodup
    have hne : e'.1 ≠ e.1 := by
      intro heq
      exact hnot (heq ▸ mem_map_of_mem he')
    rw [hkeep e'.1 hne]
    exact hes e' (mem_cons_of_mem e he')

lemma pump_consistent (h : L.pump cfg t = .ok L') (hL : L.Consistent) : L'.Consistent := by
  obtain ⟨L₁, h₁, h⟩ := ok_bind.mp h
  have hnodup : L.maps.authedLinks.Nodup := Nodup.of_map _ hL.keys
  have hL₁ := links_consistent pumpAuthed_consistent h₁ hL (fun _ he => he) hnodup
  exact pending_consistent h hL₁ (fun _ => mem_lookup_iff.mpr) L₁.maps.pending.nodupKeys

lemma range_consistent {remote : PubKey}
    (hf : WorksOff f) (h : (L.maps.equalRange remote).foldlM f L = .ok L') (hL : L.Consistent) : L'.Consistent :=
  links_consistent hf h hL (fun _ he => (mem_filter.mp he).1) ((Nodup.of_map _ hL.keys).filter _)

lemma mem_of_foldl_eq_some {α : Type} {f : Option α → α → Option α} (hf : ∀ best a, f best a = best ∨ f best a = some a)
    {l : List α} {e : α} (h : l.foldl f none = some e) : e ∈ l := by
  have hkeeps : ∀ best, l.foldl f best = some e → e ∈ l ∨ best = some e := by
    clear h
    induction l with
    | nil => exact fun best h => .inr h
    | cons a l ih =>
      intro best h
      rcases ih _ h with hmem | hbest
      · exact .inl (mem_cons_of_mem a hmem)
      rcases hf best a with hold | hnew
      · exact .inr (hold.symm.trans hbest)
      · exact .inl (mem_cons.mpr (.inl (some.inj (hbest.symm.trans hnew))))
  exact (hkeeps none h).resolve_right nofun

lemma lowestBacklog_mem {remote : PubKey} (h : L.lowestBacklog remote = some id) : id ∈ L.maps.all := by
  obtain ⟨e, he, hid⟩ := map_eq_some_iff.mp h
  have hmem := mem_of_foldl_eq_some (fun best a => by
    cases best with
    | none => exact .inr rfl
    | some => exact (ite_eq_or_eq ..).symm) he
  exact mem_all.mpr (.inl ⟨e.1, hid ▸ (mem_filter.mp hmem).1⟩)

def Layer.addressInUse (L : Layer) (a : SockAddr) : Bool :=
  L.maps.authedLinks.any (fun e => (L.sessions[e.2]?).any (fun s => s.remoteAddr = a))

def Layer.opensAt (cfg : Config) (L : Layer) : LayerOp → Option SockAddr
  | .recvFrom src _ => if L.isNewSession cfg src then some src else none
  | .tryEstablishTo rc => (L.picksFor cfg rc).map AddressInfo.addr
  | _ => none

def OpensFresh (cfg : Config) (i : Clock × LayerOp) (L : Layer) : Prop :=
  ∀ a ∈ L.opensAt cfg i.2, L.addressInUse a = false

instance (cfg : Config) (i : Clock × LayerOp) (L : Layer) : Decidable (OpensFresh cfg i L) :=
  inferInstanceAs (Decidable (∀ a ∈ L.opensAt cfg i.2, L.addressInUse a = false))

lemma addressInUse_false (h : L.addressInUse a = false) : Free L.maps (fun i => L.sessions[i]?) a := by
  intro e he s hs haddr
  have hs' : L.sessions[e.2]? = some s := hs
  have hnone := any_eq_false.mp h e he
  rw [hs'] at hnone
  exact hnone (decide_eq_true haddr)

lemma putSession_sessions (s : Session) : (fun i => (L.putSession s).sessions[i]?)
      = update (fun i => L.sessions[i]?) L.sessions.length (some s) := by
  funext i
  show (L.sessions ++ [s])[i]? = _
  rw [update_apply]
  by_cases hi : i = L.sessions.length
  · rw [if_pos hi, hi, getElem?_concat_length]
  rw [if_neg hi]
  rcases Nat.lt_or_gt_of_ne hi with hlt | hgt
  · exact getElem?_append_left hlt
  rw [getElem?_eq_none (Nat.le_of_lt hgt), getElem?_eq_none]
  rw [length_append]
  exact hgt

lemma put_consistent (hL : L.Consistent) (hfree : L.addressInUse s.remoteAddr = false)
    (htx : s.tx = {}) : (L.putSession s).Consistent := by
  have hnone : ∀ i, ¬ AwaitsLIM s i := by
    rintro i ⟨_, hmsg, _⟩
    rw [htx] at hmsg
    have hempty := hmsg
    cases hempty
  unfold Layer.Consistent
  rw [putSession_sessions]
  refine Inv.putSession hL ?_ (addressInUse_false hfree) ⟨fun ha => absurd ha (hnone _), fun ha => absurd ha (hnone _)⟩
  exact getElem?_eq_none le_rfl

lemma putSession_mem (s : Session) : L.sessions.length ∈ (L.putSession s).maps.all :=
  mem_all.mpr (.inr ⟨s.remoteAddr, lookup_insert _⟩)

lemma recvFrom_consistent {src : SockAddr} {pkt : Packet} (h : L.recvFrom cfg t src pkt = .ok L')
    (hL : L.Consistent) (hgood : OpensFresh cfg (t, .recvFrom src pkt) L) : L'.Consistent := by
  unfold recvFrom at h
  split at h
  · rename_i hnew
    have hfree : L.addressInUse src = false := by
      refine hgood src ?_
      show (if L.isNewSession cfg src then some src else none) = some src
      rw [if_pos hnew]
    obtain ⟨⟨success, L₁⟩, h₁, h⟩ := ok_bind.mp h
    have hL₁ := recvOn_consistent h₁ (put_consistent hL hfree rfl) (putSession_mem _)
    cases h
    cases success
    · exact Inv.forget hL₁ src
    · exact hL₁
  · split at h
    · cases h
      exact hL
    rename_i id hid
    obtain ⟨⟨success, L₁⟩, h₁, h⟩ := ok_bind.mp h
    cases h
    refine recvOn_consistent h₁ hL (mem_all.mpr ?_)
    unfold sessionAt at hid
    split at hid
    · obtain ⟨e, he, rfl⟩ := map_eq_some_iff.mp hid
      exact .inl ⟨e.1, mem_of_find?_eq_some he⟩
    · exact .inr ⟨src, hid⟩

lemma establish_consistent {rc : RouterContact} (hL : L.Consistent)
    (hgood : OpensFresh cfg (t, .tryEstablishTo rc) L) : (L.tryEstablishTo cfg t rc).Consistent := by
  unfold tryEstablishTo
  split
  · exact hL
  rename_i ai hai
  have hfree : L.addressInUse ai.addr = false := by
    refine hgood ai.addr ?_
    show (L.picksFor cfg rc).map AddressInfo.addr = some ai.addr
    rw [hai]
    rfl
  have hput := put_consistent (s := newOutbound cfg.crypto t.now rc ai) hL hfree rfl
  have hs : (L.putSession (newOutbound cfg.crypto t.now rc ai)).sessions[L.sessions.length]?
      = some (newOutbound cfg.crypto t.now rc ai) := getElem?_concat_length
  have hheld := hput.held hs (putSession_mem _)
  refine (Held.put hs ?_).1
  obtain ⟨x, hx⟩ := newOutbound_eq (cfg.env L.sessions.length) t rc ai
    (L.putSession (newOutbound cfg.crypto t.now rc ai)).maps
  have hstart : ((L.putSession (newOutbound cfg.crypto t.now rc ai)).world
      (newOutbound cfg.crypto t.now rc ai)).start (cfg.env L.sessions.length) t = _ := hx
  rw [hstart]
  exact hheld.touch rfl rfl ⟨hheld.limOnce.hook, hheld.limOnce.once⟩ fun hset => absurd hset (not_settled_early rfl)

lemma step_consistent {i : Clock × LayerOp} (h : L.step cfg i = .ok L') (hgood : OpensFresh cfg i L)
    (hL : L.Consistent) : L'.Consistent := by
  obtain ⟨t, op⟩ := i
  cases op with
  | recvFrom => exact recvFrom_consistent h hL hgood
  | tryEstablishTo =>
    cases h
    exact establish_consistent hL hgood
  | pump => exact pump_consistent h hL
  | tick | stop | handleWakeupPlaintext => exact fold_runOn_consistent h hL fun _ hid => hid
  | closeSessionTo remote => exact range_consistent closeEntry_consistent h hL
  | keepAliveSessionTo remote => exact range_consistent keepAlive_consistent h hL
  | sendTo remote buf completed priority =>
    have h : L.sendTo cfg t remote buf completed priority = .ok L' := h
    unfold sendTo at h
    split at h
    · cases h
      exact hL
    · rename_i id hid
      exact (runOn_consistent h hL (lowestBacklog_mem hid)).1
  | close id | renegotiate id =>
    by_cases hid : id ∈ L.maps.all
    · exact (runOn_consistent ((if_pos hid).symm.trans h) hL hid).1
    · cases (if_neg hid).symm.trans h
      exact hL
  | work id => exact work_consistent h hL

lemma empty_consistent : ({} : Layer).Consistent :=
  ⟨fun ha => (nomatch ha), fun he => (nomatch he), fun ha => (nomatch ha), fun he => (nomatch he),
    nodup_nil, fun hs => by cases hs⟩

lemma Layer.Consistent.find (hL : L.Consistent) (he : (pk, id) ∈ L.maps.authedLinks) :
    L.maps.findSessionByPubkey pk = some id := by
  unfold findSessionByPubkey
  have hsome : (L.maps.authedLinks.find? (fun e => e.1 = pk)).isSome := by
    rw [find?_isSome]
    exact ⟨_, he, decide_eq_true rfl⟩
  obtain ⟨e, hfind⟩ := isSome_iff_exists.mp hsome
  have hfound := find?_some hfind
  have hkey : e.1 = pk := of_decide_eq_true hfound
  have heq : e = (pk, id) := inj_on_of_nodup_map hL.keys (mem_of_find?_eq_some hfind) he hkey
  rw [hfind, heq]
  rfl

/-- **Established sessions are found under their address**, if no session is opened for the address of one in
`m_AuthedLinks`. -/
theorem ready_is_reachable (hrun : Run.Reaches (step cfg) (OpensFresh cfg) {} L) {pk : PubKey}
    (he : (pk, id) ∈ L.maps.authedLinks) (hs : L.sessions[id]? = some s) (hready : s.ctl.state = .ready) :
    L.maps.authedAddrs.lookup s.remoteAddr = some pk ∧ L.sessionAt s.remoteAddr = some id := by
  have hL : L.Consistent := hrun.inv (fun i a b ha hgood h => step_consistent h hgood ha) empty_consistent
  obtain ⟨s', hs', _, _, hmap⟩ := hL.authed he
  cases hs.symm.trans hs'
  rw [if_pos hready] at hmap
  refine ⟨hmap, ?_⟩
  unfold sessionAt
  rw [hmap]
  exact hL.find he

/-- The session that a packet is handed to is one with the packet's source. -/
theorem found_at_its_address (hrun : Run.Reaches (step cfg) (OpensFresh cfg) {} L) (hfound : L.sessionAt a = some id) :
    ∃ s, L.sessions[id]? = some s ∧ s.remoteAddr = a := by
  have hL : L.Consistent := hrun.inv (fun i a b ha hgood h => step_consistent h hgood ha) empty_consistent
  unfold sessionAt at hfound
  split at hfound
  · rename_i pk hpk
    obtain ⟨id', s, he, hs, haddr⟩ := hL.mapped hpk
    cases (hL.find he).symm.trans hfound
    exact ⟨s, hs, haddr⟩
  · exact hL.pending hfound

end

namespace Sample
open Iwp.Sample

def addr : SockAddr := ⟨0, 1090⟩

def router (b : UInt8) : RouterContact := ⟨.ofBytes 32 [b], [⟨"iwp", .zero 32, addr⟩], none, []⟩

def cfg : Config where
  toNode := { limEnv.toNode with sign := fun _ => some (.zero 64) }
  rng _ := limEnv.rng
  token _ := token
  parse data := if data = [105] then some peerLIM else none
  inbound := false

def receives (now : Millis) (p : Packet) : List (Clock × LayerOp) :=
  [(clock now, .recvFrom addr p), (clock now, .pump), (clock now, .work 0 0), (clock now, .handleWakeupPlaintext)]

def connects : List (Clock × LayerOp) :=
  let key := .zero 32
  (clock 1, .tryEstablishTo (router 9)) ::
    (clock 2, .recvFrom addr (encryptPacket crypto key (rawPacket limEnv.rng 1 token.toList))) ::
    (receives 3 (lim key) ++
      receives 4 (encryptPacket crypto key (createPacket limEnv.rng 4 .mack (World.mackBody [0]) 16 16)))

end Sample

open Sample

/-- While one router's session is up, one to another router with the same address is tried and times out; `Pump` unmaps
the address of both, and the first receives nothing any more. -/
theorem ready_is_reachable_shared : ∃ L s, exec (step cfg)
        (connects ++ [(clock 5, .tryEstablishTo (router 8)), (clock 5005, .pump)]) {} = .ok L ∧
      ((router 9).pubkey, 0) ∈ L.maps.authedLinks ∧ L.sessions[0]? = some s ∧
      s.ctl.state = .ready ∧ L.maps.authedAddrs.lookup s.remoteAddr = none ∧
      L.sessionAt s.remoteAddr = none := by
  have hsat : ∃ L, exec (step cfg) (connects ++ [(clock 5, .tryEstablishTo (router 8)),
          (clock 5005, .pump)]) {} = .ok L ∧
      (((router 9).pubkey, 0) ∈ L.maps.authedLinks ∧
        ∃ s ∈ L.sessions[0]?, s.ctl.state = .ready ∧ L.maps.authedAddrs.lookup s.remoteAddr = none ∧
          L.sessionAt s.remoteAddr = none) := ok_sat
  obtain ⟨L, hL, hmem, s, hs, hrest⟩ := hsat
  exact ⟨L, s, hL, hmem, hs, hrest⟩

theorem ready_is_reachable_alone : ∃ L s, execWhile (step cfg) (OpensFresh cfg) connects {} = some L ∧
      L.sessions[0]? = some s ∧ s.ctl.state = .ready ∧
      L.maps.authedAddrs.lookup s.remoteAddr = some (router 9).pubkey ∧
      L.sessionAt s.remoteAddr = some 0 := by
  have hsat : ∃ L, execWhile (step cfg) (OpensFresh cfg) connects {} = some L ∧
      (((router 9).pubkey, 0) ∈ L.maps.authedLinks ∧
        ∃ s ∈ L.sessions[0]?, s.ctl.state = .ready) := some_sat
  obtain ⟨L, hL, hmem, s, hs, hready⟩ := hsat
  exact ⟨L, s, hL, hs, hready, ready_is_reachable (execWhile_reaches hL) hmem hs hready⟩

theorem found_at_its_address_ready : ∃ L, execWhile (step cfg) (OpensFresh cfg) connects {} = some L ∧
    L.maps.authedAddrs.lookup addr ≠ none ∧ ∃ s, L.sessions[0]? = some s ∧ s.remoteAddr = addr := by
  refine some_then (P := fun L : Layer => L.maps.authedAddrs.lookup addr ≠ none ∧ L.sessionAt addr = some 0)
    (by decide +kernel) fun L hL ⟨hmapped, hat⟩ => ⟨hmapped, ?_⟩
  exact found_at_its_address (execWhile_reaches hL) hat

end Belnet.Link
