import Belnet.Dht.Introsets
import Belnet.Router.Lookups

/-!
# Routers that store introsets for each other

Any number of routers, the messages that are on the way between them and what each of them has done so far.

* `next_sound`  what the messages and the transactions know of each other;
* `acknowledged_only_stored`  what is acknowledged has been stored.
-/

namespace Belnet.Dht
open Iwp hiding RouterContact
open Belnet.Path hiding RouterContact
open Router Service List AList Relay Option TXHolder

structure Envelope where
  src : Key
  dst : Key
  msg : PeerMsg
deriving DecidableEq

structure Net where
  relays : AList (fun _ : Key => Relay)
  wire : List Envelope := []
  log : List (Key × Out) := []
  publishes : ℕ := 0

variable (c : Crypto)

namespace Net

def sends (p : Key) (outs : List Out) : List Envelope :=
  outs.filterMap fun
    | .peer dst msg => if dst = p then none else some ⟨p, dst, msg⟩
    | _ => none

def act (n : Net) (p : Key) (f : Relay → Relay × List Out) : Net :=
  match n.relays.lookup p with
  | none => n
  | some r =>
    { n with
      relays := n.relays.insert p (f r).1
      wire := n.wire ++ sends p (f r).2
      log := n.log ++ (f r).2.map fun o => (p, o) }

def receive (now : Millis) (m : Envelope) (r : Relay) : Relay × List Out :=
  match m.msg with
  | .publishIntro introset txid cause => r.publishDirect c now m.src txid introset cause
  | .findIntro location txid => r.findDirect m.src txid location
  | .gotIntro found txid _ => r.gotIntro c now m.src txid found

inductive Op where
  | publish (p : Key) (now : Millis) (path : PathID) (txid : ℕ) (introset : EncryptedIntroSet) (relayOrder : ℕ)
  | find (p : Key) (now : Millis) (path : PathID) (txid : ℕ) (location : Key) (relayOrder : ℕ)
  | deliver (i : ℕ) (now : Millis)
  | lose (i : ℕ)
  | expire (p : Key) (now : Millis)
  | clean (p : Key) (now : Millis)
  | setNodeDB (p : Key) (db : NodeDB)
  | setPaths (p : Key) (paths : List PathID)
  | takeId (p : Key)

def next (op : Op) (n : Net) : Net :=
  match op with
  | .publish p now path txid introset relayOrder =>
    { n with publishes := n.publishes + 1 }.act p fun r =>
      r.publishRelayed c now path txid introset relayOrder n.publishes
  | .find p now path txid location relayOrder => n.act p fun r => r.findRelayed now path txid location relayOrder
  | .deliver i now =>
    match n.wire[i]? with
    | none => n
    | some m => { n with wire := n.wire.eraseIdx i }.act m.dst (receive c now m)
  | .lose i => { n with wire := n.wire.eraseIdx i }
  | .expire p now => n.act p fun r => r.expire c now
  | .clean p now => n.act p fun r => (r.cleanServices now, [])
  | .setNodeDB p db => n.act p fun r => ({ r with nodedb := db }, [])
  | .setPaths p paths => n.act p fun r => ({ r with paths := paths }, [])
  | .takeId p => n.act p fun r => ({ r with ids := r.ids + 1 }, [])

def step (op : Op) (n : Net) : Except Empty Net := .ok (next c op n)

/-- routers that have done nothing yet: each under its own key, with any introsets and any node database -/
structure Start (n : Net) : Prop where
  relays : ∀ p r, n.relays.lookup p = some r → r.ourKey = p ∧ r.pending = {}
  wire : n.wire = []
  log : n.log = []

variable {c} {n : Net} {p q : Key} {f : Relay → Relay × List Out} {r : Relay}

lemma act_none (h : n.relays.lookup p = none) : n.act p f = n := by
  unfold act
  rw [h]

lemma act_eq (h : n.relays.lookup p = some r) : n.act p f = { n with
      relays := n.relays.insert p (f r).1
      wire := n.wire ++ sends p (f r).2
      log := n.log ++ (f r).2.map fun o => (p, o) } := by
  unfold act
  rw [h]

lemma lookup_act (hr : (n.act p f).relays.lookup q = some r) :
    n.relays.lookup q = some r ∨ q = p ∧ ∃ r0, n.relays.lookup q = some r0 ∧ (f r0).1 = r := by
  cases hp : n.relays.lookup p with
  | none =>
    rw [act_none hp] at hr
    exact .inl hr
  | some r0 =>
    rw [act_eq hp] at hr
    by_cases hq : q = p
    · subst hq
      rw [lookup_insert] at hr
      exact .inr ⟨rfl, r0, hp, some.inj hr⟩
    · rw [lookup_insert_ne hq] at hr
      exact .inl hr

lemma act_lookup (hr : n.relays.lookup q = some r) :
    ∃ r', (n.act p f).relays.lookup q = some r' ∧ (r' = r ∨ q = p ∧ r' = (f r).1) := by
  by_cases hq : q = p
  · subst hq
    rw [act_eq hr]
    exact ⟨_, lookup_insert _, .inr ⟨rfl, rfl⟩⟩
  refine ⟨r, ?_, .inl rfl⟩
  unfold act
  split
  · exact hr
  · exact (lookup_insert_ne hq).trans hr

variable {m : Envelope}

lemma wire_act (hm : m ∈ (n.act p f).wire) :
    m ∈ n.wire ∨ ∃ r, n.relays.lookup p = some r ∧ m ∈ sends p (f r).2 := by
  unfold act at hm
  split at hm
  · exact .inl hm
  · rename_i r hp
    exact (mem_append.mp hm).imp id fun hm => ⟨r, hp, hm⟩

lemma act_wire (hm : m ∈ n.wire) : m ∈ (n.act p f).wire := by
  unfold act
  split
  · exact hm
  · exact mem_append_left _ hm

lemma act_log : ∃ l, (n.act p f).log = n.log ++ l := by
  unfold act
  split
  · exact ⟨[], (append_nil _).symm⟩
  · exact ⟨_, rfl⟩

variable {outs : List Out}

lemma mem_sends (h : m ∈ sends p outs) : m.src = p ∧ m.dst ≠ p ∧ .peer m.dst m.msg ∈ outs := by
  obtain ⟨o, ho, hm⟩ := mem_filterMap.mp h
  cases o with
  | peer =>
    dsimp only at hm
    split at hm
    · cases hm
    rename_i hne
    cases hm
    exact ⟨rfl, hne, ho⟩
  | path | stored => cases hm

/-- the router `p` has given out the id, and its transaction under it, if it is still there, is as `P` says -/
def Waits (n : Net) (p : Key) (o : TXOwner) (P : IntroTX → Prop) : Prop :=
  ∀ r, n.relays.lookup p = some r → o.txid ≤ r.ids ∧ ∀ t, r.pending.tx.lookup o = some t → P t

def IsStored (n : Net) (e : EncryptedIntroSet) (k : ℕ) : Prop := ∃ q, (q, Out.stored e k) ∈ n.log

def Fits (n : Net) (m : Envelope) : Prop :=
  match m.msg with
  | .publishIntro e txid k => n.Waits m.src ⟨m.dst, txid⟩ fun t => t.job = .publish e k
  | .findIntro _ txid => n.Waits m.src ⟨m.dst, txid⟩ fun t => ∃ location, t.job = .lookup location
  -- an answer that has an introset comes from a router that has stored it
  | .gotIntro found txid _ => n.Waits m.dst ⟨m.src, txid⟩ fun t =>
      found ≠ [] → ∀ e k, t.job = .publish e k → n.IsStored e k

structure Sound (n : Net) : Prop where
  relays : ∀ p r, n.relays.lookup p = some r → r.ourKey = p ∧ r.Sound
  wire : ∀ m ∈ n.wire, n.Fits m

lemma Start.sound (h : n.Start) : n.Sound where
  relays := by
    intro p r hr
    obtain ⟨hkey, hpending⟩ := h.relays p r hr
    exact ⟨hkey, .empty hpending⟩
  wire := by
    rw [h.wire]
    exact fun _ hm => absurd hm not_mem_nil

def Lawful (n : Net) (p : Key) (f : Relay → Relay × List Out) : Prop :=
  ∀ r, n.relays.lookup p = some r → r.Lawful (f r).1

lemma Waits.act {o : TXOwner} {P P' : IntroTX → Prop} (hw : n.Waits q o P) (hf : n.Lawful p f)
    (hP : ∀ t, P t → P' t) : (n.act p f).Waits q o P' := by
  intro r hr
  rcases lookup_act hr with hr | ⟨rfl, r0, hr0, rfl⟩
  · exact ⟨(hw r hr).1, fun t ht => hP t ((hw r hr).2 t ht)⟩
  obtain ⟨hle, ht⟩ := hw r0 hr0
  have hgrows := (hf r0 hr0).grows
  refine ⟨hle.trans hgrows.ids, fun t hlook => ?_⟩
  rcases hgrows.added o t hlook with hlook | hlt
  · exact hP t (ht t hlook)
  · exact absurd hle (Nat.not_le_of_lt hlt)

variable {e : EncryptedIntroSet} {k : ℕ}

lemma IsStored.act (h : n.IsStored e k) : (n.act p f).IsStored e k := by
  obtain ⟨q, hq⟩ := h
  obtain ⟨l, hl⟩ := n.act_log
  exact ⟨q, by rw [hl]; exact mem_append_left _ hq⟩

lemma Fits.act (hm : n.Fits m) (hf : n.Lawful p f) : (n.act p f).Fits m := by
  unfold Fits at hm ⊢
  cases hmsg : m.msg with
  | publishIntro e txid k | findIntro location txid =>
    rw [hmsg] at hm
    exact Waits.act hm hf fun _ ht => ht
  | gotIntro found txid k =>
    rw [hmsg] at hm
    exact Waits.act hm hf fun _ ht hne e k' hjob => (ht hne e k' hjob).act

lemma Sound.act (hs : n.Sound) (hf : n.Lawful p f)
    (hnew : ∀ r, n.relays.lookup p = some r → ∀ m ∈ sends p (f r).2, (n.act p f).Fits m) : (n.act p f).Sound where
  relays := by
    intro q r hr
    rcases lookup_act hr with hr | ⟨rfl, r0, hr0, rfl⟩
    · exact hs.relays q r hr
    · exact ⟨(hf r0 hr0).grows.ourKey.trans (hs.relays q r0 hr0).1, (hf r0 hr0).sound⟩
  wire := by
    intro m hm
    rcases wire_act hm with hm | ⟨r, hr, hm⟩
    · exact (hs.wire m hm).act hf
    · exact hnew r hr m hm

section
variable (hs : n.Sound) (hf : ∀ r : Relay, r.Sound → r.Lawful (f r).1)
include hs hf

lemma Sound.lawful : n.Lawful p f :=
  fun r hr => hf r (hs.relays p r hr).2

lemma Sound.act_silent (hsilent : ∀ r, sends p (f r).2 = []) : (n.act p f).Sound := by
  apply hs.act (hs.lawful hf)
  intro r _ m hm
  rw [hsilent r] at hm
  exact absurd hm not_mem_nil

end

variable {t : IntroTX} {askpeer : Key} {msg : PeerMsg} {now : Millis}

lemma waits_start {P : IntroTX → Prop}
    (hs : n.Sound) (hr : n.relays.lookup p = some r) (hf : f r = r.start now askpeer t msg) (hP : P t) :
    (n.act p f).Waits p ⟨askpeer, r.ids + 1⟩ P := by
  rw [act_eq hr]
  intro _ hr'
  rw [lookup_insert] at hr'
  have heq := some.inj hr'
  rw [hf] at heq
  subst heq
  have hsound := (hs.relays p r hr).2
  refine ⟨le_refl _, fun _ ht' => ?_⟩
  rcases start_lookup hsound ht' with ⟨-, rfl⟩ | hold
  · exact hP
  · rw [hsound.fresh askpeer] at hold
    cases hold

variable {o : Out}

lemma mem_start (ho : o ∈ (r.start now askpeer t msg).2) : o = .peer askpeer msg := by
  unfold start at ho
  dsimp only at ho
  split at ho
  · exact mem_singleton.mp ho
  · exact absurd ho not_mem_nil

variable {found : List EncryptedIntroSet}

lemma mem_answer {path : PathID} {txid : ℕ} {k : Option ℕ}
    (ho : o ∈ r.answer path txid found k) : o = .path path txid found k ∧ path ∈ r.paths := by
  unfold answer at ho
  split at ho
  · rename_i hp
    exact ⟨mem_singleton.mp ho, hp⟩
  · exact absurd ho not_mem_nil

lemma mem_sendReply (ho : o ∈ r.sendReply c now found t) :
    t.localPath ∈ r.paths ∧ ((∃ location l, t.job = .lookup location ∧ o = .path t.localPath t.txid l none) ∨
      ∃ e k, t.job = .publish e k ∧ o = .path t.localPath t.txid [e] (some k)) := by
  unfold Relay.sendReply at ho
  split at ho
  · rename_i location hjob
    obtain ⟨rfl, hp⟩ := mem_answer ho
    exact ⟨hp, .inl ⟨location, _, hjob, rfl⟩⟩
  · rename_i e k hjob
    obtain ⟨rfl, hp⟩ := mem_answer ho
    exact ⟨hp, .inr ⟨e, k, hjob, rfl⟩⟩

lemma no_sends (h : ∀ o ∈ outs, ∀ dst msg, o ≠ .peer dst msg) : sends p outs = [] := by
  apply eq_nil_iff_forall_not_mem.mpr
  intro m hm
  exact h _ (mem_sends hm).2.2 m.dst m.msg rfl

variable {ts : List (TXOwner × IntroTX)}

lemma not_peer_replies
    (ho : o ∈ ts.flatMap fun t => r.sendReply c now found t.2) (dst : Key) (msg : PeerMsg) : o ≠ .peer dst msg := by
  rintro rfl
  obtain ⟨t, -, ho⟩ := mem_flatMap.mp ho
  obtain ⟨-, ⟨_, _, _, h⟩ | ⟨_, _, _, h⟩⟩ := mem_sendReply ho
  · cases h
  · cases h

lemma no_sends_replies (ts : List (TXOwner × IntroTX)) :
    sends p (ts.flatMap fun t => r.sendReply c now found t.2) = [] := no_sends fun _ => not_peer_replies

variable {now : Millis} {path : PathID} {txid relayOrder cause : ℕ} {introset : EncryptedIntroSet} {location : Key}
  {m m' : Envelope}

lemma publish_sends (hm : m ∈ sends p (r.publishRelayed c now path txid introset relayOrder cause).2) :
    m = ⟨p, m.dst, .publishIntro introset (r.ids + 1) cause⟩ ∧
      r.publishRelayed c now path txid introset relayOrder cause =
        r.start now m.dst ⟨⟨m.dst, r.ids + 1⟩, path, txid, .publish introset cause⟩ m.msg := by
  obtain ⟨rfl, -, hpeer⟩ := mem_sends hm
  obtain ⟨_, dst, msg⟩ := m
  revert hpeer
  refine publishRelayed_ind (P := fun x => .peer dst msg ∈ x.2 → _ ∧ x = _) ?_ ?_ ?_
  · intro hpeer
    cases (mem_answer hpeer).1
  · intro hpeer
    rcases mem_cons.mp hpeer with h | h
    · cases h
    · cases (mem_answer h).1
  · intro _ _ hpeer
    cases mem_start hpeer
    exact ⟨rfl, rfl⟩

lemma find_sends (hm : m ∈ sends p (r.findRelayed now path txid location relayOrder).2) :
    m = ⟨p, m.dst, .findIntro location (r.ids + 1)⟩ ∧ r.findRelayed now path txid location relayOrder =
      r.start now m.dst ⟨⟨r.ourKey, txid⟩, path, txid, .lookup location⟩ m.msg := by
  obtain ⟨rfl, -, hpeer⟩ := mem_sends hm
  obtain ⟨_, dst, msg⟩ := m
  revert hpeer
  refine findRelayed_ind (P := fun x => .peer dst msg ∈ x.2 → _ ∧ x = _) ?_ ?_ ?_
  · exact fun hpeer => absurd hpeer not_mem_nil
  · intro hpeer
    cases (mem_answer hpeer).1
  · intro _ hpeer
    cases mem_start hpeer
    exact ⟨rfl, rfl⟩

lemma publish_sound (hs : n.Sound) :
    (n.act p fun r => r.publishRelayed c now path txid introset relayOrder cause).Sound := by
  apply hs.act (hs.lawful fun r hr => publishRelayed_lawful hr)
  intro r hr m hm
  obtain ⟨hm, hx⟩ := publish_sends hm
  rw [hm]
  exact waits_start hs hr hx rfl

lemma find_sound (hs : n.Sound) : (n.act p fun r => r.findRelayed now path txid location relayOrder).Sound := by
  apply hs.act (hs.lawful fun r hr => findRelayed_lawful hr)
  intro r hr m hm
  obtain ⟨hm, hx⟩ := find_sends hm
  rw [hm]
  exact waits_start hs hr hx ⟨location, rfl⟩

lemma receive_ind {P : Relay × List Out → Prop} (hsilent : P (r, []))
    (hrefused : ∀ e txid k, m.msg = .publishIntro e txid k → P (r, [.peer m.src (.gotIntro [] txid (some k))]))
    (hstored : ∀ e txid k, m.msg = .publishIntro e txid k →
      P (r.putNode e, [.stored e k, .peer m.src (.gotIntro [e] txid (some k))]))
    (hfound : ∀ location txid found, m.msg = .findIntro location txid →
      P (r, [.peer m.src (.gotIntro found txid none)]))
    (hinform : ∀ found txid k t, m.msg = .gotIntro found txid k → r.pending.tx.lookup ⟨m.src, txid⟩ = some t →
      P (r.inform c now t.target found)) : P (receive c now m r) := by
  unfold receive
  split
  · rename_i e txid k hmsg
    exact publishDirect_ind hsilent (hrefused e txid k hmsg) (hstored e txid k hmsg)
  · rename_i location txid hmsg
    exact findDirect_ind hsilent fun found => hfound location txid found hmsg
  · rename_i found txid k hmsg
    exact gotIntro_ind hsilent fun t ht => hinform found txid k t hmsg ht

lemma receive_lawful (hr : r.Sound) : r.Lawful (receive c now m r).1 :=
  receive_ind (P := fun x => r.Lawful x.1) (.refl hr) (fun _ _ _ _ => .refl hr) (fun e _ _ _ => .putNode hr e)
    (fun _ _ _ _ => .refl hr) fun found _ _ t _ _ => ⟨.inform r t.target found, hr.inform t.target found⟩

lemma receive_sends (hm' : m' ∈ sends m.dst (receive c now m r).2) : m'.src = m.dst ∧ m'.dst = m.src ∧
      ((∃ e txid k, m.msg = .publishIntro e txid k ∧ (m'.msg = .gotIntro [] txid (some k) ∨
          m'.msg = .gotIntro [e] txid (some k) ∧ .stored e k ∈ (receive c now m r).2)) ∨
      ∃ location txid found, m.msg = .findIntro location txid ∧ m'.msg = .gotIntro found txid none) := by
  obtain ⟨hsrc, -, hmem⟩ := mem_sends hm'
  refine ⟨hsrc, ?_⟩
  obtain ⟨_, dst', msg'⟩ := m'
  revert hmem
  refine receive_ind (P := fun x => .peer dst' msg' ∈ x.2 → dst' = m.src ∧ ((∃ e txid k, m.msg = .publishIntro e txid k ∧
    (msg' = .gotIntro [] txid (some k) ∨ msg' = .gotIntro [e] txid (some k) ∧ .stored e k ∈ x.2)) ∨ _)) ?_ ?_ ?_ ?_ ?_
  · exact fun hmem => absurd hmem not_mem_nil
  · intro e txid k hmsg hmem
    cases mem_singleton.mp hmem
    exact ⟨rfl, .inl ⟨e, txid, k, hmsg, .inl rfl⟩⟩
  · intro e txid k hmsg hmem
    rcases mem_cons.mp hmem with h | h
    · cases h
    · cases mem_singleton.mp h
      exact ⟨rfl, .inl ⟨e, txid, k, hmsg, .inr ⟨rfl, mem_cons_self⟩⟩⟩
  · intro location txid found hmsg hmem
    cases mem_singleton.mp hmem
    exact ⟨rfl, .inr ⟨location, txid, found, hmsg, rfl⟩⟩
  · intro found txid k t _ _ hmem
    exact absurd rfl (not_peer_replies hmem dst' msg')

lemma isStored_act (hr : n.relays.lookup p = some r) (h : .stored e k ∈ (f r).2) : (n.act p f).IsStored e k := by
  rw [act_eq hr]
  exact ⟨p, mem_append_right _ (mem_map_of_mem h)⟩

lemma receive_fits (hs : n.Sound) (hm : n.Fits m) (hr : n.relays.lookup m.dst = some r)
    (hm' : m' ∈ sends m.dst (receive c now m r).2) : (n.act m.dst (receive c now m)).Fits m' := by
  have hlawful : n.Lawful m.dst (receive c now m) := hs.lawful fun r hr => receive_lawful hr
  obtain ⟨hsrc, hdst, hreply⟩ := receive_sends hm'
  unfold Fits at hm ⊢
  rcases hreply with ⟨e, txid, k, hmsg, hmsg' | ⟨hmsg', hstored⟩⟩ | ⟨_, txid, _, hmsg, hmsg'⟩
  all_goals
    rw [hmsg] at hm
    rw [hmsg', hsrc, hdst]
  · exact Waits.act hm hlawful fun t _ hne => absurd rfl hne
  · refine Waits.act hm hlawful fun t ht _ _ _ hjob => ?_
    cases ht.symm.trans hjob
    exact isStored_act hr hstored
  · refine Waits.act hm hlawful fun t ⟨l, hl⟩ _ e k hjob => ?_
    cases hl.symm.trans hjob

lemma Sound.erase (hs : n.Sound) (i : ℕ) : Sound { n with wire := n.wire.eraseIdx i } where
  relays := hs.relays
  wire := fun m hm => hs.wire m (mem_of_mem_eraseIdx hm)

lemma next_sound (hs : n.Sound) (op : Op) : (next c op n).Sound := by
  cases op with
  | publish p now path txid introset relayOrder =>
    have hs' : Sound { n with publishes := n.publishes + 1 } := ⟨hs.relays, hs.wire⟩
    exact publish_sound hs'
  | find p now path txid location relayOrder => exact find_sound hs
  | deliver i now =>
    unfold next
    dsimp only
    split
    · exact hs
    rename_i m hm
    have hs' := hs.erase i
    have hfits : Fits { n with wire := n.wire.eraseIdx i } m := hs.wire m (mem_of_getElem? hm)
    apply hs'.act (hs'.lawful fun r hr => receive_lawful hr)
    intro r hr _ hm'
    exact receive_fits hs' hfits hr hm'
  | lose i => exact hs.erase i
  | expire p now =>
    apply hs.act_silent
    · exact fun r hr => ⟨Grows.expire r, hr.expire⟩
    · exact fun r => no_sends_replies (r.pending.expire now).2
  | clean | setNodeDB | setPaths => exact hs.act_silent (fun r hr => .same hr rfl (le_refl _) rfl) fun r => rfl
  | takeId p => exact hs.act_silent (fun r hr => .same hr rfl (Nat.le_succ _) rfl) fun r => rfl

/-! ## what is acknowledged -/

def acknowledges (o : Out) (e : EncryptedIntroSet) (k : ℕ) : Prop :=
  match o with
  | .peer _ (.gotIntro found _ cause) => e ∈ found ∧ cause = some k
  | .path _ _ found cause => e ∈ found ∧ cause = some k
  | _ => False

def Proper (log : List (Key × Out)) : Prop :=
  ∀ before x after e k, log = before ++ x :: after → acknowledges x.2 e k → ∃ q, (q, Out.stored e k) ∈ before

def Covered (n : Net) (outs : List Out) : Prop :=
  ∀ before o after e k, outs = before ++ o :: after → acknowledges o e k → n.IsStored e k ∨ .stored e k ∈ before

lemma Proper.append {log : List (Key × Out)} (h : Proper log) (hlog : n.log = log)
    (hnew : n.Covered outs) : Proper (log ++ outs.map fun o => (p, o)) := by
  intro before x _ e k heq hack
  rcases append_eq_append_iff.mp heq with ⟨a, hbefore, hafter⟩ | ⟨a, hbefore, hafter⟩
  · obtain ⟨u, v, rfl, hu, hv⟩ := map_eq_append_iff.mp hafter
    obtain ⟨o, w, rfl, ho, hw⟩ := map_eq_cons_iff.mp hv
    rw [← ho] at hack
    rcases hnew u o w e k rfl hack with ⟨q, hq⟩ | hq
    · rw [hlog] at hq
      exact ⟨q, by rw [hbefore]; exact mem_append_left _ hq⟩
    refine ⟨p, ?_⟩
    rw [hbefore, ← hu]
    exact mem_append_right _ (mem_map_of_mem hq)
  · cases a with
    | nil =>
      have hcons := map_eq_cons_iff.mp hafter.symm
      obtain ⟨o, w, rfl, ho, hw⟩ := hcons
      rw [← ho] at hack
      rcases hnew [] o w e k rfl hack with ⟨q, hq⟩ | hq
      · rw [hlog, hbefore, append_nil] at hq
        exact ⟨q, hq⟩
      · exact absurd hq not_mem_nil
    | cons y a =>
      cases hafter
      exact h before x a e k hbefore hack

lemma covered_of_stored (h : ∀ o ∈ outs, ∀ e k, acknowledges o e k → n.IsStored e k) : n.Covered outs := by
  intro _ o _ e k heq hack
  refine .inl (h o ?_ e k hack)
  rw [heq]
  exact mem_append_right _ mem_cons_self

lemma covered_none (h : ∀ o ∈ outs, ∀ e k, ¬ acknowledges o e k) : n.Covered outs :=
  covered_of_stored fun o ho e k hack => absurd hack (h o ho e k)

lemma covered_cons
    (h : ∀ o ∈ outs, ∀ e' k', acknowledges o e' k' → e' = e ∧ k' = k) : n.Covered (.stored e k :: outs) := by
  intro before o _ e' k' heq hack
  cases before with
  | nil =>
    cases heq
    exact absurd hack id
  | cons x before =>
    cases heq
    obtain ⟨rfl, rfl⟩ := h o (mem_append_right _ mem_cons_self) e' k' hack
    exact .inr mem_cons_self

lemma Proper.act (h : Proper n.log) (hnew : ∀ r, n.relays.lookup p = some r → n.Covered (f r).2) :
    Proper (n.act p f).log := by
  unfold Net.act
  split
  · exact h
  · rename_i r hp
    exact h.append rfl (hnew r hp)

lemma covered_answer {k : Option ℕ} : n.Covered (r.answer path txid [] k) := by
  apply covered_none
  intro o ho e k hack
  rw [(mem_answer ho).1] at hack
  exact absurd hack.1 not_mem_nil

lemma covered_start
    (hmsg : ∀ found txid k, msg ≠ .gotIntro found txid k) : n.Covered (r.start now askpeer t msg).2 := by
  apply covered_none
  intro o ho e k hack
  rw [mem_start ho] at hack
  cases msg with
  | gotIntro found txid k => exact hmsg found txid k rfl
  | publishIntro | findIntro => exact hack

lemma publish_covered : n.Covered (r.publishRelayed c now path txid introset relayOrder cause).2 := by
  refine publishRelayed_ind (P := fun x => n.Covered x.2) covered_answer ?_ fun _ _ => covered_start nofun
  apply covered_cons
  intro o ho e k hack
  rw [(mem_answer ho).1] at hack
  exact ⟨mem_singleton.mp hack.1, (some.inj hack.2).symm⟩

lemma covered_nil : n.Covered [] := covered_none fun _ ho => absurd ho not_mem_nil

lemma find_covered : n.Covered (r.findRelayed now path txid location relayOrder).2 :=
  findRelayed_ind (P := fun x => n.Covered x.2) covered_nil covered_answer fun _ => covered_start nofun

lemma completed_publish {o o' : TXOwner} {t' : IntroTX} (hr : r.Sound)
    (ht : r.pending.tx.lookup o = some t) (hw : (t.target, o') ∈ r.pending.waiting)
    (ht' : r.pending.tx.lookup o' = some t') (hjob : t'.job = .publish e k) : o' = o ∧ t' = t := by
  have hkey : t'.target = t.target := hr.keyed.keyed _ _ _ hw ht'
  have hkind := hr.kinds o' t' ht'
  unfold Kinds at hkind
  rw [hjob] at hkind
  obtain ⟨htarget, hnode⟩ := hkind
  have hkind' := hr.kinds o t ht
  unfold Kinds at hkind'
  cases hjob' : t.job with
  | lookup =>
    rw [hjob'] at hkind'
    rw [← htarget, hkey] at hnode
    exact absurd hkind' hnode
  | publish =>
    rw [hjob'] at hkind'
    have ho : o' = o := htarget.symm.trans (hkey.trans hkind'.1)
    subst ho
    exact ⟨rfl, some.inj (ht'.symm.trans ht)⟩

lemma replies_ack
    (ho : o ∈ ts.flatMap fun t => r.sendReply c now found t.2)
    (hack : acknowledges o e k) : ∃ t ∈ ts, t.2.job = .publish e k ∧ t.2.localPath ∈ r.paths := by
  obtain ⟨t, ht, ho⟩ := mem_flatMap.mp ho
  obtain ⟨hp, ⟨_, _, _, rfl⟩ | ⟨_, _, hjob, rfl⟩⟩ := mem_sendReply ho
  · exact absurd hack.2 (by simp)
  · cases mem_singleton.mp hack.1
    cases some.inj hack.2
    exact ⟨t, ht, hjob, hp⟩

def Careful (op : Op) (n : Net) : Prop :=
  match op with
  | .deliver i _ => ∀ m txid cause r t, n.wire[i]? = some m → m.msg = .gotIntro [] txid cause →
      n.relays.lookup m.dst = some r → r.pending.tx.lookup ⟨m.src, txid⟩ = some t → t.localPath ∈ r.paths →
      ∃ location, t.job = .lookup location
  | .expire p now => ∀ r k o t, n.relays.lookup p = some r → k ∈ r.pending.expired now →
      (k, o) ∈ r.pending.waiting → r.pending.tx.lookup o = some t → t.localPath ∈ r.paths →
      ∃ location, t.job = .lookup location
  | _ => True

lemma receive_covered (hs : n.Sound) (hm : n.Fits m) (hr : n.relays.lookup m.dst = some r)
    (hcareful : ∀ txid cause t, m.msg = .gotIntro [] txid cause → r.pending.tx.lookup ⟨m.src, txid⟩ = some t →
      t.localPath ∈ r.paths → ∃ location, t.job = .lookup location) :
    n.Covered (receive c now m r).2 := by
  refine receive_ind (P := fun x => n.Covered x.2) covered_nil ?_ ?_ ?_ ?_
  · intro e txid k _
    apply covered_none
    intro o ho e' k' hack
    rw [mem_singleton.mp ho] at hack
    exact absurd hack.1 not_mem_nil
  · intro e txid k _
    apply covered_cons
    intro o ho e' k' hack
    rw [mem_singleton.mp ho] at hack
    exact ⟨mem_singleton.mp hack.1, (some.inj hack.2).symm⟩
  · intro location txid found _
    apply covered_none
    intro o ho e k hack
    rw [mem_singleton.mp ho] at hack
    exact absurd hack.2 (by simp)
  · intro found txid cause t hmsg ht
    apply covered_of_stored
    intro o ho e k hack
    unfold Fits at hm
    rw [hmsg] at hm
    obtain ⟨d, hd, hjob, hpath⟩ := replies_ack ho hack
    obtain ⟨hw, ht'⟩ := mem_inform hd
    obtain ⟨-, heq⟩ := completed_publish (hs.relays m.dst r hr).2 ht hw ht' hjob
    rw [heq] at hjob hpath
    refine (hm r hr).2 t ht ?_ e k hjob
    rintro rfl
    obtain ⟨location, hl⟩ := hcareful txid cause t hmsg ht hpath
    cases hl.symm.trans hjob

lemma next_proper (hs : n.Sound) (h : Proper n.log) {op : Op} (hop : Careful op n) : Proper (next c op n).log := by
  cases op with
  | publish p now path txid introset relayOrder =>
    have h' : Proper ({ n with publishes := n.publishes + 1 } : Net).log := h
    exact h'.act fun r _ => publish_covered
  | find p now path txid location relayOrder => exact h.act fun r _ => find_covered
  | deliver i now =>
    unfold next
    dsimp only
    split
    · exact h
    rename_i m hm
    have hs' := hs.erase i
    have hfits : Fits { n with wire := n.wire.eraseIdx i } m := hs.wire m (mem_of_getElem? hm)
    have h' : Proper ({ n with wire := n.wire.eraseIdx i } : Net).log := h
    refine h'.act fun r hr => receive_covered hs' hfits hr ?_
    intro txid cause t hmsg ht hp
    exact hop m txid cause r t hm hmsg hr ht hp
  | lose i => exact h
  | expire p now =>
    refine h.act fun r hr => covered_none fun o ho e k hack => ?_
    obtain ⟨d, hd, hjob, hp⟩ := replies_ack ho hack
    obtain ⟨key, hkey, hw, ht⟩ := mem_expire hd
    obtain ⟨location, hl⟩ := hop r key d.1 d.2 hr hkey hw ht hp
    rw [hl] at hjob
    cases hjob
  | clean | setNodeDB | setPaths | takeId => exact h.act fun r _ => covered_nil

structure Acknowledged (n : Net) : Prop where
  sound : n.Sound
  proper : Proper n.log

lemma Start.acknowledged (h : n.Start) : n.Acknowledged where
  sound := h.sound
  proper := by
    rw [h.log]
    intro before x _ e k heq
    cases before <;> cases heq

end Net

open Net

/-- What a router acknowledges was stored before because of this publication, if none is told that nothing was found or
runs out of time. -/
theorem acknowledged_only_stored {n₀ n : Net} (h₀ : n₀.Start) (hr : Run.Reaches (step c) Careful n₀ n) :
    ∀ before x after e k, n.log = before ++ x :: after → acknowledges x.2 e k → ∃ q, (q, Out.stored e k) ∈ before := by
  have hinv : n.Acknowledged := by
    refine hr.inv ?_ h₀.acknowledged
    intro op a b ha hgood hstep
    cases hstep
    exact ⟨next_sound ha.sound op, next_proper ha.sound ha.proper hgood⟩
  exact hinv.proper

namespace Sample
open Router.Sample

def path : PathID := .ofBytes 16 [1]

def introset : EncryptedIntroSet where
  derivedSigningKey := key 5
  signedAt := 1
  sig := .ofBytes 64 [100]

def nodedb : NodeDB := [contact 1 1, contact 2 1, contact 3 1, contact 4 1].foldl (fun db rc => db.put 0 rc) {}

def relay (n : UInt8) : Relay where
  ourKey := key n
  nodedb := nodedb
  ids := 0
  paths := [path]

def net (n : UInt8) : Net where
  relays := (∅ : AList fun _ : Key => Relay).insert (key n) (relay n)

lemma net_relay (n : UInt8) : (net n).relays.lookup (key n) = some (relay n) := lookup_insert _

lemma net_start (n : UInt8) : (net n).Start where
  relays := by
    intro p r hr
    by_cases hp : p = key n
    · subst hp
      rw [net_relay] at hr
      cases hr
      exact ⟨rfl, rfl⟩
    · rw [net, lookup_insert_ne hp] at hr
      cases hr
  wire := rfl
  log := rfl

def publish (n : UInt8) : Net.Op := .publish (key n) 2 path 7 introset 0

end Sample

open Sample

theorem acknowledged_only_stored_own : ∃ n, Run.Reaches (Net.step Router.Sample.crypto) Careful (net 4) n ∧
    n.log = [(Router.Sample.key 4, .stored introset 0)] ++ [(Router.Sample.key 4, .path path 7 [introset] (some 0))] ∧
    ∃ q, (q, Out.stored introset 0) ∈ [(Router.Sample.key 4, Out.stored introset 0)] := by
  have hlog : (next Router.Sample.crypto (publish 4) (net 4)).log = [(Router.Sample.key 4, .stored introset 0)] ++
        [(Router.Sample.key 4, .path path 7 [introset] (some 0))] := by decide +kernel
  have hreach : Run.Reaches (Net.step Router.Sample.crypto) Careful (net 4) _ := .tail (publish 4) .refl trivial rfl
  exact ⟨_, hreach, hlog, acknowledged_only_stored _ (net_start 4) hreach _ _ [] introset 0 hlog
      ⟨mem_singleton.mpr rfl, rfl⟩⟩

/-- Router 4 is asked to store an introset and never answers; in the end the client is told that it was stored. -/
theorem acknowledged_not_stored : ∃ n before x,
    Run.exec (Net.step Router.Sample.crypto) [publish 9, .expire (Router.Sample.key 9) 20000] (net 9) = .ok n ∧
    n.log = before ++ [x] ∧ acknowledges x.2 introset 0 ∧ ∀ q, (q, Out.stored introset 0) ∉ before := by
  refine ⟨_, [(Router.Sample.key 9, .peer (Router.Sample.key 4) (.publishIntro introset 1 0))],
    (Router.Sample.key 9, .path path 7 [introset] (some 0)), rfl, by decide +kernel, ?_, ?_⟩
  · exact ⟨mem_singleton.mpr rfl, rfl⟩
  · intro q hq
    cases mem_singleton.mp hq

/-- A request on the wire is that of its transaction while this waits; a publication answered with an introset was stored. -/
theorem answers_fit {c : Iwp.Crypto} {n₀ : Net} (h₀ : n₀.Start) (ops : List Net.Op) :
    (ops.foldl (fun n op => n.next c op) n₀).Sound :=
  foldlRecOn ops _ h₀.sound fun _ h op _ => next_sound h op

theorem answers_fit_one : (next Router.Sample.crypto (publish 9) (net 9)).Sound := answers_fit (net_start 9) [publish 9]

end Belnet.Dht
