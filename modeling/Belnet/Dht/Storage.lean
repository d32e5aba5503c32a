import Belnet.Dht.Network

/-!
# Published introsets are found

Routers with one and the same node database.
-/

namespace Belnet.Dht
open Iwp hiding RouterContact
open Belnet.Path hiding RouterContact
open Router Service List AList Option TXHolder
variable {c : Crypto} {db : NodeDB} {I : EncryptedIntroSet}

def Older (I e : EncryptedIntroSet) : Prop := e = I ∨ e.signedAt < I.signedAt

namespace Relay
variable {r r' : Relay} {now : Millis}

/-- What is stored for the key of the introset stays this one or an older one, and this one stays. -/
structure Keeps (db : NodeDB) (I : EncryptedIntroSet) (r r' : Relay) : Prop where
  nodedb : r.nodedb = db → r'.nodedb = db
  old : ∀ e, r'.services.lookup I.derivedSigningKey = some e →
    r.services.lookup I.derivedSigningKey = some e ∨ Older I e
  keeps : r.services.lookup I.derivedSigningKey = some I → r'.services.lookup I.derivedSigningKey = some I

lemma Keeps.same (hdb : r.nodedb = db → r'.nodedb = db) (h : r'.services = r.services) : Keeps db I r r' where
  nodedb := hdb
  old := by
    rw [h]
    exact fun e he => .inl he
  keeps := by
    rw [h]
    exact fun he => he

lemma putNode_lookup (r : Relay) (e : EncryptedIntroSet) (k : Key) :
    (r.putNode e).services.lookup k = r.services.lookup k ∨
      (e.derivedSigningKey = k ∧ (r.putNode e).services.lookup k = some e) := by
  have hinsert : (r.services.insert e.derivedSigningKey e).lookup k = r.services.lookup k ∨
      (e.derivedSigningKey = k ∧ (r.services.insert e.derivedSigningKey e).lookup k = some e) := by
    by_cases hk : e.derivedSigningKey = k
    · subst hk
      exact .inr ⟨rfl, lookup_insert _⟩
    · exact .inl (lookup_insert_ne (Ne.symm hk))
  unfold putNode
  split
  · exact hinsert
  split
  · exact hinsert
  · exact .inl rfl

lemma putNode_stores (hold : ∀ e, r.services.lookup I.derivedSigningKey = some e → Older I e) :
    (r.putNode I).services.lookup I.derivedSigningKey = some I := by
  unfold putNode
  split
  · exact lookup_insert _
  rename_i e he
  split
  · exact lookup_insert _
  rename_i hlt
  rcases hold e he with rfl | h
  · exact he
  · exact absurd h hlt

lemma Keeps.putNode {e : EncryptedIntroSet} (he : e.derivedSigningKey = I.derivedSigningKey → Older I e) :
    Keeps db I r (r.putNode e) where
  nodedb := by
    obtain ⟨_, h⟩ := r.putNode_eq e
    rw [h]
    exact id
  old := by
    intro _ he'
    rcases putNode_lookup r e I.derivedSigningKey with h | ⟨hkey, h⟩
    · exact .inl (h ▸ he')
    rw [h] at he'
    cases he'
    exact .inr (he hkey)
  keeps := by
    intro hI
    by_cases hkey : e.derivedSigningKey = I.derivedSigningKey
    · unfold Relay.putNode
      rw [hkey, hI]
      dsimp only
      rcases he hkey with rfl | hlt
      · rw [if_neg (lt_irrefl _)]
        exact hI
      · rw [if_neg (lt_asymm hlt)]
        exact hI
    · rcases putNode_lookup r e I.derivedSigningKey with h | ⟨hkey', -⟩
      · rw [h]
        exact hI
      · exact absurd hkey' hkey

lemma erases_lookup (ks : List Key) (m : AList fun _ : Key => EncryptedIntroSet) (k : Key) :
    (ks.foldl (fun m k => m.erase k) m).lookup k = if k ∈ ks then none else m.lookup k := by
  induction ks generalizing m with
  | nil => simp
  | cons k' ks ih =>
    rw [foldl_cons, ih]
    by_cases hk : k = k'
    · subst hk
      rw [lookup_erase, if_pos mem_cons_self, ite_self]
    · simp [hk]

lemma Keeps.clean (hnow : I.isExpired now = false) : Keeps db I r (r.cleanServices now) where
  nodedb := fun h => h
  old := by
    intro e he
    change ((r.expiredServices now).foldl (fun m => m.erase) r.services).lookup _ = _ at he
    rw [erases_lookup] at he
    split at he
    · cases he
    · exact .inl he
  keeps := by
    intro hI
    show ((r.expiredServices now).foldl (fun m => m.erase) r.services).lookup _ = _
    rw [erases_lookup, if_neg, hI]
    intro hmem
    obtain ⟨⟨k, e⟩, hmem, rfl⟩ := mem_map.mp hmem
    obtain ⟨hmem, hexpired⟩ := mem_filter.mp hmem
    have he := mem_lookup_iff.mpr hmem
    have heq : I = e := some.inj (hI.symm.trans he)
    subst heq
    rw [hnow] at hexpired
    cases hexpired

variable {path : PathID} {txid cause relayOrder : ℕ} {e : EncryptedIntroSet} {location sender key : Key}

lemma publishRelayed_keeps (he : e.derivedSigningKey = I.derivedSigningKey → Older I e) :
    Keeps db I r (r.publishRelayed c now path txid e relayOrder cause).1 :=
  publishRelayed_ind (P := fun x => Keeps db I r x.1) (.same id rfl) (.putNode he) fun _ _ => .same id rfl

lemma findRelayed_keeps : Keeps db I r (r.findRelayed now path txid location relayOrder).1 :=
  findRelayed_ind (P := fun x => Keeps db I r x.1) (.same id rfl) (.same id rfl) fun _ => .same id rfl

end Relay

variable {m : Envelope} {r : Relay}

namespace Net
open Relay
variable {n : Net} {p : Key} {f : Relay → Relay × List Out} {now : Millis}

lemma receive_keeps
    (hm : ∀ e txid k, m.msg = .publishIntro e txid k → e.derivedSigningKey = I.derivedSigningKey → Older I e) :
    Keeps db I r (receive c now m r).1 :=
  receive_ind (P := fun x => Keeps db I r x.1) (.same id rfl) (fun _ _ _ _ => .same id rfl)
    (fun e txid k hmsg => .putNode (hm e txid k hmsg)) (fun _ _ _ _ => .same id rfl) fun _ _ _ _ _ _ => .same id rfl

structure Agrees (db : NodeDB) (I : EncryptedIntroSet) (n : Net) : Prop where
  sound : n.Sound
  nodedb : ∀ p r, n.relays.lookup p = some r → r.nodedb = db
  stored : ∀ p r e, n.relays.lookup p = some r → r.services.lookup I.derivedSigningKey = some e → Older I e
  wire : ∀ m ∈ n.wire, ∀ e txid k, m.msg = .publishIntro e txid k → e.derivedSigningKey = I.derivedSigningKey →
    Older I e

/-- Node databases stay, no message is lost, nothing newer is published, and no step comes after the introset's expiry.
-/
def Calm (c : Crypto) (db : NodeDB) (I : EncryptedIntroSet) (op : Op) : Prop :=
  match op with
  | .publish _ _ _ _ e _ => e.derivedSigningKey = I.derivedSigningKey → Older I e
  | .deliver _ now => I.verify c now = true
  | .clean _ now => I.isExpired now = false
  | .setNodeDB _ db' => db' = db
  | .lose _ => False
  | _ => True

def Keeping (db : NodeDB) (I : EncryptedIntroSet) (n : Net) (p : Key) (f : Relay → Relay × List Out) : Prop :=
  ∀ r, n.relays.lookup p = some r → Keeps db I r (f r).1

lemma Agrees.act (ha : n.Agrees db I) (hs : (n.act p f).Sound) (hf : n.Keeping db I p f)
    (hnew : ∀ r m, n.relays.lookup p = some r → m ∈ sends p (f r).2 → ∀ e txid k, m.msg = .publishIntro e txid k →
      e.derivedSigningKey = I.derivedSigningKey → Older I e) : (n.act p f).Agrees db I where
  sound := hs
  nodedb := by
    intro q r hr
    rcases lookup_act hr with hr | ⟨rfl, r0, hr0, rfl⟩
    · exact ha.nodedb q r hr
    · exact (hf r0 hr0).nodedb (ha.nodedb q r0 hr0)
  stored := by
    intro q r e hr he
    rcases lookup_act hr with hr | ⟨rfl, r0, hr0, rfl⟩
    · exact ha.stored q r e hr he
    · exact ((hf r0 hr0).old e he).elim (ha.stored q r0 e hr0) id
  wire := by
    intro m hm
    rcases wire_act hm with hm | ⟨r, hr, hm⟩
    · exact ha.wire m hm
    · exact hnew r m hr hm

lemma Agrees.erase (ha : n.Agrees db I) (i : ℕ) : Agrees db I { n with wire := n.wire.eraseIdx i } where
  sound := ha.sound.erase i
  nodedb := ha.nodedb
  stored := ha.stored
  wire := fun m hm => ha.wire m (mem_of_mem_eraseIdx hm)

variable {op : Op}

lemma next_agrees (ha : n.Agrees db I) (hop : Calm c db I op) : (next c op n).Agrees db I := by
  have hs := next_sound ha.sound op (c := c)
  have silent {p : Key} {f : Relay → Relay × List Out} (hs : (n.act p f).Sound) (hf : n.Keeping db I p f)
      (hsilent : ∀ r, sends p (f r).2 = []) : (n.act p f).Agrees db I := by
    apply ha.act hs hf
    intro r m _ hm
    rw [hsilent r] at hm
    exact absurd hm not_mem_nil
  cases op with
  | publish p now path txid e relayOrder =>
    have ha' : Agrees db I { n with publishes := n.publishes + 1 } := ⟨⟨ha.sound.relays, ha.sound.wire⟩, ha.nodedb,
      ha.stored, ha.wire⟩
    apply ha'.act hs
    · exact fun r _ => publishRelayed_keeps hop
    intro r m _ hm _ txid' k hmsg
    rw [(publish_sends hm).1] at hmsg
    cases hmsg
    exact hop
  | find p now path txid location relayOrder =>
    apply ha.act hs
    · exact fun r _ => findRelayed_keeps
    · intro r m _ hm e txid' k hmsg
      rw [(find_sends hm).1] at hmsg
      cases hmsg
  | deliver i now =>
    unfold next at hs ⊢
    dsimp only at hs ⊢
    split at hs
    · exact ha
    rename_i m hm
    apply (ha.erase i).act hs
    · exact fun r _ => receive_keeps fun e txid k hmsg => ha.wire m (mem_of_getElem? hm) e txid k hmsg
    intro r _ _ hm' e txid k hmsg
    obtain ⟨-, -, ⟨_, _, _, -, h | ⟨h, -⟩⟩ | ⟨_, _, _, -, h⟩⟩ := receive_sends hm'
    · cases hmsg.symm.trans h
    · cases hmsg.symm.trans h
    · cases hmsg.symm.trans h
  | lose i => exact absurd hop id
  | expire p now => exact silent hs (fun r _ => Keeps.same id rfl) fun r => no_sends_replies (r.pending.expire now).2
  | clean p now => exact silent hs (fun r _ => Keeps.clean hop) fun r => rfl
  | setNodeDB p => exact silent hs (fun r _ => Keeps.same (fun _ => hop) rfl) fun r => rfl
  | setPaths p | takeId p => exact silent hs (fun r _ => Keeps.same id rfl) fun r => rfl

variable {R : Key} {k : ℕ}

abbrev responsible (db : NodeDB) (location : Key) : List Key :=
  (db.findManyClosestTo location introSetStorageRedundancy).map fun rc => rc.pubkey

lemma length_responsible (hdb : introSetStorageRedundancy ≤ db.all.length) (location : Key) :
    (responsible db location).length = introSetStorageRedundancy := by
  rw [length_map, NodeDB.length_findMany, min_eq_left hdb]

lemma Agrees.closest (ha : n.Agrees db I) (hr : n.relays.lookup p = some r) (location : Key) :
    r.closest location = responsible db location := by
  rw [← ha.nodedb p r hr]
  rfl

def Holds (n : Net) (R : Key) (I : EncryptedIntroSet) : Prop :=
  ∃ r, n.relays.lookup R = some r ∧ r.services.lookup I.derivedSigningKey = some I

lemma Holds.act (db : NodeDB) (hh : n.Holds R I) (hf : n.Keeping db I p f) : (n.act p f).Holds R I := by
  obtain ⟨r, hr, hI⟩ := hh
  obtain ⟨r', hr', rfl | ⟨rfl, rfl⟩⟩ := act_lookup (p := p) (f := f) hr
  · exact ⟨r', hr', hI⟩
  · exact ⟨_, hr', (hf r hr).keeps hI⟩

lemma next_holds (ha : n.Agrees db I) (hop : Calm c db I op) (hh : n.Holds R I) : (next c op n).Holds R I := by
  cases op with
  | publish p now path txid e relayOrder =>
    have hh' : Holds { n with publishes := n.publishes + 1 } R I := hh
    exact hh'.act db fun r _ => publishRelayed_keeps hop
  | find p now path txid location relayOrder => exact hh.act db fun r _ => findRelayed_keeps
  | deliver i now =>
    unfold next
    dsimp only
    split
    · exact hh
    rename_i m hm
    have hh' : Holds { n with wire := n.wire.eraseIdx i } R I := hh
    exact hh'.act db fun r _ => receive_keeps fun e txid k hmsg =>
      ha.wire m (mem_of_getElem? hm) e txid k hmsg
  | lose i => exact absurd hop id
  | expire p now | setPaths p | takeId p => exact hh.act db fun r _ => Keeps.same id rfl
  | clean p now => exact hh.act db fun r _ => Keeps.clean hop
  | setNodeDB p => exact hh.act db fun r _ => Keeps.same (fun _ => hop) rfl

lemma mem_eraseIdx_ne {m' : Envelope} {i : ℕ} (hm : n.wire[i]? = some m) (hm' : m' ∈ n.wire) (hne : m ≠ m') :
    m' ∈ n.wire.eraseIdx i := by
  obtain ⟨j, hj⟩ := mem_iff_getElem?.mp hm'
  refine mem_eraseIdx_iff_getElem?.mpr ⟨j, ?_, hj⟩
  rintro rfl
  exact hne (some.inj (hm.symm.trans hj))

lemma isSome_act (h : (n.relays.lookup R).isSome) : ((n.act p f).relays.lookup R).isSome := by
  obtain ⟨r, hr⟩ := isSome_iff_exists.mp h
  obtain ⟨r', hr', -⟩ := act_lookup (p := p) (f := f) hr
  exact isSome_iff_exists.mpr ⟨r', hr'⟩

def Coming (n : Net) (R : Key) (I : EncryptedIntroSet) (k : ℕ) : Prop :=
  n.Holds R I ∨ ((n.relays.lookup R).isSome ∧ ∃ m ∈ n.wire, m.dst = R ∧ ∃ txid, m.msg = .publishIntro I txid k)

lemma Coming.act (db : NodeDB) (hc : n.Coming R I k) (hf : n.Keeping db I p f) : (n.act p f).Coming R I k := by
  rcases hc with hh | ⟨hR, m, hm, hdst, hmsg⟩
  · exact .inl (hh.act db hf)
  · exact .inr ⟨isSome_act hR, m, act_wire hm, hdst, hmsg⟩

def Prompt (c : Crypto) (db : NodeDB) (I : EncryptedIntroSet) (op : Op) (_ : Net) : Prop :=
  Calm c db I op ∧ ∀ i now, op = .deliver i now → I.isExpired (now + maxIntrosetTimeDelta) = false

section
variable (ha : n.Agrees db I) (hdb : introSetStorageRedundancy ≤ db.all.length)
include ha hdb

lemma deliver_holds {txid : ℕ} (hR : R ∈ responsible db I.derivedSigningKey)
    (hv : I.verify c now = true) (he : I.isExpired (now + maxIntrosetTimeDelta) = false)
    (hsome : (n.relays.lookup R).isSome) (hdst : m.dst = R) (hmsg : m.msg = .publishIntro I txid k) :
    (n.act m.dst (receive c now m)).Holds R I := by
  obtain ⟨r, hr⟩ := isSome_iff_exists.mp hsome
  subst hdst
  have hclosest := ha.closest hr I.derivedSigningKey
  have hkey := (ha.sound.relays m.dst r hr).1
  have hreceive : receive c now m r = (r.putNode I, [.stored I k, .peer m.src (.gotIntro [I] txid (some k))]) := by
    unfold receive
    rw [hmsg]
    exact publishDirect_eq hv he (by rw [hclosest]; exact length_responsible hdb _) (by rw [hclosest, hkey]; exact hR)
  rw [act_eq hr, hreceive]
  exact ⟨_, lookup_insert _, putNode_stores fun e he => ha.stored m.dst r e hr he⟩

lemma next_coming (hR : R ∈ responsible db I.derivedSigningKey) (hop : Prompt c db I op n) (hc : n.Coming R I k) :
    (next c op n).Coming R I k := by
  obtain ⟨hcalm, hprompt⟩ := hop
  rcases hc with hh | hway
  · exact .inl (next_holds ha hcalm hh)
  cases op with
  | publish p now path txid e relayOrder =>
    have hc : Coming { n with publishes := n.publishes + 1 } R I k := .inr hway
    exact hc.act db fun r _ => publishRelayed_keeps hcalm
  | find p now path txid location relayOrder => exact Coming.act db (.inr hway) fun r _ => findRelayed_keeps
  | deliver i now =>
    unfold next
    dsimp only
    split
    · exact .inr hway
    rename_i m hm
    obtain ⟨hsome, m', hm', hdst, txid, hmsg⟩ := hway
    by_cases heq : m = m'
    · subst heq
      exact .inl (deliver_holds (ha.erase i) hdb hR hcalm (hprompt i now rfl) hsome hdst hmsg)
    · exact .inr ⟨isSome_act hsome, m', act_wire (mem_eraseIdx_ne hm hm' heq), hdst, txid, hmsg⟩
  | lose i => exact absurd hcalm id
  | expire p now | setPaths p | takeId p => exact Coming.act db (.inr hway) fun r _ => Keeps.same id rfl
  | clean p now => exact Coming.act db (.inr hway) fun r _ => Keeps.clean hcalm
  | setNodeDB p => exact Coming.act db (.inr hway) fun r _ => Keeps.same (fun _ => hcalm) rfl

lemma publish_coming {P : Key} {path : PathID} {txid relayOrder : ℕ}
    (hR : (responsible db I.derivedSigningKey)[relayOrder]? = some R)
    (hv : I.verify c now = true) (he : I.isExpired (now + maxIntrosetTimeDelta) = false)
    (hP : (n.relays.lookup P).isSome) (hsome : (n.relays.lookup R).isSome) :
    (next c (.publish P now path txid I relayOrder) n).Coming R I n.publishes := by
  obtain ⟨r, hr⟩ := isSome_iff_exists.mp hP
  have hclosest := ha.closest hr I.derivedSigningKey
  have hkey := (ha.sound.relays P r hr).1
  have hx : r.publishRelayed c now path txid I relayOrder n.publishes = _ :=
    publishRelayed_eq hv he (by rw [hclosest]; exact length_responsible hdb _) (by rw [hclosest]; exact hR)
  show (act { n with publishes := n.publishes + 1 } P _).Coming R I n.publishes
  by_cases hPR : R = r.ourKey
  · rw [if_pos hPR] at hx
    rw [hkey] at hPR
    subst hPR
    left
    rw [act_eq (n := { n with publishes := n.publishes + 1 }) hr, hx]
    exact ⟨_, lookup_insert _, putNode_stores fun e he => ha.stored R r e hr he⟩
  · rw [if_neg hPR] at hx
    right
    refine ⟨isSome_act (n := { n with publishes := n.publishes + 1 }) hsome, ?_⟩
    rw [act_eq (n := { n with publishes := n.publishes + 1 }) hr, hx]
    have hstarted := (ha.sound.relays P r hr).2.waitingFor_fresh hPR
    have hRP : R ≠ P := by
      rw [hkey] at hPR
      exact hPR
    refine ⟨⟨P, R, .publishIntro I (r.ids + 1) n.publishes⟩, mem_append_right _ ?_, rfl, _, rfl⟩
    show _ ∈ sends P (if (r.pending.waitingFor ⟨R, r.ids + 1⟩).isEmpty then _ else [])
    rw [hstarted]
    simp [sends, hRP]

end

/-! ## a lookup -/

/-- a lookup over a path that ends at the router `Q`, under the id `txid` of the client and `id` of the router -/
structure Lookup where
  Q : Key
  R : Key
  path : PathID
  txid : ℕ
  id : ℕ

namespace Lookup
variable (a : Lookup) (I)

def key : TXOwner := ⟨a.Q, a.txid⟩

def owner : TXOwner := ⟨a.R, a.id⟩

def tx : IntroTX := ⟨a.key, a.path, a.txid, .lookup I.derivedSigningKey⟩

def question : Envelope := ⟨a.Q, a.R, .findIntro I.derivedSigningKey a.id⟩

def reply : Envelope := ⟨a.R, a.Q, .gotIntro [I] a.id none⟩

end Lookup

variable {a : Lookup}

def Only (a : Lookup) (I : EncryptedIntroSet) (n : Net) (m : Envelope) : Prop :=
  match m.msg with
  | .findIntro location txid => m.src = a.Q → n.Waits a.Q ⟨m.dst, txid⟩ fun t => t.target = a.key →
      (⟨m.dst, txid⟩ : TXOwner) = a.owner ∧ location = I.derivedSigningKey
  | .gotIntro found txid _ => m.dst = a.Q → n.Waits a.Q ⟨m.src, txid⟩ fun t => t.target = a.key →
      (⟨m.src, txid⟩ : TXOwner) = a.owner ∧ found = [I]
  | .publishIntro _ _ _ => True

lemma Only.act (hm : n.Only a I m) (hf : n.Lawful p f) : (n.act p f).Only a I m := by
  unfold Only at hm ⊢
  split
  case h_3 => exact trivial
  all_goals
    rename_i hmsg
    rw [hmsg] at hm
    exact fun h => Waits.act (hm h) hf fun _ ht => ht

structure Asking (a : Lookup) (I : EncryptedIntroSet) (n : Net) : Prop where
  holds : n.Holds a.R I
  only : ∀ m ∈ n.wire, n.Only a I m
  pending : ∃ r, n.relays.lookup a.Q = some r ∧ r.pending.tx.lookup a.owner = some (a.tx I) ∧ a.path ∈ r.paths

def Underway (a : Lookup) (I : EncryptedIntroSet) (n : Net) : Prop := a.question I ∈ n.wire ∨ a.reply I ∈ n.wire

def Answered (a : Lookup) (I : EncryptedIntroSet) (base : ℕ) (n : Net) : Prop :=
  (a.Q, Out.path a.path a.txid [I] none) ∈ n.log.drop base

/-- As `Calm`; the lookup's path stays, its time is not over, and its number is free at the router that is asked. -/
def Quiet (c : Crypto) (db : NodeDB) (I : EncryptedIntroSet) (a : Lookup) (op : Op) (n : Net) : Prop :=
  Calm c db I op ∧
  match op with
  | .deliver i _ => ∀ r, n.wire[i]? = some (a.question I) → n.relays.lookup a.R = some r →
      r.pending.tx.lookup ⟨a.Q, a.id⟩ = none
  | .expire p now => ∀ r, p = a.Q → n.relays.lookup p = some r → a.key ∉ r.pending.expired now
  | .setPaths p paths => p = a.Q → a.path ∈ paths
  | _ => True

def KeepsTX (a : Lookup) (I : EncryptedIntroSet) (r r' : Relay) : Prop :=
  r.pending.tx.lookup a.owner = some (a.tx I) → a.path ∈ r.paths →
    r'.pending.tx.lookup a.owner = some (a.tx I) ∧ a.path ∈ r'.paths

lemma Asking.act (db : NodeDB) (hk : n.Asking a I) (hf : n.Lawful p f) (hkeep : n.Keeping db I p f)
    (htx : p = a.Q → ∀ r, n.relays.lookup p = some r → KeepsTX a I r (f r).1)
    (hnew : ∀ r m, n.relays.lookup p = some r → m ∈ sends p (f r).2 → (n.act p f).Only a I m) :
    (n.act p f).Asking a I where
  holds := hk.holds.act db hkeep
  only := by
    intro m hm
    rcases wire_act hm with hm | ⟨r, hr, hm⟩
    · exact (hk.only m hm).act hf
    · exact hnew r m hr hm
  pending := by
    obtain ⟨r, hr, ht, hpath⟩ := hk.pending
    obtain ⟨r', hr', rfl | ⟨rfl, rfl⟩⟩ := act_lookup (p := p) (f := f) hr
    · exact ⟨r', hr', ht, hpath⟩
    · exact ⟨_, hr', htx rfl r hr ht hpath⟩

lemma Underway.act (h : n.Underway a I) : (n.act p f).Underway a I := h.imp act_wire act_wire

variable {r : Relay} {now : Millis} {path : PathID} {txid relayOrder cause : ℕ} {location : Key}
  {e : EncryptedIntroSet}

lemma KeepsTX.refl : KeepsTX a I r r := fun ht hpath => ⟨ht, hpath⟩

lemma KeepsTX.putNode (e : EncryptedIntroSet) : KeepsTX a I r (r.putNode e) :=
  fun ht hpath => ⟨by simpa using ht, by simpa using hpath⟩

lemma start_keepsTX {askpeer : Key} {t : IntroTX} {msg : PeerMsg} : KeepsTX a I r (r.start now askpeer t msg).1 :=
  fun ht hpath => ⟨newTX_keeps ht, hpath⟩

lemma publishRelayed_keepsTX : KeepsTX a I r (r.publishRelayed c now path txid e relayOrder cause).1 :=
  publishRelayed_ind (P := fun x => KeepsTX a I r x.1) .refl (.putNode e) fun _ _ => start_keepsTX

lemma findRelayed_keepsTX : KeepsTX a I r (r.findRelayed now path txid location relayOrder).1 :=
  findRelayed_ind (P := fun x => KeepsTX a I r x.1) .refl .refl fun _ => start_keepsTX

def Completes (a : Lookup) (r : Relay) (m : Envelope) : Prop :=
  ∃ found txid k t, m.msg = .gotIntro found txid k ∧ r.pending.tx.lookup ⟨m.src, txid⟩ = some t ∧ t.target = a.key

lemma receive_keepsTX (hr : r.Sound) (hm : ¬ Completes a r m) : KeepsTX a I r (receive c now m r).1 := by
  refine receive_ind (P := fun x => KeepsTX a I r x.1) .refl (fun _ _ _ _ => .refl) (fun e _ _ _ => .putNode e)
    (fun _ _ _ _ => .refl) ?_
  intro found txid k t hmsg ht' ht hpath
  refine ⟨?_, hpath⟩
  show (r.pending.inform t.target).1.tx.lookup a.owner = _
  rw [inform_lookup, if_neg]
  · exact ht
  · intro hw
    exact hm ⟨found, txid, k, t, hmsg, ht', (hr.keyed.keyed _ _ _ hw ht).symm⟩

lemma select_self (hv : I.verify c now = true) (hpos : 0 < I.signedAt) :
    select c now I.derivedSigningKey [I] = [I] := by
  unfold select
  have hfilter : [I].filter (fun e => e.verify c now && e.derivedSigningKey = I.derivedSigningKey) = [I] := by simp [hv]
  rw [hfilter]
  show [if (0 : Millis) < I.signedAt then I else _] = [I]
  rw [if_pos hpos]

lemma receive_answers {k : Option ℕ} {t : IntroTX} (hr : r.Sound) (hv : I.verify c now = true)
    (hpos : 0 < I.signedAt) (ht : r.pending.tx.lookup a.owner = some (a.tx I)) (hpath : a.path ∈ r.paths)
    (hmsg : m.msg = .gotIntro [I] txid k) (ht' : r.pending.tx.lookup ⟨m.src, txid⟩ = some t)
    (hkey : t.target = a.key) : .path a.path a.txid [I] none ∈ (receive c now m r).2 := by
  have hgot : receive c now m r = r.inform c now a.key [I] := by
    unfold receive
    rw [hmsg]
    show r.gotIntro c now m.src txid [I] = _
    unfold gotIntro
    rw [if_pos (by simpa using hv), ht']
    dsimp only
    rw [hkey]
  rw [hgot]
  refine mem_flatMap.mpr ⟨(a.owner, a.tx I), inform_of_waiting (hr.keyed.waits _ _ ht) ht, ?_⟩
  show _ ∈ r.answer a.path a.txid (select c now I.derivedSigningKey [I]) none
  rw [select_self hv hpos]
  unfold answer
  rw [if_pos hpath]
  exact mem_singleton.mpr rfl

lemma find_only (hk : n.Asking a I) (hs : n.Sound) (hr : n.relays.lookup p = some r)
    (hm : m ∈ sends p (r.findRelayed now path txid location relayOrder).2) :
    (n.act p fun r => r.findRelayed now path txid location relayOrder).Only a I m := by
  obtain ⟨hm', hx⟩ := find_sends hm
  have hstarted : (r.pending.waitingFor ⟨r.ourKey, txid⟩).isEmpty = true := by
    by_contra hne
    rw [hx] at hm
    have hsilent : (r.start now m.dst ⟨⟨r.ourKey, txid⟩, path, txid, .lookup location⟩ m.msg).2 = [] := if_neg hne
    rw [hsilent] at hm
    exact absurd hm not_mem_nil
  rw [hm']
  intro hQ
  rw [← hQ]
  refine waits_start hs hr (f := fun r => r.findRelayed now path txid location relayOrder) hx ?_
  intro hkey
  exfalso
  obtain ⟨_, hr0, ht, -⟩ := hk.pending
  rw [← hQ] at hr0
  cases hr0.symm.trans hr
  have hw : ((⟨r.ourKey, txid⟩ : TXOwner), a.owner) ∈ r.pending.waiting := by
    have hkey' : (⟨r.ourKey, txid⟩ : TXOwner) = a.key := hkey
    rw [hkey']
    exact (hs.relays _ r hr).2.keyed.waits _ _ ht
  have hmem := mem_waitingFor.mpr hw
  rw [isEmpty_iff.mp hstarted] at hmem
  exact absurd hmem not_mem_nil

lemma publish_only (hm : m ∈ sends p (r.publishRelayed c now path txid e relayOrder cause).2) : n.Only a I m := by
  rw [(publish_sends hm).1]
  exact trivial

lemma receive_question (hI : r.services.lookup I.derivedSigningKey = some I)
    (hnz : isZero I.derivedSigningKey = false) (hmsg : m.msg = .findIntro I.derivedSigningKey txid)
    (hnone : r.pending.tx.lookup ⟨m.src, txid⟩ = none) :
    receive c now m r = (r, [.peer m.src (.gotIntro [I] txid none)]) := by
  unfold receive
  rw [hmsg]
  show r.findDirect m.src txid I.derivedSigningKey = _
  unfold findDirect
  rw [hnone, hI]
  simp only [hnz]
  rfl

lemma receive_only {m' : Envelope} (hs : n.Sound) (hfits : n.Fits m) (honly : n.Only a I m)
    (hholds : n.Holds a.R I) (hnz : isZero I.derivedSigningKey = false) (hr : n.relays.lookup m.dst = some r)
    (hquiet : m = a.question I → r.pending.tx.lookup ⟨a.Q, a.id⟩ = none)
    (hm' : m' ∈ sends m.dst (receive c now m r).2) : (n.act m.dst (receive c now m)).Only a I m' := by
  have hlawful : n.Lawful m.dst (receive c now m) := hs.lawful fun r hr => receive_lawful hr
  obtain ⟨hsrc, hdst, hreply⟩ := receive_sends hm'
  unfold Only
  rcases hreply with ⟨e, txid, k, hmsg, hmsg'⟩ | ⟨_, txid, _, hmsg, hmsg'⟩
  · -- the transaction of a publication waits for another key
    have hwait : m'.dst = a.Q → n.Waits a.Q ⟨m'.src, txid⟩ fun t => t.target ≠ a.key := by
      intro hQ r' hr'
      unfold Fits at hfits
      rw [hmsg, ← hdst, hQ] at hfits
      obtain ⟨hle, hjob⟩ := hfits r' hr'
      rw [hsrc]
      refine ⟨hle, fun t ht hkey => ?_⟩
      obtain ⟨hkey', hsound⟩ := hs.relays a.Q r' hr'
      have hkind := hsound.kinds _ t ht
      unfold Kinds at hkind
      rw [hjob t ht] at hkind
      obtain ⟨htarget, hnode⟩ := hkind
      rw [← htarget, hkey, hkey'] at hnode
      exact hnode rfl
    rcases hmsg' with hmsg' | ⟨hmsg', -⟩
    all_goals
      rw [hmsg']
      exact fun hQ => Waits.act (hwait hQ) hlawful fun t ht hkey => absurd hkey ht
  · rw [hmsg']
    intro hQ
    unfold Only at honly
    rw [hmsg] at honly
    have hQ' : m.src = a.Q := hdst.symm.trans hQ
    rw [hsrc]
    refine Waits.act (honly hQ') hlawful fun t ht hkey => ⟨(ht hkey).1, ?_⟩
    obtain ⟨howner, rfl⟩ := ht hkey
    have hR : m.dst = a.R := congrArg TXOwner.node howner
    have hid : txid = a.id := congrArg TXOwner.txid howner
    subst hid
    obtain ⟨r', hr', hI⟩ := hholds
    rw [← hR] at hr'
    cases hr'.symm.trans hr
    have hquestion : m = a.question I := by
      obtain ⟨_, _, _⟩ := m
      cases hmsg
      cases hQ'
      cases hR
      rfl
    have hnone := hquiet hquestion
    rw [← hQ'] at hnone
    have hpeer := (mem_sends hm').2.2
    rw [receive_question hI hnz hmsg hnone, hmsg'] at hpeer
    exact (PeerMsg.gotIntro.inj (Out.peer.inj (mem_singleton.mp hpeer)).2).1

lemma Asking.erase (hk : n.Asking a I) (i : ℕ) : Asking a I { n with wire := n.wire.eraseIdx i } where
  holds := hk.holds
  only := fun m hm => hk.only m (mem_of_mem_eraseIdx hm)
  pending := hk.pending

lemma deliver_asking {i : ℕ} (ha : n.Agrees db I) (hk : n.Asking a I) (hu : n.Underway a I)
    (hpos : 0 < I.signedAt) (hnz : isZero I.derivedSigningKey = false) (hQR : a.Q ≠ a.R)
    (hv : I.verify c now = true) (hm : n.wire[i]? = some m)
    (hquiet : ∀ r, n.wire[i]? = some (a.question I) → n.relays.lookup a.R = some r →
      r.pending.tx.lookup ⟨a.Q, a.id⟩ = none) :
    let n' := act { n with wire := n.wire.eraseIdx i } m.dst (receive c now m)
    (n'.Asking a I ∧ n'.Underway a I) ∨ n'.Answered a I n.log.length := by
  intro n'
  have hs' : Sound { n with wire := n.wire.eraseIdx i } := ha.sound.erase i
  have hmem : m ∈ n.wire := mem_of_getElem? hm
  obtain ⟨rQ, hrQ, ht, hpath⟩ := hk.pending
  have hsoundQ := (ha.sound.relays a.Q rQ hrQ).2
  by_cases hcompletes : m.dst = a.Q ∧ Completes a rQ m
  · -- by `only`, the message is the answer to the lookup
    right
    obtain ⟨hdst, _, txid, k, t, hmsg, ht', hkey⟩ := hcompletes
    have honly := hk.only m hmem
    unfold Only at honly
    rw [hmsg] at honly
    obtain ⟨-, rfl⟩ := (honly hdst rQ hrQ).2 t ht' hkey
    have hout := receive_answers hsoundQ hv hpos ht hpath hmsg ht' hkey
    have hr : ({ n with wire := n.wire.eraseIdx i } : Net).relays.lookup m.dst = some rQ := by
      rw [hdst]
      exact hrQ
    show _ ∈ (act { n with wire := n.wire.eraseIdx i } m.dst (receive c now m)).log.drop n.log.length
    rw [act_eq hr, drop_left, hdst]
    exact mem_map_of_mem hout
  · left
    have hasking : n'.Asking a I := by
      apply (hk.erase i).act db (hs'.lawful fun r hr => receive_lawful hr)
      · exact fun r _ => receive_keeps fun e txid k hmsg => ha.wire m hmem e txid k hmsg
      · intro hQ r hr
        have hr' : n.relays.lookup a.Q = some r := by
          rw [← hQ]
          exact hr
        cases hr'.symm.trans hrQ
        exact receive_keepsTX hsoundQ fun hc => hcompletes ⟨hQ, hc⟩
      · intro r _ hr hm'
        refine receive_only hs' (ha.sound.wire m hmem) (hk.only m hmem) hk.holds hnz hr ?_ hm'
        intro hquestion
        rw [hquestion] at hm hr
        exact hquiet r hm hr
    refine ⟨hasking, ?_⟩
    by_cases hquestion : m = a.question I
    · -- the question is replaced by its answer
      right
      obtain ⟨rR, hrR, hI⟩ := hk.holds
      have hnone := hquiet rR (hquestion ▸ hm) hrR
      have hreceive : receive c now m rR = (rR, [.peer a.Q (.gotIntro [I] a.id none)]) := by
        rw [hquestion]
        exact receive_question (m := a.question I) hI hnz rfl hnone
      have hr : ({ n with wire := n.wire.eraseIdx i } : Net).relays.lookup m.dst = some rR := by
        rw [hquestion]
        exact hrR
      show a.reply I ∈ (act { n with wire := n.wire.eraseIdx i } m.dst (receive c now m)).wire
      rw [act_eq hr, hreceive, hquestion]
      refine mem_append_right _ ?_
      show a.reply I ∈ sends a.R [.peer a.Q (.gotIntro [I] a.id none)]
      simp [sends, hQR, Lookup.reply]
    · have hreply : m ≠ a.reply I := by
        rintro rfl
        exact hcompletes ⟨rfl, [I], a.id, none, a.tx I, rfl, ht, rfl⟩
      apply Underway.act
      rcases hu with hu | hu
      · exact .inl (mem_eraseIdx_ne hm hu hquestion)
      · exact .inr (mem_eraseIdx_ne hm hu hreply)

lemma next_asking (ha : n.Agrees db I) (hk : n.Asking a I) (hu : n.Underway a I) (hpos : 0 < I.signedAt)
    (hnz : isZero I.derivedSigningKey = false) (hQR : a.Q ≠ a.R) (hop : Quiet c db I a op n) :
    ((next c op n).Asking a I ∧ (next c op n).Underway a I) ∨ (next c op n).Answered a I n.log.length := by
  obtain ⟨hcalm, hquiet⟩ := hop
  have silent {p : Key} {f : Relay → Relay × List Out} (hf : ∀ r : Relay, r.Sound → r.Lawful (f r).1)
      (hkeep : n.Keeping db I p f) (htx : p = a.Q → ∀ r, n.relays.lookup p = some r → KeepsTX a I r (f r).1)
      (hsilent : ∀ r, sends p (f r).2 = []) : (n.act p f).Asking a I ∧ (n.act p f).Underway a I := by
    refine ⟨hk.act db (ha.sound.lawful hf) hkeep htx ?_, hu.act⟩
    intro r m _ hm
    rw [hsilent r] at hm
    exact absurd hm not_mem_nil
  cases op with
  | publish p now path txid e relayOrder =>
    left
    have hk' : Asking a I { n with publishes := n.publishes + 1 } := ⟨hk.holds, hk.only, hk.pending⟩
    have hs' : Sound { n with publishes := n.publishes + 1 } := ⟨ha.sound.relays, ha.sound.wire⟩
    have hu' : Underway a I { n with publishes := n.publishes + 1 } := hu
    refine ⟨?_, hu'.act⟩
    apply hk'.act db (hs'.lawful fun r hr => publishRelayed_lawful hr)
    · exact fun r _ => publishRelayed_keeps hcalm
    · exact fun _ r _ => publishRelayed_keepsTX
    · exact fun r m _ hm => publish_only hm
  | find p now path txid location relayOrder =>
    left
    refine ⟨?_, hu.act⟩
    apply hk.act db (ha.sound.lawful fun r hr => findRelayed_lawful hr)
    · exact fun r _ => findRelayed_keeps
    · exact fun _ r _ => findRelayed_keepsTX
    · exact fun r m hr hm => find_only hk ha.sound hr hm
  | deliver i now =>
    unfold next
    dsimp only
    split
    · exact .inl ⟨hk, hu⟩
    · rename_i m hm
      exact deliver_asking ha hk hu hpos hnz hQR hcalm hm hquiet
  | lose i => exact absurd hcalm id
  | expire p now =>
    left
    apply silent
    · exact fun r hr => ⟨Grows.expire r, hr.expire⟩
    · exact fun r _ => Keeps.same id rfl
    · intro hQ r hr ht hpath
      have hsound := (ha.sound.relays p r hr).2
      exact ⟨hsound.keyed.expire_keeps ht (hquiet r hQ hr), hpath⟩
    · exact fun r => no_sends_replies (r.pending.expire now).2
  | clean p now =>
    exact .inl (silent (fun r hr => Lawful.same hr rfl (le_refl _) rfl) (fun r _ => Keeps.clean hcalm)
      (fun _ r _ ht hpath => ⟨ht, hpath⟩) fun r => rfl)
  | setNodeDB p =>
    exact .inl (silent (fun r hr => Lawful.same hr rfl (le_refl _) rfl) (fun r _ => Keeps.same (fun _ => hcalm) rfl)
      (fun _ r _ ht hpath => ⟨ht, hpath⟩) fun r => rfl)
  | setPaths p =>
    exact .inl (silent (fun r hr => Lawful.same hr rfl (le_refl _) rfl) (fun r _ => Keeps.same id rfl)
      (fun hQ r _ ht _ => ⟨ht, hquiet hQ⟩) fun r => rfl)
  | takeId p =>
    exact .inl (silent (fun r hr => Lawful.same hr rfl (Nat.le_succ _) rfl) (fun r _ => Keeps.same id rfl)
      (fun _ r _ ht hpath => ⟨ht, hpath⟩) fun r => rfl)

lemma log_next (c : Crypto) (op : Op) (n : Net) : ∃ l, (next c op n).log = n.log ++ l := by
  cases op with
  | publish p now => exact act_log (n := { n with publishes := n.publishes + 1 })
  | deliver i now =>
    unfold next
    dsimp only
    split
    · exact ⟨[], (append_nil _).symm⟩
    · exact act_log (n := { n with wire := n.wire.eraseIdx i })
  | lose i => exact ⟨[], (append_nil _).symm⟩
  | find | expire | clean | setNodeDB | setPaths | takeId => exact act_log

structure Looking (db : NodeDB) (I : EncryptedIntroSet) (a : Lookup) (base : ℕ) (n : Net) : Prop where
  agrees : n.Agrees db I
  base_le : base ≤ n.log.length
  state : (n.Asking a I ∧ n.Underway a I) ∨ n.Answered a I base

lemma next_looking {base : ℕ} (h : n.Looking db I a base) (hpos : 0 < I.signedAt)
    (hnz : isZero I.derivedSigningKey = false) (hQR : a.Q ≠ a.R) (hop : Quiet c db I a op n) :
    (next c op n).Looking db I a base := by
  obtain ⟨l, hl⟩ := log_next c op n
  refine ⟨next_agrees h.agrees hop.1, ?_, ?_⟩
  · rw [hl, length_append]
    exact h.base_le.trans (Nat.le_add_right _ _)
  rcases h.state with ⟨hk, hu⟩ | hanswered
  · rcases next_asking h.agrees hk hu hpos hnz hQR hop with hk' | hanswered
    · exact .inl hk'
    right
    unfold Answered at hanswered ⊢
    rw [← Nat.add_sub_cancel' h.base_le, ← drop_drop] at hanswered
    exact mem_of_mem_drop hanswered
  · right
    unfold Answered at hanswered ⊢
    rw [hl, drop_append_of_le_length h.base_le]
    exact mem_append_left _ hanswered

lemma find_asking {Q : Key} {rQ : Relay} (ha : n.Agrees db I) (hh : n.Holds R I)
    (hR : (responsible db I.derivedSigningKey)[relayOrder]? = some R) (horder : relayOrder < introSetStorageRedundancy)
    (hnz : isZero I.derivedSigningKey = false) (hQR : Q ≠ R) (hQ : n.relays.lookup Q = some rQ)
    (hpath : path ∈ rQ.paths) (hwaiting : rQ.pending.waitingFor ⟨Q, txid⟩ = [])
    (hnone : rQ.pending.tx.lookup ⟨Q, txid⟩ = none) :
    let n' := next c (.find Q now path txid I.derivedSigningKey relayOrder) n
    n'.Asking ⟨Q, R, path, txid, rQ.ids + 1⟩ I ∧ n'.Underway ⟨Q, R, path, txid, rQ.ids + 1⟩ I := by
  intro n'
  obtain ⟨hkey, hsound⟩ := ha.sound.relays Q rQ hQ
  have hclosest := ha.closest hQ I.derivedSigningKey
  have hx : rQ.findRelayed now path txid I.derivedSigningKey relayOrder =
      rQ.start now R ⟨⟨Q, txid⟩, path, txid, .lookup I.derivedSigningKey⟩
        (.findIntro I.derivedSigningKey (rQ.ids + 1)) := by
    rw [← hkey] at hnone ⊢
    exact findRelayed_eq hnone hnz (by rw [hclosest]; exact hR) horder
  have hsends : sends Q (rQ.findRelayed now path txid I.derivedSigningKey relayOrder).2 =
      [⟨Q, R, .findIntro I.derivedSigningKey (rQ.ids + 1)⟩] := by
    rw [hx]
    show sends Q (if (rQ.pending.waitingFor ⟨Q, txid⟩).isEmpty then _ else []) = _
    rw [hwaiting]
    simp [sends, Ne.symm hQR]
  have hlawful : n.Lawful Q fun r => r.findRelayed now path txid I.derivedSigningKey relayOrder :=
    ha.sound.lawful fun r hr => findRelayed_lawful hr
  -- nothing that was there before has the key of the lookup
  have hother : ∀ o t, rQ.pending.tx.lookup o = some t → t.target ≠ ⟨Q, txid⟩ := by
    intro o t ht heq
    have hw := hsound.keyed.waits o t ht
    rw [heq] at hw
    have hmem := mem_waitingFor.mpr hw
    rw [hwaiting] at hmem
    exact absurd hmem not_mem_nil
  have hold : ∀ m ∈ n.wire, n.Only ⟨Q, R, path, txid, rQ.ids + 1⟩ I m := by
    intro m hm
    have hfits := ha.sound.wire m hm
    unfold Fits at hfits
    unfold Only
    split
    case h_3 => exact trivial
    all_goals
      rename_i hmsg
      rw [hmsg] at hfits
      intro hnode r hr
      cases hr.symm.trans hQ
      rw [hnode] at hfits
      exact ⟨(hfits rQ hQ).1, fun t ht heq => absurd heq (hother _ t ht)⟩
  constructor
  · constructor
    · exact hh.act db fun r _ => findRelayed_keeps
    · intro m hm
      change m ∈ (n.act Q _).wire at hm
      rw [act_eq hQ] at hm
      rcases mem_append.mp hm with hm | hm
      · exact (hold m hm).act hlawful
      rw [hsends] at hm
      rw [mem_singleton.mp hm]
      exact fun _ => waits_start (f := fun r => r.findRelayed now path txid I.derivedSigningKey relayOrder)
        ha.sound hQ hx fun _ => ⟨rfl, rfl⟩
    · refine ⟨(rQ.findRelayed now path txid I.derivedSigningKey relayOrder).1, ?_, ?_, ?_⟩
      · show (n.act Q _).relays.lookup Q = _
        rw [act_eq hQ]
        exact lookup_insert _
      · rw [hx]
        show (rQ.pending.newTX now ⟨R, rQ.ids + 1⟩ _ _ _).1.tx.lookup ⟨R, rQ.ids + 1⟩ = _
        unfold newTX
        rw [hsound.fresh R]
        exact lookup_insert _
      · rw [hx]
        exact hpath
  · left
    show _ ∈ (n.act Q _).wire
    rw [act_eq hQ, hsends]
    exact mem_append_right _ (mem_singleton.mpr rfl)

end Net

open Net

/-- With one node database and nothing newer than `I`: a client publishes `I` through `P` and its messages are gone in
`n₂`; another looks it up through `Q`, and question and answer are gone in `n₃`.  Then it has got `I`, unless `Q` is
itself responsible. -/
theorem published_introset_found {c : Crypto} {db : NodeDB} {I : EncryptedIntroSet} {relayOrder : ℕ} {P Q R : Key}
    {path path' : PathID} {txid txid' : ℕ} {now now' : Millis} {s n₀ n₂ n₃ : Net} {rQ : Relay}
    (hstart : s.Start) (hs : Run.Reaches (step c) (fun _ _ => True) s n₀)
    (hnodedb : ∀ p r, n₀.relays.lookup p = some r → r.nodedb = db)
    (hdb : introSetStorageRedundancy ≤ db.all.length)
    (hR : (responsible db I.derivedSigningKey)[relayOrder]? = some R)
    (hP : (n₀.relays.lookup P).isSome) (hrouter : (n₀.relays.lookup R).isSome)
    (hstored : ∀ p r e, n₀.relays.lookup p = some r → r.services.lookup I.derivedSigningKey = some e → Older I e)
    (hwire : ∀ m ∈ n₀.wire, ∀ e txid k, m.msg = .publishIntro e txid k →
      e.derivedSigningKey = I.derivedSigningKey → Older I e)
    (hv : I.verify c now = true) (he : I.isExpired (now + maxIntrosetTimeDelta) = false)
    (hpos : 0 < I.signedAt) (hnz : isZero I.derivedSigningKey = false)
    (hrun : Run.Reaches (step c) (Prompt c db I) (next c (.publish P now path txid I relayOrder) n₀) n₂)
    (hcame : ∀ m ∈ n₂.wire, ∀ txid, m.msg ≠ .publishIntro I txid n₀.publishes)
    (hQR : Q ≠ R) (hQ : n₂.relays.lookup Q = some rQ) (hpath : path' ∈ rQ.paths)
    (hwaiting : rQ.pending.waitingFor ⟨Q, txid'⟩ = []) (hnone : rQ.pending.tx.lookup ⟨Q, txid'⟩ = none)
    (hrun' : Run.Reaches (step c) (Quiet c db I ⟨Q, R, path', txid', rQ.ids + 1⟩)
      (next c (.find Q now' path' txid' I.derivedSigningKey relayOrder) n₂) n₃)
    (hanswered : ¬ n₃.Underway ⟨Q, R, path', txid', rQ.ids + 1⟩ I) :
    (Q, Out.path path' txid' [I] none) ∈ n₃.log.drop n₂.log.length := by
  have hsound : n₀.Sound := by
    refine hs.inv ?_ hstart.sound
    intro op a b ha _ hstep
    cases hstep
    exact next_sound ha op
  have hmem := mem_of_getElem? hR
  have horder : relayOrder < introSetStorageRedundancy := by
    rw [← length_responsible hdb I.derivedSigningKey]
    exact (List.getElem?_eq_some_iff.mp hR).1
  have hagrees : n₀.Agrees db I := ⟨hsound, hnodedb, hstored, hwire⟩
  have hcoming : n₂.Agrees db I ∧ n₂.Coming R I n₀.publishes := by
    refine hrun.inv (I := fun n => n.Agrees db I ∧ n.Coming R I n₀.publishes) ?_ ⟨?_, ?_⟩
    · intro op a b ha hop hstep
      cases hstep
      exact ⟨next_agrees ha.1 hop.1, next_coming ha.1 hdb hmem hop ha.2⟩
    · have hcalm : Calm c db I (.publish P now path txid I relayOrder) := fun _ => .inl rfl
      exact next_agrees hagrees hcalm
    · exact publish_coming hagrees hdb hR hv he hP hrouter
  obtain ⟨hagrees₂, hholds | ⟨-, m, hm, -, txid, hmsg⟩⟩ := hcoming
  · have hlooking : n₃.Looking db I ⟨Q, R, path', txid', rQ.ids + 1⟩ n₂.log.length := by
      refine hrun'.inv ?_ ⟨?_, ?_, .inl ?_⟩
      · intro op a b ha hop hstep
        cases hstep
        exact next_looking ha hpos hnz hQR hop
      · have hcalm := trivial
        exact next_agrees hagrees₂ hcalm
      · obtain ⟨l, hl⟩ := log_next c (.find Q now' path' txid' I.derivedSigningKey relayOrder) n₂
        rw [hl, length_append]
        exact Nat.le_add_right _ _
      · exact find_asking hagrees₂ hholds hR horder hnz hQR hQ hpath hwaiting hnone
    exact hlooking.state.resolve_left fun h => hanswered h.2
  · exact absurd hmsg (hcame m hm txid)

namespace Sample
open Router.Sample

def net4 : Net where
  relays := [1, 2, 3, 4].foldl (fun m n => m.insert (key n) (relay n)) ∅

lemma net4_relay {p : Key} (h : net4.relays.lookup p = some r) : ∃ n, p = key n ∧ r = relay n := by
  have hentries : net4.relays.entries = [4, 3, 2, 1].map fun n => ⟨key n, relay n⟩ := rfl
  have hmem := mem_lookup_iff.mp h
  rw [hentries] at hmem
  obtain ⟨n, -, hn⟩ := mem_map.mp hmem
  cases hn
  exact ⟨n, rfl, rfl⟩

lemma net4_start : net4.Start where
  relays := by
    intro p r hr
    obtain ⟨n, rfl, rfl⟩ := net4_relay hr
    exact ⟨rfl, rfl⟩
  wire := rfl
  log := rfl

def published : Net where
  relays := net4.relays.insert (key 4) ((relay 4).putNode introset)
  wire := []
  log := [(key 4, .stored introset 0), (key 4, .path path 7 [introset] (some 0))]
  publishes := 1

lemma publish_stores : next crypto (publish 4) net4 = published := by
  show ({ net4 with publishes := 1 } : Net).act (key 4) (fun r => r.publishRelayed crypto 2 path 7 introset 0 0) = _
  have hr : ({ net4 with publishes := 1 } : Net).relays.lookup (key 4) = some (relay 4) := lookup_insert _
  have hmap : (nodedb.findManyClosestTo (key 5) 4).map (·.pubkey) = [key 4, key 1, key 3, key 2] := by decide +kernel
  have hclosest : (relay 4).closest introset.derivedSigningKey = [key 4, key 1, key 3, key 2] := hmap
  rw [act_eq hr, Relay.publishRelayed_eq (by decide +kernel) (by decide +kernel) (by rw [hclosest]; rfl)
    (by rw [hclosest]; rfl), if_pos (show key 4 = (relay 4).ourKey from rfl)]
  rfl

def find (n : UInt8) : Net.Op := .find (key n) 3 path 8 introset.derivedSigningKey 0

def lookup : Net.Lookup := ⟨key 1, key 4, path, 8, 1⟩

def asking : Net := next crypto (find 1) published

def replying : Net := next crypto (.deliver 0 4) asking

lemma asking_quiet : Quiet crypto nodedb introset lookup (.deliver 0 4) asking := by
  refine ⟨show introset.verify crypto 4 = true by decide +kernel, fun r _ hr => ?_⟩
  have hnone : (asking.relays.lookup (key 4)).all fun r => (r.pending.tx.lookup ⟨key 1, 1⟩).isNone := by decide +kernel
  have hr' : asking.relays.lookup (key 4) = some r := hr
  rw [hr'] at hnone
  exact isNone_iff_eq_none.mp hnone

lemma replying_quiet : Quiet crypto nodedb introset lookup (.deliver 0 5) replying := by
  refine ⟨show introset.verify crypto 5 = true by decide +kernel, fun r hm => ?_⟩
  cases hm

end Sample

open Sample

theorem published_introset_found_through_1 : ∃ n,
    Run.Reaches (Net.step Router.Sample.crypto) (Quiet Router.Sample.crypto nodedb introset lookup) asking n ∧
    (Router.Sample.key 1, Out.path path 8 [introset] none) ∈ n.log.drop published.log.length := by
  have hreach : Run.Reaches (Net.step Router.Sample.crypto) (Quiet Router.Sample.crypto nodedb introset lookup) asking
      (next Router.Sample.crypto (.deliver 0 5) replying) := .tail _ (.tail _ .refl asking_quiet rfl) replying_quiet rfl
  refine ⟨_, hreach, ?_⟩
  have hclosest : responsible nodedb introset.derivedSigningKey =
      [Router.Sample.key 4, Router.Sample.key 1, Router.Sample.key 3, Router.Sample.key 2] := by decide +kernel
  have hQ : published.relays.lookup (Router.Sample.key 1) = some (relay 1) := rfl
  have hrun : Run.Reaches (Net.step Router.Sample.crypto) (Prompt Router.Sample.crypto nodedb introset)
      (next Router.Sample.crypto (publish 4) net4) published := by
    rw [publish_stores]
    exact .refl
  refine published_introset_found net4_start .refl (P := Router.Sample.key 4) (R := Router.Sample.key 4)
    ?_ (by decide +kernel) (by rw [hclosest]; rfl) ?_ ?_ ?_ ?_ (by decide +kernel) (by decide +kernel)
    (by decide) (by decide +kernel) hrun ?_ (by decide +kernel) hQ (mem_singleton.mpr rfl) rfl rfl hreach ?_
  · intro p r hr
    obtain ⟨n, -, rfl⟩ := net4_relay hr
    rfl
  · decide +kernel
  · decide +kernel
  · intro p r e hr he
    obtain ⟨n, -, rfl⟩ := net4_relay hr
    cases he
  · exact fun m hm => absurd hm not_mem_nil
  · exact fun m hm => absurd hm not_mem_nil
  have hwire : (next Router.Sample.crypto (.deliver 0 5) replying).wire = [] := by decide +kernel
  unfold Underway
  rw [hwire]
  simp

/-- Router 4 has stored the introset and is asked for it: it asks itself in vain, and in the end reports that there is
none. -/
theorem published_introset_lost : ∃ n,
    Run.exec (Net.step Router.Sample.crypto) [publish 4, find 4, .expire (Router.Sample.key 4) 20000]
      net4 = .ok n ∧ n.wire = [] ∧
    (∃ r, n.relays.lookup (Router.Sample.key 4) = some r ∧
      r.services.lookup introset.derivedSigningKey = some introset) ∧
    (Router.Sample.key 4, Out.path path 8 [] none) ∈ n.log ∧
    (Router.Sample.key 4, Out.path path 8 [introset] none) ∉ n.log := by
  exact ⟨_, rfl, by decide +kernel, ⟨_, rfl, by decide +kernel⟩, by decide +kernel, by decide +kernel⟩

end Belnet.Dht
