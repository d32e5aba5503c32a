import Belnet.Router.NodeDB
import Belnet.Service.Messages

/-!
# Introsets in the DHT

`PublishIntro`, `FindIntro` and `GotIntro` (`llarp/dht/messages`), their transactions
(`llarp/dht/publishservicejob.cpp`, `llarp/dht/localserviceaddresslookup.cpp`) and their part of
`llarp/dht/context.cpp`.
-/

namespace Belnet.Dht
open Iwp hiding RouterContact
open Belnet.Path hiding RouterContact
open Router Service TXHolder Nat List

abbrev introSetStorageRedundancy : ℕ := 4

abbrev maxIntrosetTimeDelta : Millis := 10 * 1000

/-- `LocalServiceAddressLookup`, or `LocalPublishServiceJob` with the number of its publication, not in the source -/
inductive IntroJob where
  | lookup (location : Key)
  | publish (introset : EncryptedIntroSet) (cause : ℕ)

structure IntroTX where
  target : TXOwner
  localPath : PathID
  txid : ℕ
  job : IntroJob

structure Relay where
  ourKey : Key
  nodedb : NodeDB
  services : AList (fun _ : Key => EncryptedIntroSet) := ∅
  pending : TXHolder TXOwner IntroTX := {}
  ids : ℕ
  paths : List PathID := []

/-- a message between routers, with the number of the publication that it is part of or answers -/
inductive PeerMsg where
  | publishIntro (introset : EncryptedIntroSet) (txid cause : ℕ)
  | findIntro (location : Key) (txid : ℕ)
  | gotIntro (found : List EncryptedIntroSet) (txid : ℕ) (cause : Option ℕ)
deriving DecidableEq

inductive Out where
  | peer (dst : Key) (msg : PeerMsg)
  | path (path : PathID) (txid : ℕ) (found : List EncryptedIntroSet) (cause : Option ℕ)
  | stored (introset : EncryptedIntroSet) (cause : ℕ)
deriving DecidableEq

variable (c : Crypto) (now : Millis)

namespace Relay

/-! ## storage and transactions -/

variable (r : Relay)

def putNode (e : EncryptedIntroSet) : Relay :=
  match r.services.lookup e.derivedSigningKey with
  | none => { r with services := r.services.insert e.derivedSigningKey e }
  | some old =>
    if old.signedAt < e.signedAt then { r with services := r.services.insert e.derivedSigningKey e } else r

def closest (location : Key) : List Key :=
  (r.nodedb.findManyClosestTo location introSetStorageRedundancy).map fun rc => rc.pubkey

def answer (path : PathID) (txid : ℕ) (found : List EncryptedIntroSet) (cause : Option ℕ) : List Out :=
  if path ∈ r.paths then [.path path txid found cause] else []

def select (location : Key) (found : List EncryptedIntroSet) : List EncryptedIntroSet :=
  let values := found.filter fun e => e.verify c now && e.derivedSigningKey = location
  if values.isEmpty then [] else [Ordered.newest EncryptedIntroSet.signedAt {} values]

def sendReply (found : List EncryptedIntroSet) (t : IntroTX) : List Out :=
  match t.job with
  | .lookup location => r.answer t.localPath t.txid (select c now location found) none
  | .publish introset cause => r.answer t.localPath t.txid [introset] (some cause)

def inform (key : TXOwner) (found : List EncryptedIntroSet) : Relay × List Out :=
  let done := r.pending.inform key
  ({ r with pending := done.1 }, done.2.flatMap fun t => r.sendReply c now found t.2)

def start (askpeer : Key) (t : IntroTX) (msg : PeerMsg) : Relay × List Out :=
  let h := r.pending.newTX now ⟨askpeer, r.ids + 1⟩ t.target t requestTimeout
  ({ r with ids := r.ids + 1, pending := h.1 }, if h.2 then [.peer askpeer msg] else [])

def publishRelayed (path : PathID) (txid : ℕ) (introset : EncryptedIntroSet) (relayOrder cause : ℕ) :
    Relay × List Out :=
  let refused := (r, r.answer path txid [] (some cause))
  if !introset.verify c now then refused
  else if introset.isExpired (now + maxIntrosetTimeDelta) then refused
  else if (r.closest introset.derivedSigningKey).length ≠ introSetStorageRedundancy then refused
  else match (r.closest introset.derivedSigningKey)[relayOrder]? with
    | none => refused
    | some peer =>
      if peer = r.ourKey then
        (r.putNode introset, .stored introset cause :: r.answer path txid [introset] (some cause))
      else
        r.start now peer ⟨⟨peer, r.ids + 1⟩, path, txid, .publish introset cause⟩
          (.publishIntro introset (r.ids + 1) cause)

def findRelayed (path : PathID) (txid : ℕ) (location : Key) (relayOrder : ℕ) : Relay × List Out :=
  let refused := (r, r.answer path txid [] none)
  if (r.pending.tx.lookup ⟨r.ourKey, txid⟩).isSome then (r, [])
  else if isZero location then refused
  else if introSetStorageRedundancy ≤ relayOrder then refused
  else match (r.closest location)[relayOrder]? with
    | none => refused
    | some peer => r.start now peer ⟨⟨r.ourKey, txid⟩, path, txid, .lookup location⟩ (.findIntro location (r.ids + 1))

def publishDirect (sender : Key) (txid : ℕ) (introset : EncryptedIntroSet) (cause : ℕ) : Relay × List Out :=
  let refused := (r, [Out.peer sender (.gotIntro [] txid (some cause))])
  if !introset.verify c now then refused
  else if introset.isExpired (now + maxIntrosetTimeDelta) then refused
  else if (r.closest introset.derivedSigningKey).length ≠ introSetStorageRedundancy then refused
  else if r.ourKey ∈ r.closest introset.derivedSigningKey then
    (r.putNode introset, [.stored introset cause, .peer sender (.gotIntro [introset] txid (some cause))])
  -- there is no reply to a message that came to the wrong router
  else (r, [])

def findDirect (sender : Key) (txid : ℕ) (location : Key) : Relay × List Out :=
  if (r.pending.tx.lookup ⟨sender, txid⟩).isSome then (r, [])
  else if isZero location then (r, [.peer sender (.gotIntro [] txid none)])
  else (r, [.peer sender (.gotIntro (r.services.lookup location).toList txid none)])

def gotIntro (sender : Key) (txid : ℕ) (found : List EncryptedIntroSet) : Relay × List Out :=
  if found.all fun e => e.verify c now then
    match r.pending.tx.lookup ⟨sender, txid⟩ with
    | none => (r, [])
    | some t => r.inform c now t.target found
  else (r, [])

def expire : Relay × List Out :=
  let done := r.pending.expire now
  ({ r with pending := done.1 }, done.2.flatMap fun t => r.sendReply c now [] t.2)

def expiredServices : List Key := (r.services.entries.filter fun e => e.2.isExpired now).map Sigma.fst

def cleanServices : Relay :=
  { r with services := (r.expiredServices now).foldl (fun m k => m.erase k) r.services }

variable {c now} {r r' : Relay} {path : PathID} {txid cause relayOrder : ℕ} {introset : EncryptedIntroSet}
  {location sender : Key} {found : List EncryptedIntroSet} {outs : List Out}

variable {P : Relay × List Out → Prop}

lemma publishRelayed_ind (hrefused : P (r, r.answer path txid [] (some cause)))
    (hstored : P (r.putNode introset, .stored introset cause :: r.answer path txid [introset] (some cause)))
    (hstart : ∀ peer, peer ≠ r.ourKey → P (r.start now peer ⟨⟨peer, r.ids + 1⟩, path, txid, .publish introset cause⟩
      (.publishIntro introset (r.ids + 1) cause))) :
    P (r.publishRelayed c now path txid introset relayOrder cause) := by
  unfold publishRelayed
  split
  · exact hrefused
  split
  · exact hrefused
  split
  · exact hrefused
  split
  · exact hrefused
  split
  · exact hstored
  · rename_i peer _ hne
    exact hstart peer hne

variable {peer : Key}

lemma publishRelayed_eq (hv : introset.verify c now = true)
    (he : introset.isExpired (now + maxIntrosetTimeDelta) = false)
    (hlen : (r.closest introset.derivedSigningKey).length = introSetStorageRedundancy)
    (hpeer : (r.closest introset.derivedSigningKey)[relayOrder]? = some peer) :
    r.publishRelayed c now path txid introset relayOrder cause =
      if peer = r.ourKey then
        (r.putNode introset, .stored introset cause :: r.answer path txid [introset] (some cause))
      else
        r.start now peer ⟨⟨peer, r.ids + 1⟩, path, txid, .publish introset cause⟩
          (.publishIntro introset (r.ids + 1) cause) := by
  unfold publishRelayed
  simp only [hv, he, hlen, hpeer, Bool.not_true, Bool.false_eq_true, if_false, ne_eq, not_true_eq_false]

lemma findRelayed_ind (hsilent : P (r, [])) (hrefused : P (r, r.answer path txid [] none))
    (hstart : ∀ peer, P (r.start now peer ⟨⟨r.ourKey, txid⟩, path, txid, .lookup location⟩
      (.findIntro location (r.ids + 1)))) : P (r.findRelayed now path txid location relayOrder) := by
  unfold findRelayed
  split
  · exact hsilent
  split
  · exact hrefused
  split
  · exact hrefused
  split
  · exact hrefused
  · exact hstart _

lemma findRelayed_eq (hnone : r.pending.tx.lookup ⟨r.ourKey, txid⟩ = none)
    (hnz : isZero location = false) (hpeer : (r.closest location)[relayOrder]? = some peer)
    (horder : relayOrder < introSetStorageRedundancy) :
    r.findRelayed now path txid location relayOrder =
      r.start now peer ⟨⟨r.ourKey, txid⟩, path, txid, .lookup location⟩ (.findIntro location (r.ids + 1)) := by
  unfold findRelayed
  simp only [hnone, hnz, hpeer, Option.isSome_none, Bool.false_eq_true, if_false, not_le.mpr horder]

lemma publishDirect_ind (hsilent : P (r, [])) (hrefused : P (r, [.peer sender (.gotIntro [] txid (some cause))]))
    (hstored : P (r.putNode introset,
      [.stored introset cause, .peer sender (.gotIntro [introset] txid (some cause))])) :
    P (r.publishDirect c now sender txid introset cause) := by
  unfold publishDirect
  split
  · exact hrefused
  split
  · exact hrefused
  split
  · exact hrefused
  split
  · exact hstored
  · exact hsilent

lemma publishDirect_eq (hv : introset.verify c now = true)
    (he : introset.isExpired (now + maxIntrosetTimeDelta) = false)
    (hlen : (r.closest introset.derivedSigningKey).length = introSetStorageRedundancy)
    (hmem : r.ourKey ∈ r.closest introset.derivedSigningKey) :
    r.publishDirect c now sender txid introset cause =
      (r.putNode introset, [.stored introset cause, .peer sender (.gotIntro [introset] txid (some cause))]) := by
  unfold publishDirect
  simp only [hv, he, hlen, hmem, Bool.not_true, Bool.false_eq_true, if_false, if_true, ne_eq, not_true_eq_false]

lemma findDirect_ind (hsilent : P (r, []))
    (hfound : ∀ found, P (r, [.peer sender (.gotIntro found txid none)])) : P (r.findDirect sender txid location) := by
  unfold findDirect
  split
  · exact hsilent
  split <;> exact hfound _

lemma gotIntro_ind (hsilent : P (r, []))
    (hinform : ∀ t, r.pending.tx.lookup ⟨sender, txid⟩ = some t → P (r.inform c now t.target found)) :
    P (r.gotIntro c now sender txid found) := by
  unfold gotIntro
  split
  · split
    · exact hsilent
    · rename_i t ht
      exact hinform t ht
  · exact hsilent

def Kinds (ourKey : Key) (o : TXOwner) (t : IntroTX) : Prop :=
  match t.job with
  | .publish _ _ => t.target = o ∧ o.node ≠ ourKey
  | .lookup _ => t.target.node = ourKey

structure Sound (r : Relay) : Prop where
  keyed : TXHolder.Keyed IntroTX.target r.ids r.pending
  kinds : ∀ o t, r.pending.tx.lookup o = some t → Kinds r.ourKey o t
  keys : ∀ w ∈ r.pending.waiting, w.1.node = r.ourKey ∨ w.1 = w.2

lemma Sound.empty {r : Relay} (h : r.pending = {}) : r.Sound where
  keyed := by
    rw [h]
    exact ⟨fun _ _ _ hw => absurd hw not_mem_nil, fun _ _ ho => (nomatch ho),
      fun _ hw => absurd hw not_mem_nil, fun _ _ ho => (nomatch ho)⟩
  kinds _ _ ho := by
    rw [h] at ho
    cases ho
  keys _ hw := by
    rw [h] at hw
    cases hw

structure Grows (r r' : Relay) : Prop where
  ourKey : r'.ourKey = r.ourKey
  ids : r.ids ≤ r'.ids
  added : ∀ o t, r'.pending.tx.lookup o = some t → r.pending.tx.lookup o = some t ∨ r.ids < o.txid

lemma Grows.refl (r : Relay) : Grows r r := ⟨rfl, le_refl _, fun _ _ ho => .inl ho⟩

lemma putNode_eq (r : Relay) (e : EncryptedIntroSet) : ∃ services, r.putNode e = { r with services } := by
  unfold putNode
  split
  · exact ⟨_, rfl⟩
  split <;> exact ⟨_, rfl⟩

@[simp] lemma putNode_pending (e : EncryptedIntroSet) : (r.putNode e).pending = r.pending := by
  obtain ⟨_, h⟩ := r.putNode_eq e
  rw [h]

@[simp] lemma putNode_paths (e : EncryptedIntroSet) : (r.putNode e).paths = r.paths := by
  obtain ⟨_, h⟩ := r.putNode_eq e
  rw [h]

lemma Sound.fresh (hr : r.Sound) (node : Key) : r.pending.tx.lookup ⟨node, r.ids + 1⟩ = none := by
  cases hx : r.pending.tx.lookup (⟨node, r.ids + 1⟩ : TXOwner) with
  | none => rfl
  | some => exact absurd (hr.keyed.tx_le _ _ hx) (not_succ_le_self _)

lemma Sound.waitingFor_fresh (hr : r.Sound) {node : Key} (hne : node ≠ r.ourKey) :
    r.pending.waitingFor ⟨node, r.ids + 1⟩ = [] := by
  apply eq_nil_iff_forall_not_mem.mpr
  intro o ho
  have hw := mem_waitingFor.mp ho
  rcases hr.keys _ hw with hnode | hkey
  · exact hne hnode
  have hle := hr.keyed.waiting_le _ hw
  rw [← hkey] at hle
  exact absurd hle (not_succ_le_self _)

variable {askpeer : Key} {msg : PeerMsg} {t : IntroTX}

lemma start_lookup {t' : IntroTX} {o : TXOwner} (hr : r.Sound)
    (ho : (r.start now askpeer t msg).1.pending.tx.lookup o = some t') :
    (o = ⟨askpeer, r.ids + 1⟩ ∧ t' = t) ∨ r.pending.tx.lookup o = some t' := by
  have hfresh := hr.fresh askpeer
  change (r.pending.newTX now ⟨askpeer, r.ids + 1⟩ t.target t _).1.tx.lookup o = some t' at ho
  unfold newTX at ho
  rw [hfresh] at ho
  by_cases heq : o = ⟨askpeer, r.ids + 1⟩
  · rw [heq, AList.lookup_insert] at ho
    exact .inl ⟨heq, (Option.some.inj ho).symm⟩
  · rw [AList.lookup_insert_ne heq] at ho
    exact .inr ho

lemma Grows.start (hr : r.Sound) : Grows r (r.start now askpeer t msg).1 where
  ourKey := rfl
  ids := le_succ _
  added := by
    intro o _ ho
    rcases start_lookup hr ho with ⟨rfl, -⟩ | ho
    · exact .inr (lt_succ_self _)
    · exact .inl ho

lemma Sound.start (hr : r.Sound)
    (ht : Kinds r.ourKey ⟨askpeer, r.ids + 1⟩ t) : (r.start now askpeer t msg).1.Sound where
  keyed := hr.keyed.newTX
  kinds := by
    intro o t' ho
    rcases start_lookup hr ho with ⟨rfl, rfl⟩ | ho
    · exact ht
    · exact hr.kinds o t' ho
  keys := by
    intro w hw
    rcases mem_append.mp hw with hw | hw
    · exact hr.keys w hw
    cases mem_singleton.mp hw
    unfold Kinds at ht
    split at ht
    · exact .inr ht.1
    · exact .inl ht

lemma Grows.inform (r : Relay) (key : TXOwner) (found : List EncryptedIntroSet) :
    Grows r (r.inform c now key found).1 where
  ourKey := rfl
  ids := le_refl _
  added := fun _ _ ho => .inl (inform_keeps rfl ho)

lemma Sound.inform (hr : r.Sound) (key : TXOwner) (found : List EncryptedIntroSet) :
    (r.inform c now key found).1.Sound where
  keyed := hr.keyed.inform key
  kinds := fun o t ho => hr.kinds o t (inform_keeps rfl ho)
  keys := fun w hw => hr.keys w ((inform_waiting r.pending key).mp hw).1

lemma Grows.expire (r : Relay) : Grows r (r.expire c now).1 where
  ourKey := rfl
  ids := le_refl _
  added := fun _ _ ho => .inl (expire_lookup ho)

lemma Sound.expire (hr : r.Sound) : (r.expire c now).1.Sound where
  keyed := hr.keyed.expire now
  kinds := fun o t ho => hr.kinds o t (expire_lookup ho)
  keys := fun w hw => hr.keys w (expire_waiting hw)

structure Lawful (r r' : Relay) : Prop where
  grows : r.Grows r'
  sound : r'.Sound

section
variable (hr : r.Sound)
include hr

lemma Lawful.refl : r.Lawful r := ⟨Grows.refl r, hr⟩

lemma Lawful.same (hkey : r'.ourKey = r.ourKey) (hids : r.ids ≤ r'.ids)
    (hpending : r'.pending = r.pending) : r.Lawful r' where
  grows := ⟨hkey, hids, fun o t ho => .inl (by rwa [hpending] at ho)⟩
  sound := by
    refine ⟨?_, ?_, ?_⟩
    · rw [hpending]
      exact hr.keyed.mono hids
    · rw [hpending, hkey]
      exact hr.kinds
    · rw [hpending, hkey]
      exact hr.keys

lemma Lawful.putNode (e : EncryptedIntroSet) : r.Lawful (r.putNode e) := by
  obtain ⟨_, h⟩ := r.putNode_eq e
  rw [h]
  exact .same hr rfl (le_refl _) rfl

lemma publishRelayed_lawful : r.Lawful (r.publishRelayed c now path txid introset relayOrder cause).1 :=
  publishRelayed_ind (P := fun x => r.Lawful x.1) (.refl hr) (.putNode hr introset)
    fun _ hne => ⟨.start hr, hr.start ⟨rfl, hne⟩⟩

lemma findRelayed_lawful : r.Lawful (r.findRelayed now path txid location relayOrder).1 :=
  findRelayed_ind (P := fun x => r.Lawful x.1) (.refl hr) (.refl hr) fun _ => ⟨.start hr, hr.start rfl⟩

end

end Relay

end Belnet.Dht
