import Belnet.Dht.TXHolder
import Belnet.Lib.Ordered
import Belnet.Path.Messages

/-!
# Router contacts and the node database

`llarp/router_contact.cpp`, `llarp/nodedb.cpp` and the metric of `llarp/dht/kademlia.hpp`.
-/

namespace Belnet.Router
open Iwp hiding RouterContact
open Belnet.Path hiding RouterContact
open Dht List.Vector List

/-! ## contacts -/

structure RouterContact extends toPath : Path.RouterContact where
  netID : AlignedBuffer 8
  signature : Signature
  lastUpdated : Millis
  version : UInt64
  signedBtDict : Bytes
deriving DecidableEq

structure RouterEnv where
  crypto : Crypto
  defaultNetID : AlignedBuffer 8
  isBogon : SockAddr → Bool
  blockBogons : Bool
  encodeSigned : RouterContact → Option Bytes

abbrev rcLifetime : Millis := 24 * 60 * 60 * 1000

abbrev rcExpireAge : Millis := rcLifetime * 10

def netIDString (n : AlignedBuffer 8) : Bytes := n.toList.takeWhile (· ≠ 0)

namespace RouterContact

def new (env : RouterEnv) : RouterContact where
  pubkey := .zero 32
  addrs := []
  routerVersion := none
  rest := []
  enckey := .zero 32
  netID := env.defaultNetID
  signature := .zero 64
  lastUpdated := 0
  version := recordVersion
  signedBtDict := []

variable (env : RouterEnv) (rc : RouterContact) (now : Millis)

def fromOurNetwork : Bool := netIDString rc.netID = netIDString env.defaultNetID

def age : Millis := if rc.lastUpdated < now then now - rc.lastUpdated else 0

def isExpired : Bool := rcExpireAge ≤ rc.age now

def timeUntilExpires : Millis :=
  if now < rc.lastUpdated + rcLifetime then rc.lastUpdated + rcLifetime - now else 0

def expiresSoon : Bool := rc.timeUntilExpires now ≤ 60 * 1000

def otherIsNewer (other : RouterContact) : Bool := rc.lastUpdated < other.lastUpdated

def verifySignature : Bool :=
  if rc.version = 0 then
    match env.encodeSigned { rc with signature := .zero 64 } with
    | none => false
    | some b => env.crypto.verify rc.pubkey b rc.signature
  else if rc.version = 1 then env.crypto.verify rc.pubkey rc.signedBtDict rc.signature
  else false

/-- `Verify` with `allowExpired`, which every caller leaves at its default: the time is not looked at -/
def verify : Bool :=
  rc.fromOurNetwork env && !(rc.addrs.any fun a => env.isBogon a.addr && env.blockBogons) && rc.verifySignature env

end RouterContact

def Key.xor (a b : Key) : Key := map₂ (· ^^^ ·) a b

def distance (location k : Key) : ℕ := Bytes.loadBig (Key.xor k location).toList

lemma Key.xor_cancel {a b c : Key} (h : Key.xor a c = Key.xor b c) : a = b := by
  apply ext
  intro i
  have hi : (Key.xor a c).get i = (Key.xor b c).get i := by rw [h]
  unfold Key.xor at hi
  rw [get_map₂, get_map₂] at hi
  have hx := congrArg (· ^^^ c.get i) hi
  simpa [UInt8.xor_assoc] using hx

lemma distance_inj {location a b : Key} (h : distance location a = distance location b) : a = b := by
  apply Key.xor_cancel (c := location)
  apply List.Vector.eq
  exact Bytes.loadBig_inj (by simp) h

/-! ## the database -/

structure Entry where
  rc : RouterContact
  insertedAt : Millis

lemma keyed_empty (k : RouterID) (e : Entry) (h : (∅ : AList fun _ : RouterID => Entry).lookup k = some e) :
    e.rc.pubkey = k := by simp at h

structure NodeDB where
  entries : AList (fun _ : RouterID => Entry) := ∅
  keyed : ∀ k e, entries.lookup k = some e → e.rc.pubkey = k := by exact keyed_empty

namespace NodeDB
variable (db : NodeDB) (now : Millis) (rc : RouterContact)

def get (pk : RouterID) : Option RouterContact := (db.entries.lookup pk).map Entry.rc

def put : NodeDB where
  entries := db.entries.insert rc.pubkey ⟨rc, now⟩
  keyed := by
    intro k e h
    by_cases hk : k = rc.pubkey
    · subst hk
      rw [AList.lookup_insert] at h
      rw [← Option.some.inj h]
    · rw [AList.lookup_insert_ne hk] at h
      exact db.keyed k e h

def accepts : Bool :=
  match db.get rc.pubkey with
  | none => true
  | some old => old.otherIsNewer rc

def putIfNewer : NodeDB := if db.accepts rc then db.put now rc else db

def remove (pk : RouterID) : NodeDB where
  entries := db.entries.erase pk
  keyed := by
    intro k e h
    by_cases hk : k = pk
    · subst hk
      rw [AList.lookup_erase] at h
      cases h
    · rw [AList.lookup_erase_ne hk] at h
      exact db.keyed k e h

def stale (keep : List RouterID) (cutoff : Millis) : List RouterID :=
  (db.entries.entries.filter fun e => e.2.insertedAt < cutoff ∧ e.2.rc.pubkey ∉ keep).map Sigma.fst

def removeStaleRCs (keep : List RouterID) (cutoff : Millis) : NodeDB := (db.stale keep cutoff).foldl remove db

def all : List RouterContact := db.entries.entries.map fun e => e.2.rc

variable (location : Key)

def closer (rc other : RouterContact) : RouterContact :=
  if isZero rc.pubkey then other
  else if distance location other.pubkey < distance location rc.pubkey then other
  else rc

def findClosestTo (env : RouterEnv) (location : Key) : RouterContact := db.all.foldl (closer location) (.new env)

def findManyClosestTo (numRouters : ℕ) : List RouterContact :=
  (Ordered.setOf (fun rc => distance location rc.pubkey) db.all).take numRouters

lemma mem_entries_keyed {e : Sigma fun _ : RouterID => Entry} (he : e ∈ db.entries.entries) : e.2.rc.pubkey = e.1 :=
  db.keyed e.1 e.2 (AList.mem_lookup_iff.mpr he)

lemma pairwise_all : db.all.Pairwise fun a b => distance location a.pubkey ≠ distance location b.pubkey := by
  refine pairwise_map.mpr ?_
  have hnodup := nodupKeys_iff_pairwise.mp db.entries.nodupKeys
  refine hnodup.imp_of_mem ?_
  intro a b ha hb hne heq
  have hab := distance_inj heq
  rw [db.mem_entries_keyed ha, db.mem_entries_keyed hb] at hab
  exact hne hab

lemma length_findMany (k : ℕ) : (db.findManyClosestTo location k).length = min k db.all.length := by
  unfold findManyClosestTo
  rw [length_take, Ordered.length_setOf (db.pairwise_all location)]

end NodeDB

end Belnet.Router
