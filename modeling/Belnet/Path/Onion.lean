import Belnet.Path.Messages

/-!
# Onion layers of relayed traffic

`UpstreamWork` and `DownstreamWork` of `llarp/path/path.cpp` and `llarp/path/transit_hop.cpp`, and
the messages between them.

* `ClientHops`, `RelayHop`  the two ends of the layers, with the work done on a queue of messages;
* `upstream`, `downstream`  what arrives at the last hop, and at the client;
* `onion_cancels`  payloads that fit into a relay message arrive as they were sent;
* `upstream_too_long`  longer ones arrive empty.
-/

namespace Belnet
open List

lemma foldl_cancel {α ι : Type} {f : α → ι → α} (hinv : ∀ x i, f (f x i) i = x)
    (hcomm : ∀ x i j, f (f x i) j = f (f x j) i) (l : List ι) (x : α) : l.foldl f (l.foldl f x) = x := by
  have hmove : ∀ (l : List ι) (x : α) (i : ι), l.foldl f (f x i) = f (l.foldl f x) i := by
    intro l
    induction l with
    | nil => exact fun _ _ => rfl
    | cons j l ih =>
      intro x i
      rw [foldl_cons, hcomm, ih, foldl_cons]
  induction l generalizing x with
  | nil => rfl
  | cons i l ih => rw [foldl_cons, foldl_cons, hmove l x i, hinv, ih]

namespace Path
open Iwp hiding RouterContact

def xor (a b : AlignedBuffer 32) : AlignedBuffer 32 := Vector.map₂ (· ^^^ ·) a b

lemma xor_xor_cancel (a b : AlignedBuffer 32) : xor (xor a b) b = a := by
  apply List.Vector.ext
  intro i
  unfold xor
  rw [Vector.get_map₂, Vector.get_map₂, UInt8.xor_assoc, UInt8.xor_self, UInt8.xor_zero]

/-! ## the model -/

abbrev Keystream := SharedSecret → TunnelNonce → ℕ → ℕ → UInt8

variable (ks : Keystream)

def xchacha20 (b : Bytes) (k : SharedSecret) (n : TunnelNonce) : Bytes :=
  xorStream (ks k n b.length) b

abbrev TrafficEvent := Bytes × TunnelNonce

/-- the capacity of `X` of a relay message -/
abbrev maxRelayPayload : ℕ := maxLinkMsgSize - 128

structure RelayMessage where
  pathid : PathID
  X : Bytes
  Y : TunnelNonce

/-- `msg.X = buf`: a buffer that is too long is not copied -/
def encrypted (buf : Bytes) : Bytes := if buf.length ≤ maxRelayPayload then buf else []

def RelayMessage.event (m : RelayMessage) : TrafficEvent := (m.X, m.Y)

structure ClientHops where
  first : PathHopConfig
  rest : List PathHopConfig

namespace ClientHops

def hops (p : ClientHops) : List PathHopConfig := p.first :: p.rest

def upstreamLayer (r : Bytes × TunnelNonce) (hop : PathHopConfig) : Bytes × TunnelNonce :=
  (xchacha20 ks r.1 hop.shared r.2, xor r.2 hop.nonceXOR)

def upstreamWork (p : ClientHops) (msgs : List TrafficEvent) : List RelayMessage :=
  msgs.map fun ev => ⟨p.first.txID, encrypted (p.hops.foldl (upstreamLayer ks) ev).1, ev.2⟩

def downstreamLayer (r : Bytes × TunnelNonce) (hop : PathHopConfig) : Bytes × TunnelNonce :=
  let y := xor r.2 hop.nonceXOR
  (xchacha20 ks r.1 hop.shared y, y)

def downstreamWork (p : ClientHops) (msgs : List TrafficEvent) : List RelayMessage :=
  msgs.map fun ev =>
    let r := p.hops.foldl (downstreamLayer ks) ev
    ⟨.zero 16, encrypted r.1, r.2⟩

end ClientHops

/-- a transit hop with the places left in `m_UpstreamGather`, none when disabled, and whether `m_DownstreamGather` is
enabled -/
structure RelayHop extends TransitHop where
  room : ℕ
  enabled : Bool

namespace RelayHop

def upstreamMessage (hop : RelayHop) (ev : TrafficEvent) : RelayMessage :=
  ⟨hop.info.txID, encrypted (xchacha20 ks ev.1 hop.pathKey ev.2), xor ev.2 hop.nonceXOR⟩

def upstreamWork (hop : RelayHop) (msgs : List TrafficEvent) : List RelayMessage :=
  (msgs.map (hop.upstreamMessage ks)).take hop.room

def downstreamMessage (hop : RelayHop) (ev : TrafficEvent) : RelayMessage :=
  ⟨hop.info.rxID, encrypted (xchacha20 ks ev.1 hop.pathKey ev.2), xor ev.2 hop.nonceXOR⟩

def downstreamWork (hop : RelayHop) (msgs : List TrafficEvent) : List RelayMessage :=
  if hop.enabled then msgs.map (hop.downstreamMessage ks) else []

end RelayHop

def relayUpstream (hops : List RelayHop) (msgs : List TrafficEvent) : List TrafficEvent :=
  hops.foldl (fun msgs hop => (hop.upstreamWork ks msgs).map RelayMessage.event) msgs

def relayDownstream (hops : List RelayHop) (msgs : List TrafficEvent) : List TrafficEvent :=
  hops.foldr (fun hop msgs => (hop.downstreamWork ks msgs).map RelayMessage.event) msgs

def upstream (p : ClientHops) (hops : List RelayHop) (msgs : List TrafficEvent) : List Bytes :=
  (relayUpstream ks hops ((p.upstreamWork ks msgs).map RelayMessage.event)).map Prod.fst

def downstream (p : ClientHops) (hops : List RelayHop) (msgs : List TrafficEvent) : List Bytes :=
  (p.downstreamWork ks (relayDownstream ks hops msgs)).map RelayMessage.X

def Agrees (c : PathHopConfig) (hop : RelayHop) : Prop := c.shared = hop.pathKey ∧ c.nonceXOR = hop.nonceXOR

@[simp] lemma xchacha20_length (b : Bytes) (k : SharedSecret) (n : TunnelNonce) :
    (xchacha20 ks b k n).length = b.length := xorStream_length _ _

lemma xchacha20_cancel (b : Bytes) (k : SharedSecret) (n : TunnelNonce) :
    xchacha20 ks (xchacha20 ks b k n) k n = b := by
  unfold xchacha20
  rw [xorStream_length, xorStream_twice]

lemma xchacha20_comm (b : Bytes) (k k' : SharedSecret) (n n' : TunnelNonce) :
    xchacha20 ks (xchacha20 ks b k n) k' n' = xchacha20 ks (xchacha20 ks b k' n') k n := by
  unfold xchacha20 xorStream
  rw [mapIdx_mapIdx, mapIdx_mapIdx]
  refine congrArg (fun f => mapIdx f b) ?_
  funext i x
  simp only [Function.comp, length_mapIdx, UInt8.xor_assoc]
  rw [UInt8.xor_comm (ks k n b.length i)]

variable {b : Bytes}

lemma encrypted_fits (h : b.length ≤ maxRelayPayload) : encrypted b = b := if_pos h

def layers : List (SharedSecret × ShortHash) → TunnelNonce → List (SharedSecret × TunnelNonce)
  | [], _ => []
  | (k, x) :: hops, n => (k, n) :: layers hops (xor n x)

def crypt (b : Bytes) (layer : SharedSecret × TunnelNonce) : Bytes := xchacha20 ks b layer.1 layer.2

lemma crypt_length (ls : List (SharedSecret × TunnelNonce)) (b : Bytes) :
    (ls.foldl (crypt ks) b).length = b.length := by
  induction ls generalizing b with
  | nil => rfl
  | cons l ls ih => rw [foldl_cons, ih, crypt, xchacha20_length]

lemma upstreamLayer_foldl (hops : List PathHopConfig) (b : Bytes) (n : TunnelNonce) :
    (hops.foldl (ClientHops.upstreamLayer ks) (b, n)).1 =
      (layers (hops.map fun c => (c.shared, c.nonceXOR)) n).foldl (crypt ks) b := by
  induction hops generalizing b n with
  | nil => rfl
  | cons c hops ih => exact ih (xchacha20 ks b c.shared n) (xor n c.nonceXOR)

lemma upstreamMessage_foldl (hops : List RelayHop) (n : TunnelNonce) (hb : b.length ≤ maxRelayPayload) :
    (hops.foldl (fun ev hop => (hop.upstreamMessage ks ev).event) (b, n)).1 =
      (layers (hops.map fun hop => (hop.pathKey, hop.nonceXOR)) n).foldl (crypt ks) b := by
  induction hops generalizing b n with
  | nil => rfl
  | cons hop hops ih =>
    have hb' : (xchacha20 ks b hop.pathKey n).length ≤ maxRelayPayload := by rwa [xchacha20_length]
    have hmsg : (hop.upstreamMessage ks (b, n)).event = (xchacha20 ks b hop.pathKey n, xor n hop.nonceXOR) := by
      unfold RelayHop.upstreamMessage RelayMessage.event
      rw [encrypted_fits hb']
    rw [foldl_cons, hmsg, ih _ hb']
    rfl

variable {hops : List RelayHop} {cs : List PathHopConfig}

lemma Agrees.keys (h : Forall₂ Agrees cs hops) :
    (cs.map fun c => (c.shared, c.nonceXOR)) = hops.map fun hop => (hop.pathKey, hop.nonceXOR) := by
  induction h with
  | nil => rfl
  | cons hagree _ ih => rw [map_cons, map_cons, ih, hagree.1, hagree.2]

lemma upstream_event (h : Forall₂ Agrees cs hops) (n : TunnelNonce) (hb : b.length ≤ maxRelayPayload) :
    (hops.foldl (fun ev hop => (hop.upstreamMessage ks ev).event)
      (encrypted (cs.foldl (ClientHops.upstreamLayer ks) (b, n)).1, n)).1 = b := by
  have hlen : ((layers (cs.map fun c => (c.shared, c.nonceXOR)) n).foldl (crypt ks) b).length ≤ maxRelayPayload := by
    rwa [crypt_length]
  rw [upstreamLayer_foldl, encrypted_fits hlen, upstreamMessage_foldl ks hops n hlen, Agrees.keys h]
  exact foldl_cancel (fun x l => xchacha20_cancel ks x l.1 l.2) (fun x l l' => xchacha20_comm ks x l.1 l'.1 l.2 l'.2) _ b

def passed {α : Type} (hops : List RelayHop) (l : List α) : List α := hops.foldl (fun l hop => l.take hop.room) l

lemma passed_map {α β : Type} (f : α → β) (hops : List RelayHop) (l : List α) :
    passed hops (l.map f) = (passed hops l).map f := by
  induction hops generalizing l with
  | nil => rfl
  | cons hop hops ih =>
    unfold passed at ih ⊢
    rw [foldl_cons, ← map_take, ih, foldl_cons]

lemma passed_prefix {α : Type} (hops : List RelayHop) (l : List α) : passed hops l <+: l := by
  induction hops generalizing l with
  | nil => exact prefix_refl l
  | cons hop hops ih => exact (ih (l.take hop.room)).trans (List.take_prefix hop.room l)

lemma passed_all {α : Type} {l : List α} (h : ∀ hop ∈ hops, l.length ≤ hop.room) : passed hops l = l := by
  induction hops with
  | nil => rfl
  | cons hop hops ih =>
    unfold passed at ih ⊢
    rw [foldl_cons, take_of_length_le (h hop mem_cons_self)]
    exact ih fun hop' hmem => h hop' (mem_cons_of_mem _ hmem)

lemma relayUpstream_eq (hops : List RelayHop) (msgs : List TrafficEvent) : relayUpstream ks hops msgs =
      (passed hops msgs).map fun ev => hops.foldl (fun ev hop => (hop.upstreamMessage ks ev).event) ev := by
  induction hops generalizing msgs with
  | nil => exact (map_id msgs).symm
  | cons hop hops ih =>
    have hhead : (hop.upstreamWork ks msgs).map RelayMessage.event =
        (msgs.take hop.room).map fun ev => (hop.upstreamMessage ks ev).event := by
      unfold RelayHop.upstreamWork
      rw [← map_take, map_map]
      rfl
    unfold relayUpstream at ih ⊢
    rw [foldl_cons, ih, hhead, passed_map, map_map]
    rfl

lemma downstreamMessage_event (hop : RelayHop) (n : TunnelNonce) (hb : b.length ≤ maxRelayPayload) :
    (hop.downstreamMessage ks (b, n)).event = (xchacha20 ks b hop.pathKey n, xor n hop.nonceXOR) := by
  unfold RelayHop.downstreamMessage RelayMessage.event
  rw [encrypted_fits (by rwa [xchacha20_length])]

lemma downstream_length (hops : List RelayHop) (n : TunnelNonce) (hb : b.length ≤ maxRelayPayload) :
    (hops.foldr (fun hop ev => (hop.downstreamMessage ks ev).event) (b, n)).1.length = b.length := by
  induction hops with
  | nil => rfl
  | cons hop hops ih =>
    rw [foldr_cons]
    generalize hops.foldr (fun hop ev => (hop.downstreamMessage ks ev).event) (b, n) = ev at ih ⊢
    obtain ⟨_, n'⟩ := ev
    rw [downstreamMessage_event ks hop n' (ih ▸ hb), xchacha20_length]
    exact ih

lemma downstream_event (h : Forall₂ Agrees cs hops) (n : TunnelNonce) (hb : b.length ≤ maxRelayPayload) :
    cs.foldl (ClientHops.downstreamLayer ks) (hops.foldr (fun hop ev => (hop.downstreamMessage ks ev).event) (b, n)) = (b, n) := by
  induction h with
  | nil => rfl
  | @cons c hop cs hops hagree _ ih =>
    have hlen := downstream_length ks hops n hb
    rw [foldr_cons, foldl_cons]
    generalize hops.foldr (fun hop ev => (hop.downstreamMessage ks ev).event) (b, n) = ev at ih hlen ⊢
    obtain ⟨b', n'⟩ := ev
    have hundo : ClientHops.downstreamLayer ks (hop.downstreamMessage ks (b', n')).event c = (b', n') := by
      rw [downstreamMessage_event ks hop n' (hlen ▸ hb)]
      unfold ClientHops.downstreamLayer
      dsimp only
      rw [hagree.1, hagree.2, xor_xor_cancel, xchacha20_cancel]
    rw [hundo, ih]

lemma relayDownstream_eq (h : ∀ hop ∈ hops, hop.enabled = true) (msgs : List TrafficEvent) :
    relayDownstream ks hops msgs =
      msgs.map fun ev => hops.foldr (fun hop ev => (hop.downstreamMessage ks ev).event) ev := by
  induction hops with
  | nil => exact (map_id msgs).symm
  | cons hop hops ih =>
    have hrest := ih fun hop' hmem => h hop' (mem_cons_of_mem _ hmem)
    unfold relayDownstream at hrest ⊢
    rw [foldr_cons, hrest]
    unfold RelayHop.downstreamWork
    rw [if_pos (h hop mem_cons_self), map_map, map_map]
    rfl

/-- Messages arrive as they were sent.  Upstream the last hop has the first of them, all when every hop has room;
downstream the client has all when no hop is disabled. -/
theorem onion_cancels {p : ClientHops} {hops : List RelayHop} (hagree : Forall₂ Agrees p.hops hops)
    {msgs : List TrafficEvent} (hfits : ∀ ev ∈ msgs, ev.1.length ≤ maxRelayPayload) :
    upstream ks p hops msgs <+: msgs.map Prod.fst ∧
      ((∀ hop ∈ hops, msgs.length ≤ hop.room) → upstream ks p hops msgs = msgs.map Prod.fst) ∧
      ((∀ hop ∈ hops, hop.enabled = true) → downstream ks p hops msgs = msgs.map Prod.fst) := by
  have hup : upstream ks p hops msgs = passed hops (msgs.map Prod.fst) := by
    unfold upstream ClientHops.upstreamWork
    rw [relayUpstream_eq, map_map, map_map, passed_map, passed_map, map_map]
    refine map_congr_left fun ev hev => ?_
    exact upstream_event ks hagree ev.2 (hfits ev ((Path.passed_prefix hops msgs).subset hev))
  refine ⟨?_, ?_, ?_⟩
  · rw [hup]
    exact passed_prefix hops _
  · intro hroom
    rw [hup]
    refine passed_all fun hop hmem => ?_
    rw [length_map]
    exact hroom hop hmem
  · intro henabled
    unfold downstream ClientHops.downstreamWork
    rw [relayDownstream_eq ks henabled, map_map, map_map]
    refine map_congr_left fun ev hev => ?_
    have hb := hfits ev hev
    show encrypted (p.hops.foldl (ClientHops.downstreamLayer ks)
      (hops.foldr (fun hop ev => (hop.downstreamMessage ks ev).event) (ev.1, ev.2))).1 = ev.1
    rw [downstream_event ks hagree ev.2 hb]
    exact encrypted_fits hb

/-- A payload that does not fit arrives empty, whatever hops it goes through. -/
lemma upstream_too_long (p : ClientHops) (hops : List RelayHop) (n : TunnelNonce)
    (hlong : maxRelayPayload < b.length) (hroom : ∀ hop ∈ hops, 1 ≤ hop.room) :
    upstream ks p hops [(b, n)] = [[]] := by
  have hclient : (p.upstreamWork ks [(b, n)]).map RelayMessage.event = [([], n)] := by
    have hlen : maxRelayPayload < (p.hops.foldl (ClientHops.upstreamLayer ks) (b, n)).1.length := by
      rwa [upstreamLayer_foldl, crypt_length]
    simp only [ClientHops.upstreamWork, map_cons, map_nil, RelayMessage.event, encrypted,
      if_neg (not_le.mpr hlen)]
  have hempty : (hops.foldl (fun ev hop => (hop.upstreamMessage ks ev).event) ([], n)).1 = [] := by
    rw [upstreamMessage_foldl ks hops n (Nat.zero_le _), ← length_eq_zero_iff, crypt_length]
    rfl
  unfold upstream
  rw [hclient, relayUpstream_eq, passed_all hroom, map_cons, map_cons, hempty]
  rfl

namespace OnionSample

/-- the client's side of a hop with the key `k` -/
def hop (k : UInt8) : PathHopConfig where
  txID := .ofBytes 16 [k]
  rxID := .ofBytes 16 [k + 100]
  rc :=
    { pubkey := .ofBytes 32 [k]
      addrs := []
      routerVersion := none
      rest := []
      enckey := .zero 32 }
  commkey := .zero 64
  shared := .ofBytes 32 [k, 7]
  nonceXOR := .ofBytes 32 [9, k]
  upstream := .zero 32
  nonce := .zero 32

def relay (k : UInt8) : RelayHop where
  info := ⟨.ofBytes 16 [k], .ofBytes 16 [k + 100], .zero 32, .zero 32⟩
  pathKey := .ofBytes 32 [k, 7]
  nonceXOR := .ofBytes 32 [9, k]
  started := 0
  lifetime := 0
  room := 2
  enabled := true

def client : ClientHops := ⟨hop 1, [hop 2, hop 3]⟩

def relays : List RelayHop := [relay 1, relay 2, relay 3]

/-- a stream that differs with the key, the nonce and the position -/
def stream : Keystream := fun k n _ i => k.head + 3 * n.head + .ofNat i

lemma agrees : Forall₂ Agrees client.hops relays :=
  .cons ⟨rfl, rfl⟩ (.cons ⟨rfl, rfl⟩ (.cons ⟨rfl, rfl⟩ .nil))

end OnionSample

open OnionSample in
theorem onion_cancels_three :
    upstream stream client relays [([1, 2, 3], .zero 32), ([4], .ofBytes 32 [5])] = [[1, 2, 3], [4]] ∧
      downstream stream client relays [([4, 5], .ofBytes 32 [8])] = [[4, 5]] := by
  refine ⟨(onion_cancels _ agrees ?_).2.1 ?_, (onion_cancels _ agrees ?_).2.2 ?_⟩ <;> decide

open OnionSample in
/-- a payload of one byte more than fits, over the same path -/
theorem onion_payload_lost : (replicate 8065 (1 : UInt8)).length = 8065 ∧
    upstream stream client relays [(replicate 8065 1, .zero 32)] = [[]] :=
  ⟨length_replicate, upstream_too_long _ _ _ _ (by rw [length_replicate]; decide) (by decide)⟩

end Path

end Belnet
