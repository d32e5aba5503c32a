import Belnet.Routing.Messages
import Belnet.Messages.Survive

/-!
# Routing messages survive the wire

A message is written by a table and read by another: they agree by `columns`, and the values come back by `Ty.sent`.

* `verify_of_sign`  what `Sign` signs, `Verify` accepts;
* `messages_survive_iff`  every message comes back but the update of an exit.
-/

namespace Belnet.Routing
open Iwp hiding RouterContact
open Util Decimal List Function Option Schema Prod Reads
open Belnet.Path (recordVersion isZero)
open Messages (readVector loggedSink readVector_all)

lemma travels_encrypted {n : ℕ} (hn : n < 10^9) (x : { x : Bytes // x.length ≤ n }) :
    Travels (readEncrypted n) (writeBytestring x.1) x (str x.1) where
  appends := (prints_writeBytestring x.1).appends
  back := by
    intro rest
    have hx := x.2
    have hstorage : ¬ storage n < x.1.length := by
      unfold storage
      omega
    unfold readEncrypted
    rw [readString_str (by omega) rest]
    dsimp only
    rw [if_neg hstorage, dif_pos x.2]
  skipped := skipped_str (by have := x.2; omega)
  start := str_opens x.1

variable {α : Type}

lemma travels_vector {read : Bytes → Decoded α} {write : α → Writer} {l : List α}
    (h : ∀ a ∈ l, ∃ t, Travels read (write a) a t) : ∃ t, Travels (readVector read []) ((vector read write).write l) l t := by
  classical
  -- items that are not in the list get some text, so that every text has a first byte
  let x : α → Bytes := fun a => if ha : ∃ t, Travels read (write a) a t then ha.choose else [100]
  have hx : ∀ a ∈ l, Travels read (write a) a (x a) := by
    intro a ha
    have hex := h a ha
    simp only [x, dif_pos hex]
    exact hex.choose_spec
  have hne : ∀ a, Opens (x a) := by
    intro a
    by_cases hex : ∃ t, Travels read (write a) a t
    · simp only [x, dif_pos hex]
      exact hex.choose_spec.start
    · simp only [x, dif_neg hex]
      exact ⟨100, [], rfl, by decide⟩
  refine ⟨108 :: (l.flatMap x ++ [101]), ?_, ?_, ?_, ⟨108, _, rfl, by decide⟩⟩
  · exact ((prints_write [108]).appends.seq (appends_writeAll fun a ha => (hx a ha).appends)).seq
      (prints_write [101]).appends
  · exact readVector_all read hne l fun a ha => (hx a ha).back
  · exact skipped_list hne l fun a ha => (hx a ha).skipped

section
variable {s : Schema} {o0 o : s.Object} {t : UInt8 → Bytes} {es : List (Entry × UInt8)}

lemma travels_object (hwrites : s.writes = es.map fst) (hnodup : (es.map snd).Nodup)
    (hsent : ∀ e ∈ es, s.Sent o0 o t e.2 e.1) (hrest : ∀ c, c ∉ es.map snd → o0 c = o c) :
    Travels ((nested s).read o0) (s.bencode o) o
      (100 :: (entriesText ((es.map fst).flatMap (s.pairs o t)) ++ [101])) where
  appends := by
    have happ := s.appends_entries (o := o) (t := t) (es.map fst) fun letter c hmem => by
      obtain ⟨e, he, heq⟩ := mem_map.mp hmem
      exact (hsent e he).appends letter c heq
    unfold bencode
    rw [hwrites]
    exact ((prints_write [100]).appends.seq happ).seq (prints_write [101]).appends
  back := by
    intro rest
    have hlift : ∀ (o : s.Object) key b o' r, s.decodeKey o key b = .ok (some (o', r)) →
        loggedSink s.decodeKey (id o) (some key) b = .ok (some (id o', r)) := by
      intro o key b o' r hok
      simp only [loggedSink, id, hok]
    have hreads := reads_entries hlift o t es o0 hnodup fun e he => (hsent e he).back
    rw [fill_eq hrest] at hreads
    exact hreads.dict rest
  skipped := by
    apply skipped_dict
    · intro p hp
      obtain ⟨e, he, hpe⟩ := mem_flatMap.mp hp
      rw [pairs_key p hpe]
      simp
    · intro p hp
      obtain ⟨e, he, hpe⟩ := mem_flatMap.mp hp
      obtain ⟨e', he', rfl⟩ := mem_map.mp he
      exact (hsent e' he').skipped p hpe
  start := ⟨100, _, rfl, by decide⟩

end

variable {c : UInt8}

lemma flats_nothing {l : List (UInt8 × Flat)} (h : l.lookup c = none) : flats l c = .nothing := by
  unfold flats
  rw [h]
  rfl

lemma travels_policy (p : policy.Object) : ∃ t, Travels readPolicy (policy.bencode p) p t := by
  have hfields : ∀ c ∈ [97, 98, 100, versionField], ∃ t,
      Travels ((policy.field c).read (policy.new c)) ((policy.field c).write (p c)) (p c) t := by
    simp only [forall_mem_cons]
    exact ⟨⟨_, travels_int rfl⟩, ⟨_, travels_int rfl⟩, ⟨_, travels_int rfl⟩, ⟨_, travels_int rfl⟩, nofun⟩
  choose! t ht using hfields
  let es : List (Entry × UInt8) := [(.field 97 97, 97), (.field 98 98, 98), (.field 100 100, 100),
    (.field 118 versionField, versionField)]
  have hsent : ∀ e ∈ es, policy.Sent policy.new p t e.2 e.1 := by
    simp only [es, forall_mem_cons]
    exact ⟨⟨rfl, rfl, nofun, ht 97 (by decide)⟩, ⟨rfl, rfl, nofun, ht 98 (by decide)⟩,
      ⟨rfl, rfl, nofun, ht 100 (by decide)⟩, ⟨rfl, rfl, nofun, ht versionField (by decide)⟩,
      nofun⟩
  have hrest : ∀ c, c ∉ es.map snd → policy.new c = p c := by
    intro c hc
    have hne : c ≠ 97 ∧ c ≠ 98 ∧ c ≠ 100 ∧ c ≠ versionField := by simpa [es] using hc
    obtain ⟨h97, h98, h100, hversion⟩ := hne
    apply nothing_eq
    rw [field_of_ne hversion]
    apply flats_nothing
    simp [lookup, beq_false_of_ne h97, beq_false_of_ne h98, beq_false_of_ne h100]
  have hwrites : policy.writes = es.map fst := rfl
  exact ⟨_, travels_object hwrites (by decide) hsent hrest⟩

def Flat.plain : Flat → Bool
  | .int => true
  | .optionalInt => true
  | .protocol => true
  | .buffer n => n < 10^9
  | .optionalBuffer n => n < 10^9
  | .encrypted n => n < 10^9
  | .nothing => false
  | .tag _ => false

def Ty.plain : Ty → Bool
  | .flat f => f.plain
  | .policies => true
  | .packets => true
  | .dht => false
  | .frame => false

def Ty.reset : Ty → Bool
  | .flat .optionalInt => true
  | .flat (.optionalBuffer _) => true
  | .flat (.encrypted _) => true
  | .flat _ => false
  | .frame => false
  | _ => true

lemma eq_zero_of_isZero {n : ℕ} {b : AlignedBuffer n} (h : isZero b = true) : b = .zero n := of_decide_eq_true h

lemma Flat.sent {f : Flat} (hplain : f.plain = true) (x0 x : f.format.Val)
    (h0 : (Ty.flat f).reset = true → x0 = f.format.new) : ∃ b, f.format.Sends x0 x b := by
  cases f with
  | nothing | tag x => cases hplain
  | int | protocol => exact ⟨_, nofun, travels_int rfl⟩
  | optionalInt => exact ⟨_, fun h => (h0 rfl).trans (eq_of_beq h).symm, travels_int rfl⟩
  | buffer n => exact ⟨_, nofun, travels_buffer (of_decide_eq_true hplain) x⟩
  | optionalBuffer n =>
    exact ⟨_, fun h => (h0 rfl).trans (eq_zero_of_isZero h).symm, travels_buffer (of_decide_eq_true hplain) x⟩
  | encrypted n =>
    exact ⟨_, fun h => (h0 rfl).trans (Subtype.ext (isEmpty_iff.mp h).symm),
      travels_encrypted (of_decide_eq_true hplain) x⟩

section
variable (pq : ℕ) (dht : DhtCodec)

lemma Ty.sent {t : Ty} (hplain : t.plain = true) (x0 x : (t.format pq dht).Val)
    (h0 : t.reset = true → x0 = (t.format pq dht).new) : ∃ b, (t.format pq dht).Sends x0 x b := by
  cases t with
  | flat f => exact f.sent hplain x0 x h0
  | policies =>
    obtain ⟨b, hb⟩ := travels_vector (l := x) fun p _ => travels_policy p
    exact ⟨b, nofun, (h0 rfl).symm ▸ hb⟩
  | packets =>
    obtain ⟨b, hb⟩ := travels_vector (l := x) fun x _ => ⟨_, travels_encrypted (by decide) x⟩
    exact ⟨b, nofun, (h0 rfl).symm ▸ hb⟩
  | dht | frame => cases hplain

section
variable (k : Kind)

lemma slot_eq {k : Kind} (hk : k ≠ .frame) (c : UInt8) : (schema pq dht k).slot c = (fieldTy k c).format pq dht := by
  cases k with
  | frame => exact absurd rfl hk
  | _ => rfl

def writtenType : Kind → UInt8
  | .discard => 68
  | .latency => 76
  | .dht => 77
  | .confirm => 80
  | .transfer => 84
  | .frame => 72
  | .traffic => 73
  | .grant => 71
  | .reject => 74
  | .obtain => 79
  | .update => 86
  | .close => 67

def columns : List (Entry × UInt8) :=
  (schema pq dht k).writes.tail.map fun e => (e, ((schema pq dht k).row [e.letter]).getD 0)

lemma writes_eq : (schema pq dht k).writes = .text 65 [writtenType k] :: (columns pq dht k).map fst := by
  cases k <;> rfl

lemma columns_nodup : ((columns pq dht k).map snd).Nodup := by cases k <;> exact of_decide_eq_true rfl

def nestedField : Kind → Option UInt8
  | .dht => some 77
  | .transfer => some 84
  | _ => none

/-- an entry is read into the field it was written from, in a plain format or that of nested messages, and written
numbers are the current version -/
def placed : Entry × UInt8 → Bool
  | (.field letter c, d) => c == d && (schema pq dht k).row [letter] == some c &&
    (c == versionField || (fieldTy k c).plain && letter != 86 || some c == nestedField k && letter != 86)
  | (.int letter i, d) => letter == 86 && i == 0 && (schema pq dht k).row [letter] == some d &&
    (d == versionField || k == .dht && d == 86)
  | (.text _ _, _) => false

lemma columns_placed {k : Kind} (hk : k ≠ .frame) : (columns pq dht k).all (placed pq dht k) = true := by
  cases k with
  | frame => exact absurd rfl hk
  | _ => rfl

lemma columns_complete {k : Kind} (hk : k ≠ .frame) (hk' : k ≠ .update) :
    (fieldList k).all (fun e => ((columns pq dht k).map snd).contains e.1) = true := by
  cases k with
  | frame => exact absurd rfl hk
  | update => exact absurd rfl hk'
  | _ => rfl

def Ready (o : (schema pq dht k).Object) : Prop :=
  ∀ c, c ≠ versionField → (fieldTy k c).reset = true → o c = (schema pq dht k).new c

lemma lookup_mem {l : List (UInt8 × α)} {x : α} (h : l.lookup c = some x) : (c, x) ∈ l := by
  induction l with
  | nil => cases h
  | cons e l ih =>
    obtain ⟨d, y⟩ := e
    rw [lookup_cons] at h
    split at h
    · rename_i heq
      cases h
      rw [eq_of_beq heq]
      exact mem_cons_self
    · exact mem_cons_of_mem _ (ih h)

lemma clears_reset {k : Kind} (hk : k ≠ .frame) :
    (fieldList k).all (fun e => !e.2.reset || (schema pq dht k).clears.contains e.1) = true := by
  cases k with
  | frame => exact absurd rfl hk
  | _ => rfl

lemma cleared_of_eq {f : Format} {t : Ty} (hf : f = t.format pq dht) (h : t.reset = true) (x : f.Val) :
    f.cleared x = f.new := by
  subst hf
  cases t with
  | flat f =>
    cases f with
    | nothing | tag x | protocol => cases h
    | _ => rfl
  | frame => cases h
  | _ => rfl

lemma ready_clear {k : Kind} (hk : k ≠ .frame) (o : (schema pq dht k).Object) :
    Ready pq dht k ((schema pq dht k).clear o) := by
  intro c hc hreset
  have hmem : c ∈ (schema pq dht k).clears := by
    cases hlook : (fieldList k).lookup c with
    | none =>
      rw [fieldTy, hlook] at hreset
      cases hreset
    | some t =>
      have hall := all_eq_true.mp (clears_reset pq dht hk) (c, t) (lookup_mem hlook)
      rw [fieldTy, hlook] at hreset
      replace hreset : t.reset = true := hreset
      rw [hreset, Bool.not_true, Bool.false_or, contains_iff_mem] at hall
      exact hall
  unfold clear
  rw [if_pos hmem]
  exact cleared_of_eq pq dht ((field_of_ne hc).trans (slot_eq pq dht hk c)) hreset (o c)

lemma ready_fresh : Ready pq dht k (fresh pq dht k) := fun _ _ _ => rfl

end

lemma ready_step {h h' : Holder pq dht} (hstep : Step pq dht h h') (hready : ∀ k, k ≠ .frame → Ready pq dht k (h k)) :
    ∀ k, k ≠ .frame → Ready pq dht k (h' k) := by
  have hput : ∀ k o, ∀ k', k' ≠ .frame → Ready pq dht k' (update h k ((schema pq dht k).clear o) k') := by
    intro k o k' hk'
    by_cases heq : k' = k
    · subst heq
      rw [update_self]
      exact ready_clear pq dht hk' o
    · rw [update_of_ne heq]
      exact hready k' hk'
  cases hstep with
  | handled b hparse => exact hput _ _
  | unread b hheader => exact hready
  | refused o b hheader hparse => exact hput _ o

def Reachable (h : Holder pq dht) : Prop := Relation.ReflTransGen (Step pq dht) (fresh pq dht) h

lemma ready_of_reachable {h : Holder pq dht} (hreach : Reachable pq dht h) :
    ∀ k, k ≠ .frame → Ready pq dht k (h k) := by
  induction hreach with
  | refl => exact fun k _ => ready_fresh pq dht k
  | tail _ hstep ih => exact ready_step pq dht hstep ih

def Current (k : Kind) (m : (schema pq dht k).Object) : Prop :=
  m versionField = recordVersion ∧ (match k, m with
    | .dht, m => m 86 = recordVersion
    | _, _ => True)

def dhtMessage.M (m : (dhtMessage pq dht).Object) : List dht.Msg := m 77

def pathTransferMessage.T (m : (pathTransferMessage pq dht).Object) : (protocolFrame pq).Object := m 84

def NestedTravels (k : Kind) (o m : (schema pq dht k).Object) : Prop :=
  match k, o, m with
  | .dht, _, m => ∀ x ∈ dhtMessage.M pq dht m, ∃ t, Travels dht.read (dht.write x) x t
  | .transfer, o, m => ∃ t, Travels ((nested (protocolFrame pq)).read (pathTransferMessage.T pq dht o))
    ((protocolFrame pq).bencode (pathTransferMessage.T pq dht m)) (pathTransferMessage.T pq dht m) t
  | _, _, _ => True

variable {pq dht} {k : Kind} {o m : (schema pq dht k).Object}

lemma sent_of_eq {f : Format} {t : Ty} (hf : f = t.format pq dht) (hplain : t.plain = true) (x0 x : f.Val)
    (h0 : t.reset = true → x0 = f.new) : ∃ b, f.Sends x0 x b := by
  subst hf
  exact Ty.sent pq dht hplain x0 x h0

lemma sent_nested (hready : Ready pq dht k o) (hnested : NestedTravels pq dht k o m)
    (hc : some c = nestedField k) : ∃ b, ((schema pq dht k).field c).Sends (o c) (m c) b := by
  cases k with
  | dht =>
    cases hc
    have h0 : o 77 = [] := hready 77 (by decide) rfl
    rw [h0]
    obtain ⟨b, hb⟩ := travels_vector (l := dhtMessage.M pq dht m) hnested
    exact ⟨b, nofun, hb⟩
  | transfer =>
    cases hc
    obtain ⟨b, hb⟩ := hnested
    exact ⟨b, nofun, hb⟩
  | _ => cases hc

section
variable (hk : k ≠ .frame)
include hk

lemma sent_field (hready : Ready pq dht k o) (hnested : NestedTravels pq dht k o m)
    (hc : c ≠ versionField) (hplain : (fieldTy k c).plain = true ∨ some c = nestedField k) :
    ∃ b, ((schema pq dht k).field c).Sends (o c) (m c) b := by
  obtain hplain | hnest := hplain
  · exact sent_of_eq ((field_of_ne hc).trans (slot_eq pq dht hk c)) hplain (o c) (m c) (hready c hc)
  · exact sent_nested hready hnested hnest

lemma schema_version : (schema pq dht k).version = some := by
  cases k with
  | frame => exact absurd rfl hk
  | _ => rfl

lemma travels_version : Travels (((schema pq dht k).field versionField).read (o versionField))
    (((schema pq dht k).field versionField).write (m versionField)) (m versionField) (int (m versionField)) := by
  have h : (schema pq dht k).version (m versionField) = some (m versionField) := by
    rw [schema_version hk]
    rfl
  exact travels_int h

lemma exists_texts (hready : Ready pq dht k o) (hnested : NestedTravels pq dht k o m) :
    ∃ t : UInt8 → Bytes, t versionField = int (m versionField) ∧ ∀ c, c = versionField ∨ (fieldTy k c).plain = true ∨
      some c = nestedField k → ((schema pq dht k).field c).Sends (o c) (m c) (t c) := by
  have htexts : ∀ c, ∃ b, (c = versionField → b = int (m versionField)) ∧ (c = versionField ∨ (fieldTy k c).plain = true ∨
      some c = nestedField k → ((schema pq dht k).field c).Sends (o c) (m c) b) := by
    intro c
    by_cases hc : c = versionField
    · subst hc
      exact ⟨int (m versionField), (fun _ => rfl), fun _ => ⟨nofun, travels_version hk⟩⟩
    by_cases hplain : (fieldTy k c).plain = true ∨ some c = nestedField k
    · obtain ⟨b, hb⟩ := sent_field hk hready hnested hc hplain
      exact ⟨b, (fun h => absurd h hc), fun _ => hb⟩
    · exact ⟨[], (fun h => absurd h hc), fun h => absurd (h.resolve_left hc) hplain⟩
  choose t ht using htexts
  exact ⟨t, (ht versionField).1 rfl, fun c => (ht c).2⟩

lemma sent_int (hcurrent : Current pq dht k m) (hc : c = versionField ∨ k = .dht ∧ c = 86) (rest : Bytes) :
    ((schema pq dht k).field c).read (o c) (int 0 ++ rest) = .ok (some (m c, rest)) := by
  obtain hc | ⟨hdht, hc⟩ := hc
  · subst hc
    have hback := (travels_version (o := o) (m := m) hk).back rest
    have hversion : int (m versionField) = int 0 := congrArg int hcurrent.1
    rw [hversion] at hback
    exact hback
  · subst hdht hc
    have hV : m 86 = (0 : UInt64) := hcurrent.2
    rw [hV]
    exact (travels_int (f := some) (i := 0) rfl).back rest

variable {t : UInt8 → Bytes}

lemma columns_sent (hcurrent : Current pq dht k m)
    (ht : ∀ c, c = versionField ∨ (fieldTy k c).plain = true ∨ some c = nestedField k →
      ((schema pq dht k).field c).Sends (o c) (m c) (t c)) :
    ∀ e ∈ columns pq dht k, (schema pq dht k).Sent o m t e.2 e.1 := by
  intro e he
  have hplaced := all_eq_true.mp (columns_placed pq dht hk) e he
  obtain ⟨e, c⟩ := e
  cases e with
  | field letter d =>
    simp only [placed, Bool.and_eq_true, Bool.or_eq_true, beq_iff_eq] at hplaced
    obtain ⟨⟨rfl, hrow⟩, hformat⟩ := hplaced
    have htravels := ht d (by
      obtain (hversion | hplain) | hnested := hformat
      · exact .inl hversion
      · exact .inr (.inl hplain.1)
      · exact .inr (.inr hnested.1))
    exact ⟨rfl, hrow, htravels.1, htravels.2⟩
  | int letter =>
    simp only [placed, Bool.and_eq_true, Bool.or_eq_true, beq_iff_eq] at hplaced
    obtain ⟨⟨⟨rfl, rfl⟩, hrow⟩, hc⟩ := hplaced
    exact ⟨hrow, sent_int hk hcurrent hc⟩
  | text letter => cases hplaced

lemma columns_version (hcurrent : Current pq dht k m) (ht : t versionField = int (m versionField)) :
    ∀ e ∈ columns pq dht k, ∀ p ∈ (schema pq dht k).pairs m t e.1, p.1 = [86] → p.2 = int 0 := by
  intro e he p hp hkey
  have hplaced := all_eq_true.mp (columns_placed pq dht hk) e he
  obtain ⟨e, c⟩ := e
  have hletter : e.letter = 86 := by
    rw [pairs_key p hp] at hkey
    exact (cons.inj hkey).1
  cases e with
  | field letter =>
    replace hletter : letter = 86 := hletter
    subst hletter
    simp only [placed, Bool.and_eq_true, Bool.or_eq_true, beq_iff_eq, bne_iff_ne, ne_eq, not_true, and_false,
      or_false] at hplaced
    have hversion := hplaced.2
    subst hversion
    rw [pairs] at hp
    split at hp
    · cases hp
    · cases mem_singleton.mp hp
      exact ht.trans (congrArg int hcurrent.1)
  | int letter =>
    simp only [placed, Bool.and_eq_true, beq_iff_eq] at hplaced
    cases mem_singleton.mp hp
    exact congrArg int hplaced.1.1.2
  | text letter => cases hplaced

end

lemma reads_version {l : List (Bytes × Bytes)} (h : ∀ p ∈ l, p.1.length < 10^9 ∧ (p.1 = [86] → p.2 = int 0) ∧ Skipped p.2) :
    Reads versionSink 0 (entriesText l) 0 := by
  induction l with
  | nil => exact .nil
  | cons p l ih =>
    obtain ⟨hlen, hversion, hskipped⟩ := h p mem_cons_self
    refine append (entry hlen fun _ => ?_) (ih fun q hq => h q (mem_cons_of_mem p hq))
    unfold versionSink
    dsimp only
    split
    · rename_i hkey
      rw [hversion hkey, intEntry_int]
      rfl
    · rw [hskipped.discard]
      rfl

def written (k : Kind) (m : (schema pq dht k).Object) (t : UInt8 → Bytes) : List (Bytes × Bytes) :=
  ((columns pq dht k).map fst).flatMap ((schema pq dht k).pairs m t)

lemma seekVersion_written (hk : k ≠ .frame) (hcurrent : Current pq dht k m) (htv : t versionField = int (m versionField))
    (hsent : ∀ e ∈ columns pq dht k, (schema pq dht k).Sent o m t e.2 e.1) (pad : Bytes) :
    seekVersion (100 :: (entriesText (([65], str [writtenType k]) :: written k m t) ++ [101]) ++ pad) = .ok 0 := by
  have hreads : Reads versionSink 0 (entriesText (([65], str [writtenType k]) :: written k m t)) 0 := by
    apply reads_version
    intro p hp
    obtain rfl | hp := mem_cons.mp hp
    · exact ⟨by simp, nofun, skipped_str (by simp)⟩
    obtain ⟨e, he, hpe⟩ := mem_flatMap.mp hp
    obtain ⟨e', he', rfl⟩ := mem_map.mp he
    refine ⟨?_, columns_version hk hcurrent htv e' he' p hpe, (hsent e' he').skipped p hpe⟩
    rw [pairs_key p hpe]
    simp
  unfold seekVersion
  rw [hreads.dict pad]
  rfl

lemma unwritten_eq (hk : k ≠ .frame) (hk' : k ≠ .update) (hcurrent : Current pq dht k m) :
    ∀ c, c ∉ (columns pq dht k).map snd → (schema pq dht k).setVersion o 0 c = m c := by
  intro c hc
  by_cases hversion : c = versionField
  · subst hversion
    exact (setVersion_version o 0).trans hcurrent.1.symm
  cases hlook : (fieldList k).lookup c with
  | none =>
    apply nothing_eq
    rw [field_of_ne hversion, slot_eq pq dht hk, fieldTy, hlook]
    rfl
  | some ty =>
    have hmem := all_eq_true.mp (columns_complete pq dht hk hk') (c, ty) (lookup_mem hlook)
    rw [contains_iff_mem] at hmem
    exact absurd hmem hc

lemma ofType_writtenType (hk' : k ≠ .update) : Kind.ofType (writtenType k) = some k := by
  cases k with
  | update => exact absurd rfl hk'
  | _ => rfl

variable {h : Holder pq dht}

lemma ready_setVersion (hready : Ready pq dht k o) (v : UInt64) : Ready pq dht k ((schema pq dht k).setVersion o v) := by
  intro c hc hreset
  rw [setVersion_other o v hc]
  exact hready c hc hreset

lemma nested_setVersion (hnested : NestedTravels pq dht k o m) (v : UInt64) :
    NestedTravels pq dht k ((schema pq dht k).setVersion o v) m := by
  cases k with
  | dht => exact hnested
  | transfer => exact hnested
  | _ => exact trivial

lemma sink_type (h : Holder pq dht) (v : UInt64) (x : UInt8) (rest : Bytes) : sink pq dht h v none (some [65]) (str [x] ++ rest)
    = .ok ((Kind.ofType x).map fun k => (some ⟨k, (schema pq dht k).setVersion (h k) v⟩, rest)) := by
  unfold sink
  dsimp only
  rw [if_neg (by decide), readString_str (by simp)]

lemma parse_written (hk : k ≠ .frame) (hk' : k ≠ .update) (hcurrent : Current pq dht k m)
    (htv : t versionField = int (m versionField))
    (hsent : ∀ e ∈ columns pq dht k, (schema pq dht k).Sent ((schema pq dht k).setVersion (h k) 0) m t e.2 e.1)
    (pad : Bytes) :
    parse pq dht h (100 :: (entriesText (([65], str [writtenType k]) :: written k m t) ++ [101]) ++ pad)
      = .ok (some ⟨k, m⟩) := by
  have htype : Reads (sink pq dht h 0) none (str [65] ++ str [writtenType k])
      (some ⟨k, (schema pq dht k).setVersion (h k) 0⟩) := by
    refine entry (by simp) fun _ => ?_
    rw [sink_type, ofType_writtenType hk']
    rfl
  have hlift : ∀ (o : (schema pq dht k).Object) key b o' r, (schema pq dht k).decodeKey o key b = .ok (some (o', r)) →
      sink pq dht h 0 (some ⟨k, o⟩) (some key) b = .ok (some (some ⟨k, o'⟩, r)) := by
    intro o key b o' r hok
    show onState _ ((schema pq dht k).decodeKey o key b) = _
    rw [hok]
    rfl
  have hfields := reads_entries (g := fun o => (some ⟨k, o⟩ : Option (Message pq dht))) hlift m t (columns pq dht k) _
    (columns_nodup pq dht k) fun e he => (hsent e he).back
  rw [fill_eq (unwritten_eq hk hk' hcurrent)] at hfields
  have hall : Reads (sink pq dht h 0) none (entriesText (([65], str [writtenType k]) :: written k m t))
      (some ⟨k, m⟩) := htype.append hfields
  unfold parse
  rw [seekVersion_written hk hcurrent htv hsent pad]
  show (do return (← readDict (sink pq dht h 0) none _).bind fst) = _
  rw [hall.dict pad]
  rfl

lemma parse_update (x : Bytes) (o : (schema pq dht .update).Object) :
    parse pq dht h (100 :: (str [65] ++ str [writtenType .update] ++ x)) ≠ .ok (some ⟨.update, o⟩) := by
  unfold parse
  cases seekVersion (100 :: (str [65] ++ str [writtenType .update] ++ x)) with
  | error =>
    intro heq
    cases heq
  | ok v =>
    intro heq
    replace heq : (do return (← readDict (sink pq dht h v) none
      (100 :: (str [65] ++ str [writtenType .update] ++ x))).bind fst) = .ok (some ⟨.update, o⟩) := heq
    cases heq

lemma update_text (l : List (Bytes × Bytes)) (pad : Bytes) :
    100 :: (entriesText (([65], str [writtenType .update]) :: l) ++ [101]) ++ pad
      = 100 :: (str [65] ++ str [writtenType .update] ++ (entriesText l ++ 101 :: pad)) := by simp [entriesText]

lemma appends_message (hsent : ∀ e ∈ columns pq dht k, (schema pq dht k).Sent o m t e.2 e.1) :
    Appends (startDict.seq (writeAll ((schema pq dht k).writeEntry m) (schema pq dht k).writes))
      ([100] ++ entriesText (([65], str [writtenType k]) :: written k m t)) := by
  refine (prints_write [100]).appends.seq ?_
  rw [writes_eq]
  have happ := (schema pq dht k).appends_entries (o := m) (t := t)
    (.text 65 [writtenType k] :: (columns pq dht k).map fst) fun letter c hmem => by
      obtain htext | hmem := mem_cons.mp hmem
      · cases htext
      · obtain ⟨e, he, heq⟩ := mem_map.mp hmem
        exact (hsent e he).appends letter c heq
  exact happ

lemma verify_signInto {bencode : α → Writer} {put : α → Signature → α} {get : α → Signature} {size : ℕ}
    {sgn : Bytes → Option Signature} {ver : Bytes → Signature → Bool} {o m : α}
    (hput : ∀ z, put (put o z) (.zero 64) = o)
    (hget : ∀ z, get (put o z) = z) (hsig : ∀ b z, sgn b = some z → ver b z = true)
    (h : signInto bencode put size sgn o = some m) : verifyFrom bencode put get size ver m = true := by
  obtain ⟨buf, hbuf, hmap⟩ := bind_eq_some_iff.mp h
  obtain ⟨z, hz, rfl⟩ := map_eq_some_iff.mp hmap
  unfold verifyFrom
  rw [hput, hbuf, hget]
  exact hsig buf z hz

lemma update_back {s : Schema} {z : (s.field c).Val} (o : s.Object) (x : (s.field c).Val) (hz : o c = z) :
    update (update o c x) c z = o := by rw [update_idem, ← hz, update_eq_self]

section
variable {c : ExitCrypto} (hc : ∀ sk b z, c.sign sk b = some z → c.verify (c.toPublic sk) b z = true) {sk : SecretKey}
  {Y : AlignedBuffer 16}
include hc

lemma obtainExitMessage.verify_sign {m0 m : (obtainExitMessage pq dht).Object}
    (hsign : obtainExitMessage.sign pq dht c sk m0 = some m) : obtainExitMessage.verify pq dht c m = true := by
  unfold obtainExitMessage.sign at hsign
  -- the key is in the message that was signed
  have hkey : m 73 = c.toPublic sk := by
    obtain ⟨_, -, hmap⟩ := bind_eq_some_iff.mp hsign
    obtain ⟨z, -, rfl⟩ := map_eq_some_iff.mp hmap
    exact (update_of_ne (by decide) _ _).trans ((update_of_ne (by decide) _ _).trans (update_self 73 _ m0))
  have hver : ∀ b z, c.sign sk b = some z → c.verify (m 73) b z = true := by
    intro b z hz
    have hpub := hc sk b z hz
    rw [← hkey] at hpub
    exact hpub
  exact verify_signInto (fun z => update_back (s := obtainExitMessage pq dht) (c := 90) _ z
    (update_self 90 _ _)) (fun z => update_self 90 _ _) hver hsign

lemma grantExitMessage.verify_sign {m0 m : (grantExitMessage pq dht).Object}
    (hsign : grantExitMessage.sign pq dht c sk Y m0 = some m) :
    grantExitMessage.verify pq dht c (c.toPublic sk) m = true :=
  verify_signInto (fun z => update_back (s := grantExitMessage pq dht) (c := 90) _ z
    ((update_of_ne (by decide) _ _).trans (update_self 90 _ m0)))
    (fun z => update_self 90 _ _) (hc sk) hsign

lemma rejectExitMessage.verify_sign {m0 m : (rejectExitMessage pq dht).Object}
    (hsign : rejectExitMessage.sign pq dht c sk Y m0 = some m) :
    rejectExitMessage.verify pq dht c (c.toPublic sk) m = true :=
  verify_signInto (fun z => update_back (s := rejectExitMessage pq dht) (c := 90) _ z
    ((update_of_ne (by decide) _ _).trans (update_self 90 _ m0)))
    (fun z => update_self 90 _ _) (hc sk) hsign

lemma closeExitMessage.verify_sign {m0 m : (closeExitMessage pq dht).Object}
    (hsign : closeExitMessage.sign pq dht c sk Y m0 = some m) :
    closeExitMessage.verify pq dht c (c.toPublic sk) m = true :=
  verify_signInto (fun z => update_back (s := closeExitMessage pq dht) (c := 90) _ z
    ((update_of_ne (by decide) _ _).trans (update_self 90 _ m0)))
    (fun z => update_self 90 _ _) (hc sk) hsign

lemma verify_of_sign (hk' : k ≠ .update) {m0 : (schema pq dht k).Object}
    (hsign : sign pq dht c sk Y k m0 = some m) : verify pq dht c (c.toPublic sk) k m = true := by
  cases k with
  | obtain => exact obtainExitMessage.verify_sign hc hsign
  | grant => exact grantExitMessage.verify_sign hc hsign
  | reject => exact rejectExitMessage.verify_sign hc hsign
  | close => exact closeExitMessage.verify_sign hc hsign
  | update => exact absurd rfl hk'
  | _ => cases hsign

end

section
variable (hreach : Reachable pq dht h) (hk : k ≠ .frame) (hcurrent : Current pq dht k m)
  (hnested : NestedTravels pq dht k (h k) m) {b b' : Buf} (hb : b.cur ≤ b.data.length)
  (hok : (schema pq dht k).bencode m b = (true, b')) (pad : Bytes)
include hreach hk hcurrent hnested hb hok

lemma exists_written : ∃ t : UInt8 → Bytes, t versionField = int (m versionField) ∧
      (∀ e ∈ columns pq dht k, (schema pq dht k).Sent ((schema pq dht k).setVersion (h k) 0) m t e.2 e.1) ∧
      (b'.data.take b'.cur).drop b.cur ++ pad
        = 100 :: (entriesText (([65], str [writtenType k]) :: written k m t) ++ [101]) ++ pad := by
  have hready := ready_setVersion (ready_of_reachable pq dht hreach k hk) 0
  obtain ⟨t, htv, ht⟩ := exists_texts hk hready (nested_setVersion hnested 0)
  have hsent := columns_sent hk hcurrent ht
  refine ⟨t, htv, hsent, ?_⟩
  rw [(appends_message hsent).written hb hok]
  rfl

lemma parse_bencode (hk' : k ≠ .update) :
    parse pq dht h ((b'.data.take b'.cur).drop b.cur ++ pad) = .ok (some ⟨k, m⟩) := by
  obtain ⟨t, htv, hsent, hwritten⟩ := exists_written hreach hk hcurrent hnested hb hok pad
  rw [hwritten]
  exact parse_written hk hk' hcurrent htv hsent pad

/-- A written message comes back with its kind and fields, and signed ones are accepted, exactly if it is not an exit
update. -/
theorem messages_survive_iff {c : ExitCrypto}
    (hc : ∀ sk b z, c.sign sk b = some z → c.verify (c.toPublic sk) b z = true) :
    (∃ m', parse pq dht h ((b'.data.take b'.cur).drop b.cur ++ pad) = .ok (some ⟨k, m'⟩) ∧ m' = m ∧
      ∀ sk Y m0, sign pq dht c sk Y k m0 = some m → verify pq dht c (c.toPublic sk) k m' = true) ↔ k ≠ .update := by
  obtain ⟨t, htv, hsent, hwritten⟩ := exists_written hreach hk hcurrent hnested hb hok pad
  constructor
  · rintro ⟨m', hparse, -⟩ rfl
    rw [hwritten, update_text] at hparse
    exact parse_update _ m' hparse
  · intro hk'
    exact ⟨m, parse_bencode hreach hk hcurrent hnested hb hok pad hk', rfl,
      fun sk Y m0 hsign => verify_of_sign hc hk' hsign⟩

end

end

namespace Sample

def crypto : ExitCrypto where
  toPublic := fun _ => .zero 32
  sign := fun _ _ => some (.zero 64)
  verify := fun _ _ _ => true

def room : Buf := ⟨replicate 200 0, 0⟩

def closing : (schema 1048 dht .close).Object :=
  update (update (schema 1048 dht .close).new 83 (5 : UInt64)) 90 (.replicate 64 1 : Signature)

end Sample

open Sample

theorem messages_survive_iff_close : ∃ b', (schema 1048 dht .close).bencode closing room = (true, b') ∧
    parse 1048 dht (fresh 1048 dht) ((b'.data.take b'.cur).drop room.cur ++ [1]) = .ok (some ⟨.close, closing⟩) := by
  obtain ⟨b', hok⟩ := Messages.written_of_fst (p := (schema 1048 dht .close).bencode closing room) (by decide +kernel)
  have hcurrent : Current 1048 dht .close closing := ⟨rfl, trivial⟩
  obtain ⟨m', hparse, rfl, -⟩ := (messages_survive_iff .refl (by decide) hcurrent trivial (Nat.zero_le _) hok [1]
    (c := crypto) fun _ _ _ _ => rfl).mpr (by decide)
  exact ⟨b', hok, hparse⟩

/-- the update of an exit is written, and no parser gets it back -/
theorem update_lost : ∃ b', (schema 1048 dht .update).bencode (schema 1048 dht .update).new room = (true, b') ∧
    ∀ h pad m', parse 1048 dht h (b'.data.take b'.cur ++ pad) ≠ .ok (some ⟨.update, m'⟩) := by
  obtain ⟨b', hok⟩ := Messages.written_of_fst (p := (schema 1048 dht .update).bencode
    (schema 1048 dht .update).new room) (by decide +kernel)
  refine ⟨b', hok, fun h pad m' => ?_⟩
  have hready := ready_setVersion (ready_fresh 1048 dht .update) 0
  obtain ⟨t, -, ht⟩ := exists_texts (m := (schema 1048 dht .update).new) (by decide) hready trivial
  have hsent := columns_sent (by decide) ⟨rfl, trivial⟩ ht
  have hwritten := (appends_message hsent).written (b := room) (Nat.zero_le _) hok
  rw [show (room).cur = 0 from rfl, drop_zero] at hwritten
  rw [hwritten]
  exact update_text _ pad ▸ parse_update _ m'

end Belnet.Routing
