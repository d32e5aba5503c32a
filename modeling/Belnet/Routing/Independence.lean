import Belnet.Routing.Messages
import Belnet.Messages.Independence

/-!
# What one routing message leaves for the next

All paths share a parser that clears its objects behind every buffer; no `Clear` resets the sequence number.
-/

namespace Belnet.Routing
open Iwp hiding RouterContact
open Util Decimal Schema Sample Kind
open Service (keySink)
open Messages (readVector loggedSink loggedSink_blind readVector_append)

def Flat.parts : (f : Flat) → f.format.Parts
  | .nothing => .nothing
  | .int => .number some
  | .optionalInt => .whole (intEntry some) fun _ _ => rfl
  | .protocol => .whole (intEntry some) fun _ _ => rfl
  | .buffer n => .buffer n
  | .optionalBuffer _ => .whole (bufferEntry id) fun _ _ => rfl
  | .encrypted n => .whole (readEncrypted n) fun _ _ => rfl
  | .tag x => .whole (fun b => .ok ((readString b).bind fun r => if r.1 = x then some ((), r.2) else none)) fun _ _ => rfl

lemma readVector_beside {α : Type} (read : Bytes → Decoded α) (b : Bytes) :
    (fun l => readVector read l b) = fun l => onState (l ++ ·) (readVector read [] b) :=
  funext fun l => readVector_append read l b

def vectorParts {α : Type} (read : Bytes → Except MemFault (Option (α × Bytes))) (write : α → Writer) :
    (vector read write).Parts where
  Part := Unit
  Got := fun _ => List α
  get := fun _ l => l
  tells := fun _ _ => False
  ext := fun h => h ()
  blind := by
    intro b
    show Blind fun l => readVector read l b
    rw [readVector_beside]
    exact blind_value (readVector read [] b) fun l m => l ++ m
  settles := by
    intro _ b
    show Settles (fun l => readVector read l b) (fun l => l) False
    rw [readVector_beside]
    exact settles_beside (f := fun l m => l ++ m) fun l l' m => List.append_left_inj m

section
variable {σ : Type} {dk : σ → Bytes → Bytes → Decoded σ}

lemma loggedSink_ok {s : σ} {key b : Bytes} {x : σ × Bytes} :
    loggedSink dk s (some key) b = .ok (some x) ↔ dk s key b = .ok (some x) := by
  unfold loggedSink
  dsimp only
  rcases dk s key b with e | _ | y
  · exact .rfl
  · dsimp only
    split
    · exact iff_of_false nofun nofun
    · exact .rfl
  · exact .rfl

end

def nestedParts {s : Schema} (P : s.Parts) : (nested s).Parts where
  Part := (c : UInt8) × (P c).Part
  Got := fun q => (P q.1).Got q.2
  get := fun q o => (P q.1).get q.2 (o q.1)
  tells := fun q b => ∃ e ∈ dictEntries (loggedSink s.decodeKey) s.new b, s.row e.1 = some q.1 ∧ (P q.1).tells q.2 e.2
  ext := fun h => funext fun c => (P c).ext fun p => h ⟨c, p⟩
  blind := readDict_blind (loggedSink_blind (decodeKey_blind P))
  settles := by
    intro q b
    refine readDict_settles (π := fun o : s.Object => (P q.1).get q.2 (o q.1))
      (P := fun key b => s.row key = some q.1 ∧ (P q.1).tells q.2 b)
      (loggedSink_blind (decodeKey_blind P)) ?_ ?_ s.new b
    · intro key b o o' a a' r r' ho ho'
      exact decodeKey_settles P q.1 q.2 key b o o' a a' r r' (loggedSink_ok.mp ho) (loggedSink_ok.mp ho')
    intro b o o' a a' r r' ho ho'
    cases ho
    cases ho'
    rw [false_or]

def iteParts {p : Prop} [inst : Decidable p] {f g : Format} (hf : f.Parts) (hg : g.Parts) :
    (if p then f else g).Parts :=
  match inst with
  | isTrue _ => hf
  | isFalse _ => hg

def schemaParts {s : Schema} (P : ∀ c, (s.slot c).Parts) : s.Parts := fun c => iteParts (.number s.version) (P c)

def frameParts (pq : ℕ) : (protocolFrame pq).Parts := schemaParts fun _ => Flat.parts _

section
variable (pq : ℕ) (dht : DhtCodec)

def Ty.parts : (t : Ty) → (t.format pq dht).Parts
  | .flat f => f.parts
  | .policies => vectorParts _ _
  | .packets => vectorParts _ _
  | .dht => vectorParts _ _
  | .frame => nestedParts (frameParts pq)

def parts : (k : Kind) → (schema pq dht k).Parts
  | .discard => schemaParts fun _ => Ty.parts pq dht _
  | .latency => schemaParts fun _ => Ty.parts pq dht _
  | .dht => schemaParts fun _ => Ty.parts pq dht _
  | .confirm => schemaParts fun _ => Ty.parts pq dht _
  | .transfer => schemaParts fun _ => Ty.parts pq dht _
  | .frame => frameParts pq
  | .traffic => schemaParts fun _ => Ty.parts pq dht _
  | .grant => schemaParts fun _ => Ty.parts pq dht _
  | .reject => schemaParts fun _ => Ty.parts pq dht _
  | .obtain => schemaParts fun _ => Ty.parts pq dht _
  | .update => schemaParts fun _ => Ty.parts pq dht _
  | .close => schemaParts fun _ => Ty.parts pq dht _

def body (k : Kind) (n : ℕ) (o : (schema pq dht k).Object) (b : Bytes) :
    Except MemFault (Option ((schema pq dht k).Object × Bytes)) :=
  readEntries (keySink (schema pq dht k).decodeKey) n o b

lemma sink_lift (h : Holder pq dht) (v : UInt64) (k : Kind) (o : (schema pq dht k).Object) (key : Option Bytes)
    (b : Bytes) : sink pq dht h v (some ⟨k, o⟩) key b
      = onState (fun o => some ⟨k, o⟩) (keySink (schema pq dht k).decodeKey o key b) := by
  cases key with
  | none => rfl
  | some key => rfl

def asMessage (k : Kind) (e : Except MemFault (Option ((schema pq dht k).Object × Bytes))) :
    Except MemFault (Option (Message pq dht)) :=
  match e with
  | .error e => .error e
  | .ok none => .ok none
  | .ok (some (o, _)) => .ok (some ⟨k, o⟩)

lemma parse_eq (h : Holder pq dht) (b : Bytes) : parse pq dht h b = seekVersion b >>= fun v =>
    (header 65 ofType b).elim (.ok none) fun x => asMessage pq dht x.1
      (body pq dht x.1 (b.length - 1) ((schema pq dht x.1).setVersion (h x.1) v) x.2) := by
  unfold parse
  cases seekVersion b with
  | error e => rfl
  | ok v =>
    have hdict : readDict (sink pq dht h v) none b = (header 65 ofType b).elim (.ok none) fun x =>
        readEntries (sink pq dht h v) (b.length - 1) (some ⟨x.1, (schema pq dht x.1).setVersion (h x.1) v⟩) x.2 :=
      readDict_header (fun k => (some ⟨k, (schema pq dht k).setVersion (h k) v⟩ : Option (Message pq dht)))
        (fun _ _ => rfl) (fun b => rfl) b
    show (do return (← readDict (sink pq dht h v) none b).bind Prod.fst) = _
    rw [hdict]
    show _ = (header 65 ofType b).elim (.ok none) fun x => asMessage pq dht x.1
      (body pq dht x.1 (b.length - 1) ((schema pq dht x.1).setVersion (h x.1) v) x.2)
    cases header 65 ofType b with
    | none => rfl
    | some x =>
      obtain ⟨k, rest⟩ := x
      dsimp only [Option.elim]
      have hlift := entries_lift (g := fun o : (schema pq dht k).Object => (some ⟨k, o⟩ : Option (Message pq dht)))
        (sink_lift pq dht h v k) (b.length - 1) ((schema pq dht k).setVersion (h k) v) rest
      rw [hlift]
      unfold body
      rcases readEntries (keySink (schema pq dht k).decodeKey) (b.length - 1) _ rest with e | _ | y <;> rfl

variable {k : Kind} {h : Holder pq dht} {o : (schema pq dht k).Object}

lemma parse_eq_some {b : Bytes} (hparse : parse pq dht h b = .ok (some ⟨k, o⟩)) : ∃ v rest r, seekVersion b = .ok v ∧
      header 65 ofType b = some (k, rest) ∧
      body pq dht k (b.length - 1) ((schema pq dht k).setVersion (h k) v) rest = .ok (some (o, r)) := by
  rw [parse_eq] at hparse
  cases hv : seekVersion b with
  | error e => rw [hv] at hparse; cases hparse
  | ok v =>
    rw [hv] at hparse
    cases hk : header 65 ofType b with
    | none => rw [hk] at hparse; cases hparse
    | some x =>
      obtain ⟨k', rest⟩ := x
      rw [hk] at hparse
      replace hparse : asMessage pq dht k' (body pq dht k' (b.length - 1)
        ((schema pq dht k').setVersion (h k') v) rest) = .ok (some ⟨k, o⟩) := hparse
      rcases hbody : body pq dht k' (b.length - 1) ((schema pq dht k').setVersion (h k') v) rest with e | _ | ⟨_, r⟩ <;>
        rw [hbody] at hparse <;> cases hparse
      exact ⟨v, rest, r, rfl, rfl, hbody⟩

lemma parse_of_body {b rest r : Bytes} {v : UInt64}
    (hv : seekVersion b = .ok v) (hk : header 65 ofType b = some (k, rest))
    (hbody : body pq dht k (b.length - 1) ((schema pq dht k).setVersion (h k) v) rest = .ok (some (o, r))) :
    parse pq dht h b = .ok (some ⟨k, o⟩) := by
  rw [parse_eq, hv, hk]
  show asMessage pq dht k (body pq dht k (b.length - 1) ((schema pq dht k).setVersion (h k) v) rest) = _
  rw [hbody]
  rfl

lemma keySink_blind (k : Kind) (key : Option Bytes) (b : Bytes) :
    Blind fun o => keySink (schema pq dht k).decodeKey o key b := by
  cases key with
  | none =>
    intro o _
    rfl
  | some key => exact decodeKey_blind (parts pq dht k) key b

def entries (b : Bytes) : List (Bytes × Bytes) :=
  (header 65 ofType b).elim [] fun x =>
    entriesRead (keySink (schema pq dht x.1).decodeKey) (b.length - 1) (fresh pq dht x.1) x.2

def Tells (k : Kind) (b : Bytes) (c : UInt8) (p : (parts pq dht k c).Part) : Prop :=
  ∃ e ∈ entries pq dht b, (schema pq dht k).row e.1 = some c ∧ (parts pq dht k c).tells p e.2

lemma body_settles {b rest : Bytes} (hk : header 65 ofType b = some (k, rest)) (c : UInt8)
    (p : (parts pq dht k c).Part) : Settles (fun o => body pq dht k (b.length - 1) o rest)
      (fun o => (parts pq dht k c).get p (o c)) (Tells pq dht k b c p) := by
  intro s s' a a' r r' hs hs'
  have hblind := readEntries_blind (keySink_blind pq dht k) (b.length - 1) rest
  obtain ⟨a0, h0⟩ := hblind.ok hs (fresh pq dht k)
  have hend : ∀ b, Settles (fun o => keySink (schema pq dht k).decodeKey o none b)
      (fun o => (parts pq dht k c).get p (o c)) False := by
    intro b s s' a a' r r' hs hs'
    cases hs
    cases hs'
    rw [false_or]
  have hrun := entries_settles (keySink_blind pq dht k) (decodeKey_settles (parts pq dht k) c p) hend
    (b.length - 1) (fresh pq dht k) rest a0 r h0
  have htells : Tells pq dht k b c p ↔ ∃ e ∈ entriesRead (keySink (schema pq dht k).decodeKey) (b.length - 1)
      (fresh pq dht k) rest, (schema pq dht k).row e.1 = some c ∧ (parts pq dht k c).tells p e.2 := by
    unfold Tells entries
    rw [hk]
    rfl
  rw [htells]
  exact hrun s s' a a' r r' hs hs'

/-- A message tells all in which its object is not new: the version is always set, a list never replaced, and of a
frame inside count the fields it tells. -/
def Clean (k : Kind) (b : Bytes) (o : (schema pq dht k).Object) : Prop :=
  ∀ c, c ≠ versionField → ∀ p, Tells pq dht k b c p ∨
    (parts pq dht k c).get p (o c) = (parts pq dht k c).get p (fresh pq dht k c)

/-- Whatever was read before, a handled message is what a new parser would hand over exactly if it tells every field
that is not as new. -/
theorem parsed_as_fresh_iff (h : Holder pq dht) {b : Bytes} {k : Kind} {o : (schema pq dht k).Object}
    (hparse : parse pq dht h b = .ok (some ⟨k, o⟩)) :
    parse pq dht (fresh pq dht) b = .ok (some ⟨k, o⟩) ↔ Clean pq dht k b (h k) := by
  obtain ⟨v, rest, r, hv, hk, hbody⟩ := parse_eq_some pq dht hparse
  have hblind := readEntries_blind (keySink_blind pq dht k) (b.length - 1) rest
  obtain ⟨o', hfresh⟩ := hblind.ok hbody ((schema pq dht k).setVersion (fresh pq dht k) v)
  have hparse' := parse_of_body pq dht hv hk hfresh
  have hpart : ∀ c p, (parts pq dht k c).get p (o c) = (parts pq dht k c).get p (o' c) ↔ Tells pq dht k b c p ∨
      (parts pq dht k c).get p ((schema pq dht k).setVersion (h k) v c)
        = (parts pq dht k c).get p ((schema pq dht k).setVersion (fresh pq dht k) v c) :=
    fun c p => body_settles pq dht hk c p _ _ o o' r r hbody hfresh
  rw [hparse']
  constructor
  · intro heq c hc p
    cases heq
    have hp := (hpart c p).mp rfl
    rwa [setVersion_other _ v hc, setVersion_other _ v hc] at hp
  · intro hclean
    have heq : o = o' := by
      funext c
      refine (parts pq dht k c).ext fun p => (hpart c p).mpr ?_
      by_cases hc : c = versionField
      · subst hc
        rw [setVersion_version, setVersion_version]
        exact .inr rfl
      · rw [setVersion_other _ v hc, setVersion_other _ v hc]
        exact hclean c hc p
    rw [heq]

def bare : Bytes := [100, 49, 58, 65, 49, 58, 68, 101]

lemma parse_bare (h : Holder pq dht) :
    parse pq dht h bare = .ok (some ⟨.discard, (schema pq dht .discard).setVersion (h .discard) 0⟩) := rfl

end

def full : Bytes :=
  [100, 49, 58, 65, 49, 58, 68, 49, 58, 80, 49, 54, 58] ++ List.replicate 16 7 ++ [49, 58, 83, 105, 53, 101, 101]

theorem parsed_as_fresh_iff_bare : ∃ h, Step 1048 dht (fresh 1048 dht) h ∧ ¬ Clean 1048 dht .discard bare (h .discard) := by
  refine ⟨_, Step.handled full rfl, fun hclean => ?_⟩
  have hfresh := (parsed_as_fresh_iff 1048 dht _ (parse_bare 1048 dht _)).mpr hclean
  have hseq : (0 : UInt64) = 5 := congrFun (eq_of_heq (Sigma.mk.inj (Option.some.inj (Except.ok.inj hfresh))).2) 83
  exact absurd hseq (by decide)

/-- the path id and the sequence number of one path's message are those of the next one, whatever its path -/
theorem path_id_of_another : ∃ (h : Holder 1048 dht) (o o' : (schema 1048 dht .discard).Object),
    Step 1048 dht (fresh 1048 dht) h ∧ parse 1048 dht h bare = .ok (some ⟨.discard, o⟩) ∧
      parse 1048 dht (fresh 1048 dht) bare = .ok (some ⟨.discard, o'⟩) ∧
      o 80 = (.replicate 16 7 : AlignedBuffer 16) ∧ o' 80 = .zero 16 ∧
      o 83 = (5 : UInt64) ∧ o' 83 = (0 : UInt64) ∧ o ≠ o' := by
  refine ⟨_, _, _, Step.handled full rfl, parse_bare _ _ _, parse_bare _ _ _, ?_⟩
  refine ⟨rfl, rfl, rfl, rfl, fun heq => ?_⟩
  have hseq : (5 : UInt64) = 0 := congrFun heq 83
  exact absurd hseq (by decide)

end Belnet.Routing
