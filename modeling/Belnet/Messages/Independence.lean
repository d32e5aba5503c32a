import Belnet.Messages.Link
import Belnet.Contact.Covered
import Belnet.Util.Residue

/-!
# What one link message leaves for the next

`LinkMessageParser` reads every message into the object of its kind, and clears it only when a message was read to its
end.

* `handled_as_fresh_iff`  when a message is handled as by a parser that has read nothing.
-/

namespace Belnet.Contact.RouterContact
open Iwp hiding RouterContact
open Util Service Contact.Sample RouterContact.Frame
variable (lib : ContactLibs) (b : Bytes)

def dictOf : Bytes := if b.head? = some 108 then ((lib.list b).map ContactList.dict).getD [] else b

def namesNetwork : Bool := (keysOf lib (dictOf lib b)).any (startsWith [105])

def namesSignature : Bool := (keysOf lib (dictOf lib b)).any (startsWith [122])

def left (p : RouterContact) (b : Bytes) (z : Signature) (d : Bytes) : Frame where
  netID := if namesNetwork lib b then none else some p.netID
  signature := if namesSignature lib b then none else some z
  records := []
  dict := if b.head? = some 108 then d else p.signedBtDict

lemma bdecode_dict (p : RouterContact) (t : Bytes) : bdecode lib p (100 :: t)
      = onState (left lib p (100 :: t) (.zero 64) []).put (decodeDict (decodeKey lib) blank (100 :: t)) := by
  have hhead : ¬ (100 :: t : Bytes).head? = some 108 := fun h => absurd (Option.some.inj h) (by decide)
  have h := decode_frame lib ⟨some p.netID, some (.zero 64), [], p.signedBtDict⟩ (100 :: t)
  rw [foldl_after] at h
  exact h

lemma atTerminator_onState {σ τ : Type} (f : σ → τ) (e : Except MemFault (Option (σ × Bytes))) :
    atTerminator (onState f e) = onState f (atTerminator e) := by
  rcases e with f | _ | x
  · cases f <;> rfl
  · rfl
  · rfl

def decodeCopy (l : ContactList) : Except MemFault (Option (RouterContact × Bytes)) :=
  if !l.finished then .ok none
  else if l.signature.length ≠ 64 then .ok none
  else do return (← atTerminator (decodeDict (decodeKey lib) blank l.dict)).map fun x => (x.1, l.rest)

lemma decodeVersion1_eq (p : RouterContact) {b : Bytes} {l : ContactList} (hhead : b.head? = some 108)
    (hlist : lib.list b = some l) : decodeVersion1 lib p.clear l
      = onState (left lib p b (.ofBytes 64 l.signature) l.dict).put (decodeCopy lib l) := by
  have hdict : dictOf lib b = l.dict := by
    unfold dictOf
    rw [if_pos hhead, hlist]
    rfl
  have h := decode_frame lib ⟨some p.netID, some (.ofBytes 64 l.signature), [], l.dict⟩ l.dict
  rw [foldl_after] at h
  rw [left, if_pos hhead, namesNetwork, namesSignature, hdict]
  unfold decodeVersion1 decodeCopy
  split
  · rfl
  split
  · rfl
  show (do return (← atTerminator (decodeDict (decodeKey lib) (put ⟨some p.netID,
    some (.ofBytes 64 l.signature), [], l.dict⟩ blank) l.dict)).map _) = _
  rw [h, atTerminator_onState]
  rcases atTerminator (decodeDict (decodeKey lib) blank l.dict) with f | _ | x <;> rfl

lemma bdecode_object : ∃ e z d, ∀ p, bdecode lib p b = onState (left lib p b z d).put e := by
  cases b with
  | nil => exact ⟨.error .pastEnd, .zero 64, [], fun p => rfl⟩
  | cons x t =>
    by_cases hd : x = 100
    · rw [hd]
      exact ⟨_, _, _, fun p => bdecode_dict lib p t⟩
    by_cases hl : x = 108
    · have hhead : (x :: t).head? = some 108 := by rw [hl]; rfl
      cases hlist : lib.list (x :: t) with
      | none =>
        refine ⟨.ok none, .zero 64, [], fun p => ?_⟩
        show (if x = 100 then _ else if x ≠ 108 then _ else _) = _
        rw [if_neg hd, if_neg (not_not_intro hl), hlist]
        rfl
      | some l =>
        refine ⟨if l.version = 1 then decodeCopy lib l else .ok none, .ofBytes 64 l.signature, l.dict, fun p => ?_⟩
        show (if x = 100 then _ else if x ≠ 108 then _ else _) = _
        rw [if_neg hd, if_neg (not_not_intro hl), hlist]
        dsimp only
        split
        · exact decodeVersion1_eq lib p hhead hlist
        · rfl
    · refine ⟨.ok none, .zero 64, [], fun p => ?_⟩
      show (if x = 100 then _ else if x ≠ 108 then _ else _) = _
      rw [if_neg hd, if_pos hl]
      rfl

def core (r : RouterContact) : RouterContact := { r with netID := .zero 8, signedBtDict := [] }

lemma bdecode_blind : Blind fun r => bdecode lib r b := by
  obtain ⟨e, z, d, h⟩ := bdecode_object lib b
  intro r r'
  dsimp only
  rw [h r, h r', shape_onState, shape_onState]

lemma bdecode_settles_core : Settles (fun r => bdecode lib r b) core True := by
  obtain ⟨e, z, d, h⟩ := bdecode_object lib b
  rw [funext h]
  exact settles_value fun r _ q => rfl

lemma bdecode_settles_netID : Settles (fun r => bdecode lib r b) netID (namesNetwork lib b = true) := by
  obtain ⟨e, z, d, h⟩ := bdecode_object lib b
  rw [funext h]
  refine settles_if (fun hnames r _ q => ?_) fun hnames r q => ?_
  · simp only [put, left, if_pos hnames]
  · simp only [put, left, if_neg hnames, Option.getD_some]

lemma bdecode_settles_dict : Settles (fun r => bdecode lib r b) signedBtDict (b.head? = some 108) := by
  obtain ⟨e, z, d, h⟩ := bdecode_object lib b
  rw [funext h]
  refine settles_if (fun hlist r _ q => ?_) fun hlist r q => ?_
  · simp only [put, left, if_pos hlist]
  · simp only [put, left, if_neg hlist]

end Belnet.Contact.RouterContact

namespace Belnet.Messages
open Iwp hiding RouterContact LinkIntroMessage
open Util Decimal
open Service (entry keySink)
open Belnet.Path (PathID EncryptedFrame Frames LRStatusMessage encryptedFrameBodySize)
open Contact (RouterContact ContactLibs)
open Dht (Key)

section
variable {σ : Type}

lemma bufferEntry_value {n : ℕ} (f : AlignedBuffer n → σ) (b : Bytes) :
    bufferEntry f b = onState f (.ok (readBuffer n b)) := by
  unfold bufferEntry
  rcases readBuffer n b with _ | x <;> rfl

lemma intEntry_value (f : UInt64 → σ) (b : Bytes) : intEntry (fun i => some (f i)) b = onState f (readInteger b) := by
  unfold intEntry
  rcases readInteger b with e | _ | x <;> rfl

lemma version_value (s : σ) (b : Bytes) : verifyVersion s b = onState (fun _ => s) (verifyVersion () b) := by
  refine onState_intEntry (fun i => ?_) b
  split <;> rfl

variable {α : Type} {π : σ → α} {n : ℕ} {f : σ → AlignedBuffer n → σ} {g : σ → UInt64 → σ}

lemma blind_buffer (f : σ → AlignedBuffer n → σ) (b : Bytes) : Blind fun s => bufferEntry (f s) b := by
  simp only [bufferEntry_value]
  exact blind_value _ f

lemma blind_int (g : σ → UInt64 → σ) (b : Bytes) : Blind fun s => intEntry (fun i => some (g s i)) b := by
  simp only [intEntry_value]
  exact blind_value _ g

lemma blind_version (b : Bytes) : Blind fun s : σ => verifyVersion s b := by
  intro s s'
  dsimp only
  rw [version_value s, version_value s', shape_onState, shape_onState]

lemma settles_buffer (h : ∀ s s' x, π (f s x) = π (f s' x)) (b : Bytes) :
    Settles (fun s => bufferEntry (f s) b) π True := by
  simp only [bufferEntry_value]
  exact settles_value h

lemma settles_int (h : ∀ s s' i, π (g s i) = π (g s' i)) (b : Bytes) :
    Settles (fun s => intEntry (fun i => some (g s i)) b) π True := by
  simp only [intEntry_value]
  exact settles_value h

lemma other_buffer (h : ∀ s x, π (f s x) = π s) (b : Bytes) : Settles (fun s => bufferEntry (f s) b) π False := by
  simp only [bufferEntry_value]
  exact settles_other h

lemma other_int (h : ∀ s i, π (g s i) = π s) (b : Bytes) :
    Settles (fun s => intEntry (fun i => some (g s i)) b) π False := by
  simp only [intEntry_value]
  exact settles_other h

lemma other_version (b : Bytes) : Settles (fun s : σ => verifyVersion s b) π False := by
  have hvalue : (fun s : σ => verifyVersion s b) = fun s => onState (fun _ => s) (verifyVersion () b) :=
    funext fun s => version_value s b
  rw [hvalue]
  exact settles_other fun s x => rfl

lemma do_inside {τ : Type} (e : Decoded τ) (f : τ → σ) :
    (do return (← e).map fun x => (f x.1, x.2)) = onState f e := by rcases e with e | _ | x <;> rfl

variable {T : Reader σ} {x y : UInt8} {P : Bytes → Prop} {b : Bytes}

lemma own (h : Settles T π (P b)) : Settles T π (y = y ∧ P b) := by
  rw [and_iff_right rfl]
  exact h

lemma elsewhere (hxy : x ≠ y) (h : Settles T π False) : Settles T π (x = y ∧ P b) := by
  rw [iff_false_intro fun h' : x = y ∧ P b => hxy h'.1]
  exact h

lemma away_buffer (hxy : x ≠ y) (h : ∀ s x, π (f s x) = π s) (b : Bytes) :
    Settles (fun s => bufferEntry (f s) b) π (x = y ∧ P b) := elsewhere hxy (other_buffer h b)

lemma away_int (hxy : x ≠ y) (h : ∀ s i, π (g s i) = π s) (b : Bytes) :
    Settles (fun s => intEntry (fun i => some (g s i)) b) π (x = y ∧ P b) := elsewhere hxy (other_int h b)

end

abbrev always : Bytes → Prop := fun _ => True

abbrev refused {σ : Type} : Bytes → Bytes → Except MemFault (Option (σ × Bytes)) := fun _ _ => .ok none

lemma refused_ne {σ : Type} (key b : Bytes) (x : σ × Bytes) : refused key b ≠ .ok (some x) := by
  intro h
  cases h

namespace Relay

def table : List (UInt8 × (Relay → Bytes → Except MemFault (Option (Relay × Bytes)))) :=
  [(112, fun m => bufferEntry fun x => { m with pathid := x }), (118, verifyVersion), (120, decodeX),
    (121, fun m => bufferEntry fun x => { m with y := x })]

lemma decodeKey_table (key b : Bytes) :
    (fun m : Relay => m.decodeKey key b) = fun m => dispatch refused table m key b := rfl

lemma blind (key b : Bytes) : Blind fun m : Relay => m.decodeKey key b := by
  rw [decodeKey_table]
  refine dispatch_blind ?_ key b
  simp only [table, List.forall_mem_cons]
  refine ⟨blind_buffer _, blind_version, fun b => ?_, blind_buffer _, fun e he => absurd he List.not_mem_nil⟩
  exact blind_value _ _

section
variable {α : Type} {π : Relay → α} {y : UInt8}

lemma settles (hp : ∀ b, Settles (fun m : Relay => bufferEntry (fun x => { m with pathid := x }) b) π (112 = y ∧ always b))
    (hv : 118 ≠ y) (hx : ∀ b, Settles (fun m : Relay => onState m.putX (readX b)) π (120 = y ∧ always b))
    (hy : ∀ b, Settles (fun m : Relay => bufferEntry (fun x => { m with y := x }) b) π (121 = y ∧ always b))
    (key b : Bytes) : Settles (fun m : Relay => m.decodeKey key b) π (startsWith [y] key = true ∧ always b) := by
  rw [decodeKey_table]
  refine dispatch_settles refused_ne ?_ key b
  simp only [table, List.forall_mem_cons]
  refine ⟨hp, fun b => elsewhere hv (other_version b), fun b => ?_, hy, fun e he => absurd he List.not_mem_nil⟩
  exact hx b

end

lemma settles_pathid : ∀ key b,
    Settles (fun m : Relay => m.decodeKey key b) pathid (startsWith [112] key = true ∧ always b) :=
  settles (fun b => own (settles_buffer (by intro s _ x; rfl) b)) (by decide)
    (fun b => elsewhere (by decide) (settles_other fun s x => rfl))
    (away_buffer (by decide) (by intro s x; rfl))

lemma settles_x : ∀ key b, Settles (fun m : Relay => m.decodeKey key b) x (startsWith [120] key = true ∧ always b) :=
  settles (away_buffer (by decide) (by intro s x; rfl)) (by decide) (fun b => own (settles_value fun s _ x => rfl))
    (away_buffer (by decide) (by intro s x; rfl))

lemma settles_y : ∀ key b, Settles (fun m : Relay => m.decodeKey key b) y (startsWith [121] key = true ∧ always b) :=
  settles (away_buffer (by decide) (by intro s x; rfl)) (by decide)
    (fun b => elsewhere (by decide) (settles_other fun s x => rfl))
    fun b => own (settles_buffer (by intro s _ x; rfl) b)

end Relay

def content (f : EncryptedFrame) : Bytes := f.bytes 0 f.sz

lemma content_bdecode {f g : EncryptedFrame} {x : Bytes} (h : f.bdecode x = .ok (some g)) : content g = x := by
  unfold EncryptedFrame.bdecode at h
  split at h
  · cases h
  split at h
  · rename_i hlen
    cases h
    exact Path.EncryptedFrame.bytes_write (by rw [Nat.zero_add]; exact hlen) rfl
  · cases h

lemma read_blind (b : Bytes) : Blind fun f : EncryptedFrame => f.read b := by
  intro f _
  unfold EncryptedFrame.read EncryptedFrame.bdecode
  cases readString b with
  | none => rfl
  | some =>
    dsimp only
    split
    · rfl
    split <;> rfl

lemma read_settles (b : Bytes) : Settles (fun f : EncryptedFrame => f.read b) content True := by
  intro f _ g _ r _ hf hf'
  refine iff_of_true ?_ (.inl trivial)
  unfold EncryptedFrame.read at hf hf'
  cases hread : readString b with
  | none => rw [hread] at hf; cases hf
  | some =>
    rw [hread] at hf hf'
    obtain ⟨a, ha, heq⟩ := do_eq_some hf
    obtain ⟨_, ha', heq'⟩ := do_eq_some hf'
    cases heq
    cases heq'
    rw [content_bdecode ha, content_bdecode ha']

def newFrames : Frames := .replicate 8 (.new encryptedFrameBodySize)

def hasFrame (i : Fin 8) (b : Bytes) : Prop := i < arrayLength EncryptedFrame.read newFrames b

def commitTable : List (UInt8 × (Frames → Bytes → Except MemFault (Option (Frames × Bytes)))) :=
  [(99, readArray EncryptedFrame.read), (118, verifyVersion)]

lemma commit_table_eq (key b : Bytes) :
    (fun f => decodeCommit f key b) = fun f => dispatch refused commitTable f key b := rfl

lemma blind_commit (key b : Bytes) : Blind fun f => decodeCommit f key b := by
  rw [commit_table_eq]
  refine dispatch_blind ?_ key b
  simp only [commitTable, List.forall_mem_cons]
  exact ⟨readArray_blind read_blind, blind_version, fun e he => absurd he List.not_mem_nil⟩

lemma settles_commit (i : Fin 8) (key b : Bytes) : Settles (fun f => decodeCommit f key b)
    (fun f : Frames => content (f.get i)) (startsWith [99] key = true ∧ hasFrame i b) := by
  rw [commit_table_eq]
  refine dispatch_settles refused_ne (List.forall_mem_cons.mpr ⟨fun b => ?_, List.forall_mem_cons.mpr ⟨fun b => ?_,
    fun e he => absurd he List.not_mem_nil⟩⟩) key b
  · exact own (readArray_settles read_blind read_settles i newFrames b)
  · exact elsewhere (by decide) (other_version b)

namespace Status

def table : List (UInt8 × (LRStatusMessage → Bytes → Except MemFault (Option (LRStatusMessage × Bytes)))) :=
  [(99, fun m b => do
      return (← readArray EncryptedFrame.read m.frames b).map fun r => ({ m with frames := r.1 }, r.2)),
    (112, fun m => bufferEntry fun x => { m with pathid := x }),
    (115, fun m => intEntry fun i => some { m with status := i }), (118, verifyVersion)]

lemma decodeKey_table (key b : Bytes) :
    (fun m : LRStatusMessage => m.decodeKey key b) = fun m => dispatch refused table m key b := rfl

def readFrames (m : LRStatusMessage) (b : Bytes) : Except MemFault (Option (LRStatusMessage × Bytes)) :=
  onState (fun x => { m with frames := x }) (readArray EncryptedFrame.read m.frames b)

lemma readFrames_eq (b : Bytes) : (fun m : LRStatusMessage => do
    return (← readArray EncryptedFrame.read m.frames b).map fun r => ({ m with frames := r.1 }, r.2))
      = fun m => readFrames m b :=
  funext fun m => do_inside (readArray EncryptedFrame.read m.frames b) fun x => { m with frames := x }

lemma blind (key b : Bytes) : Blind fun m : LRStatusMessage => m.decodeKey key b := by
  rw [decodeKey_table]
  refine dispatch_blind ?_ key b
  simp only [table, List.forall_mem_cons]
  refine ⟨fun b => ?_, blind_buffer _, blind_int _, blind_version, fun e he => absurd he List.not_mem_nil⟩
  rw [readFrames_eq]
  exact (readArray_blind read_blind b).inside LRStatusMessage.frames _

section
variable {α : Type} {π : LRStatusMessage → α} {y : UInt8} {P : Bytes → Prop}

lemma settles (hc : ∀ b, Settles (fun m => readFrames m b) π (99 = y ∧ P b))
    (hp : ∀ b, Settles (fun m : LRStatusMessage => bufferEntry (fun x => { m with pathid := x }) b) π (112 = y ∧ P b))
    (hs : ∀ b, Settles (fun m : LRStatusMessage => intEntry (fun i => some { m with status := i }) b) π (115 = y ∧ P b))
    (hv : 118 ≠ y) (key b : Bytes) :
    Settles (fun m : LRStatusMessage => m.decodeKey key b) π (startsWith [y] key = true ∧ P b) := by
  rw [decodeKey_table]
  refine dispatch_settles refused_ne ?_ key b
  simp only [table, List.forall_mem_cons]
  refine ⟨fun b => ?_, hp, hs, fun b => elsewhere hv (other_version b), fun e he => absurd he List.not_mem_nil⟩
  rw [readFrames_eq]
  exact hc b

end

lemma settles_frame (i : Fin 8) : ∀ key b, Settles (fun m : LRStatusMessage => m.decodeKey key b)
    (fun m => content (m.frames.get i)) (startsWith [99] key = true ∧ hasFrame i b) := by
  refine settles (fun b => own ?_) (away_buffer (by decide) (by intro s x; rfl))
    (away_int (by decide) (by intro s i; rfl)) (by decide)
  exact (readArray_settles read_blind read_settles i newFrames b).inside (fun s x => rfl) fun s => rfl

lemma settles_pathid : ∀ key b, Settles (fun m : LRStatusMessage => m.decodeKey key b) LRStatusMessage.pathid
    (startsWith [112] key = true ∧ always b) :=
  settles (fun b => elsewhere (by decide) (settles_other (by intro s x; rfl)))
    (fun b => own (settles_buffer (by intro s _ x; rfl) b))
    (away_int (by decide) (by intro s i; rfl)) (by decide)

lemma settles_status : ∀ key b, Settles (fun m : LRStatusMessage => m.decodeKey key b) LRStatusMessage.status
    (startsWith [115] key = true ∧ always b) :=
  settles (fun b => elsewhere (by decide) (settles_other (by intro s x; rfl)))
    (away_buffer (by decide) (by intro s x; rfl))
    (fun b => own (settles_int (by intro s _ i; rfl) b)) (by decide)

end Status

lemma loggedSink_blind {σ : Type} {dk : σ → Bytes → Bytes → Decoded σ}
    (h : ∀ key b, Blind fun s => dk s key b) (key : Option Bytes) (b : Bytes) : Blind fun s => loggedSink dk s key b := by
  intro s s'
  cases key with
  | none => rfl
  | some key =>
    obtain ⟨f, hs, hs'⟩ | ⟨hs, hs'⟩ | ⟨a, _, r, hs, hs'⟩ := shape_cases (h key b s s') <;>
      simp only [loggedSink, hs, hs', shape]

lemma readVector_append {α : Type} (read : Bytes → Decoded α) (l : List α) (b : Bytes) :
    readVector read l b = onState (l ++ ·) (readVector read [] b) := by
  unfold readVector
  refine Eq.trans (by rw [List.append_nil]) (readList_map (f := (l ++ ·)) (fun m b => onState_do (fun x => ?_) _) [] b)
  rw [List.append_assoc]

section
variable (lib : ContactLibs) (net : Contact.NetID) (source : Key)

lemma decodeList_append (l : List (Key × DhtMessage)) (b : Bytes) : DhtMessage.decodeList lib net source l b
    = onState (l ++ ·) (DhtMessage.decodeList lib net source [] b) := readVector_append _ l b

def immediateTable : List (UInt8 × (List (Key × DhtMessage) → Bytes →
    Except MemFault (Option (List (Key × DhtMessage) × Bytes)))) :=
  [(109, DhtMessage.decodeList lib net source), (118, verifyVersion)]

lemma immediate_table (key b : Bytes) : (fun l => decodeImmediate lib net source l key b)
    = fun l => dispatch refused (immediateTable lib net source) l key b := rfl

lemma blind_immediate (key b : Bytes) : Blind fun l => decodeImmediate lib net source l key b := by
  rw [immediate_table]
  refine dispatch_blind ?_ key b
  simp only [immediateTable, List.forall_mem_cons]
  refine ⟨fun b => ?_, blind_version, fun e he => absurd he List.not_mem_nil⟩
  rw [funext fun l => decodeList_append lib net source l b]
  exact blind_value _ _

lemma settles_immediate (key b : Bytes) : Settles (fun l => decodeImmediate lib net source l key b) id
    (startsWith [109] key = true ∧ False) := by
  rw [immediate_table]
  refine dispatch_settles (P := fun _ => False) refused_ne (List.forall_mem_cons.mpr ⟨fun b =>
    own (P := fun _ => False) (b := b) ?_,
    List.forall_mem_cons.mpr ⟨fun b => ?_, fun e he => absurd he List.not_mem_nil⟩⟩) key b
  · rw [funext fun l => decodeList_append lib net source l b]
    exact settles_beside fun l _ x => List.append_left_inj x
  · exact elsewhere (P := fun _ => False) (b := b) (by decide : (118 : UInt8) ≠ 109) (other_version b)

end

namespace LinkIntro
variable (lib : ContactLibs)

def readType (m : LinkIntro) (b : Bytes) : Except MemFault (Option (LinkIntro × Bytes)) :=
  .ok (match readString b with
    | some ([x], b) => if x = 105 then some (m, b) else none
    | _ => none)

lemma readType_value (b : Bytes) : ∃ e : Decoded Unit, (fun m => readType m b) = fun m => onState (fun _ => m) e := by
  unfold readType
  split
  · rename_i x r _
    by_cases hx : x = 105
    · exact ⟨.ok (some ((), r)), by simp only [if_pos hx, onState]⟩
    · exact ⟨.ok none, by simp only [if_neg hx, onState]⟩
  · exact ⟨.ok none, rfl⟩

def readContact (m : LinkIntro) (b : Bytes) : Except MemFault (Option (LinkIntro × Bytes)) :=
  onState (fun x => { m with rc := x }) (m.rc.bdecode lib b)

lemma readContact_eq (b : Bytes) : (fun m : LinkIntro => do
    return (← m.rc.bdecode lib b).map fun x => ({ m with rc := x.1 }, x.2)) = fun m => readContact lib m b :=
  funext fun m => do_inside (m.rc.bdecode lib b) fun x => { m with rc := x }

def table : List (UInt8 × (LinkIntro → Bytes → Except MemFault (Option (LinkIntro × Bytes)))) :=
  [(97, readType), (110, fun m => bufferEntry fun x => { m with n := x }),
    (112, fun m => intEntry fun i => some { m with p := i }),
    (114, fun m b => do return (← m.rc.bdecode lib b).map fun x => ({ m with rc := x.1 }, x.2)),
    (118, verifyVersion), (122, fun m => bufferEntry fun x => { m with z := x })]

def unknown (key b : Bytes) : Except MemFault (Option (LinkIntro × Bytes)) :=
  if key = [] ∧ b = [] then .error .pastEnd else .ok none

lemma unknown_ne (key b : Bytes) (x : LinkIntro × Bytes) : unknown key b ≠ .ok (some x) := by
  unfold unknown
  intro h
  split at h <;> cases h

lemma decodeKey_table (key b : Bytes) :
    (fun m : LinkIntro => m.decodeKey lib key b) = fun m => dispatch unknown (table lib) m key b := rfl

lemma blind (key b : Bytes) : Blind fun m : LinkIntro => m.decodeKey lib key b := by
  rw [decodeKey_table]
  refine dispatch_blind ?_ key b
  simp only [table, List.forall_mem_cons]
  refine ⟨fun b => ?_, blind_buffer _, blind_int _, fun b => ?_, blind_version, blind_buffer _,
    fun e he => absurd he List.not_mem_nil⟩
  · obtain ⟨e, he⟩ := readType_value b
    rw [he]
    exact blind_value _ _
  · rw [readContact_eq]
    exact (RouterContact.bdecode_blind lib b).inside LinkIntro.rc _

section
variable {lib} {α : Type} {π : LinkIntro → α} {y : UInt8} {P : Bytes → Prop}

lemma settles (ha : 97 ≠ y)
    (hn : ∀ b, Settles (fun m : LinkIntro => bufferEntry (fun x => { m with n := x }) b) π (110 = y ∧ P b))
    (hp : ∀ b, Settles (fun m : LinkIntro => intEntry (fun i => some { m with p := i }) b) π (112 = y ∧ P b))
    (hr : ∀ b, Settles (fun m => readContact lib m b) π (114 = y ∧ P b)) (hv : 118 ≠ y)
    (hz : ∀ b, Settles (fun m : LinkIntro => bufferEntry (fun x => { m with z := x }) b) π (122 = y ∧ P b))
    (key b : Bytes) : Settles (fun m : LinkIntro => m.decodeKey lib key b) π (startsWith [y] key = true ∧ P b) := by
  rw [decodeKey_table]
  refine dispatch_settles unknown_ne ?_ key b
  simp only [table, List.forall_mem_cons]
  refine ⟨fun b => ?_, hn, hp, fun b => ?_, fun b => elsewhere hv (other_version b), hz,
    fun e he => absurd he List.not_mem_nil⟩
  · obtain ⟨e, he⟩ := readType_value b
    rw [he]
    exact elsewhere ha (settles_other fun s x => rfl)
  · rw [readContact_eq]
    exact hr b

lemma settles_rc {ρ : RouterContact → α} (h : ∀ b, Settles (fun r => RouterContact.bdecode lib r b) ρ (P b)) :
    ∀ key b, Settles (fun m : LinkIntro => m.decodeKey lib key b) (fun m => ρ m.rc)
      (startsWith [114] key = true ∧ P b) :=
  settles (by decide) (away_buffer (by decide) (by intro s x; rfl)) (away_int (by decide) (by intro s i; rfl))
    (fun b => own ((h b).inside (fun s x => rfl) fun s => rfl)) (by decide)
    (away_buffer (by decide) (by intro s x; rfl))

end

lemma settles_n : ∀ key b,
    Settles (fun m : LinkIntro => m.decodeKey lib key b) n (startsWith [110] key = true ∧ always b) :=
  settles (by decide) (fun b => own (settles_buffer (by intro s _ x; rfl) b))
    (away_int (by decide) (by intro s i; rfl))
    (fun b => elsewhere (by decide) (settles_other (by intro s x; rfl))) (by decide)
    (away_buffer (by decide) (by intro s x; rfl))

lemma settles_p : ∀ key b,
    Settles (fun m : LinkIntro => m.decodeKey lib key b) p (startsWith [112] key = true ∧ always b) :=
  settles (by decide) (away_buffer (by decide) (by intro s x; rfl))
    (fun b => own (settles_int (by intro s _ i; rfl) b))
    (fun b => elsewhere (by decide) (settles_other (by intro s x; rfl))) (by decide)
    (away_buffer (by decide) (by intro s x; rfl))

lemma settles_z : ∀ key b,
    Settles (fun m : LinkIntro => m.decodeKey lib key b) z (startsWith [122] key = true ∧ always b) :=
  settles (by decide) (away_buffer (by decide) (by intro s x; rfl)) (away_int (by decide) (by intro s i; rfl))
    (fun b => elsewhere (by decide) (settles_other (by intro s x; rfl))) (by decide)
    fun b => own (settles_buffer (by intro s _ x; rfl) b)

end LinkIntro

namespace Holder
variable (lib : ContactLibs) (net : Contact.NetID) (source : Key)

def header (b : Bytes) : Option (Kind × Bytes) := Util.header 97 Kind.ofType b

def body (k : Kind) (n : ℕ) (h : Holder) (b : Bytes) : Except MemFault (Option (Holder × Bytes)) :=
  readEntries (keySink (decodeKey lib net source k)) n h b

lemma sink_lift (k : Kind) (h : Holder) (key : Option Bytes) (b : Bytes) : sink lib net source (h, some k) key b
    = onState (fun h => (h, some k)) (keySink (decodeKey lib net source k) h key b) := by
  cases key with
  | none => rfl
  | some key => rfl

lemma readDict_parts (h : Holder) (b : Bytes) : readDict (sink lib net source) (h, none) b = match header b with
    | none => .ok none
    | some (k, rest) => onState (fun h => (h, some k)) (body lib net source k (b.length - 1) h rest) := by
  have hkey : ∀ key b, sink lib net source (h, none) (some key) b = if !startsWith [97] key then .ok none
      else .ok (match readString b with
        | some ([x], b) => (Kind.ofType x).map fun k => ((h, some k), b)
        | _ => none) := fun key b => rfl
  rw [readDict_header (fun k => (h, some k)) hkey (fun b => rfl) b]
  unfold header
  cases Util.header 97 Kind.ofType b with
  | none => rfl
  | some kr => exact entries_lift (sink_lift lib net source kr.1) _ h kr.2

lemma parse_eq (h : Holder) (b : Bytes) : parse lib net source h b = match header b with
    | none => .ok none
    | some (k, rest) => do
      return (← body lib net source k (b.length - 1) h rest).map fun x => (x.1, k) := by
  unfold parse
  rw [readDict_parts]
  cases header b with
  | none => rfl
  | some kr =>
    obtain ⟨k, rest⟩ := kr
    dsimp only
    rcases body lib net source k (b.length - 1) h rest with e | _ | x <;> rfl

lemma decodeKey_blind (k : Kind) (key b : Bytes) : Blind fun h => decodeKey lib net source k h key b := by
  cases k with
  | intro => exact (LinkIntro.blind lib key b).inside Holder.i fun h x => { h with i := x }
  | downstream => exact (Relay.blind key b).inside Holder.d fun h x => { h with d := x }
  | upstream => exact (Relay.blind key b).inside Holder.u fun h x => { h with u := x }
  | immediate => exact (blind_immediate lib net source key b).inside Holder.m fun h x => { h with m := x }
  | commit => exact (blind_commit key b).inside Holder.c fun h x => { h with c := x }
  | status => exact (Status.blind key b).inside Holder.s fun h x => { h with s := x }
  | discard =>
    intro h _
    simp only [decodeKey]
    split
    · split <;> rfl
    · rfl

lemma keySink_blind (k : Kind) (key : Option Bytes) (b : Bytes) :
    Blind fun h => keySink (decodeKey lib net source k) h key b := by
  cases key with
  | none =>
    intro h _
    rfl
  | some key => exact decodeKey_blind lib net source k key b

def entries (b : Bytes) : List (Bytes × Bytes) :=
  match header b with
  | none => []
  | some (k, rest) => entriesRead (keySink (decodeKey lib net source k)) (b.length - 1) (fresh net 0) rest

def Says (b : Bytes) (y : UInt8) (P : Bytes → Prop) : Prop :=
  ∃ e ∈ entries lib net source b, startsWith [y] e.1 = true ∧ P e.2

lemma body_settles {α : Type} {π : Holder → α} {y : UInt8} {P : Bytes → Prop} {k : Kind} {b rest : Bytes}
    (hk : header b = some (k, rest))
    (h : ∀ key b, Settles (fun h => decodeKey lib net source k h key b) π (startsWith [y] key = true ∧ P b)) :
    Settles (fun h => body lib net source k (b.length - 1) h rest) π (Says lib net source b y P) := by
  intro s s' a a' r r' hs hs'
  have hblind := readEntries_blind (keySink_blind lib net source k) (b.length - 1) rest
  obtain ⟨a0, h0⟩ := hblind.ok hs (fresh net 0)
  have hend : ∀ b, Settles (fun h => keySink (decodeKey lib net source k) h none b) π False := by
    intro b s s' a a' r r' hs hs'
    cases hs
    cases hs'
    rw [false_or]
  have hrun := entries_settles (keySink_blind lib net source k) h hend (b.length - 1) (fresh net 0) rest a0 r h0
  have hentry : Says lib net source b y P ↔ ∃ e ∈ entriesRead (keySink (decodeKey lib net source k)) (b.length - 1)
      (fresh net 0) rest, startsWith [y] e.1 = true ∧ P e.2 := by
    unfold Says entries
    rw [hk]
  rw [hentry]
  exact hrun s s' a a' r r' hs hs'

def Same (k : Kind) (h h' : Holder) : Prop :=
  match k with
  | .intro => h.i = h'.i
  | .downstream => h.d = h'.d
  | .upstream => h.u = h'.u
  | .immediate => h.m = h'.m
  | .commit => ∀ i, content (h.c.get i) = content (h'.c.get i)
  | .status => (∀ i, content (h.s.frames.get i) = content (h'.s.frames.get i)) ∧ h.s.pathid = h'.s.pathid ∧
    h.s.status = h'.s.status
  | .discard => True

def RelayClean (b : Bytes) (m m' : Relay) : Prop :=
  (Says lib net source b 112 always ∨ m.pathid = m'.pathid) ∧ (Says lib net source b 120 always ∨ m.x = m'.x) ∧
    (Says lib net source b 121 always ∨ m.y = m'.y)

/-- A message says every field in which its object differs from that of `h'`; DHT messages are not replaced, and a
contact can leave out the network and has one format. -/
def Clean (k : Kind) (b : Bytes) (h h' : Holder) : Prop :=
  match k with
  | .intro => (Says lib net source b 110 always ∨ h.i.n = h'.i.n) ∧ (Says lib net source b 112 always ∨ h.i.p = h'.i.p) ∧
    (Says lib net source b 122 always ∨ h.i.z = h'.i.z) ∧
    (Says lib net source b 114 always ∨ h.i.rc.core = h'.i.rc.core) ∧
    (Says lib net source b 114 (fun v => RouterContact.namesNetwork lib v = true) ∨ h.i.rc.netID = h'.i.rc.netID) ∧
    (Says lib net source b 114 (fun v => v.head? = some 108) ∨ h.i.rc.signedBtDict = h'.i.rc.signedBtDict)
  | .downstream => RelayClean lib net source b h.d h'.d
  | .upstream => RelayClean lib net source b h.u h'.u
  | .immediate => h.m = h'.m
  | .commit => ∀ i, Says lib net source b 99 (hasFrame i) ∨ content (h.c.get i) = content (h'.c.get i)
  | .status => (∀ i, Says lib net source b 99 (hasFrame i) ∨ content (h.s.frames.get i) = content (h'.s.frames.get i)) ∧
    (Says lib net source b 112 always ∨ h.s.pathid = h'.s.pathid) ∧
    (Says lib net source b 115 always ∨ h.s.status = h'.s.status)
  | .discard => True

lemma relay_eq_iff {m m' : Relay} : m = m' ↔ m.pathid = m'.pathid ∧ m.x = m'.x ∧ m.y = m'.y := by
  obtain ⟨_, x, y, _⟩ := m
  obtain ⟨_, _, _, _⟩ := m'
  simp only [Relay.mk.injEq]

lemma contact_eq_iff {r r' : RouterContact} :
    r = r' ↔ r.core = r'.core ∧ r.netID = r'.netID ∧ r.signedBtDict = r'.signedBtDict := by
  refine ⟨fun h => by rw [h]; exact ⟨rfl, rfl, rfl⟩, fun ⟨hcore, hnet, hdict⟩ => ?_⟩
  have hback : ∀ q : RouterContact, q = { q.core with netID := q.netID, signedBtDict := q.signedBtDict } := fun q => rfl
  rw [hback r, hback r', hcore, hnet, hdict]

lemma intro_eq_iff {m m' : LinkIntro} : m = m' ↔ m.n = m'.n ∧ m.p = m'.p ∧ m.z = m'.z ∧ m.rc.core = m'.rc.core ∧
    m.rc.netID = m'.rc.netID ∧ m.rc.signedBtDict = m'.rc.signedBtDict := by
  rw [← contact_eq_iff]
  obtain ⟨_, n, z, p⟩ := m
  obtain ⟨_, _, _, _⟩ := m'
  simp only [LinkIntro.mk.injEq]
  exact ⟨fun ⟨hrc, hn, hz, hp⟩ => ⟨hn, hp, hz, hrc⟩, fun ⟨hn, hp, hz, hrc⟩ => ⟨hrc, hn, hz, hp⟩⟩

lemma same_iff {k : Kind} {b rest r r' : Bytes} (hk : header b = some (k, rest)) {h h' a a' : Holder}
    (hs : body lib net source k (b.length - 1) h rest = .ok (some (a, r)))
    (hs' : body lib net source k (b.length - 1) h' rest = .ok (some (a', r'))) :
    Same k a a' ↔ Clean lib net source k b h h' := by
  -- one field of the object of the kind
  have field : ∀ {α : Type} {π : Holder → α} {y : UInt8} {P : Bytes → Prop},
      (∀ key b, Settles (fun h => decodeKey lib net source k h key b) π (startsWith [y] key = true ∧ P b)) →
        (π a = π a' ↔ Says lib net source b y P ∨ π h = π h') :=
    fun hsettles => body_settles lib net source hk hsettles h h' a a' r r' hs hs'
  -- one field of an object inside it
  have part : ∀ {τ α : Type} (get : Holder → τ) {put : Holder → τ → Holder}
      {dk : τ → Bytes → Bytes → Decoded τ} {ρ : τ → α} {y : UInt8} {P : Bytes → Prop},
      (∀ h key b, decodeKey lib net source k h key b = onState (put h) (dk (get h) key b)) →
      (∀ h x, get (put h x) = x) → (∀ key b, Settles (fun m => dk m key b) ρ (startsWith [y] key = true ∧ P b)) →
        (ρ (get a) = ρ (get a') ↔ Says lib net source b y P ∨ ρ (get h) = ρ (get h')) := by
    intro τ α get put dk ρ y P hdk hget hm
    refine field (π := fun h => ρ (get h)) fun key b => ?_
    rw [funext fun h => hdk h key b]
    exact (hm key b).inside (fun s x => by rw [hget]) fun s => rfl
  have relay (get : Holder → Relay) {put : Holder → Relay → Holder}
      (hdk : ∀ h key b, decodeKey lib net source k h key b = onState (put h) ((get h).decodeKey key b))
      (hget : ∀ h x, get (put h x) = x) :=
    relay_eq_iff.trans (and_congr (part get hdk hget Relay.settles_pathid)
      (and_congr (part get hdk hget Relay.settles_x) (part get hdk hget Relay.settles_y)))
  cases k with
  | intro =>
    have inside {α : Type} {ρ : LinkIntro → α} {y : UInt8} {P : Bytes → Prop} (hm : ∀ key b,
        Settles (fun m : LinkIntro => m.decodeKey lib key b) ρ (startsWith [y] key = true ∧ P b)) :=
      part Holder.i (fun _ _ _ => rfl) (fun _ _ => rfl) hm
    refine intro_eq_iff.trans ?_
    exact and_congr (inside (LinkIntro.settles_n lib)) (and_congr (inside (LinkIntro.settles_p lib))
      (and_congr (inside (LinkIntro.settles_z lib)) (and_congr
        (inside (LinkIntro.settles_rc (RouterContact.bdecode_settles_core lib)))
        (and_congr (inside (LinkIntro.settles_rc (RouterContact.bdecode_settles_netID lib)))
          (inside (LinkIntro.settles_rc (RouterContact.bdecode_settles_dict lib)))))))
  | downstream => exact relay Holder.d (fun _ _ _ => rfl) fun _ _ => rfl
  | upstream => exact relay Holder.u (fun _ _ _ => rfl) fun _ _ => rfl
  | immediate =>
    have hm := field (π := Holder.m) (P := fun _ => False) fun key b =>
      (settles_immediate lib net source key b).inside (fun s x => rfl) fun s => rfl
    refine hm.trans (or_iff_right ?_)
    rintro ⟨e, -, -, hfalse⟩
    exact hfalse
  | commit =>
    exact forall_congr' fun i => field (π := fun h => content (h.c.get i)) fun key b =>
      (settles_commit i key b).inside (fun s x => rfl) fun s => rfl
  | status =>
    have inside {α : Type} {ρ : LRStatusMessage → α} {y : UInt8} {P : Bytes → Prop} (hm : ∀ key b,
        Settles (fun m : LRStatusMessage => m.decodeKey key b) ρ (startsWith [y] key = true ∧ P b)) :=
      part Holder.s (fun _ _ _ => rfl) (fun _ _ => rfl) hm
    exact and_congr (forall_congr' fun i => inside (Status.settles_frame i))
      (and_congr (inside Status.settles_pathid) (inside Status.settles_status))
  | discard => exact .rfl

end Holder

def stopped {σ : Type} (decodeKey : σ → Bytes → Bytes → Except MemFault (Option (σ × Bytes))) :
    ℕ → σ → Bytes → σ × Option Bytes
  | 0, s, _ => (s, none)
  | _ + 1, s, [] => (s, none)
  | n + 1, s, x :: b =>
    if x = 101 then (s, none)
    else match readString (x :: b) with
      | none => (s, none)
      | some (key, b) => match decodeKey s key b with
        | .ok (some (s, b)) => stopped decodeKey n s b
        | _ => (s, some key)

namespace Holder

def Torn (k : Kind) (key : Option Bytes) (h h' : Holder) : Prop :=
  match k, key with
  | .intro, some key => if startsWith [114] key then ∃ rc, h' = { h with i := { h.i with rc } } else h' = h
  | .immediate, some key => if startsWith [109] key then ∃ l, h' = { h with m := h.m ++ l } else h' = h
  | .commit, some key => if startsWith [99] key then ∃ c, h' = { h with c } else h' = h
  | .status, some key => if startsWith [99] key then ∃ frames, h' = { h with s := { h.s with frames } } else h' = h
  | _, _ => h' = h

variable (lib : ContactLibs) (net : Contact.NetID)

inductive Step : Holder → Holder → Prop
  | handled {h h' : Holder} {k : Kind} (source : Key) (b : Bytes) :
      parse lib net source h b = .ok (some (h', k)) → Step h (h'.clear k)
  | unread {h : Holder} (b : Bytes) : header b = none → Step h h
  | refused {h h' : Holder} {k : Kind} {rest : Bytes} (source : Key) (b : Bytes) :
      header b = some (k, rest) → body lib net source k (b.length - 1) h rest = .ok none →
      Torn k (stopped (decodeKey lib net source k) (b.length - 1) h rest).2
        (stopped (decodeKey lib net source k) (b.length - 1) h rest).1 h' → Step h h'
  | fault {h h' : Holder} {e : MemFault} (source : Key) (b : Bytes) : parse lib net source h b = .error e → Step h h'

/-- Whatever was read before, a handled message is what a new parser would handle exactly if it says every field that
is not as new. -/
theorem handled_as_fresh_iff {h h1 : Holder} (source : Key) {b : Bytes} {k : Kind}
    (hparse : parse lib net source h b = .ok (some (h1, k))) (p : UInt64) :
    (∃ h2, parse lib net source (fresh net p) b = .ok (some (h2, k)) ∧ Same k h1 h2) ↔
      Clean lib net source k b h (fresh net p) := by
  rw [parse_eq] at hparse
  cases hk : header b with
  | none => rw [hk] at hparse; cases hparse
  | some kr =>
    obtain ⟨k', rest⟩ := kr
    rw [hk] at hparse
    obtain ⟨⟨a, r⟩, hbody, heq⟩ := do_eq_some hparse
    cases heq
    have hblind := readEntries_blind (keySink_blind lib net source k) (b.length - 1) rest
    obtain ⟨h2, hfresh⟩ := hblind.ok hbody (fresh net p)
    have hparse' : parse lib net source (fresh net p) b = .ok (some (h2, k)) := by
      rw [parse_eq, hk]
      show (do return (← body lib net source k (b.length - 1) (fresh net p) rest).map _) = _
      rw [body, hfresh]
      rfl
    have hsame := same_iff lib net source hk hbody hfresh
    refine Iff.trans ⟨?_, fun hs => ⟨h2, hparse', hs⟩⟩ hsame
    rintro ⟨h2', hp, hs⟩
    rw [hparse'] at hp
    cases hp
    exact hs

def bare : Bytes := [100, 49, 58, 97, 49, 58, 117, 101]

lemma parse_bare (source : Key) (h : Holder) : parse lib net source h bare = .ok (some (h, .upstream)) := rfl

def torn : Bytes := [100, 49, 58, 97, 49, 58, 117, 49, 58, 112, 49, 54, 58] ++ List.replicate 16 7 ++ [49, 58, 113]

def tornRest : Bytes := [49, 58, 112, 49, 54, 58] ++ List.replicate 16 7 ++ [49, 58, 113]

def tornPath : PathID := .replicate 16 7

lemma header_torn : header torn = some (.upstream, tornRest) := rfl

lemma step_torn (source : Key) (h : Holder) : Step lib net h { h with u := { h.u with pathid := tornPath } } := by
  refine .refused source torn header_torn rfl ?_
  rfl

theorem handled_as_fresh_iff_bare : ∃ h, Step Contact.Sample.libs (.zero 8) (fresh (.zero 8) 0) h ∧
    ¬ Clean Contact.Sample.libs (.zero 8) (.zero 32) .upstream bare h (fresh (.zero 8) 0) := by
  refine ⟨_, step_torn _ _ (.replicate 32 1) _, fun hclean => ?_⟩
  obtain ⟨h2, hparse, hsame⟩ := (handled_as_fresh_iff _ _ _ (parse_bare _ _ _ _) 0).mpr hclean
  cases hparse
  have hpath : tornPath = .zero 16 := congrArg Relay.pathid hsame
  exact absurd hpath (by decide)

/-- the path id of a message that was refused is that of the next one, from whomever it is -/
theorem path_id_left : ∃ h h1 h2, Step Contact.Sample.libs (.zero 8) (fresh (.zero 8) 0) h ∧
      parse Contact.Sample.libs (.zero 8) (.zero 32) h bare = .ok (some (h1, .upstream)) ∧
      parse Contact.Sample.libs (.zero 8) (.zero 32) (fresh (.zero 8) 0) bare = .ok (some (h2, .upstream)) ∧
      h1.u.pathid = tornPath ∧ h2.u.pathid = .zero 16 ∧ ¬ Same .upstream h1 h2 := by
  refine ⟨_, _, _, step_torn _ _ (.replicate 32 1) _, parse_bare _ _ _ _, parse_bare _ _ _ _, rfl, rfl, ?_⟩
  intro hsame
  have hpath : tornPath = .zero 16 := congrArg Relay.pathid hsame
  exact absurd hpath (by decide)

end Holder

end Belnet.Messages
