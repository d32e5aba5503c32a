import Belnet.Util.Residue

/-!
# Objects whose fields have letters

Decoders of one family differ in tables: which letters they know, for which fields, and how these are read and written.
-/

namespace Belnet.Util
open List Function

structure Format where
  Val : Type
  new : Val
  cleared : Val → Val
  read : Val → Bytes → Except MemFault (Option (Val × Bytes))
  write : Val → Writer
  leftOut : Val → Bool

namespace Format

def nothing : Format where
  Val := Unit
  new := ()
  cleared := id
  read := fun _ _ => .ok none
  write := fun _ => skip
  leftOut := fun _ => true

def number (f : UInt64 → Option UInt64) : Format where
  Val := UInt64
  new := 0
  cleared := fun _ => 0
  read := fun _ b => intEntry f b
  write := writeUint64
  leftOut := fun _ => false

def int : Format := number some

def buffer (n : ℕ) : Format where
  Val := AlignedBuffer n
  new := .zero n
  cleared := fun _ => .zero n
  read := fun _ b => bufferEntry id b
  write := fun x => writeBytestring x.toList
  leftOut := fun _ => false

end Format

inductive Entry where
  | field (letter field : UInt8)
  | int (letter : UInt8) (i : UInt64)
  | text (letter : UInt8) (x : Bytes)

def Entry.letter : Entry → UInt8
  | .field letter _ => letter
  | .int letter _ => letter
  | .text letter _ => letter

abbrev versionField : UInt8 := 118

structure Schema where
  slot : UInt8 → Format
  version : UInt64 → Option UInt64
  reads : List (UInt8 × UInt8)
  other : Bytes → Except MemFault (Option Bytes)
  clears : List UInt8
  writes : List Entry

namespace Schema

def field (s : Schema) (c : UInt8) : Format := if c = versionField then .number s.version else s.slot c

abbrev Object (s : Schema) : Type := ∀ c, (s.field c).Val

variable (s : Schema)

def new : s.Object := fun c => (s.field c).new

variable (o : s.Object)

def clear : s.Object := fun c => if c ∈ s.clears then (s.field c).cleared (o c) else o c

def setVersion (v : UInt64) : s.Object := update o versionField v

def row (key : Bytes) : Option UInt8 := (s.reads.find? fun r => startsWith [r.1] key).map Prod.snd

def keep {σ : Type} (o : σ) : Except MemFault (Option Bytes) → Except MemFault (Option (σ × Bytes))
  | .error e => .error e
  | .ok none => .ok none
  | .ok (some b) => .ok (some (o, b))

def decodeKey (key b : Bytes) : Except MemFault (Option (s.Object × Bytes)) :=
  match s.row key with
  | some c => onState (update o c) ((s.field c).read (o c) b)
  | none => keep o (s.other b)

def writeEntry : Entry → Writer
  | .field letter c =>
    if (s.field c).leftOut (o c) then skip else (writeBytestring [letter]).seq ((s.field c).write (o c))
  | .int letter i => writeDictInt [letter] i
  | .text letter x => (writeBytestring [letter]).seq (writeBytestring x)

def bencode : Writer := (startDict.seq (writeAll (s.writeEntry o) s.writes)).seq endDict

end Schema

variable {c : UInt8}

namespace Schema
variable {s : Schema}

lemma setVersion_other (o : s.Object) (v : UInt64) (hc : c ≠ versionField) : s.setVersion o v c = o c := by
  unfold setVersion
  exact update_of_ne hc _ o

lemma setVersion_version (o : s.Object) (v : UInt64) : s.setVersion o v versionField = v := by
  unfold setVersion
  exact update_self versionField _ o

end Schema

structure Format.Parts (f : Format) where
  Part : Type
  Got : Part → Type
  get : (p : Part) → f.Val → Got p
  tells : Part → Bytes → Prop
  ext : ∀ {x x' : f.Val}, (∀ p, get p x = get p x') → x = x'
  blind : ∀ b, Blind fun x => f.read x b
  settles : ∀ p b, Settles (fun x => f.read x b) (get p) (tells p b)

namespace Format

def Parts.whole {f : Format} (e : Bytes → Except MemFault (Option (f.Val × Bytes))) (h : ∀ x b, f.read x b = e b) :
    f.Parts where
  Part := Unit
  Got := fun _ => f.Val
  get := fun _ x => x
  tells := fun _ _ => True
  ext := fun h => h ()
  blind := by
    intro b x x'
    dsimp only
    rw [h, h]
  settles := by
    intro _ b s s' a a' r r' hs hs'
    dsimp only at hs hs'
    rw [h] at hs hs'
    rw [hs] at hs'
    cases hs'
    exact iff_of_true rfl (.inl trivial)

def Parts.nothing : nothing.Parts := .whole (fun _ => .ok none) fun _ _ => rfl

def Parts.number (f : UInt64 → Option UInt64) : (number f).Parts := .whole (intEntry f) fun _ _ => rfl

def Parts.buffer (n : ℕ) : (buffer n).Parts := .whole (bufferEntry id) fun _ _ => rfl

end Format

abbrev Schema.Parts (s : Schema) := ∀ c, (s.field c).Parts

namespace Schema
variable {s : Schema} {σ : Type}

lemma shape_keep (o : σ) (e : Except MemFault (Option Bytes)) : shape (keep o e) = e := by
  rcases e with f | _ | b <;> rfl

lemma keep_eq_some {o a : σ} {e : Except MemFault (Option Bytes)} {r : Bytes}
    (h : keep o e = .ok (some (a, r))) : a = o := by
  rcases e with f | _ | b
  · cases h
  · cases h
  · cases h
    rfl

lemma decodeKey_blind (P : s.Parts) (key b : Bytes) : Blind fun o => s.decodeKey o key b := by
  unfold decodeKey
  cases s.row key with
  | some c => exact ((P c).blind b).inside (fun o : s.Object => o c) fun o x => update o c x
  | none =>
    intro o o'
    exact (shape_keep o _).trans (shape_keep o' _).symm

lemma decodeKey_settles (P : s.Parts) (c : UInt8) (p : (P c).Part) (key b : Bytes) :
    Settles (fun o => s.decodeKey o key b) (fun o => (P c).get p (o c)) (s.row key = some c ∧ (P c).tells p b) := by
  unfold decodeKey
  cases hrow : s.row key with
  | some c' =>
    by_cases hc : c' = c
    · subst hc
      have hown : Settles (fun o : s.Object => onState (update o c') ((s.field c').read (o c') b))
          (fun o => (P c').get p (o c')) ((P c').tells p b) :=
        ((P c').settles p b).inside (fun o x => by rw [update_self]) fun o => rfl
      rw [and_iff_right rfl]
      exact hown
    · have hother : ¬ (some c' = some c ∧ (P c).tells p b) := fun h => hc (Option.some.inj h.1)
      rw [iff_false_intro hother]
      refine settles_other (f := fun o : s.Object => update o c') fun o x => ?_
      rw [update_of_ne (Ne.symm hc)]
  | none =>
    intro o _ a _ r _ ho ho'
    rw [keep_eq_some ho, keep_eq_some ho']
    exact (or_iff_right fun h => nomatch h.1).symm

end Schema

variable {e : Entry}

namespace Schema
variable (s : Schema)

def pairs (o : s.Object) (t : UInt8 → Bytes) : Entry → List (Bytes × Bytes)
  | .field letter c => if (s.field c).leftOut (o c) then [] else [([letter], t c)]
  | .int letter i => [([letter], int i)]
  | .text letter x => [([letter], str x)]

variable {t : UInt8 → Bytes} {o : s.Object}

lemma appends_entry (h : ∀ letter c, e = .field letter c → Appends ((s.field c).write (o c)) (t c)) :
    Appends (s.writeEntry o e) (entriesText (s.pairs o t e)) := by
  cases e with
  | field letter c =>
    rw [writeEntry, pairs]
    split
    · exact prints_skip.appends
    have happ := (prints_writeBytestring [letter]).appends.seq (h letter c rfl)
    rw [entriesText, flatMap_singleton]
    exact happ
  | int letter i =>
    rw [pairs, entriesText, flatMap_singleton]
    exact (prints_dictInt [letter] i).appends
  | text letter x =>
    rw [pairs, entriesText, flatMap_singleton]
    exact ((prints_writeBytestring [letter]).seq (prints_writeBytestring x)).appends

lemma entriesText_append (l l' : List (Bytes × Bytes)) : entriesText (l ++ l') = entriesText l ++ entriesText l' :=
  flatMap_append

lemma appends_entries (es : List Entry)
    (h : ∀ letter c, Entry.field letter c ∈ es → Appends ((s.field c).write (o c)) (t c)) :
    Appends (writeAll (s.writeEntry o) es) (entriesText (es.flatMap (s.pairs o t))) := by
  induction es with
  | nil => exact prints_skip.appends
  | cons e es ih =>
    rw [flatMap_cons, entriesText_append]
    refine Appends.seq (s.appends_entry fun letter c he => ?_) (ih fun letter c hmem => ?_)
    · exact h letter c (he ▸ mem_cons_self)
    · exact h letter c (mem_cons_of_mem e hmem)

structure Back (o0 o : s.Object) (t : UInt8 → Bytes) (e : Entry) (c : UInt8) : Prop where
  row : s.row [e.letter] = some c
  left : s.pairs o t e = [] → o0 c = o c
  read : ∀ x, ([e.letter], x) ∈ s.pairs o t e → ∀ rest, (s.field c).read (o0 c) (x ++ rest) = .ok (some (o c, rest))

lemma pairs_cases (o : s.Object) (t : UInt8 → Bytes) (e : Entry) :
    s.pairs o t e = [] ∨ ∃ x, s.pairs o t e = [([e.letter], x)] := by
  cases e with
  | field letter c =>
    rw [pairs]
    split
    · exact .inl rfl
    · exact .inr ⟨t c, rfl⟩
  | int letter i => exact .inr ⟨int i, rfl⟩
  | text letter x => exact .inr ⟨str x, rfl⟩

variable {s} {τ : Type} {sink : Sink τ} {g : s.Object → τ}

section
variable
    (hlift : ∀ o key b o' r, s.decodeKey o key b = .ok (some (o', r)) → sink (g o) (some key) b = .ok (some (g o', r)))
include hlift

lemma reads_entry {o0 : s.Object} (h : s.Back o0 o t e c) :
    Reads sink (g o0) (entriesText (s.pairs o t e)) (g (update o0 c (o c))) := by
  obtain hnone | ⟨x, hx⟩ := s.pairs_cases o t e
  · rw [hnone, ← h.left hnone, update_eq_self]
    exact .nil
  have hread := h.read x (hx ▸ mem_singleton_self _)
  rw [hx, entriesText, flatMap_singleton]
  refine Reads.entry (by simp) fun rest => hlift o0 [e.letter] (x ++ rest) _ rest ?_
  unfold decodeKey
  rw [h.row]
  dsimp only
  rw [hread]
  rfl

lemma reads_entries (o : s.Object) (t : UInt8 → Bytes) (es : List (Entry × UInt8)) :
    ∀ o0 : s.Object, (es.map Prod.snd).Nodup → (∀ e ∈ es, s.Back o0 o t e.1 e.2) →
      Reads sink (g o0) (entriesText ((es.map Prod.fst).flatMap (s.pairs o t)))
        (g fun c => if c ∈ es.map Prod.snd then o c else o0 c) := by
  induction es with
  | nil =>
    intro o0 _ _
    exact .nil
  | cons e es ih =>
    intro o0 hnodup hback
    obtain ⟨e, c⟩ := e
    rw [map_cons, nodup_cons] at hnodup
    have hfirst := reads_entry hlift (hback (e, c) mem_cons_self)
    have hback' : ∀ e' ∈ es, s.Back (update o0 c (o c)) o t e'.1 e'.2 := by
      intro e' he'
      have hne : e'.2 ≠ c := fun heq => hnodup.1 (mem_map.mpr ⟨e', he', heq⟩)
      have hold := hback e' (mem_cons_of_mem _ he')
      refine ⟨hold.row, ?_, ?_⟩
      · rw [update_of_ne hne]
        exact hold.left
      · rw [update_of_ne hne]
        exact hold.read
    have hrest := ih (update o0 c (o c)) hnodup.2 hback'
    have hfill : (fun d => if d ∈ es.map Prod.snd then o d else update o0 c (o c) d)
        = fun d => if d ∈ (c :: es.map Prod.snd) then o d else o0 d := by
      funext d
      by_cases hd : d = c
      · subst hd
        rw [if_neg hnodup.1, if_pos mem_cons_self, update_self]
      by_cases hmem : d ∈ es.map Prod.snd
      · rw [if_pos hmem, if_pos (mem_cons_of_mem c hmem)]
      · have hnot : d ∉ c :: es.map Prod.snd := not_mem_cons_of_ne_of_not_mem hd hmem
        rw [if_neg hmem, if_neg hnot, update_of_ne hd]
    rw [hfill] at hrest
    rw [map_cons, flatMap_cons, entriesText_append]
    exact hfirst.append hrest

end

end Schema

structure Travels {α : Type} (read : Bytes → Except MemFault (Option (α × Bytes))) (w : Writer) (x : α) (t : Bytes) :
    Prop where
  appends : Appends w t
  back : ∀ rest, read (t ++ rest) = .ok (some (x, rest))
  skipped : Skipped t
  start : Opens t

def Format.Sends (f : Format) (x0 x : f.Val) (b : Bytes) : Prop :=
  (f.leftOut x = true → x0 = x) ∧ Travels (f.read x0) (f.write x) x b

lemma travels_int {f : UInt64 → Option UInt64} {i : UInt64} (h : f i = some i) :
    Travels (intEntry f) (writeUint64 i) i (int i) where
  appends := (prints_writeUint64 i).appends
  back := by
    intro _
    rw [intEntry_int, h]
    rfl
  skipped := skipped_int i
  start := int_opens i

lemma travels_buffer {n : ℕ} (hn : n < 10^9) (x : AlignedBuffer n) :
    Travels (bufferEntry id) (writeBytestring x.toList) x (str x.toList) where
  appends := (prints_writeBytestring x.toList).appends
  back := bufferEntry_str id x hn
  skipped := skipped_str (by rw [x.toList_length]; exact hn)
  start := str_opens x.toList

namespace Schema
variable (s : Schema) {o0 o : s.Object} {t : UInt8 → Bytes}

def Sent (o0 o : s.Object) (t : UInt8 → Bytes) (c : UInt8) : Entry → Prop
  | .field letter d => d = c ∧ s.row [letter] = some c ∧ ((s.field c).leftOut (o c) = true → o0 c = o c) ∧
    Travels ((s.field c).read (o0 c)) ((s.field c).write (o c)) (o c) (t c)
  | .int letter i => s.row [letter] = some c ∧ ∀ rest, (s.field c).read (o0 c) (int i ++ rest) = .ok (some (o c, rest))
  | .text _ _ => False

variable {s}

lemma Sent.back (h : s.Sent o0 o t c e) : s.Back o0 o t e c := by
  cases e with
  | field letter =>
    obtain ⟨rfl, hrow, hleft, htravels⟩ := h
    refine ⟨hrow, fun hnone => hleft ?_, fun x hx rest => ?_⟩
    · by_contra hwritten
      rw [pairs, if_neg hwritten] at hnone
      cases hnone
    rw [pairs] at hx
    split at hx
    · cases hx
    · cases mem_singleton.mp hx
      exact htravels.back rest
  | int letter =>
    refine ⟨h.1, (fun hnone => nomatch hnone), fun x hx rest => ?_⟩
    cases mem_singleton.mp hx
    exact h.2 rest
  | text letter x => exact h.elim

lemma Sent.appends (h : s.Sent o0 o t c e) (letter d : UInt8) (he : e = .field letter d) :
    Appends ((s.field d).write (o d)) (t d) := by
  subst he
  obtain ⟨rfl, -, -, htravels⟩ := h
  exact htravels.appends

lemma Sent.skipped (h : s.Sent o0 o t c e) : ∀ p ∈ s.pairs o t e, Skipped p.2 := by
  intro p hp
  cases e with
  | field letter =>
    obtain ⟨rfl, -, -, htravels⟩ := h
    rw [pairs] at hp
    split at hp
    · cases hp
    · cases mem_singleton.mp hp
      exact htravels.skipped
  | int letter i =>
    cases mem_singleton.mp hp
    exact skipped_int i
  | text letter => exact h.elim

lemma pairs_key : ∀ p ∈ s.pairs o t e, p.1 = [e.letter] := by
  intro p hp
  obtain hnone | ⟨x, hx⟩ := s.pairs_cases o t e
  · rw [hnone] at hp
    cases hp
  · rw [hx] at hp
    cases mem_singleton.mp hp
    rfl

lemma fill_eq {cs : List UInt8} (h : ∀ c, c ∉ cs → o0 c = o c) : (fun c => if c ∈ cs then o c else o0 c) = o := by
  funext c
  by_cases hc : c ∈ cs
  · rw [if_pos hc]
  · rw [if_neg hc, h c hc]

lemma nothing_eq (h : s.field c = .nothing) (x y : (s.field c).Val) : x = y := by
  have hunit : Subsingleton (s.field c).Val := by
    rw [h]
    exact inferInstanceAs (Subsingleton Unit)
  exact hunit.elim x y

lemma field_of_ne (hc : c ≠ versionField) : s.field c = s.slot c := if_neg hc

end Schema

end Belnet.Util
