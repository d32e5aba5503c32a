import Belnet.Util.Residue

/-!
# When a reader leaves its buffer
-/

namespace Belnet.Util
open List

def Fails {α : Type} (P : MemFault → Prop) (e : Except MemFault α) : Prop := ∃ f, P f ∧ e = .error f

section
variable {σ τ α β : Type} {P : MemFault → Prop}

lemma not_fails_ok (x : α) : ¬ Fails P (.ok x) := by
  rintro ⟨f, -, h⟩
  cases h

lemma fails_ok {x : α} : Fails P (.ok x) ↔ False := iff_of_false (not_fails_ok x) id

variable {f : MemFault}

lemma fails_error : Fails P (.error f : Except MemFault α) ↔ P f := by
  refine ⟨?_, fun h => ⟨f, h, rfl⟩⟩
  rintro ⟨g, hg, h⟩
  cases h
  exact hg

lemma fails_onState {f : σ → τ} {e : Decoded σ} : Fails P (onState f e) ↔ Fails P e := by
  cases e with
  | error e => exact fails_error.trans fails_error.symm
  | ok o => exact iff_of_false (by cases o <;> exact not_fails_ok _) (not_fails_ok o)

variable {e : Except MemFault α}

lemma fails_bind {f : α → Except MemFault β} (h : ∀ x, ¬ Fails P (f x)) : Fails P (e >>= f) ↔ Fails P e := by
  cases e with
  | error e => exact fails_error.trans fails_error.symm
  | ok x => exact iff_of_false (h x) (not_fails_ok x)

lemma fails_map {f : α → β} {F : Prop} (h : Fails P e ↔ F) : Fails P (do return f (← e)) ↔ F :=
  (fails_bind fun _ => not_fails_ok _).trans h

lemma fails_ite {c : Prop} [Decidable c] {e' : Except MemFault α} {F F' : Prop} (h : Fails P e ↔ F)
    (h' : Fails P e' ↔ F') : Fails P (if c then e else e') ↔ if c then F else F' := by
  split
  · exact h
  · exact h'

lemma fails_if {c : Prop} [Decidable c] {x : α} : Fails P (if c then .error f else .ok x) ↔ P f ∧ c := by
  split
  · exact fails_error.trans (and_iff_left ‹_›).symm
  · exact iff_of_false (not_fails_ok _) fun h => ‹¬ c› h.2

def IntFails (P : MemFault → Prop) (b : Bytes) : Prop := P .pastEnd ∧ b = []

variable {b : Bytes}

lemma integer_fails : Fails P (readInteger b) ↔ IntFails P b := by
  cases b with
  | nil => exact fails_error.trans (and_iff_left rfl).symm
  | cons x b =>
    refine iff_of_false ?_ fun h => absurd h.2 (cons_ne_nil x b)
    rw [readInteger]
    split
    · exact not_fails_ok _
    split <;> exact not_fails_ok _

lemma int_fails {f : UInt64 → Option σ} : Fails P (intEntry f b) ↔ IntFails P b := by
  refine Iff.trans (fails_bind fun o => ?_) integer_fails
  cases o with
  | none | some => exact not_fails_ok _

lemma buffer_fails {n : ℕ} {f : AlignedBuffer n → σ} : Fails P (bufferEntry f b) ↔ False := fails_ok

def runsOut (sink : Sink σ) : ℕ → σ → Bytes → Bool
  | 0, _, _ => false
  | _ + 1, _, [] => true
  | n + 1, s, x :: b =>
    if x = 101 then false
    else match readString (x :: b) with
      | none => false
      | some (key, b) => match sink s (some key) b with
        | .ok (some (s, b)) => runsOut sink n s b
        | _ => false

variable {sink : Sink σ}

def EntriesFails (P : MemFault → Prop) (sink : Sink σ) (n : ℕ) (s : σ) (F : Bytes → Bytes → Prop) (b : Bytes) : Prop :=
  (P .pastEnd ∧ runsOut sink n s b = true) ∨ ∃ e ∈ entriesRead sink n s b, F e.1 e.2

lemma runsOut_round (n : ℕ) {key rest : Bytes} (hb : Opens b) (hread : readString b = some (key, rest)) (s : σ) :
    runsOut sink (n + 1) s b = match sink s (some key) rest with
      | .ok (some (s, b)) => runsOut sink n s b
      | _ => false := by
  obtain ⟨x, t, rfl, hx⟩ := hb
  rw [runsOut, if_neg hx, hread]

lemma not_unread (n : ℕ) (hb : Opens b) (hread : readString b = none) (s : σ) :
    runsOut sink (n + 1) s b = false ∧ entriesRead sink (n + 1) s b = [] := by
  obtain ⟨x, t, rfl, hx⟩ := hb
  rw [runsOut, entriesRead, if_neg hx, if_neg hx, hread]
  exact ⟨rfl, rfl⟩

variable {F : Bytes → Bytes → Prop}

lemma readEntries_fails (hkey : ∀ s key b, Fails P (sink s (some key) b) ↔ F key b)
    (hend : ∀ s b, ¬ Fails P (sink s none b)) : ∀ n s b, Fails P (readEntries sink n s b) ↔
      EntriesFails P sink n s F b := by
  intro n
  unfold EntriesFails
  induction n with
  | zero =>
    intro s b
    simp [readEntries, runsOut, entriesRead, not_fails_ok]
  | succ n ih =>
    intro s b
    cases round b with
    | out => simp [readEntries, runsOut, entriesRead, fails_error]
    | done b =>
      rw [entries_end]
      simp [runsOut, entriesRead, hend]
    | unread hb hread =>
      rw [entries_unread n hb hread]
      simp [not_unread n hb hread, not_fails_ok]
    | @entry b key rest hb hread =>
      rw [entries_round n hb hread, runsOut_round n hb hread, entriesRead_round n hb hread, exists_mem_cons_iff,
        ← hkey s]
      rcases sink s (some key) rest with e | _ | y
      · simp [andThen, fails_error]
      · simp [andThen, not_fails_ok]
      show Fails P (readEntries sink n y.1 y.2) ↔ _
      rw [ih]
      simp [not_fails_ok]

def DictFails (P : MemFault → Prop) (sink : Sink σ) (s : σ) (F : Bytes → Bytes → Prop) (b : Bytes) : Prop :=
  2 ≤ b.length ∧ b.head? = some 100 ∧ EntriesFails P sink b.length s F b.tail

lemma opened_fails {x : Except MemFault (Option (σ × Bytes))} {Q : Prop} {b : Bytes} {c : UInt8} (hx : Fails P x ↔ Q) :
    Fails P (if b.length < 2 then .ok none else if b.head? ≠ some c then .ok none else x) ↔
      2 ≤ b.length ∧ b.head? = some c ∧ Q := by
  by_cases hlen : b.length < 2
  · rw [if_pos hlen]
    exact iff_of_false (not_fails_ok _) fun h => absurd h.1 (by omega)
  rw [if_neg hlen]
  by_cases hhead : b.head? = some c
  · rw [if_neg (not_not_intro hhead), hx]
    exact ⟨fun h => ⟨by omega, hhead, h⟩, fun h => h.2.2⟩
  · rw [if_pos hhead]
    exact iff_of_false (not_fails_ok _) fun h => hhead h.2.1

lemma readDict_fails (hkey : ∀ s key b, Fails P (sink s (some key) b) ↔ F key b)
    (hend : ∀ s b, ¬ Fails P (sink s none b)) (s : σ) (b : Bytes) :
    Fails P (readDict sink s b) ↔ DictFails P sink s F b := by
  unfold readDict DictFails
  exact opened_fails (readEntries_fails hkey hend ..)

def itemsRead (item : σ → Bytes → Except MemFault (Option (σ × Bytes))) : ℕ → σ → Bytes → List Bytes
  | 0, _, _ => []
  | _ + 1, _, [] => []
  | n + 1, s, x :: b =>
    if x = 101 then []
    else (x :: b) :: match item s (x :: b) with
      | .ok (some (s, b)) => itemsRead item n s b
      | _ => []

def itemsRunOut (item : σ → Bytes → Except MemFault (Option (σ × Bytes))) : ℕ → σ → Bytes → Bool
  | 0, _, _ => false
  | _ + 1, _, [] => true
  | n + 1, s, x :: b =>
    if x = 101 then false
    else match item s (x :: b) with
      | .ok (some (s, b)) => itemsRunOut item n s b
      | _ => false

variable {item : σ → Bytes → Decoded σ}

lemma readItems_fails {F : Bytes → Prop} (hitem : ∀ s x b, Fails P (item s (x :: b)) ↔ F (x :: b)) :
    ∀ n s b, Fails P (readItems item n s b) ↔
      (P .pastEnd ∧ itemsRunOut item n s b = true) ∨ ∃ r ∈ itemsRead item n s b, F r := by
  intro n
  induction n with
  | zero =>
    intro s b
    simp [readItems, itemsRunOut, itemsRead, not_fails_ok]
  | succ n ih =>
    intro s b
    cases b with
    | nil => simp [readItems, itemsRunOut, itemsRead, fails_error]
    | cons x b =>
      rw [readItems, itemsRunOut, itemsRead]
      by_cases hx : x = 101
      · simp [hx, not_fails_ok]
      rw [if_neg hx, if_neg hx, if_neg hx, exists_mem_cons_iff, ← hitem s x b]
      rcases item s (x :: b) with e | _ | y
      · simp [fails_error, bind, Except.bind]
      · show Fails P (.ok none) ↔ _
        simp [not_fails_ok]
      show Fails P (readItems item n y.1 y.2) ↔ _
      rw [ih]
      simp [not_fails_ok]

def ListFails (P : MemFault → Prop) (item : σ → Bytes → Except MemFault (Option (σ × Bytes))) (s : σ)
    (F : Bytes → Prop) (b : Bytes) : Prop :=
  2 ≤ b.length ∧ b.head? = some 108 ∧ ((P .pastEnd ∧ itemsRunOut item b.length s b.tail = true) ∨
    ∃ r ∈ itemsRead item b.length s b.tail, F r)

lemma readList_fails {F : Bytes → Prop} (hitem : ∀ s x b, Fails P (item s (x :: b)) ↔ F (x :: b)) (s : σ)
    (b : Bytes) : Fails P (readList item s b) ↔ ListFails P item s F b := by
  unfold readList ListFails
  exact opened_fails (readItems_fails hitem ..)

/-! ## what is read from two objects

The entries of a dictionary do not depend on the object if the entries before them read as far. -/

variable {R : σ → σ → Prop}

section
variable (hshape : ∀ s s' key b, R s s' → shape (sink s (some key) b) = shape (sink s' (some key) b))
    (hkeeps : ∀ s s' key b a a' r r', R s s' → sink s (some key) b = .ok (some (a, r)) → sink s' (some key) b = .ok (some (a', r')) → R a a')
include hshape hkeeps

lemma entriesRead_sim :
    ∀ n s s' b, R s s' → entriesRead sink n s b = entriesRead sink n s' b ∧ runsOut sink n s b = runsOut sink n s' b := by
  intro n
  induction n with
  | zero =>
    intro s s' b h
    exact ⟨rfl, rfl⟩
  | succ n ih =>
    intro s s' b h
    cases round b with
    | out | done b => exact ⟨rfl, rfl⟩
    | unread hb hread =>
      exact ⟨(not_unread n hb hread s).2.trans (not_unread n hb hread s').2.symm,
        (not_unread n hb hread s).1.trans (not_unread n hb hread s').1.symm⟩
    | @entry b key rest hb hread =>
      simp only [entriesRead_round n hb hread, runsOut_round n hb hread]
      obtain ⟨f, hs, hs'⟩ | ⟨hs, hs'⟩ | ⟨a, a', r, hs, hs'⟩ := shape_cases (hshape s s' key rest h)
      · rw [hs, hs']
        exact ⟨rfl, rfl⟩
      · rw [hs, hs']
        exact ⟨rfl, rfl⟩
      · obtain ⟨hentries, hout⟩ := ih a a' r (hkeeps s s' key rest a a' r r h hs hs')
        rw [hs, hs']
        exact ⟨congrArg ((key, rest) :: ·) hentries, hout⟩

lemma dictFails_sim
    {s s' : σ} (h : R s s') (b : Bytes) :
    DictFails P sink s F b ↔ DictFails P sink s' F b := by
  obtain ⟨hentries, hout⟩ := entriesRead_sim hshape hkeeps b.length s s' b.tail h
  unfold DictFails EntriesFails
  rw [hentries, hout]

end

lemma entriesFails_blind (h : ∀ key b, Blind fun s => sink s key b) (n : ℕ) (s s' : σ)
    (b : Bytes) : EntriesFails P sink n s F b ↔ EntriesFails P sink n s' F b := by
  obtain ⟨hentries, hout⟩ := entriesRead_sim (R := fun _ _ => True) (fun s s' key b _ => h (some key) b s s')
    (fun _ _ _ _ _ _ _ _ _ _ _ => trivial) n s s' b trivial
  unfold EntriesFails
  rw [hentries, hout]

lemma dictFails_blind (h : ∀ key b, Blind fun s => sink s key b) (s s' : σ) (b : Bytes) :
    DictFails P sink s F b ↔ DictFails P sink s' F b :=
  and_congr_right fun _ => and_congr_right fun _ => entriesFails_blind h b.length s s' b.tail

lemma itemsRead_blind (h : ∀ b, Blind fun s => item s b) : ∀ n s s' b,
    itemsRead item n s b = itemsRead item n s' b ∧ itemsRunOut item n s b = itemsRunOut item n s' b := by
  intro n
  induction n with
  | zero =>
    intro s s' b
    exact ⟨rfl, rfl⟩
  | succ n ih =>
    intro s s' b
    cases b with
    | nil => exact ⟨rfl, rfl⟩
    | cons x b =>
      simp only [itemsRead, itemsRunOut]
      by_cases hx : x = 101
      · simp [hx]
      simp only [if_neg hx]
      have heq : shape (item s (x :: b)) = shape (item s' (x :: b)) := h (x :: b) s s'
      obtain ⟨f, hs, hs'⟩ | ⟨hs, hs'⟩ | ⟨a, a', r, hs, hs'⟩ := shape_cases heq
      · rw [hs, hs']
        exact ⟨rfl, rfl⟩
      · rw [hs, hs']
        exact ⟨rfl, rfl⟩
      · obtain ⟨hitems, hout⟩ := ih a a' r
        rw [hs, hs']
        exact ⟨congrArg ((x :: b) :: ·) hitems, hout⟩

lemma listFails_blind {F : Bytes → Prop} (h : ∀ b, Blind fun s => item s b) (s s' : σ) (b : Bytes) :
    ListFails P item s F b ↔ ListFails P item s' F b := by
  obtain ⟨hitems, hout⟩ := itemsRead_blind h b.length s s' b.tail
  unfold ListFails
  rw [hitems, hout]

def vectorItem (read : Bytes → Except MemFault (Option (α × Bytes))) (l : List α) (b : Bytes) :
    Except MemFault (Option (List α × Bytes)) := do
  return (← read b).map fun x => (l ++ [x.1], x.2)

def VectorFails (P : MemFault → Prop) (read : Bytes → Except MemFault (Option (α × Bytes))) (F : Bytes → Prop)
    (b : Bytes) : Prop := ListFails P (vectorItem read) [] F b

lemma vectorItem_blind (read : Bytes → Decoded α) (b : Bytes) : Blind fun l => vectorItem read l b := by
  intro l _
  dsimp only [vectorItem]
  rcases read b with e | _ | x <;> rfl

lemma vector_fails {read : Bytes → Decoded α} {F : Bytes → Prop}
    (h : ∀ x b, Fails P (read (x :: b)) ↔ F (x :: b)) (l : List α) (b : Bytes) :
    Fails P (readList (vectorItem read) l b) ↔ VectorFails P read F b :=
  (readList_fails (fun _ x b => fails_map (h x b)) l b).trans (listFails_blind (vectorItem_blind read) l [] b)

def discardItem (fuel : ℕ) (_ : Unit) (b : Bytes) : Except MemFault (Option (Unit × Bytes)) := do
  return (← discardFrom fuel b).map fun b => ((), b)

def discardEntry (fuel : ℕ) : Sink Unit := fun _ key b =>
  match key with
  | none => .ok (some ((), b))
  | some _ => discardItem fuel () b

def DiscardFails (P : MemFault → Prop) : ℕ → Bytes → Prop
  | 0, _ => False
  | _ + 1, [] => False
  | fuel + 1, x :: b =>
    if x = 108 then ListFails P (discardItem fuel) () (DiscardFails P fuel) (x :: b)
    else if x = 100 then DictFails P (discardEntry fuel) () (fun _ v => DiscardFails P fuel v) (x :: b)
    else False

lemma discardFrom_fails : ∀ fuel b, Fails P (discardFrom fuel b) ↔ DiscardFails P fuel b := by
  intro fuel
  induction fuel with
  | zero =>
    intro b
    exact fails_ok
  | succ fuel ih =>
    intro b
    have hitem : ∀ b, Fails P (discardItem fuel () b) ↔ DiscardFails P fuel b := fun b =>
      fails_map (ih b)
    cases b with
    | nil => exact fails_ok
    | cons x b =>
      rw [discardFrom, DiscardFails]
      by_cases hl : x = 108
      · rw [if_pos hl, if_pos hl]
        have hlist : Fails P (readList (discardItem fuel) () (x :: b)) ↔
            ListFails P (discardItem fuel) () (DiscardFails P fuel) (x :: b) :=
          readList_fails (fun _ y r => hitem (y :: r)) () (x :: b)
        exact fails_map hlist
      rw [if_neg hl, if_neg hl]
      by_cases hi : x = 105
      · rw [if_pos hi, if_neg (by rw [hi]; decide)]
        refine iff_of_false (fun h => ?_) id
        have hint := integer_fails.mp ((fails_bind fun o => not_fails_ok _).mp h)
        exact absurd hint.2 (cons_ne_nil x b)
      rw [if_neg hi]
      by_cases hd : x = 100
      · rw [if_pos hd, if_pos hd]
        have hdict : Fails P (readDict (discardEntry fuel) () (x :: b)) ↔
            DictFails P (discardEntry fuel) () (fun _ => DiscardFails P fuel) (x :: b) :=
          readDict_fails (fun _ _ => hitem) (fun _ _ => not_fails_ok _) () (x :: b)
        exact fails_map hdict
      rw [if_neg hd, if_neg hd]
      refine iff_of_false ?_ id
      split <;> exact not_fails_ok _

lemma discard_fails (b : Bytes) : Fails P (discard b) ↔ DiscardFails P (b.length + 1) b :=
  discardFrom_fails (b.length + 1) b

end

end Belnet.Util
