import Belnet.Util.Dict

/-!
# What reading a dictionary depends on

Ways to speak about the readers without a value that was written.
-/

namespace Belnet.Util
open Decimal List

def onState {σ τ : Type} (f : σ → τ) : Except MemFault (Option (σ × Bytes)) → Except MemFault (Option (τ × Bytes))
  | .error e => .error e
  | .ok none => .ok none
  | .ok (some (s, b)) => .ok (some (f s, b))

variable {α : Type}

section
variable {σ τ : Type} {f : σ → τ}

@[simp] lemma onState_some (f : σ → τ) (s : σ) (b : Bytes) : onState f (.ok (some (s, b))) = .ok (some (f s, b)) := rfl

lemma onState_eq_some {e : Decoded σ} {t : τ} {b : Bytes}
    (h : onState f e = .ok (some (t, b))) : ∃ s, e = .ok (some (s, b)) ∧ f s = t := by
  rcases e with e | _ | ⟨s, _⟩
  · cases h
  · cases h
  · cases h
    exact ⟨s, rfl, rfl⟩

lemma onState_ite {c : Prop} [Decidable c] {e e' : Decoded σ}
    {d d' : Decoded τ} (h : c → d = onState f e) (h' : ¬ c → d' = onState f e') :
    (if c then d else d') = onState f (if c then e else e') := by
  split
  · exact h ‹_›
  · exact h' ‹_›

variable {g : α → σ × Bytes}

lemma onState_do {g' : α → τ × Bytes} (h : ∀ a, (f (g a).1, (g a).2) = g' a) (e : Except MemFault (Option α)) :
    (do return (← e).map g') = onState f (do return (← e).map g) := by
  rcases e with e | _ | a
  · rfl
  · rfl
  · exact congrArg (fun y => Except.ok (some y)) (h a).symm

lemma onState_buffer {n : ℕ} {g : σ → τ} {f : AlignedBuffer n → σ} {f' : AlignedBuffer n → τ}
    (h : ∀ x, g (f x) = f' x) (b : Bytes) : bufferEntry f' b = onState g (bufferEntry f b) :=
  onState_do (fun r => by rw [h]) (.ok (readBuffer n b))

variable {f : UInt64 → Option σ}

lemma onState_intEntry {g : σ → τ} {f' : UInt64 → Option τ} (h : ∀ i, (f i).map g = f' i)
    (b : Bytes) : intEntry f' b = onState g (intEntry f b) := by
  unfold intEntry
  rcases readInteger b with e | _ | ⟨i, r⟩
  · rfl
  · rfl
  show .ok ((f' i).map fun s => (s, r)) = onState g (.ok ((f i).map fun s => (s, r)))
  rw [← h]
  cases f i with
  | none => rfl
  | some s => rfl

lemma onState_andThen {g : τ → σ} {e : Decoded τ} {W : Bytes → Reader σ}
    {V : Bytes → Reader τ} (hW : ∀ s b, W b (g s) = onState g (V b s)) :
    andThen (onState g e) W = onState g (andThen e V) := by
  rcases e with e | _ | ⟨s, b⟩
  · rfl
  · rfl
  · exact hW s b

lemma startsWith_unique {x y : UInt8} {key : Bytes} (hx : startsWith [x] key = true) (hy : startsWith [y] key = true) :
    x = y := by
  cases key with
  | nil => cases hx
  | cons z key =>
    simp only [startsWith, isPrefixOf, Bool.and_true, beq_iff_eq] at hx hy
    rw [hx, hy]

def Gives (P : σ → Bytes → Prop) (e : Except MemFault (Option (σ × Bytes))) : Prop :=
  ∀ s r, e = .ok (some (s, r)) → P s r

section
variable {P : σ → Bytes → Prop} {e e' : Decoded σ} {b : Bytes}

lemma gives_none : Gives P (.ok none) := fun _ _ h => nomatch h

lemma gives_error (f : MemFault) : Gives P (.error f) := fun _ _ h => nomatch h

lemma gives_some {s : σ} (h : P s b) : Gives P (.ok (some (s, b))) := by
  intro s r hs
  cases hs
  exact h

lemma Gives.ite {c : Prop} [Decidable c] (h : c → Gives P e) (h' : ¬ c → Gives P e') : Gives P (if c then e else e') := by
  split
  · exact h ‹_›
  · exact h' ‹_›

lemma gives_map {o : Option α} (h : ∀ a, o = some a → P (g a).1 (g a).2) : Gives P (.ok (o.map g)) := by
  cases o with
  | none => exact gives_none
  | some a => exact gives_some (h a rfl)

variable {e : Except MemFault (Option α)}

lemma do_eq_some {β : Type} {g : α → β} {y : β}
    (h : (do return (← e).map g) = .ok (some y)) : ∃ a, e = .ok (some a) ∧ g a = y := by
  rcases e with f | _ | a
  · cases h
  · cases h
  · exact ⟨a, rfl, Option.some.inj (Except.ok.inj h)⟩

lemma gives_do
    (h : ∀ a, e = .ok (some a) → P (g a).1 (g a).2) : Gives P (do return (← e).map g) := by
  intro s r hs
  obtain ⟨a, ha, hg⟩ := do_eq_some hs
  have hP := h a ha
  rw [hg] at hP
  exact hP

lemma gives_buffer {n : ℕ} {f : AlignedBuffer n → σ} (h : ∀ x r, readBuffer n b = some (x, r) → P (f x) r) :
    Gives P (bufferEntry f b) := gives_map fun a ha => h a.1 a.2 ha

lemma gives_intEntry (h : ∀ i r s, readInteger b = .ok (some (i, r)) → f i = some s → P s r) :
    Gives P (intEntry f b) := by
  unfold intEntry
  rcases hi : readInteger b with e | _ | ⟨i, r⟩
  · exact gives_error e
  · exact gives_none
  · refine gives_map fun s hs => ?_
    exact h i r s hi hs

end

section
variable {sink : Sink σ} {item : σ → Bytes → Decoded σ} {P : σ → Prop}

lemma entries_inv (hsink : ∀ s key b s' r, P s → sink s key b = .ok (some (s', r)) → P s') :
    ∀ n s b s' r, P s → readEntries sink n s b = .ok (some (s', r)) → P s' := by
  intro n
  induction n with
  | zero =>
    intro s b s' r _ h
    cases h
  | succ n ih =>
    intro s b s' r hs h
    obtain ⟨b1, -, h⟩ | ⟨key, b1, s1, b2, -, -, hstep, h⟩ := entries_some h
    · exact hsink s none b1 s' r hs h
    · exact ih s1 b2 s' r (hsink s (some key) b1 s1 b2 hs hstep) h

lemma readItems_inv (hitem : ∀ s b s' r, P s → item s b = .ok (some (s', r)) → P s') :
    ∀ n s b s' r, P s → readItems item n s b = .ok (some (s', r)) → P s' := by
  intro n
  induction n with
  | zero =>
    intro s b s' r _ h
    cases h
  | succ n ih =>
    intro s b s' r hs h
    obtain ⟨-, rfl⟩ | ⟨s1, b1, -, hstep, h⟩ := readItems_some h
    · exact hs
    · exact ih s1 b1 s' r (hitem s b s1 b1 hs hstep) h

lemma readDict_inv (hsink : ∀ s key b s' r, P s → sink s key b = .ok (some (s', r)) → P s') {s s' : σ} {b r : Bytes}
    (hs : P s) (h : readDict sink s b = .ok (some (s', r))) : P s' :=
  entries_inv hsink _ s b.tail s' r hs (readDict_some h)

lemma readList_inv (hitem : ∀ s b s' r, P s → item s b = .ok (some (s', r)) → P s') {s s' : σ} {b r : Bytes} (hs : P s)
    (h : readList item s b = .ok (some (s', r))) : P s' := readItems_inv hitem _ s b.tail s' r hs (readList_some h)

end

section
variable {f : σ → σ} {item : σ → Bytes → Decoded σ} (hitem : ∀ s b, item (f s) b = onState f (item s b))
include hitem

lemma readItems_map : ∀ n s b, readItems item n (f s) b = onState f (readItems item n s b) := by
  intro n
  induction n with
  | zero =>
    intro s b
    rfl
  | succ n ih =>
    intro s b
    cases b with
    | nil => rfl
    | cons x b =>
      by_cases hx : x = 101
      · rw [hx, readItems_end, readItems_end]
        rfl
      have hb : Opens (x :: b) := ⟨x, b, rfl, hx⟩
      rw [readItems_round hb, readItems_round hb, hitem]
      exact onState_andThen ih

lemma readList_map (s : σ) (b : Bytes) : readList item (f s) b = onState f (readList item s b) := by
  unfold readList
  split
  · rfl
  split
  · rfl
  · exact readItems_map hitem _ s b.tail

end

def keysRead (sink : Sink σ) : ℕ → σ → Bytes → List Bytes
  | 0, _, _ => []
  | _ + 1, _, [] => []
  | n + 1, s, x :: b =>
    if x = 101 then []
    else match readString (x :: b) with
      | none => []
      | some (key, b) => key :: match sink s (some key) b with
        | .ok (some (s, b)) => keysRead sink n s b
        | _ => []

def dictKeys (sink : Sink σ) (s : σ) (b : Bytes) : List Bytes := keysRead sink b.length s b.tail

variable {sink : Sink σ} {inner : Sink τ} {φ : Type}

lemma entries_frame {f : φ → τ → σ} {u : φ → Bytes → φ}
    (hkey : ∀ i s key b, sink (f i s) (some key) b = onState (f (u i key)) (inner s (some key) b))
    (hend : ∀ i s b, sink (f i s) none b = onState (f i) (inner s none b)) :
    ∀ n i s b, readEntries sink n (f i s) b
      = onState (f ((keysRead inner n s b).foldl u i)) (readEntries inner n s b) := by
  intro n
  induction n with
  | zero =>
    intro i s b
    rfl
  | succ n ih =>
    intro i s b
    cases round b with
    | out => rfl
    | done b =>
      rw [entries_end, entries_end, keysRead, if_pos rfl]
      exact hend i s b
    | unread hb hread =>
      rw [entries_unread n hb hread, entries_unread n hb hread]
      rfl
    | entry hb hread =>
      rw [entries_round n hb hread, entries_round n hb hread, hkey]
      obtain ⟨x, t, rfl, hx⟩ := hb
      rw [keysRead, if_neg hx, hread]
      dsimp only
      rcases inner s (some _) _ with e | _ | ⟨s', r⟩
      · rfl
      · rfl
      · exact ih (u i _) s' r

lemma readDict_frame {f : φ → σ → σ} {up : φ → Bytes → φ}
    (hkey : ∀ i s key b, sink (f i s) (some key) b = onState (f (up i key)) (sink s (some key) b))
    (hend : ∀ i s b, sink (f i s) none b = onState (f i) (sink s none b)) (i : φ) (s : σ) (b : Bytes) :
    readDict sink (f i s) b = onState (f ((dictKeys sink s b).foldl up i)) (readDict sink s b) := by
  unfold readDict dictKeys
  split
  · rfl
  split
  · rfl
  · exact entries_frame hkey hend b.length i s b.tail

lemma entries_lift {g : τ → σ}
    (h : ∀ s key b, sink (g s) key b = onState g (inner s key b)) (n : ℕ) (s : τ) (b : Bytes) :
    readEntries sink n (g s) b = onState g (readEntries inner n s b) :=
  entries_frame (f := fun _ : Unit => g) (u := fun _ _ => ()) (fun _ s key => h s (some key))
    (fun _ s => h s none) n () s b

lemma entries_mono : ∀ n m s b y, n ≤ m → readEntries sink n s b = .ok (some y) →
    readEntries sink m s b = .ok (some y) := by
  intro n
  induction n with
  | zero =>
    intro m s b y _ h
    cases h
  | succ n ih =>
    intro m s b y _ h
    obtain ⟨m, rfl⟩ : ∃ k, m = k + 1 := ⟨m - 1, by omega⟩
    obtain ⟨r, rfl, h⟩ | ⟨_, _, s', r, hb, hread, hstep, h⟩ := entries_some h
    · rw [entries_end]
      exact h
    · rw [entries_round m hb hread, hstep]
      exact ih m s' r y (by omega) h

lemma Reads.dict_front {s s' : σ} {x b : Bytes} {y : σ × Bytes} (h : Reads sink s x s')
    (hread : readDict sink s' (100 :: b) = .ok (some y)) : readDict sink s (100 :: (x ++ b)) = .ok (some y) := by
  obtain ⟨k, _, hx⟩ := h
  have hb : b ≠ [] := by
    rintro rfl
    cases hread
  rw [readDict_start hb] at hread
  have hne : x ++ b ≠ [] := by simp [hb]
  have hfuel : (x ++ b).length + 1 = ((x ++ b).length - k + 1) + k := by
    rw [length_append]
    omega
  rw [readDict_start hne, hfuel, hx]
  refine entries_mono _ _ s' b y ?_ hread
  rw [length_append]
  omega

/-- the entries `x` are read to their end or refused, and the record before and behind them is related by `R` -/
def Passes (sink : Sink σ) (R : σ → σ → Prop) (x : Bytes) : Prop :=
  ∃ k ≤ x.length, ∀ n s rest y, readEntries sink (n + k) s (x ++ rest) = .ok (some y) →
    ∃ s', R s s' ∧ readEntries sink n s' rest = .ok (some y)

variable {sink : Sink σ} {R Q T : σ → σ → Prop} {x y : Bytes}

lemma Passes.nil (hR : ∀ s, R s s) : Passes sink R [] := ⟨0, Nat.le_refl 0, fun _ s _ _ h => ⟨s, hR s, h⟩⟩

lemma Passes.append (hx : Passes sink R x) (hy : Passes sink Q y) (hT : ∀ a b c, R a b → Q b c → T a c) :
    Passes sink T (x ++ y) := by
  obtain ⟨k, _, hx⟩ := hx
  obtain ⟨l, _, hy⟩ := hy
  refine ⟨l + k, ?_, fun n s rest z h => ?_⟩
  · rw [length_append]
    omega
  rw [← Nat.add_assoc, append_assoc] at h
  obtain ⟨s1, hs1, h1⟩ := hx (n + l) s (y ++ rest) z h
  obtain ⟨s2, hs2, h2⟩ := hy n s1 rest z h1
  exact ⟨s2, hT s s1 s2 hs1 hs2, h2⟩

lemma Passes.entry {key val : Bytes} (hkey : key.length < 10^9)
    (h : ∀ s rest, Gives (fun s' r => r = rest ∧ R s s') (sink s (some key) (val ++ rest))) :
    Passes sink R (str key ++ val) := by
  have hpos := str_length_pos key
  refine ⟨1, by rw [length_append]; omega, fun n s rest y hread => ?_⟩
  rw [append_assoc, entries_round n ((str_opens key).append _) (readString_str hkey _)] at hread
  obtain ⟨s', r, hstep, hrest⟩ := andThen_eq_some hread
  obtain ⟨rfl, hR⟩ := h s rest s' r hstep
  exact ⟨s', hR, hrest⟩

lemma Passes.when {p : Prop} [Decidable p] (h : Passes sink R x) (hR : ∀ s, R s s) :
    Passes sink R (if p then [] else x) := by
  split
  · exact .nil hR
  · exact h

lemma Passes.dict (h : Passes sink R x) {s : σ} {rest : Bytes} {y : σ × Bytes}
    (hread : readDict sink s (100 :: (x ++ [101]) ++ rest) = .ok (some y)) :
    ∃ s', R s s' ∧ sink s' none rest = .ok (some y) := by
  obtain ⟨k, hk, h⟩ := h
  obtain ⟨n, hn⟩ := exists_fuel hk s rest
  rw [hn] at hread
  obtain ⟨s', hR, hread'⟩ := h _ s (101 :: rest) y hread
  rw [entries_end] at hread'
  exact ⟨s', hR, hread'⟩

variable {item : σ → Bytes → Decoded σ}

lemma readItems_passes {x : α → Bytes}
    (hne : ∀ a, Opens (x a)) (hitem : ∀ a s rest s' r, item s (x a ++ rest) = .ok (some (s', r)) → r = rest)
    (l : List α) : ∀ n s rest s' r, readItems item n s (l.flatMap x ++ 101 :: rest) = .ok (some (s', r)) → r = rest := by
  induction l with
  | nil =>
    intro n s rest s' r h
    cases n with
    | zero => cases h
    | succ n =>
      cases readItems_end.symm.trans h
      rfl
  | cons a l ih =>
    intro n s rest s' r h
    cases n with
    | zero => cases h
    | succ n =>
      rw [flatMap_cons, append_assoc, readItems_round ((hne a).append _)] at h
      obtain ⟨s1, b1, hstep, h⟩ := andThen_eq_some h
      rw [hitem a s _ s1 b1 hstep] at h
      exact ih n s1 rest s' r h

lemma readList_passes {x : α → Bytes}
    (hne : ∀ a, Opens (x a)) (hitem : ∀ a s rest s' r, item s (x a ++ rest) = .ok (some (s', r)) → r = rest)
    (l : List α) {s s' : σ} {rest r : Bytes}
    (h : readList item s (108 :: (l.flatMap x ++ [101]) ++ rest) = .ok (some (s', r))) : r = rest := by
  rw [closed] at h
  exact readItems_passes hne hitem l _ s rest s' r (readList_some h)

end

lemma str_cancel {x y r t : Bytes} (hx : x.length < 10^9) (hy : y.length < 10^9) (h : str x ++ r = str y ++ t) :
    x = y ∧ r = t := by
  have hread := readString_str hx r
  rw [h, readString_str hy] at hread
  cases hread
  exact ⟨rfl, rfl⟩

lemma int_cancel {i j : UInt64} {r t : Bytes} (h : int i ++ r = int j ++ t) : i = j ∧ r = t := by
  have hread := readInteger_int i r
  rw [h, readInteger_int] at hread
  cases hread
  exact ⟨rfl, rfl⟩

lemma flatMap_cancel {x : α → Bytes} (hne : ∀ a, Opens (x a)) {l : List α} :
    ∀ {m : List α} {r t : Bytes}, (∀ a ∈ l, ∀ b ∈ m, ∀ r t, x a ++ r = x b ++ t → a = b ∧ r = t) →
      l.flatMap x ++ 101 :: r = m.flatMap x ++ 101 :: t → l = m ∧ r = t := by
  induction l with
  | nil =>
    intro m r t _ h
    cases m with
    | nil =>
      cases h
      exact ⟨rfl, rfl⟩
    | cons b m =>
      obtain ⟨y, z, hyz, hy⟩ := hne b
      rw [flatMap_nil, nil_append, flatMap_cons, hyz] at h
      exact absurd (cons.inj h).1.symm hy
  | cons a l ih =>
    intro m r t hcode h
    cases m with
    | nil =>
      obtain ⟨y, z, hyz, hy⟩ := hne a
      rw [flatMap_nil, nil_append, flatMap_cons, hyz] at h
      exact absurd (cons.inj h).1 hy
    | cons b m =>
      rw [flatMap_cons, flatMap_cons, append_assoc, append_assoc] at h
      obtain ⟨rfl, h'⟩ := hcode a mem_cons_self b mem_cons_self _ _ h
      obtain ⟨rfl, rfl⟩ := ih (fun c hc d hd => hcode c (mem_cons_of_mem _ hc) d (mem_cons_of_mem _ hd)) h'
      exact ⟨rfl, rfl⟩

end Belnet.Util
