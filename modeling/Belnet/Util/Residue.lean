import Belnet.Util.Objects

/-!
# What an object keeps from before

Two used objects that read the same bytes may still differ where they did before and the bytes say nothing.
-/

namespace Belnet.Util
open List List.Vector

def shape {σ : Type} : Except MemFault (Option (σ × Bytes)) → Except MemFault (Option Bytes)
  | .error e => .error e
  | .ok none => .ok none
  | .ok (some (_, b)) => .ok (some b)

section
variable {σ τ α β : Type} {T V : Reader σ} {W : Bytes → Reader σ} {π : σ → α} {c d : Prop}

def Blind (T : Reader σ) : Prop := ∀ s s', shape (T s) = shape (T s')

def Settles (T : Reader σ) (π : σ → α) (c : Prop) : Prop :=
  ∀ s s' a a' r r', T s = .ok (some (a, r)) → T s' = .ok (some (a', r')) → (π a = π a' ↔ c ∨ π s = π s')

lemma shape_cases {e e' : Decoded σ} (h : shape e = shape e') :
    (∃ f, e = .error f ∧ e' = .error f) ∨ (e = .ok none ∧ e' = .ok none) ∨
      ∃ s s' b, e = .ok (some (s, b)) ∧ e' = .ok (some (s', b)) := by
  rcases e with f | _ | ⟨s, b⟩ <;> rcases e' with f' | _ | ⟨s', b'⟩ <;> cases h
  · exact .inl ⟨f, rfl, rfl⟩
  · exact .inr (.inl ⟨rfl, rfl⟩)
  · exact .inr (.inr ⟨s, s', b, rfl, rfl⟩)

lemma Blind.ok (h : Blind T) {s a : σ} {r : Bytes} (hs : T s = .ok (some (a, r))) (s' : σ) :
    ∃ a', T s' = .ok (some (a', r)) := by
  obtain ⟨f, hf, -⟩ | ⟨hn, -⟩ | ⟨b, b', _, hb, hb'⟩ := shape_cases (h s s')
  · cases hs.symm.trans hf
  · cases hs.symm.trans hn
  · cases hs.symm.trans hb
    exact ⟨b', hb'⟩

lemma shape_onState (f : σ → τ) (e : Decoded σ) : shape (onState f e) = shape e := by rcases e with e | _ | x <;> rfl

lemma blind_value (e : Decoded β) (f : σ → β → σ) : Blind fun s => onState (f s) e := by
  intro s _
  rw [shape_onState, shape_onState]

variable {f : σ → β → σ}

lemma settles_other {e : σ → Decoded β} (h : ∀ s x, π (f s x) = π s) :
    Settles (fun s => onState (f s) (e s)) π False := by
  intro s _ a _ r _ hs hs'
  obtain ⟨x, -, rfl⟩ := onState_eq_some hs
  obtain ⟨_, -, rfl⟩ := onState_eq_some hs'
  rw [h, h, false_or]

variable {e : Decoded β}

lemma settles_value (h : ∀ s s' x, π (f s x) = π (f s' x)) : Settles (fun s => onState (f s) e) π True := by
  intro s s' a _ r _ hs hs'
  obtain ⟨x, hx, rfl⟩ := onState_eq_some hs
  obtain ⟨_, hx', rfl⟩ := onState_eq_some hs'
  rw [hx] at hx'
  cases hx'
  exact iff_of_true (h s s' x) (.inl trivial)

lemma settles_beside
    (h : ∀ s s' x, π (f s x) = π (f s' x) ↔ π s = π s') : Settles (fun s => onState (f s) e) π False := by
  intro s s' a _ r _ hs hs'
  obtain ⟨x, hx, rfl⟩ := onState_eq_some hs
  obtain ⟨_, hx', rfl⟩ := onState_eq_some hs'
  rw [hx] at hx'
  cases hx'
  rw [h, false_or]

lemma settles_if {c : Prop} (hyes : c → ∀ s s' x, π (f s x) = π (f s' x)) (hno : ¬ c → ∀ s x, π (f s x) = π s) :
    Settles (fun s => onState (f s) e) π c := by
  by_cases hc : c
  · rw [iff_true_intro hc]
    exact settles_value (hyes hc)
  · rw [iff_false_intro hc]
    exact settles_other (hno hc)

lemma settles_refused (hT : ∀ s a r, T s ≠ .ok (some (a, r))) : Settles T π c :=
  fun s _ a _ r _ hs _ => absurd hs (hT s a r)

variable {U : Reader τ}

lemma Blind.inside (h : Blind U) (get : σ → τ) (put : σ → τ → σ) : Blind fun s => onState (put s) (U (get s)) := by
  intro s s'
  rw [shape_onState, shape_onState]
  exact h (get s) (get s')

lemma Settles.inside {ρ : τ → α} (h : Settles U ρ c) {get : σ → τ} {put : σ → τ → σ}
    (hput : ∀ s x, π (put s x) = ρ x) (hget : ∀ s, π s = ρ (get s)) :
    Settles (fun s => onState (put s) (U (get s))) π c := by
  intro s s' a _ r r' hs hs'
  obtain ⟨x, hx, rfl⟩ := onState_eq_some hs
  obtain ⟨x', hx', rfl⟩ := onState_eq_some hs'
  rw [hput, hput, hget, hget]
  exact h (get s) (get s') x x' r r' hx hx'

lemma Blind.bind (hV : Blind V) (hW : ∀ b, Blind (W b)) (hT : ∀ s, T s = andThen (V s) W) : Blind T := by
  intro s s'
  rw [hT s, hT s']
  obtain ⟨f, h, h'⟩ | ⟨h, h'⟩ | ⟨s1, s1', b, h, h'⟩ := shape_cases (hV s s')
  · simp only [h, h', andThen]
  · simp only [h, h', andThen]
  · rw [h, h']
    exact hW b s1 s1'

lemma Settles.bind {s0 t0 : σ} {b0 : Bytes} (hblind : Blind V) (h0 : V s0 = .ok (some (t0, b0))) (hV : Settles V π c)
    (hW : Settles (W b0) π d)
    (hT : ∀ s, T s = andThen (V s) W) : Settles T π (c ∨ d) := by
  intro s s' a a' r r' hs hs'
  obtain ⟨s1, h1⟩ := hblind.ok h0 s
  obtain ⟨s1', h1'⟩ := hblind.ok h0 s'
  rw [hT s, h1] at hs
  rw [hT s', h1'] at hs'
  rw [hW s1 s1' a a' r r' hs hs', hV s s' s1 s1' b0 b0 h1 h1', ← or_assoc, or_comm (a := d)]

variable {sink : Sink σ}

def entriesRead (sink : Sink σ) : ℕ → σ → Bytes → List (Bytes × Bytes)
  | 0, _, _ => []
  | _ + 1, _, [] => []
  | n + 1, s, x :: b =>
    if x = 101 then []
    else match readString (x :: b) with
      | none => []
      | some (key, b) => (key, b) :: match sink s (some key) b with
        | .ok (some (s, b)) => entriesRead sink n s b
        | _ => []

lemma readEntries_blind (h : ∀ key b, Blind fun s => sink s key b) : ∀ n b, Blind fun s => readEntries sink n s b := by
  intro n
  induction n with
  | zero =>
    intro b s s'
    rfl
  | succ n ih =>
    intro b
    cases round b with
    | out =>
      intro s s'
      rfl
    | done b =>
      intro s s'
      dsimp only
      rw [entries_end, entries_end]
      exact h none b s s'
    | unread hb hread =>
      intro s s'
      dsimp only
      rw [entries_unread n hb hread, entries_unread n hb hread]
    | entry hb hread => exact (h (some _) _).bind ih (entries_round n hb hread)

lemma entriesRead_round (n : ℕ) {b key rest : Bytes} (hb : Opens b) (hread : readString b = some (key, rest)) (s : σ) :
    entriesRead sink (n + 1) s b = (key, rest) :: match sink s (some key) rest with
      | .ok (some (s, b)) => entriesRead sink n s b
      | _ => [] := by
  obtain ⟨x, t, rfl, hx⟩ := hb
  rw [entriesRead, if_neg hx, hread]

variable {P : Bytes → Bytes → Prop}

lemma entries_settles (hblind : ∀ key b, Blind fun s => sink s key b)
    (hkey : ∀ key b, Settles (fun s => sink s (some key) b) π (P key b))
    (hend : ∀ b, Settles (fun s => sink s none b) π False) :
    ∀ n s0 b a0 r0, readEntries sink n s0 b = .ok (some (a0, r0)) →
      Settles (fun s => readEntries sink n s b) π (∃ e ∈ entriesRead sink n s0 b, P e.1 e.2) := by
  intro n
  induction n with
  | zero =>
    intro s0 b a0 r0 h
    cases h
  | succ n ih =>
    intro s0 b a0 r0 h
    obtain ⟨b', rfl, -⟩ | ⟨key, rest, t0, b0, hb, hread, hs0, h⟩ := entries_some h
    · have hnone : ¬ ∃ e ∈ entriesRead sink (n + 1) s0 (101 :: b'), P e.1 e.2 := by
        rintro ⟨e, he, -⟩
        cases he
      rw [iff_false_intro hnone]
      intro s s' a a' r r' hs hs'
      exact hend b' s s' a a' r r' ((entries_end n b').symm.trans hs) ((entries_end n b').symm.trans hs')
    · rw [entriesRead_round n hb hread, hs0, exists_mem_cons_iff]
      exact Settles.bind (hblind (some key) rest) hs0 (hkey key rest) (ih t0 b0 a0 r0 h) (entries_round n hb hread)

lemma readDict_blind (h : ∀ key b, Blind fun s => sink s key b) (b : Bytes) : Blind fun s => readDict sink s b := by
  intro s s'
  unfold readDict
  split
  · rfl
  split
  · rfl
  exact readEntries_blind h b.length b.tail s s'

def dictEntries (sink : Sink σ) (s0 : σ) (b : Bytes) : List (Bytes × Bytes) := entriesRead sink b.length s0 b.tail

lemma readDict_settles (hblind : ∀ key b, Blind fun s => sink s key b)
    (hkey : ∀ key b, Settles (fun s => sink s (some key) b) π (P key b))
    (hend : ∀ b, Settles (fun s => sink s none b) π False) (s0 : σ) (b : Bytes) :
    Settles (fun s => readDict sink s b) π (∃ e ∈ dictEntries sink s0 b, P e.1 e.2) := by
  intro s s' a a' r r' hs hs'
  have hs := readDict_some hs
  obtain ⟨a0, h0⟩ := (readEntries_blind hblind b.length b.tail).ok hs s0
  exact entries_settles hblind hkey hend b.length s0 b.tail a0 r h0 s s' a a' r r' hs (readDict_some hs')

def header {κ : Type} (a : UInt8) (kind : UInt8 → Option κ) : Bytes → Option (κ × Bytes)
  | x :: y :: b =>
    if x ≠ 100 then none
    else if y = 101 then none
    else match readString (y :: b) with
      | none => none
      | some (key, b) =>
        if !startsWith [a] key then none
        else match readString b with
          | some ([x], b) => (kind x).map fun k => (k, b)
          | _ => none
  | _ => none

lemma readDict_header {κ : Type} {a : UInt8} {kind : UInt8 → Option κ} {s0 : σ} (start : κ → σ)
    (hkey : ∀ key b, sink s0 (some key) b = if !startsWith [a] key then .ok none
      else .ok (match readString b with
        | some ([x], b) => (kind x).map fun k => (start k, b)
        | _ => none))
    (hend : ∀ b, sink s0 none b = .ok none) (b : Bytes) : readDict sink s0 b = (header a kind b).elim (.ok none)
      fun x => readEntries sink (b.length - 1) (start x.1) x.2 := by
  match b with
  | [] => rfl
  | [x] => rfl
  | x :: y :: t =>
    unfold readDict
    rw [if_neg (by simp), header]
    by_cases hx : x = 100
    · rw [if_neg (by simp [hx]), if_neg (not_not_intro hx)]
      by_cases hy : y = 101
      · rw [if_pos hy, hy]
        exact (entries_end _ t).trans (hend t)
      have hopens : Opens (y :: t) := ⟨y, t, rfl, hy⟩
      rw [if_neg hy]
      cases hread : readString (y :: t) with
      | none => exact entries_unread _ hopens hread _
      | some kv =>
        obtain ⟨key, r⟩ := kv
        refine (entries_round _ hopens hread _).trans ?_
        rw [hkey]
        dsimp only
        split
        · rfl
        rcases readString r with _ | ⟨_ | ⟨z, _ | _⟩, _⟩
        · rfl
        · rfl
        · dsimp only
          cases kind z with
          | none => rfl
          | some k => rfl
        · rfl
    · rw [if_pos (by simp [hx]), if_pos hx]
      rfl

/-! ## tables of keys

A function that decodes the entry for a key asks for one letter after the other. -/

def dispatch (refuse : Bytes → Bytes → Except MemFault (Option (σ × Bytes))) :
    List (UInt8 × (σ → Bytes → Except MemFault (Option (σ × Bytes)))) → σ → Bytes → Bytes →
      Except MemFault (Option (σ × Bytes))
  | [], _, key, b => refuse key b
  | (x, read) :: table, s, key, b => if startsWith [x] key then read s b else dispatch refuse table s key b

variable {refuse : Bytes → Bytes → Decoded σ}
  {table : List (UInt8 × (σ → Bytes → Decoded σ))}

lemma dispatch_blind (h : ∀ e ∈ table, ∀ b, Blind fun s => e.2 s b) (key b : Bytes) :
    Blind fun s => dispatch refuse table s key b := by
  induction table with
  | nil =>
    intro s s'
    rfl
  | cons e table ih =>
    obtain ⟨x, read⟩ := e
    intro s s'
    simp only [dispatch]
    split
    · exact h (x, read) mem_cons_self b s s'
    · exact ih (fun e he => h e (mem_cons_of_mem _ he)) s s'

lemma dispatch_settles {y : UInt8} {P : Bytes → Prop} (hrefuse : ∀ key b x, refuse key b ≠ .ok (some x))
    (h : ∀ e ∈ table, ∀ b, Settles (fun s => e.2 s b) π (e.1 = y ∧ P b)) (key b : Bytes) :
    Settles (fun s => dispatch refuse table s key b) π (startsWith [y] key = true ∧ P b) := by
  induction table with
  | nil => exact settles_refused fun s a r => hrefuse key b (a, r)
  | cons e table ih =>
    obtain ⟨x, read⟩ := e
    by_cases hx : startsWith [x] key = true
    · have hletter : (startsWith [y] key = true ∧ P b) ↔ x = y ∧ P b :=
        and_congr_left fun _ => ⟨startsWith_unique hx, fun hxy => hxy ▸ hx⟩
      rw [hletter]
      simp only [dispatch, if_pos hx]
      exact h (x, read) mem_cons_self b
    · simp only [dispatch, if_neg hx]
      exact ih fun e he => h e (mem_cons_of_mem _ he)

variable {n : ℕ} {decode : α → Bytes → Decoded α}

def elementsRead (decode : α → Bytes → Except MemFault (Option (α × Bytes))) : ℕ → ℕ → List.Vector α n → Bytes → ℕ
  | 0, _, _, _ => 0
  | _ + 1, _, _, [] => 0
  | fuel + 1, idx, a, x :: b =>
    if x = 101 then 0
    else if h : idx < n then
      match decode (a.get ⟨idx, h⟩) (x :: b) with
      | .ok (some (y, b)) => elementsRead decode fuel (idx + 1) (a.set ⟨idx, h⟩ y) b + 1
      | _ => 0
    else 0

def arrayLength (decode : α → Bytes → Except MemFault (Option (α × Bytes))) (a : List.Vector α n) (b : Bytes) : ℕ :=
  elementsRead decode b.length 0 a b.tail

lemma readElements_round (fuel : ℕ) {idx : ℕ} (h : idx < n) {x : UInt8} (b : Bytes) (hx : x ≠ 101)
    (a : List.Vector α n) :
    readElements decode (fuel + 1) idx a (x :: b)
      = andThen (onState (a.set ⟨idx, h⟩) (decode (a.get ⟨idx, h⟩) (x :: b))) fun b a =>
        readElements decode fuel (idx + 1) a b := by
  rw [readElements, if_neg hx, dif_pos h]
  rcases decode (a.get ⟨idx, h⟩) (x :: b) with e | _ | y <;> rfl

lemma readArray_some {a : List.Vector α n} {b : Bytes} {y : List.Vector α n × Bytes}
    (h : readArray decode a b = .ok (some y)) : readElements decode b.length 0 a b.tail = .ok (some y) := by
  unfold readArray at h
  split at h
  · cases h
  split at h
  · cases h
  exact h

lemma readElements_blind (hdecode : ∀ b, Blind fun x => decode x b) :
    ∀ fuel idx b, Blind fun a : List.Vector α n => readElements decode fuel idx a b := by
  intro fuel
  induction fuel with
  | zero =>
    intro idx b a a'
    rfl
  | succ fuel ih =>
    intro idx b
    cases b with
    | nil =>
      intro a a'
      rfl
    | cons x b =>
      by_cases hx : x = 101
      · intro a a'
        simp only [readElements, if_pos hx, shape]
      by_cases h : idx < n
      · exact ((hdecode (x :: b)).inside (fun a => a.get ⟨idx, h⟩) fun a => a.set ⟨idx, h⟩).bind (ih (idx + 1))
          (readElements_round fuel h b hx)
      · intro a a'
        simp only [readElements, if_neg hx, dif_neg h]

variable {ρ : α → β}

lemma readElements_settles (hblind : ∀ b, Blind fun x => decode x b)
    (hdecode : ∀ b, Settles (fun x => decode x b) ρ True) (i : Fin n) :
    ∀ fuel idx (a0 : List.Vector α n) b c0 r0, readElements decode fuel idx a0 b = .ok (some (c0, r0)) →
      Settles (fun a : List.Vector α n => readElements decode fuel idx a b) (fun a => ρ (a.get i))
        (idx ≤ i ∧ i < idx + elementsRead decode fuel idx a0 b) := by
  intro fuel
  induction fuel with
  | zero =>
    intro idx a0 b c0 r0 h
    cases h
  | succ fuel ih =>
    intro idx a0 b c0 r0 h
    cases b with
    | nil => cases h
    | cons x b =>
      by_cases hx : x = 101
      · have hnone : ¬ (idx ≤ i.1 ∧ i.1 < idx + elementsRead decode (fuel + 1) idx a0 (x :: b)) := by
          rw [elementsRead, if_pos hx]
          omega
        rw [iff_false_intro hnone]
        intro s _ a _ r _ hs hs'
        simp only [readElements, if_pos hx] at hs hs'
        cases hs
        cases hs'
        rw [false_or]
      · by_cases hidx : idx < n
        · have hround : ∀ a : List.Vector α n, readElements decode (fuel + 1) idx a (x :: b)
              = andThen (onState (a.set ⟨idx, hidx⟩) (decode (a.get ⟨idx, hidx⟩) (x :: b))) fun b a =>
                readElements decode fuel (idx + 1) a b := readElements_round fuel hidx b hx
          rw [hround a0] at h
          obtain ⟨c, b0, hc, h⟩ := andThen_eq_some h
          obtain ⟨y, hy, rfl⟩ := onState_eq_some hc
          have hone : Settles (fun a : List.Vector α n => onState (a.set ⟨idx, hidx⟩) (decode (a.get ⟨idx, hidx⟩) (x :: b)))
              (fun a => ρ (a.get i)) (i = ⟨idx, hidx⟩) := by
            by_cases hi : i = ⟨idx, hidx⟩
            · rw [iff_true_intro hi]
              refine (hdecode (x :: b)).inside (fun s y => ?_) fun s => ?_
              · rw [hi, get_set_same]
              · rw [hi]
            · rw [iff_false_intro hi]
              refine settles_other fun s y => ?_
              rw [get_set_of_ne (Ne.symm hi)]
          have hcount : (idx ≤ i.1 ∧ i.1 < idx + elementsRead decode (fuel + 1) idx a0 (x :: b)) ↔
              i = ⟨idx, hidx⟩ ∨ (idx + 1 ≤ i.1 ∧
                i.1 < idx + 1 + elementsRead decode fuel (idx + 1) (a0.set ⟨idx, hidx⟩ y) b0) := by
            rw [elementsRead, if_neg hx, dif_pos hidx, hy, Fin.ext_iff]
            dsimp only
            omega
          rw [hcount]
          exact Settles.bind ((hblind (x :: b)).inside (fun a => a.get ⟨idx, hidx⟩) fun a => a.set ⟨idx, hidx⟩)
            hc hone (ih (idx + 1) (a0.set ⟨idx, hidx⟩ y) b0 c0 r0 h) hround
        · rw [readElements, if_neg hx, dif_neg hidx] at h
          cases h

lemma readArray_blind (hdecode : ∀ b, Blind fun x => decode x b) (b : Bytes) :
    Blind fun a : List.Vector α n => readArray decode a b := by
  intro a a'
  unfold readArray
  split
  · rfl
  split
  · rfl
  exact readElements_blind hdecode b.length 0 b.tail a a'

lemma readArray_settles (hblind : ∀ b, Blind fun x => decode x b)
    (hdecode : ∀ b, Settles (fun x => decode x b) ρ True) (i : Fin n) (a0 : List.Vector α n) (b : Bytes) :
    Settles (fun a : List.Vector α n => readArray decode a b) (fun a => ρ (a.get i)) (i < arrayLength decode a0 b) := by
  intro s s' a a' r r' hs hs'
  have hs := readArray_some hs
  obtain ⟨c0, h0⟩ := (readElements_blind hblind b.length 0 b.tail).ok hs a0
  have h := readElements_settles hblind hdecode i b.length 0 a0 b.tail c0 r h0 s s' a a' r r' hs (readArray_some hs')
  rw [h, Nat.zero_add]
  exact or_congr_left (and_iff_right (Nat.zero_le _))

end

end Belnet.Util
