import Mathlib

/-!
# Runs of a step function that may stop with a fault

A system is a step `step : ι → S → Except ε S`: the label `i` is the input of the step, `error` means that the system
stops.
-/

universe u v

lemma List.mem_concat {α : Type*} {x a : α} {l : List α} : x ∈ l ++ [a] ↔ x ∈ l ∨ x = a := by
  rw [mem_append, mem_singleton]

namespace Run
open List

section
variable {ε : Type u} {α β S : Type v} {x : Except ε α} {f : α → Except ε β} {b : β}

lemma ok_bind : x >>= f = .ok b ↔ ∃ a, x = .ok a ∧ f a = .ok b := by
  cases x with
  | error => exact ⟨fun h => (nomatch h), fun ⟨_, h, _⟩ => (nomatch h)⟩
  | ok a => exact ⟨fun h => ⟨a, rfl, h⟩, fun ⟨_, h, h'⟩ => by cases h; exact h'⟩

lemma ok_bind_eq (a : α) : ((.ok a : Except ε α) >>= f) = f a := rfl

lemma error_bind {e : ε} : x >>= f = .error e ↔ x = .error e ∨ ∃ a, x = .ok a ∧ f a = .error e := by
  cases x with
  | error => exact ⟨fun h => .inl (by cases h; rfl), fun h => by
      rcases h with h | ⟨_, h, _⟩
      · cases h; rfl
      · cases h⟩
  | ok a => exact ⟨fun h => .inr ⟨a, rfl, h⟩, fun h => by
      rcases h with h | ⟨_, h, h'⟩
      · cases h
      · cases h; exact h'⟩

lemma ok_map {f : α → β} : f <$> x = .ok b ↔ ∃ a, x = .ok a ∧ f a = b := by
  cases x with
  | error => exact ⟨fun h => (nomatch h), fun ⟨_, h, _⟩ => (nomatch h)⟩
  | ok a => exact ⟨fun h => ⟨a, rfl, Except.ok.inj h⟩, fun ⟨_, h, h'⟩ => by cases h; rw [← h']; rfl⟩

lemma error_map {f : α → β} {e : ε} : f <$> x = .error e ↔ x = .error e := by
  cases x with
  | error => exact ⟨fun h => by cases h; rfl, fun h => by cases h; rfl⟩
  | ok => exact ⟨fun h => (nomatch h), fun h => (nomatch h)⟩

def Faults (P : ε → Prop) (x : Except ε α) : Prop := ∀ e, x = .error e → P e

variable {P : ε → Prop}

lemma Faults.ok (a : α) : Faults P (.ok a) := fun _ h => (nomatch h)

lemma Faults.error {e : ε} (h : P e) : Faults P (.error e : Except ε α) := fun _ he => by cases he; exact h

lemma Faults.bind (hx : Faults P x) (hf : ∀ a, x = .ok a → Faults P (f a)) : Faults P (x >>= f) := by
  intro e h
  rcases error_bind.mp h with h | ⟨a, ha, h⟩
  · exact hx e h
  · exact hf a ha e h

lemma Faults.map (hx : Faults P x) (f : α → β) : Faults P (f <$> x) := fun e h => hx e (error_map.mp h)

lemma Faults.mono {Q : ε → Prop} (hx : Faults P x) (h : ∀ e, P e → Q e) : Faults Q x := fun e he => h e (hx e he)

variable {f : S → α → Except ε S}

lemma Faults.foldlM (hf : ∀ s a, Faults P (f s a)) (l : List α) : ∀ s, Faults P (l.foldlM f s) := by
  induction l with
  | nil => exact fun s => Faults.ok s
  | cons a l ih =>
    intro s
    rw [foldlM_cons]
    exact (hf s a).bind fun s' _ => ih s'

variable {R : S → S → Prop}

section
variable {l : List α} (hr : ∀ s, R s s) (ht : ∀ {a b c}, R a b → R b c → R a c)
include hr ht

lemma foldlM_rel (h : ∀ a ∈ l, ∀ s s', f s a = .ok s' → R s s') : ∀ {s s'}, l.foldlM f s = .ok s' → R s s' := by
  induction l with
  | nil => intro s s' hs; cases hs; exact hr s
  | cons a l ih =>
    intro s s' hs
    rw [foldlM_cons] at hs
    obtain ⟨s1, h1, h2⟩ := ok_bind.mp hs
    exact ht (h a mem_cons_self s s1 h1) (ih (fun a' ha' => h a' (mem_cons_of_mem _ ha')) h2)

lemma foldl_rel
    {f : S → α → S} (h : ∀ a ∈ l, ∀ s, R s (f s a)) : ∀ s, R s (l.foldl f s) := by
  induction l with
  | nil => intro s; exact hr s
  | cons a l ih =>
    intro s
    exact ht (h a mem_cons_self s) (ih (fun a' ha' => h a' (mem_cons_of_mem _ ha')) (f s a))

end

end

section
variable {ε ι S : Type*} {step : ι → S → Except ε S} {good : ι → S → Prop} {P : S → Prop}

inductive Reaches (step : ι → S → Except ε S) (good : ι → S → Prop) (s : S) : S → Prop where
  | refl : Reaches step good s s
  | tail {s' s'' : S} (i : ι) : Reaches step good s s' → good i s' → step i s' = .ok s'' → Reaches step good s s''

variable {s s' : S}

lemma Reaches.inv {I : S → Prop} (h : Reaches step good s s')
    (hstep : ∀ i a b, I a → good i a → step i a = .ok b → I b) (h0 : I s) : I s' := by
  induction h with
  | refl => exact h0
  | tail i _ hg hs ih => exact hstep i _ _ ih hg hs

lemma Reaches.mono {good' : ι → S → Prop} (h : Reaches step good s s')
    (hg : ∀ i a, good i a → good' i a) : Reaches step good' s s' := by
  induction h with
  | refl => exact .refl
  | tail i _ h1 h2 ih => exact .tail i ih (hg i _ h1) h2

lemma Reaches.head {i : ι} {r : S} (hg : good i r) (hs : step i r = .ok s) (h : Reaches step good s s') :
    Reaches step good r s' := by
  induction h with
  | refl => exact .tail i .refl hg hs
  | tail j _ hg' hs' ih => exact .tail j ih hg' hs'

def exec (step : ι → S → Except ε S) : List ι → S → Except ε S
  | [], s => .ok s
  | i :: is, s => match step i s with
    | .error e => .error e
    | .ok s' => exec step is s'

variable {is : List ι}

lemma exec_reaches (hgood : ∀ i ∈ is, ∀ a, good i a) (h : exec step is s = .ok s') : Reaches step good s s' := by
  induction is generalizing s with
  | nil => cases h; exact .refl
  | cons i is ih =>
    unfold exec at h
    split at h
    · cases h
    · rename_i s1 h1
      exact .head (hgood i mem_cons_self s) h1 (ih (fun j hj => hgood j (mem_cons_of_mem _ hj)) h)

lemma some_sat [DecidablePred P] {x : Option S} (h : x.any (fun s' => decide (P s')) = true := by decide +kernel) :
    ∃ s', x = some s' ∧ P s' := by
  cases x with
  | none => cases h
  | some s' => exact ⟨s', rfl, of_decide_eq_true h⟩

lemma ok_sat [DecidablePred P] {x : Except ε S} (h : x.toOption.any (fun s' => decide (P s')) = true := by decide +kernel) :
    ∃ s', x = .ok s' ∧ P s' := by
  cases x with
  | error => cases h
  | ok s' => exact ⟨s', rfl, of_decide_eq_true h⟩

lemma some_then [DecidablePred P] {x : Option S} {Q : S → Prop} (h : x.any (fun s' => decide (P s')) = true)
    (hQ : ∀ s', x = some s' → P s' → Q s') : ∃ s', x = some s' ∧ Q s' :=
  (some_sat h).imp fun s' hs => ⟨hs.1, hQ s' hs.1 hs.2⟩

lemma ok_then [DecidablePred P] {x : Except ε S} {Q : S → Prop} (h : x.toOption.any (fun s' => decide (P s')) = true)
    (hQ : ∀ s', x = .ok s' → P s' → Q s') : ∃ s', x = .ok s' ∧ Q s' :=
  (ok_sat h).imp fun s' hs => ⟨hs.1, hQ s' hs.1 hs.2⟩

def execWhile (step : ι → S → Except ε S) (good : ι → S → Prop) [∀ i s, Decidable (good i s)] : List ι → S → Option S
  | [], s => some s
  | i :: is, s => if good i s then
      match step i s with
      | .error _ => none
      | .ok s' => execWhile step good is s'
    else none

lemma execWhile_reaches [∀ i s, Decidable (good i s)]
    (h : execWhile step good is s = some s') : Reaches step good s s' := by
  induction is generalizing s with
  | nil => cases h; exact .refl
  | cons i is ih =>
    unfold execWhile at h
    split at h
    · rename_i hg
      split at h
      · cases h
      · rename_i s1 h1
        exact .head hg h1 (ih h)
    · cases h

def Obeys (step : ι → S → Except ε S) (good : ι → S → Prop) : List ι → S → Prop
  | [], _ => True
  | i :: is, s => good i s ∧ ∀ s', step i s = .ok s' → Obeys step good is s'

variable {J : S → Prop}

lemma no_fault_iff_of_inv (hJ : ∀ i s s', J s → step i s = .ok s' → J s') (bad : ε → Prop)
    (hstep : ∀ i s, J s → ((∃ e, bad e ∧ step i s = .error e) ↔ ¬ good i s)) (is : List ι) :
    ∀ s, J s → ((∀ e, bad e → exec step is s ≠ .error e) ↔ Obeys step good is s) := by
  induction is with
  | nil => intro s _; exact ⟨fun _ => trivial, fun _ e _ h => (nomatch h)⟩
  | cons i is ih =>
    intro s hs
    unfold exec Obeys
    cases hi : step i s with
    | error e =>
      constructor
      · intro hbad
        refine ⟨?_, fun s' h => (nomatch h)⟩
        by_contra hg
        obtain ⟨e', he', hs'⟩ := (hstep i s hs).mpr hg
        exact hbad e' he' (hi.symm.trans hs')
      · rintro ⟨hg, _⟩ e' he' hs'
        exact (hstep i s hs).mp ⟨e', he', hi.trans hs'⟩ hg
    | ok s1 =>
      have hs1 := hJ i s s1 hs hi
      have hg : good i s := by
        by_contra hg
        obtain ⟨e', _, hs'⟩ := (hstep i s hs).mpr hg
        rw [hi] at hs'
        cases hs'
      constructor
      · intro h
        refine ⟨hg, fun s' h' => ?_⟩
        cases h'
        exact (ih s1 hs1).mp h
      · rintro ⟨_, h⟩
        exact (ih s1 hs1).mpr (h s1 rfl)

lemma no_fault_iff (bad : ε → Prop) (hstep : ∀ i s, (∃ e, bad e ∧ step i s = .error e) ↔ ¬ good i s) (is : List ι)
    (s : S) : (∀ e, bad e → exec step is s ≠ .error e) ↔ Obeys step good is s :=
  no_fault_iff_of_inv (J := fun _ => True) (fun _ _ _ _ _ => trivial) bad (fun i s _ => hstep i s) is s trivial

def Always (step : ι → S → Except ε S) (P : S → Prop) : List ι → S → Prop
  | [], s => P s
  | i :: is, s => P s ∧ ∀ s', step i s = .ok s' → Always step P is s'

lemma Always.now (h : Always step P is s) : P s := by
  cases is with
  | nil => exact h
  | cons i is => exact h.1

lemma always_of_inv (hJ : ∀ i s s', J s → step i s = .ok s' → J s') (hP : ∀ s, J s → P s) (is : List ι) :
    ∀ {s}, J s → Always step P is s := by
  induction is with
  | nil => exact fun hs => hP _ hs
  | cons i is ih => exact fun hs => ⟨hP _ hs, fun s' h => ih (hJ i _ s' hs h)⟩

lemma always_of_obeys (hJ : ∀ i s s', J s → good i s → step i s = .ok s' → J s') (hP : ∀ s, J s → P s)
    (is : List ι) : ∀ {s}, J s → Obeys step good is s → Always step P is s := by
  induction is with
  | nil => exact fun hs _ => hP _ hs
  | cons i is ih => exact fun hs hobeys => ⟨hP _ hs, fun s' h => ih (hJ i _ s' hs hobeys.1 h) (hobeys.2 s' h)⟩

lemma always_iff_obeys (hJ : ∀ i s s', J s → step i s = .ok s' → J s')
    (hfault : ∀ i s e, step i s = .error e → good i s)
    (hstep : ∀ i s s', J s → P s → step i s = .ok s' → (P s' ↔ good i s)) (is : List ι) :
    ∀ s, J s → P s → (Always step P is s ↔ Obeys step good is s) := by
  induction is with
  | nil => exact fun s _ hP => ⟨fun _ => trivial, fun _ => hP⟩
  | cons i is ih =>
    intro s hs hP
    unfold Always Obeys
    cases h : step i s with
    | error e => exact ⟨fun _ => ⟨hfault i s e h, fun _ h' => (nomatch h')⟩, fun _ => ⟨hP, fun _ h' => (nomatch h')⟩⟩
    | ok s1 =>
      have hs1 := hJ i s s1 hs h
      constructor
      · rintro ⟨_, hall⟩
        have hP1 := (hall s1 rfl).now
        refine ⟨(hstep i s s1 hs hP h).mp hP1, fun s' h' => ?_⟩
        cases h'
        exact (ih s1 hs1 hP1).mp (hall s1 rfl)
      · rintro ⟨hg, hall⟩
        have hP1 := (hstep i s s1 hs hP h).mpr hg
        refine ⟨hP, fun s' h' => ?_⟩
        cases h'
        exact (ih s1 hs1 hP1).mpr (hall s1 rfl)

lemma always_congr {Q : S → Prop} (hJ : ∀ i s s', J s → step i s = .ok s' → J s') (hP : ∀ s, J s → Q s → P s)
    (hQ : ∀ i s s', J s → Q s → step i s = .ok s' → P s' → Q s') (is : List ι) :
    ∀ s, J s → Q s → (Always step P is s ↔ Always step Q is s) := by
  induction is with
  | nil => exact fun s hs hq => ⟨fun _ => hq, fun _ => hP s hs hq⟩
  | cons i is ih =>
    intro s hs hq
    constructor
    · rintro ⟨-, hall⟩
      refine ⟨hq, fun s' h => ?_⟩
      have hs' := hJ i s s' hs h
      exact (ih s' hs' (hQ i s s' hs hq h (hall s' h).now)).mp (hall s' h)
    · rintro ⟨-, hall⟩
      refine ⟨hP s hs hq, fun s' h => ?_⟩
      exact (ih s' (hJ i s s' hs h) (hall s' h).now).mpr (hall s' h)

lemma exec_fault [DecidableEq ε] {e : ε}
    (h : (match exec step is s with | .error e' => decide (e' = e) | .ok _ => false) = true) :
    exec step is s = .error e := by
  split at h
  · rename_i e' he
    rw [he, of_decide_eq_true h]
  · cases h

end

end Run
