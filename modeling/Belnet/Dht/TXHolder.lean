import Belnet.Iwp.Packet

/-!
# Pending transactions of the DHT

`TXHolder` of `llarp/dht/txholder.hpp`; an unordered multimap has the order of insertion here.
-/

namespace Belnet.Dht
open Iwp List AList Nat

abbrev Key := AlignedBuffer 32

structure TXOwner where
  node : Key := .zero 32
  txid : ℕ := 0
deriving DecidableEq

structure TXHolder (K T : Type) [DecidableEq K] where
  waiting : List (K × TXOwner) := []
  timeouts : AList (fun _ : K => Millis) := ∅
  tx : AList (fun _ : TXOwner => T) := ∅

namespace TXHolder
variable {K T : Type} [DecidableEq K] {h : TXHolder K T} {k : K} {o : TXOwner} {t : T}

abbrev requestTimeout : Millis := 15000

def waitingFor (h : TXHolder K T) (k : K) : List TXOwner := (h.waiting.filter fun w => w.1 = k).map Prod.snd

def newTX (h : TXHolder K T) (now : Millis) (askpeer : TXOwner) (k : K) (t : T) (timeout : Millis) :
    TXHolder K T × Bool :=
  ({ waiting := h.waiting ++ [(k, askpeer)]
     timeouts := match h.timeouts.lookup k with
       | some _ => h.timeouts
       | none => h.timeouts.insert k (now + timeout)
     tx := match h.tx.lookup askpeer with
       | some _ => h.tx
       | none => h.tx.insert askpeer t },
   (h.waitingFor k).isEmpty)

def complete (s : AList (fun _ : TXOwner => T) × List (TXOwner × T)) (o : TXOwner) :
    AList (fun _ : TXOwner => T) × List (TXOwner × T) :=
  match s.1.lookup o with
  | none => s
  | some t => (s.1.erase o, s.2 ++ [(o, t)])

def inform (h : TXHolder K T) (k : K) : TXHolder K T × List (TXOwner × T) :=
  let r := (h.waitingFor k).foldl complete (h.tx, [])
  ({ waiting := h.waiting.filter fun w => w.1 ≠ k, timeouts := h.timeouts.erase k, tx := r.1 }, r.2)

def expired (h : TXHolder K T) (now : Millis) : List K := (h.timeouts.entries.filter fun e => e.2 ≤ now).map Sigma.fst

def expire (h : TXHolder K T) (now : Millis) : TXHolder K T × List (TXOwner × T) :=
  (h.expired now).foldl (fun s k => ((s.1.inform k).1, s.2 ++ (s.1.inform k).2)) (h, [])

lemma mem_waitingFor : o ∈ h.waitingFor k ↔ (k, o) ∈ h.waiting := by
  unfold waitingFor
  rw [mem_map]
  constructor
  · rintro ⟨⟨k', _⟩, hmem, rfl⟩
    obtain ⟨hmem, hk⟩ := mem_filter.mp hmem
    have hk' : k' = k := by simpa using hk
    rw [← hk']
    exact hmem
  · intro hmem
    exact ⟨(k, o), mem_filter.mpr ⟨hmem, by simp⟩, rfl⟩

section
variable (s : AList (fun _ : TXOwner => T) × List (TXOwner × T))

lemma complete_lookup (o o' : TXOwner) : (complete s o).1.lookup o' = if o' = o then none else s.1.lookup o' := by
  unfold complete
  cases hx : s.1.lookup o with
  | none =>
    by_cases ho : o' = o
    · rw [if_pos ho, ho]
      exact hx
    · rw [if_neg ho]
  | some =>
    by_cases ho : o' = o
    · rw [if_pos ho, ho]
      exact lookup_erase o s.1
    · rw [if_neg ho]
      exact lookup_erase_ne ho

variable (os : List TXOwner)

lemma completes_lookup (o : TXOwner) : (os.foldl complete s).1.lookup o = if o ∈ os then none else s.1.lookup o := by
  induction os generalizing s with
  | nil => simp
  | cons o' os ih =>
    rw [foldl_cons, ih, complete_lookup]
    by_cases ho : o ∈ os
    · rw [if_pos ho, if_pos (mem_cons_of_mem _ ho)]
    rw [if_neg ho]
    by_cases heq : o = o'
    · rw [if_pos heq, if_pos (by rw [heq]; exact mem_cons_self)]
    · rw [if_neg heq, if_neg (by simp [heq, ho])]

variable {r : TXOwner × T}

lemma mem_completes (hr : r ∈ (os.foldl complete s).2) : r ∈ s.2 ∨ (r.1 ∈ os ∧ s.1.lookup r.1 = some r.2) := by
  induction os generalizing s with
  | nil => exact .inl hr
  | cons o os ih =>
    rw [foldl_cons] at hr
    rcases ih _ hr with hr | ⟨hmem, hlook⟩
    · unfold complete at hr
      cases hx : s.1.lookup o with
      | none =>
        rw [hx] at hr
        exact .inl hr
      | some =>
        rw [hx] at hr
        rcases mem_append.mp hr with hr | hr
        · exact .inl hr
        · rw [mem_singleton.mp hr]
          exact .inr ⟨mem_cons_self, hx⟩
    · rw [complete_lookup] at hlook
      split at hlook
      · cases hlook
      · exact .inr ⟨mem_cons_of_mem _ hmem, hlook⟩

lemma inform_lookup (h : TXHolder K T) (k : K) (o : TXOwner) :
    (h.inform k).1.tx.lookup o = if (k, o) ∈ h.waiting then none else h.tx.lookup o := by
  show ((h.waitingFor k).foldl complete (h.tx, [])).1.lookup o = _
  rw [completes_lookup]
  simp only [mem_waitingFor]

lemma mem_inform (hr : r ∈ (h.inform k).2) : (k, r.1) ∈ h.waiting ∧ h.tx.lookup r.1 = some r.2 := by
  rcases mem_completes _ _ hr with hr | ⟨hmem, hlook⟩
  · exact (not_mem_nil hr).elim
  · exact ⟨mem_waitingFor.mp hmem, hlook⟩

lemma completes_mono (hr : r ∈ s.2) : r ∈ (os.foldl complete s).2 := by
  induction os generalizing s with
  | nil => exact hr
  | cons o os ih =>
    apply ih
    unfold complete
    split
    · exact hr
    · exact mem_append_left _ hr

lemma completes_of_mem (ho : o ∈ os) (ht : s.1.lookup o = some t) : (o, t) ∈ (os.foldl complete s).2 := by
  induction os generalizing s with
  | nil => exact absurd ho not_mem_nil
  | cons o' os ih =>
    rw [foldl_cons]
    by_cases heq : o = o'
    · subst heq
      apply completes_mono
      unfold complete
      rw [ht]
      exact mem_append_right _ (mem_singleton.mpr rfl)
    · refine ih _ ((mem_cons.mp ho).resolve_left heq) ?_
      rw [complete_lookup, if_neg heq]
      exact ht

end

lemma inform_of_waiting (hw : (k, o) ∈ h.waiting) (ht : h.tx.lookup o = some t) : (o, t) ∈ (h.inform k).2 :=
  completes_of_mem _ _ (mem_waitingFor.mpr hw) ht

lemma inform_waiting (h : TXHolder K T) (k : K) {w : K × TXOwner} :
    w ∈ (h.inform k).1.waiting ↔ w ∈ h.waiting ∧ w.1 ≠ k := by
  show w ∈ h.waiting.filter (fun w => w.1 ≠ k) ↔ _
  rw [mem_filter]
  simp

variable {now timeout : Millis} {o' : TXOwner}

lemma newTX_lookup {t' : T}
    (ho : (h.newTX now o' k t' timeout).1.tx.lookup o = some t) : h.tx.lookup o = some t ∨ t = t' := by
  unfold newTX at ho
  dsimp only at ho
  split at ho
  · exact .inl ho
  by_cases heq : o = o'
  · rw [heq, lookup_insert] at ho
    exact .inr (Option.some.inj ho).symm
  · rw [lookup_insert_ne heq] at ho
    exact .inl ho

lemma newTX_keeps {t' : T} (ho : h.tx.lookup o = some t) :
    (h.newTX now o' k t' timeout).1.tx.lookup o = some t := by
  unfold newTX
  dsimp only
  split
  · exact ho
  rename_i hnone
  have hne : o ≠ o' := by
    intro heq
    rw [heq, hnone] at ho
    cases ho
  rw [lookup_insert_ne hne]
  exact ho

/-- every transaction that is found for a key has this key, and every owner has an id that was given out -/
structure Keyed (key : T → K) (ids : ℕ) (h : TXHolder K T) : Prop where
  keyed : ∀ k o t, (k, o) ∈ h.waiting → h.tx.lookup o = some t → key t = k
  waits : ∀ o t, h.tx.lookup o = some t → (key t, o) ∈ h.waiting
  waiting_le : ∀ w ∈ h.waiting, w.2.txid ≤ ids
  tx_le : ∀ o t, h.tx.lookup o = some t → o.txid ≤ ids

variable {key : T → K} {ids : ℕ}

lemma Keyed.mono (hk : Keyed key ids h) {ids' : ℕ} (hle : ids ≤ ids') : Keyed key ids' h where
  keyed := hk.keyed
  waits := hk.waits
  waiting_le := fun w hw => (hk.waiting_le w hw).trans hle
  tx_le := fun o t ho => (hk.tx_le o t ho).trans hle

lemma Keyed.newTX (hk : Keyed key ids h) {node : Key} {t : T} :
    Keyed key (ids + 1) (h.newTX now ⟨node, ids + 1⟩ (key t) t timeout).1 := by
  have hfresh : h.tx.lookup ⟨node, ids + 1⟩ = none := by
    cases hx : h.tx.lookup (⟨node, ids + 1⟩ : TXOwner) with
    | none => rfl
    | some t' =>
      have hle := hk.tx_le _ _ hx
      exact absurd hle (not_succ_le_self ids)
  have hlook : ∀ o t', (h.newTX now ⟨node, ids + 1⟩ (key t) t timeout).1.tx.lookup o = some t' →
      (o = ⟨node, ids + 1⟩ ∧ t' = t) ∨ h.tx.lookup o = some t' := by
    intro o t' ho
    unfold TXHolder.newTX at ho
    rw [hfresh] at ho
    by_cases heq : o = ⟨node, ids + 1⟩
    · subst heq
      rw [lookup_insert] at ho
      exact .inl ⟨rfl, (Option.some.inj ho).symm⟩
    · rw [lookup_insert_ne heq] at ho
      exact .inr ho
  constructor
  · intro k o t' hw ho
    rcases mem_append.mp hw with hw | hw
    · rcases hlook o t' ho with ⟨rfl, -⟩ | ho
      · exact absurd (hk.waiting_le _ hw) (not_succ_le_self ids)
      · exact hk.keyed k o t' hw ho
    cases mem_singleton.mp hw
    rcases hlook _ t' ho with ⟨-, rfl⟩ | ho
    · rfl
    · rw [hfresh] at ho
      cases ho
  · intro o t' ho
    rcases hlook o t' ho with ⟨rfl, rfl⟩ | ho
    · exact mem_append_right _ (mem_singleton.mpr rfl)
    · exact mem_append_left _ (hk.waits o t' ho)
  · intro w hw
    rcases mem_append.mp hw with hw | hw
    · exact (hk.waiting_le w hw).trans (le_succ ids)
    · rw [mem_singleton.mp hw]
  · intro o t' ho
    rcases hlook o t' ho with ⟨rfl, -⟩ | ho
    · exact le_refl _
    · exact (hk.tx_le o t' ho).trans (le_succ ids)

lemma Keyed.inform (hk : Keyed key ids h) (k : K) : Keyed key ids (h.inform k).1 := by
  have hlook : ∀ o t, (h.inform k).1.tx.lookup o = some t → (k, o) ∉ h.waiting ∧ h.tx.lookup o = some t := by
    intro o t ho
    rw [inform_lookup] at ho
    split at ho
    · cases ho
    · rename_i hw
      exact ⟨hw, ho⟩
  constructor
  · intro k' o t hw ho
    exact hk.keyed k' o t ((inform_waiting h k).mp hw).1 (hlook o t ho).2
  · intro o t ho
    obtain ⟨hw, ho⟩ := hlook o t ho
    have hmem := hk.waits o t ho
    refine (inform_waiting h k).mpr ⟨hmem, ?_⟩
    intro heq
    have heq' : key t = k := heq
    rw [heq'] at hmem
    exact hw hmem
  · intro w hw
    exact hk.waiting_le w ((inform_waiting h k).mp hw).1
  · intro o t ho
    exact hk.tx_le o t (hlook o t ho).2

lemma inform_keeps {h' : TXHolder K T} (hk : (h.inform k).1 = h') (ho : h'.tx.lookup o = some t) :
    h.tx.lookup o = some t := by
  rw [← hk, inform_lookup] at ho
  split at ho
  · cases ho
  · exact ho

lemma informs_spec (ks : List K) (h : TXHolder K T) (done : List (TXOwner × T)) :
    let r := ks.foldl (fun s k => ((s.1.inform k).1, s.2 ++ (s.1.inform k).2)) (h, done)
    (∀ o t, r.1.tx.lookup o = some t → h.tx.lookup o = some t) ∧ (∀ w ∈ r.1.waiting, w ∈ h.waiting) ∧
      (∀ (key : T → K) ids, Keyed key ids h → Keyed key ids r.1) ∧
      ∀ d ∈ r.2, d ∈ done ∨ ∃ k ∈ ks, (k, d.1) ∈ h.waiting ∧ h.tx.lookup d.1 = some d.2 := by
  induction ks generalizing h done with
  | nil => exact ⟨fun _ _ ho => ho, fun _ hw => hw, fun _ _ hk => hk, fun d hd => .inl hd⟩
  | cons k ks ih =>
    obtain ⟨hlook, hwaiting, hkeyed, hmem⟩ := ih (h.inform k).1 (done ++ (h.inform k).2)
    refine ⟨fun o t ho => inform_keeps rfl (hlook o t ho), fun w hw => ((inform_waiting h k).mp (hwaiting w hw)).1, fun key ids hk => hkeyed key ids (hk.inform k), fun d hd => ?_⟩
    rcases hmem d hd with hd | ⟨k', hk', hw, ho⟩
    · rcases mem_append.mp hd with hd | hd
      · exact .inl hd
      · exact .inr ⟨k, mem_cons_self, mem_inform hd⟩
    · exact .inr ⟨k', mem_cons_of_mem _ hk', ((inform_waiting h k).mp hw).1, inform_keeps rfl ho⟩

lemma informs_keep (ks : List K) (h : TXHolder K T) (done : List (TXOwner × T)) (ht : h.tx.lookup o = some t)
    (hw : ∀ k ∈ ks, (k, o) ∉ h.waiting) :
    (ks.foldl (fun s k => ((s.1.inform k).1, s.2 ++ (s.1.inform k).2)) (h, done)).1.tx.lookup o = some t := by
  induction ks generalizing h done with
  | nil => exact ht
  | cons k ks ih =>
    apply ih
    · rw [inform_lookup, if_neg (hw k mem_cons_self)]
      exact ht
    · intro k' hk' hmem
      exact hw k' (mem_cons_of_mem _ hk') ((inform_waiting h k).mp hmem).1

lemma Keyed.expire_keeps {key : T → K} {ids : ℕ} (hk : Keyed key ids h) (ht : h.tx.lookup o = some t)
    (hkey : key t ∉ h.expired now) : (h.expire now).1.tx.lookup o = some t := by
  apply informs_keep _ _ _ ht
  intro k hmem hw
  rw [hk.keyed k o t hw ht] at hkey
  exact hkey hmem

lemma expire_lookup (ho : (h.expire now).1.tx.lookup o = some t) : h.tx.lookup o = some t :=
  (informs_spec (h.expired now) h []).1 o t ho

lemma expire_waiting {w : K × TXOwner} (hw : w ∈ (h.expire now).1.waiting) : w ∈ h.waiting :=
  (informs_spec (h.expired now) h []).2.1 w hw

lemma Keyed.expire (hk : Keyed key ids h) (now : Millis) : Keyed key ids (h.expire now).1 :=
  (informs_spec (h.expired now) h []).2.2.1 key ids hk

lemma mem_expire {d : TXOwner × T} (hd : d ∈ (h.expire now).2) :
    ∃ k ∈ h.expired now, (k, d.1) ∈ h.waiting ∧ h.tx.lookup d.1 = some d.2 := by
  rcases (informs_spec (h.expired now) h []).2.2.2 d hd with hd | hd
  · exact absurd hd not_mem_nil
  · exact hd

end TXHolder

end Belnet.Dht
