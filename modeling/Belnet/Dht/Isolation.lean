import Belnet.Dht.Network
import Belnet.Lib.Assoc

/-!
# Lookups of different clients

A relay looks introsets up for its clients, whose transactions are in one holder, under ids that they choose.
-/

namespace Belnet.Dht
open Iwp hiding RouterContact
open Belnet.Path hiding RouterContact
open Router Service List AList TXHolder Net

namespace TXHolder
variable {K T : Type} [DecidableEq K] {h : TXHolder K T} {k : K} {o : TXOwner} {t : T} {keep : T → Bool} {key : T → K}
  {now timeout : Millis}

lemma holder_ext {h h' : TXHolder K T} (hw : h.waiting = h'.waiting) (hto : h.timeouts = h'.timeouts)
    (htx : h.tx = h'.tx) : h = h' := by
  obtain ⟨w, _, _⟩ := h
  obtain ⟨_, _, _⟩ := h'
  cases hw
  cases hto
  cases htx
  rfl

def keeps (keep : T → Bool) (h : TXHolder K T) (o : TXOwner) : Bool := (h.tx.lookup o).any keep

def restrict (keep : T → Bool) (h : TXHolder K T) : TXHolder K T where
  waiting := h.waiting.filter fun w => h.keeps keep w.2
  timeouts := Assoc.restrict (fun e => (h.waitingFor e.1).any (h.keeps keep)) h.timeouts
  tx := Assoc.restrict (fun e => keep e.2) h.tx

structure Uniform (keep : T → Bool) (key : T → K) (h : TXHolder K T) : Prop where
  keyed : ∀ k o t, (k, o) ∈ h.waiting → h.tx.lookup o = some t → key t = k
  waits : ∀ o t, h.tx.lookup o = some t → (key t, o) ∈ h.waiting
  has : ∀ w ∈ h.waiting, (h.tx.lookup w.2).isSome
  owners : (h.waiting.map Prod.snd).Nodup
  timeouts : ∀ k, k ∈ h.timeouts ↔ ∃ o, (k, o) ∈ h.waiting
  same : ∀ k o o' t t', (k, o) ∈ h.waiting → (k, o') ∈ h.waiting → h.tx.lookup o = some t → h.tx.lookup o' = some t' →
    keep t = keep t'

lemma restrict_lookup : (h.restrict keep).tx.lookup o = (h.tx.lookup o).filter keep := Assoc.lookup_restrict

lemma restrict_waits : (h.restrict keep).waitingFor k = (h.waitingFor k).filter (h.keeps keep) := by
  unfold waitingFor restrict
  rw [filter_map, filter_filter, filter_filter]
  congr 1
  apply filter_congr
  intro w _
  exact Bool.and_comm _ _

lemma restrict_timeouts : (h.restrict keep).timeouts.lookup k =
    (h.timeouts.lookup k).filter fun _ => (h.waitingFor k).any (h.keeps keep) := Assoc.lookup_restrict

lemma keeps_of_lookup (ht : h.tx.lookup o = some t) : h.keeps keep o = keep t := by
  unfold keeps
  rw [ht]
  rfl

lemma Uniform.keeps_waitingFor (hu : Uniform keep key h) {x : Bool}
    (hall : ∀ o t, (k, o) ∈ h.waiting → h.tx.lookup o = some t → keep t = x) {o : TXOwner} (ho : o ∈ h.waitingFor k) :
    h.keeps keep o = x := by
  have hw := mem_waitingFor.mp ho
  obtain ⟨t, ht⟩ := Option.isSome_iff_exists.mp (hu.has _ hw)
  rw [keeps_of_lookup ht]
  exact hall o t hw ht

lemma newTX_tx (hfresh : h.tx.lookup o = none) : (h.newTX now o k t timeout).1.tx = h.tx.insert o t := by
  unfold newTX
  rw [hfresh]

lemma timeouts_some {v : Millis} (hk : h.timeouts.lookup k = some v) :
    (h.newTX now o k t timeout).1.timeouts = h.timeouts := by
  unfold newTX
  rw [hk]

lemma timeouts_none (hk : h.timeouts.lookup k = none) :
    (h.newTX now o k t timeout).1.timeouts = h.timeouts.insert k (now + timeout) := by
  unfold newTX
  rw [hk]

lemma newTX_waitingFor (k' : K) :
    (h.newTX now o k t timeout).1.waitingFor k' = h.waitingFor k' ++ if k = k' then [o] else [] := by
  unfold newTX waitingFor
  by_cases hk : k = k' <;> simp [hk]

lemma newTX_keeps_old (hfresh : h.tx.lookup o = none) {o' : TXOwner} (ho' : (h.tx.lookup o').isSome) :
    (h.newTX now o k t timeout).1.keeps keep o' = h.keeps keep o' := by
  have hne : o' ≠ o := by
    rintro rfl
    rw [hfresh] at ho'
    cases ho'
  unfold keeps
  rw [newTX_tx hfresh, lookup_insert_ne hne]

lemma newTX_keeps_new (hfresh : h.tx.lookup o = none) : (h.newTX now o k t timeout).1.keeps keep o = keep t := by
  unfold keeps
  rw [newTX_tx hfresh, lookup_insert]
  rfl

section
variable (hu : Uniform keep key h)
include hu

section
variable (hfresh : h.tx.lookup o = none)
include hfresh

lemma newTX_restrict_waiting : ((h.newTX now o k t timeout).1.restrict keep).waiting =
      (h.restrict keep).waiting ++ if keep t then [(k, o)] else [] := by
  show (h.waiting ++ [(k, o)]).filter _ = _
  rw [filter_append]
  congr 1
  · apply filter_congr
    intro w hw
    exact newTX_keeps_old hfresh (hu.has w hw)
  · rw [filter_cons, newTX_keeps_new hfresh]
    rfl

lemma newTX_any (k' : K) :
    ((h.newTX now o k t timeout).1.waitingFor k').any ((h.newTX now o k t timeout).1.keeps keep) =
      ((h.waitingFor k').any (h.keeps keep) || (decide (k = k') && keep t)) := by
  rw [newTX_waitingFor, any_append]
  congr 1
  · rw [Bool.eq_iff_iff, any_eq_true, any_eq_true]
    refine exists_congr fun _ => and_congr_right fun ho' => ?_
    rw [newTX_keeps_old hfresh (hu.has _ (mem_waitingFor.mp ho'))]
  · by_cases hk : k = k'
    · simp [hk, newTX_keeps_new hfresh]
    · simp [hk]

lemma restrict_newTX_drop (ht : keep t = false)
    (hall : ∀ o' t', (k, o') ∈ h.waiting → h.tx.lookup o' = some t' → keep t' = false) :
    (h.newTX now o k t timeout).1.restrict keep = h.restrict keep := by
  have hnone : (h.waitingFor k).any (h.keeps keep) = false :=
    any_eq_false.mpr fun o' ho' => by simp [hu.keeps_waitingFor hall ho']
  have hany (k' : K) : ((h.newTX now o k t timeout).1.waitingFor k').any ((h.newTX now o k t timeout).1.keeps keep) =
      (h.waitingFor k').any (h.keeps keep) := by rw [newTX_any hu hfresh, ht, Bool.and_false, Bool.or_false]
  apply holder_ext
  · rw [newTX_restrict_waiting hu hfresh, ht]
    exact append_nil _
  · unfold restrict
    simp only [hany]
    cases hk : h.timeouts.lookup k with
    | some => rw [timeouts_some hk]
    | none =>
      rw [timeouts_none hk]
      exact Assoc.restrict_insert_drop (lookup_eq_none.mp hk) hnone
  · show Assoc.restrict _ (h.newTX now o k t timeout).1.tx = _
    rw [newTX_tx hfresh]
    exact Assoc.restrict_insert_drop (lookup_eq_none.mp hfresh) ht

lemma restrict_newTX (ht : keep t = true)
    (hall : ∀ o' t', (k, o') ∈ h.waiting → h.tx.lookup o' = some t' → keep t' = true) :
    (h.restrict keep).newTX now o k t timeout =
      ((h.newTX now o k t timeout).1.restrict keep, (h.newTX now o k t timeout).2) := by
  have hkept : ∀ o' ∈ h.waitingFor k, h.keeps keep o' = true := fun _ => hu.keeps_waitingFor hall
  have hsame : (h.restrict keep).waitingFor k = h.waitingFor k := by
    rw [restrict_waits]
    exact filter_eq_self.mpr hkept
  have hfresh' : (h.restrict keep).tx.lookup o = none := by
    rw [restrict_lookup, hfresh]
    rfl
  refine Prod.ext (holder_ext ?_ ?_ ?_) ?_
  · rw [newTX_restrict_waiting hu hfresh, ht]
    rfl
  · show _ = Assoc.restrict (fun e => ((h.newTX now o k t timeout).1.waitingFor e.1).any
        ((h.newTX now o k t timeout).1.keeps keep)) (h.newTX now o k t timeout).1.timeouts
    simp only [newTX_any hu hfresh, ht]
    cases hk : h.timeouts.lookup k with
    | some until' =>
      obtain ⟨o', ho'⟩ := (hu.timeouts k).mp (lookup_isSome.mp (by rw [hk]; rfl))
      have hany := any_eq_true.mpr ⟨o', mem_waitingFor.mpr ho', hkept o' (mem_waitingFor.mpr ho')⟩
      have hlook : (h.restrict keep).timeouts.lookup k = some until' := by
        rw [restrict_timeouts, hk, hany]
        rfl
      rw [timeouts_some hlook, timeouts_some hk]
      refine Assoc.restrict_congr fun e _ => ?_
      by_cases he : k = e.1
      · subst he
        rw [hany]
        rfl
      · simp [he]
    | none =>
      have hnotMem := lookup_eq_none.mp hk
      have hlook : (h.restrict keep).timeouts.lookup k = none := by
        rw [restrict_timeouts, hk]
        rfl
      rw [timeouts_none hlook, timeouts_none hk, Assoc.restrict_insert hnotMem (by simp)]
      congr 1
      refine Assoc.restrict_congr fun e he => ?_
      have hne : k ≠ e.1 := by
        rintro rfl
        exact hnotMem (mem_keys.mpr (mem_keys_of_mem he))
      simp [hne]
  · rw [newTX_tx hfresh']
    show (Assoc.restrict (fun e => keep e.2) h.tx).insert o t = Assoc.restrict (fun e => keep e.2) (h.newTX now o k t timeout).1.tx
    rw [newTX_tx hfresh, Assoc.restrict_insert (lookup_eq_none.mp hfresh) ht]
  · show ((h.restrict keep).waitingFor k).isEmpty = (h.waitingFor k).isEmpty
    rw [hsame]

end

end

lemma complete_tx (s : AList (fun _ : TXOwner => T) × List (TXOwner × T)) (o : TXOwner) :
    (complete s o).1 = s.1.erase o := by
  unfold complete
  split
  · rename_i hnone
    exact (Assoc.erase_of_notMem (lookup_eq_none.mp hnone)).symm
  · rfl

lemma completes_tx (os : List TXOwner) (s : AList (fun _ : TXOwner => T) × List (TXOwner × T)) :
    (os.foldl complete s).1 = Assoc.restrict (fun e => decide (e.1 ∉ os)) s.1 := by
  induction os generalizing s with
  | nil => exact (Assoc.restrict_all fun _ _ => by simp).symm
  | cons o os ih =>
    rw [foldl_cons, ih, complete_tx]
    apply ext
    show (s.1.erase o).entries.filter _ = s.1.entries.filter _
    rw [Assoc.entries_erase, filter_filter]
    apply filter_congr
    intro e _
    simp [Bool.and_comm]

lemma completes_done (os : List TXOwner) (hos : os.Nodup) (s : AList (fun _ : TXOwner => T) × List (TXOwner × T)) :
    (os.foldl complete s).2 = s.2 ++ os.filterMap fun o => (s.1.lookup o).map fun t => (o, t) := by
  induction os generalizing s with
  | nil => simp
  | cons o os ih =>
    obtain ⟨hnotMem, hos⟩ := nodup_cons.mp hos
    rw [foldl_cons, ih hos]
    have hlook : os.filterMap (fun o' => ((complete s o).1.lookup o').map fun t => (o', t)) =
        os.filterMap fun o' => (s.1.lookup o').map fun t => (o', t) := by
      apply filterMap_congr
      intro o' ho'
      rw [complete_lookup, if_neg]
      rintro rfl
      exact hnotMem ho'
    rw [hlook]
    unfold complete
    cases hx : s.1.lookup o with
    | none | some t => simp [hx]

lemma Uniform.nodup_waitingFor (hu : Uniform keep key h) (k : K) : (h.waitingFor k).Nodup :=
  hu.owners.sublist (filter_sublist.map _)

lemma inform_done (hu : Uniform keep key h) (k : K) :
    (h.inform k).2 = (h.waitingFor k).filterMap fun o => (h.tx.lookup o).map fun t => (o, t) := by
  show ((h.waitingFor k).foldl complete (h.tx, [])).2 = _
  rw [completes_done _ (hu.nodup_waitingFor k)]
  rfl

variable {w : K × TXOwner}

lemma inform_keeps_old (hu : Uniform keep key h) (hw : w ∈ h.waiting) (hne : w.1 ≠ k) :
    (h.inform k).1.keeps keep w.2 = h.keeps keep w.2 := by
  unfold keeps
  rw [inform_lookup, if_neg]
  intro hk
  obtain ⟨t, ht⟩ := Option.isSome_iff_exists.mp (hu.has w hw)
  exact hne ((hu.keyed w.1 w.2 t hw ht).symm.trans (hu.keyed k w.2 t hk ht))

lemma inform_waitingFor {k' : K} (hne : k' ≠ k) : (h.inform k).1.waitingFor k' = h.waitingFor k' := by
  show ((h.waiting.filter fun w => w.1 ≠ k).filter fun w => w.1 = k').map Prod.snd = _
  rw [filter_filter]
  congr 1
  apply filter_congr
  intro w _
  by_cases hw : w.1 = k'
  · simp [hw, hne]
  · simp [hw]

lemma restrict_done (os : List TXOwner) :
    (os.filter (h.keeps keep)).filterMap (fun o => ((h.restrict keep).tx.lookup o).map fun t => (o, t)) =
      (os.filterMap fun o => (h.tx.lookup o).map fun t => (o, t)).filter fun d => keep d.2 := by
  induction os with
  | nil => rfl
  | cons o os ih =>
    cases hx : h.tx.lookup o with
    | none => simp [keeps, hx, ih]
    | some t =>
      have hkeeps : h.keeps keep o = keep t := keeps_of_lookup hx
      cases ht : keep t with
      | false => simp [hkeeps, hx, ih, ht]
      | true =>
        have hlook : (h.restrict keep).tx.lookup o = some t := by
          rw [restrict_lookup, hx]
          simp [ht]
        simp [hkeeps, hx, ih, ht, hlook]

lemma restrict_inform (hu : Uniform keep key h) (k : K) :
    (h.restrict keep).inform k = ((h.inform k).1.restrict keep, (h.inform k).2.filter fun d => keep d.2) := by
  have hnodup : ((h.restrict keep).waitingFor k).Nodup := by
    rw [restrict_waits]
    exact (hu.nodup_waitingFor k).filter _
  refine Prod.ext (holder_ext ?_ ?_ ?_) ?_
  · show ((h.waiting.filter fun w => h.keeps keep w.2).filter fun w => w.1 ≠ k) =
      (h.waiting.filter fun w => w.1 ≠ k).filter fun w => (h.inform k).1.keeps keep w.2
    rw [filter_comm]
    apply filter_congr
    intro w hw
    obtain ⟨hw, hne⟩ := mem_filter.mp hw
    exact (inform_keeps_old hu hw (by simpa using hne)).symm
  · show (Assoc.restrict _ h.timeouts).erase k = Assoc.restrict _ (h.timeouts.erase k)
    rw [← Assoc.restrict_erase]
    refine Assoc.restrict_congr fun e he => ?_
    rw [Assoc.entries_erase] at he
    have hne : e.1 ≠ k := by simpa using (mem_filter.mp he).2
    rw [inform_waitingFor hne, Bool.eq_iff_iff, any_eq_true, any_eq_true]
    refine exists_congr fun _ => and_congr_right fun ho' => ?_
    rw [inform_keeps_old hu (mem_waitingFor.mp ho') hne]
  · show ((h.restrict keep).waitingFor k |>.foldl complete ((h.restrict keep).tx, [])).1 =
      Assoc.restrict (fun e => keep e.2) ((h.waitingFor k).foldl complete (h.tx, [])).1
    rw [completes_tx, completes_tx]
    apply ext
    show (h.tx.entries.filter fun e => keep e.2).filter _ = (h.tx.entries.filter _).filter fun e => keep e.2
    rw [filter_comm, filter_filter, filter_filter]
    apply filter_congr
    intro e he
    have hlook : h.tx.lookup e.1 = some e.2 := mem_lookup_iff.mpr he
    cases hk : keep e.2 with
    | false => rfl
    | true => simp [restrict_waits, (keeps_of_lookup hlook).trans hk]
  · show ((h.restrict keep).waitingFor k |>.foldl complete ((h.restrict keep).tx, [])).2 = _
    rw [completes_done _ hnodup, inform_done hu, restrict_waits]
    exact restrict_done (h.waitingFor k)

lemma Uniform.inform (hu : Uniform keep key h) (k : K) : Uniform keep key (h.inform k).1 := by
  have hold : ∀ o t, (h.inform k).1.tx.lookup o = some t → h.tx.lookup o = some t := fun o t => inform_keeps rfl
  have hwaiting : ∀ w, w ∈ (h.inform k).1.waiting → w ∈ h.waiting ∧ w.1 ≠ k := fun w => (inform_waiting h k).mp
  constructor
  · intro k' o t hw ht
    exact hu.keyed k' o t (hwaiting _ hw).1 (hold o t ht)
  · intro o t ht
    refine (inform_waiting h k).mpr ⟨hu.waits o t (hold o t ht), ?_⟩
    intro hk
    have hk' : key t = k := hk
    have hw := hu.waits o t (hold o t ht)
    rw [hk'] at hw
    rw [inform_lookup, if_pos hw] at ht
    cases ht
  · intro w hw
    obtain ⟨hw, hne⟩ := hwaiting w hw
    obtain ⟨t, ht⟩ := Option.isSome_iff_exists.mp (hu.has w hw)
    rw [inform_lookup, if_neg]
    · exact hu.has w hw
    · intro hk
      exact hne ((hu.keyed w.1 w.2 t hw ht).symm.trans (hu.keyed k w.2 t hk ht))
  · exact hu.owners.sublist (filter_sublist.map _)
  · intro k'
    show k' ∈ h.timeouts.erase k ↔ _
    rw [mem_erase, hu.timeouts]
    constructor
    · rintro ⟨hne, o, ho⟩
      exact ⟨o, (inform_waiting h k).mpr ⟨ho, hne⟩⟩
    · rintro ⟨o, ho⟩
      obtain ⟨ho, hne⟩ := hwaiting _ ho
      exact ⟨hne, o, ho⟩
  · intro k' o o' t t' hw hw' ht ht'
    exact hu.same k' o o' t t' (hwaiting _ hw).1 (hwaiting _ hw').1 (hold o t ht) (hold o' t' ht')

lemma mem_newTX_waiting : w ∈ (h.newTX now o k t timeout).1.waiting ↔ w ∈ h.waiting ∨ w = (k, o) := by
  show w ∈ h.waiting ++ [(k, o)] ↔ _
  rw [mem_append, mem_singleton]

lemma mem_newTX_timeouts {k' : K} : k' ∈ (h.newTX now o k t timeout).1.timeouts ↔ k' ∈ h.timeouts ∨ k' = k := by
  cases hk : h.timeouts.lookup k with
  | some =>
    rw [timeouts_some hk]
    refine ⟨.inl, fun h' => h'.elim id fun heq => ?_⟩
    rw [heq]
    exact lookup_isSome.mp (by rw [hk]; rfl)
  | none =>
    rw [timeouts_none hk]
    exact (mem_insert _).trans or_comm

lemma Uniform.newTX (hu : Uniform keep key h) (hfresh : h.tx.lookup o = none)
    (hall : ∀ o' t', (key t, o') ∈ h.waiting → h.tx.lookup o' = some t' → keep t' = keep t) :
    Uniform keep key (h.newTX now o (key t) t timeout).1 := by
  have hne : ∀ w ∈ h.waiting, w.2 ≠ o := by
    intro w hw heq
    have hsome := hu.has w hw
    rw [heq, hfresh] at hsome
    cases hsome
  have hnew : (h.newTX now o (key t) t timeout).1.tx.lookup o = some t := by rw [newTX_tx hfresh, lookup_insert]
  have hold {o' : TXOwner} (ho : o' ≠ o) : (h.newTX now o (key t) t timeout).1.tx.lookup o' = h.tx.lookup o' := by
    rw [newTX_tx hfresh, lookup_insert_ne ho]
  -- what waits is what waited before, or the new one
  have hwaits {k' : K} {o' : TXOwner} {t' : T} (hw : (k', o') ∈ (h.newTX now o (key t) t timeout).1.waiting)
      (ht : (h.newTX now o (key t) t timeout).1.tx.lookup o' = some t') :
      ((k', o') ∈ h.waiting ∧ h.tx.lookup o' = some t') ∨ (k' = key t ∧ t' = t) := by
    rcases mem_newTX_waiting.mp hw with hw | hw
    · rw [hold (hne _ hw)] at ht
      exact .inl ⟨hw, ht⟩
    · cases hw
      exact .inr ⟨rfl, (Option.some.inj (hnew.symm.trans ht)).symm⟩
  constructor
  · intro k' o' t' hw ht
    rcases hwaits hw ht with ⟨hw, ht⟩ | ⟨rfl, rfl⟩
    · exact hu.keyed k' o' t' hw ht
    · rfl
  · intro o' t' ht
    by_cases ho : o' = o
    · subst ho
      cases hnew.symm.trans ht
      exact mem_newTX_waiting.mpr (.inr rfl)
    · rw [hold ho] at ht
      exact mem_newTX_waiting.mpr (.inl (hu.waits o' t' ht))
  · intro w hw
    rcases mem_newTX_waiting.mp hw with hw | rfl
    · rw [hold (hne w hw)]
      exact hu.has w hw
    · rw [hnew]
      rfl
  · show ((h.waiting ++ [(key t, o)]).map Prod.snd).Nodup
    rw [map_append, map_singleton, nodup_append]
    refine ⟨hu.owners, nodup_singleton _, ?_⟩
    intro o' ho' _ ho''
    obtain ⟨w, hw, rfl⟩ := mem_map.mp ho'
    rw [mem_singleton.mp ho'']
    exact hne w hw
  · intro k'
    simp only [mem_newTX_timeouts, mem_newTX_waiting, hu.timeouts, exists_or]
    simp
  · intro k' o₁ o₂ t₁ t₂ hw₁ hw₂ ht₁ ht₂
    rcases hwaits hw₁ ht₁ with ⟨hw₁, ht₁⟩ | ⟨rfl, heq₁⟩
    · rcases hwaits hw₂ ht₂ with ⟨hw₂, ht₂⟩ | ⟨rfl, heq₂⟩
      · exact hu.same k' o₁ o₂ t₁ t₂ hw₁ hw₂ ht₁ ht₂
      · rw [heq₂]
        exact hall o₁ t₁ hw₁ ht₁
    · rw [heq₁]
      rcases hwaits hw₂ ht₂ with ⟨hw₂, ht₂⟩ | ⟨-, rfl⟩
      · exact (hall o₂ t₂ hw₂ ht₂).symm
      · rfl

abbrev informs (ks : List K) (s : TXHolder K T × List (TXOwner × T)) : TXHolder K T × List (TXOwner × T) :=
  ks.foldl (fun s k => ((s.1.inform k).1, s.2 ++ (s.1.inform k).2)) s

section
variable (ks : List K) (hu : Uniform keep key h) (done : List (TXOwner × T))
include ks hu done

lemma Uniform.informs : Uniform keep key (informs ks (h, done)).1 := by
  induction ks generalizing h done with
  | nil => exact hu
  | cons k ks ih => exact ih (hu.inform k) (done ++ (h.inform k).2)

lemma restrict_informs : informs ks (h.restrict keep, done.filter fun d => keep d.2) =
      ((informs ks (h, done)).1.restrict keep, (informs ks (h, done)).2.filter fun d => keep d.2) := by
  induction ks generalizing h done with
  | nil => rfl
  | cons k ks ih =>
    have hstep := ih (hu.inform k) (done ++ (h.inform k).2)
    rw [filter_append] at hstep
    show informs ks (((h.restrict keep).inform k).1, _ ++ ((h.restrict keep).inform k).2) = _
    rw [restrict_inform hu]
    exact hstep

end

def Absent (h : TXHolder K T) (k : K) : Prop := h.waitingFor k = [] ∧ k ∉ h.timeouts

lemma Absent.inform_eq (ha : h.Absent k) : h.inform k = (h, []) := by
  obtain ⟨hw, ht⟩ := ha
  unfold inform
  rw [hw]
  refine Prod.ext (holder_ext ?_ ?_ rfl) rfl
  · refine filter_eq_self.mpr fun w hmem => ?_
    have hne : w.1 ≠ k := by
      rintro rfl
      have hmem' := mem_waitingFor.mpr hmem
      rw [hw] at hmem'
      exact absurd hmem' not_mem_nil
    simpa using hne
  · exact Assoc.erase_of_notMem ht

lemma Absent.inform (ha : h.Absent k) (k' : K) : (h.inform k').1.Absent k := by
  obtain ⟨hw, ht⟩ := ha
  refine ⟨?_, fun hmem => ht (mem_erase.mp hmem).2⟩
  apply eq_nil_iff_forall_not_mem.mpr
  intro o ho
  have hmem := mem_waitingFor.mpr ((inform_waiting h k').mp (mem_waitingFor.mp ho)).1
  rw [hw] at hmem
  exact absurd hmem not_mem_nil

lemma informs_filter (ks : List K) (Q : K → Bool) (done : List (TXOwner × T))
    (hks : ∀ k ∈ ks, Q k = false → h.Absent k) : informs (ks.filter Q) (h, done) = informs ks (h, done) := by
  induction ks generalizing h done with
  | nil => rfl
  | cons k ks ih =>
    obtain ⟨hk, hks⟩ := forall_mem_cons.mp hks
    cases hQ : Q k with
    | false =>
      rw [filter_cons_of_neg (by simp [hQ]), ih done hks]
      show _ = informs ks ((h.inform k).1, done ++ (h.inform k).2)
      rw [(hk hQ).inform_eq, append_nil]
    | true =>
      rw [filter_cons_of_pos hQ]
      exact ih _ fun k' hk' hQ' => (hks k' hk' hQ').inform k

lemma restrict_absent (hnone : (h.waitingFor k).any (h.keeps keep) = false) : (h.restrict keep).Absent k := by
  constructor
  · rw [restrict_waits]
    refine filter_eq_nil_iff.mpr fun o ho => ?_
    simpa using any_eq_false.mp hnone o ho
  · intro hmem
    obtain ⟨v, hv⟩ := Option.isSome_iff_exists.mp (lookup_isSome.mpr hmem)
    rw [restrict_timeouts, hnone] at hv
    simp at hv

lemma restrict_expire (hu : Uniform keep key h) (now : Millis) :
    (h.restrict keep).expire now = ((h.expire now).1.restrict keep, (h.expire now).2.filter fun d => keep d.2) := by
  have hexpired : (h.restrict keep).expired now =
      (h.expired now).filter fun k => (h.waitingFor k).any (h.keeps keep) := by
    show ((h.timeouts.entries.filter _).filter _).map Sigma.fst = _
    unfold expired
    rw [filter_comm, filter_map]
    rfl
  show informs ((h.restrict keep).expired now) (h.restrict keep, []) = _
  rw [hexpired, informs_filter _ _ _ fun k _ => restrict_absent]
  exact restrict_informs (h.expired now) hu []

end TXHolder

/-! ## a relay and one of its paths -/

def keepFor (p : PathID) (t : IntroTX) : Bool :=
  match t.job with
  | .lookup _ => t.localPath = p
  | .publish _ _ => true

def onPath (p : PathID) (outs : List Out) : List Out :=
  outs.filter fun
    | .path q _ _ _ => q = p
    | _ => false

lemma onPath_append (p : PathID) (outs outs' : List Out) : onPath p (outs ++ outs') = onPath p outs ++ onPath p outs' :=
  filter_append ..

namespace Relay

def view (p : PathID) (r : Relay) : Relay := { r with pending := r.pending.restrict (keepFor p) }

inductive Op where
  | publish (now : Millis) (path : PathID) (txid : ℕ) (introset : EncryptedIntroSet) (relayOrder cause : ℕ)
  | find (now : Millis) (path : PathID) (txid : ℕ) (location : Key) (relayOrder : ℕ)
  | receive (now : Millis) (m : Envelope)
  | expire (now : Millis)
  | clean (now : Millis)
  | setNodeDB (db : NodeDB)
  | setPaths (paths : List PathID)
  | takeId

variable (c : Crypto)

def perform (op : Op) (r : Relay) : Relay × List Out :=
  match op with
  | .publish now path txid introset relayOrder cause => r.publishRelayed c now path txid introset relayOrder cause
  | .find now path txid location relayOrder => r.findRelayed now path txid location relayOrder
  | .receive now m => receive c now m r
  | .expire now => r.expire c now
  | .clean now => (r.cleanServices now, [])
  | .setNodeDB db => ({ r with nodedb := db }, [])
  | .setPaths paths => ({ r with paths := paths }, [])
  | .takeId => ({ r with ids := r.ids + 1 }, [])

def step (op : Op) (r : Relay) : Except Empty Relay := .ok (perform c op r).1

def outputs : List Op → Relay → List Out
  | [], _ => []
  | op :: ops, r => (perform c op r).2 ++ outputs ops (perform c op r).1

/-- A lookup of another path is left out.  The id it takes is taken all the same, so that replies have the same ids. -/
def isolate (p : PathID) : List Op → Relay → List Op
  | [], _ => []
  | op :: ops, r =>
    (match op with
      | .find _ path _ _ _ =>
        if path = p then [op] else if (perform c op r).1.ids = r.ids then [] else [.takeId]
      | _ => [op]) ++ isolate p ops (perform c op r).1

/-- No lookup or transaction of another path is found under the id of a lookup that comes in over a path. -/
def Apart (op : Op) (r : Relay) : Prop :=
  match op with
  | .find _ path txid _ _ =>
    (∀ t, r.pending.tx.lookup ⟨r.ourKey, txid⟩ = some t → t.localPath = path) ∧
      ∀ o t, (⟨r.ourKey, txid⟩, o) ∈ r.pending.waiting → r.pending.tx.lookup o = some t → t.localPath = path
  | _ => True

variable {c} {r : Relay} {p path : PathID} {now : Millis} {txid relayOrder cause : ℕ} {location : Key}
  {introset : EncryptedIntroSet}

structure Orderly (r : Relay) : Prop where
  sound : r.Sound
  uniform : ∀ p, Uniform (keepFor p) IntroTX.target r.pending

variable {askpeer : Key} {msg : PeerMsg} {t : IntroTX}

lemma view_start (hr : r.Orderly) (ht : keepFor p t = true)
    (hall : ∀ o' t', (t.target, o') ∈ r.pending.waiting → r.pending.tx.lookup o' = some t' → keepFor p t' = true) :
    (r.view p).start now askpeer t msg = ((r.start now askpeer t msg).1.view p, (r.start now askpeer t msg).2) := by
  have hnew : (r.pending.restrict (keepFor p)).newTX now ⟨askpeer, r.ids + 1⟩ t.target t requestTimeout = _ :=
    restrict_newTX (hr.uniform p) (hr.sound.fresh askpeer) ht hall
  unfold start view
  rw [hnew]

lemma view_start_drop (hr : r.Orderly) (ht : keepFor p t = false)
    (hall : ∀ o' t', (t.target, o') ∈ r.pending.waiting → r.pending.tx.lookup o' = some t' → keepFor p t' = false) :
    (r.start now askpeer t msg).1.view p = { r.view p with ids := r.ids + 1 } := by
  have hnew : (r.pending.newTX now ⟨askpeer, r.ids + 1⟩ t.target t requestTimeout).1.restrict (keepFor p) = _ :=
    restrict_newTX_drop (hr.uniform p) (hr.sound.fresh askpeer) ht hall
  unfold start view
  rw [hnew]

lemma Orderly.start (hr : r.Orderly) (hkind : Kinds r.ourKey ⟨askpeer, r.ids + 1⟩ t)
    (hall : ∀ p o' t', (t.target, o') ∈ r.pending.waiting → r.pending.tx.lookup o' = some t' →
      keepFor p t' = keepFor p t) : (r.start now askpeer t msg).1.Orderly where
  sound := hr.sound.start hkind
  uniform := fun p => (hr.uniform p).newTX (hr.sound.fresh askpeer) (hall p)

variable {o : TXOwner}

lemma Orderly.publish_key (hr : r.Orderly) {peer : Key} (hne : peer ≠ r.ourKey)
    (hw : (⟨peer, r.ids + 1⟩, o) ∈ r.pending.waiting) : False := by
  have hmem := mem_waitingFor.mpr hw
  rw [hr.sound.waitingFor_fresh hne] at hmem
  exact absurd hmem not_mem_nil

lemma Orderly.find_key (hr : r.Orderly)
    (hw : (⟨r.ourKey, txid⟩, o) ∈ r.pending.waiting) (ht : r.pending.tx.lookup o = some t) (p : PathID) :
    keepFor p t = decide (t.localPath = p) := by
  have hkey := hr.sound.keyed.keyed _ _ _ hw ht
  have hkind := hr.sound.kinds o t ht
  unfold Kinds at hkind
  unfold keepFor
  cases hjob : t.job with
  | lookup => rfl
  | publish =>
    rw [hjob] at hkind
    obtain ⟨htarget, hnode⟩ := hkind
    rw [← htarget, hkey] at hnode
    exact absurd rfl hnode

lemma view_putNode (e : EncryptedIntroSet) : (r.view p).putNode e = (r.putNode e).view p := by
  unfold putNode
  rw [show (r.view p).services = r.services from rfl]
  cases r.services.lookup e.derivedSigningKey with
  | none => rfl
  | some =>
    dsimp only
    split <;> rfl

lemma publishRelayed_view (hr : r.Orderly) : (r.view p).publishRelayed c now path txid introset relayOrder cause =
      ((r.publishRelayed c now path txid introset relayOrder cause).1.view p,
        (r.publishRelayed c now path txid introset relayOrder cause).2) := by
  have hclosest : (r.view p).closest introset.derivedSigningKey = r.closest introset.derivedSigningKey := rfl
  have hanswer (found : List EncryptedIntroSet) :
      (r.view p).answer path txid found (some cause) = r.answer path txid found (some cause) := rfl
  unfold publishRelayed
  simp only [hclosest, hanswer]
  split
  · rfl
  split
  · rfl
  split
  · rfl
  cases (r.closest introset.derivedSigningKey)[relayOrder]? with
  | none => rfl
  | some peer =>
    dsimp only
    by_cases hne : peer = r.ourKey
    · have hne' : peer = (r.view p).ourKey := hne
      rw [if_pos hne, if_pos hne', view_putNode]
    have hne' : peer ≠ (r.view p).ourKey := hne
    rw [if_neg hne, if_neg hne']
    exact view_start hr rfl fun o t hw => (hr.publish_key hne hw).elim

lemma findRelayed_view (hr : r.Orderly) (hapart : Apart (.find now p txid location relayOrder) r) :
    (r.view p).findRelayed now p txid location relayOrder = ((r.findRelayed now p txid location relayOrder).1.view p,
        (r.findRelayed now p txid location relayOrder).2) := by
  obtain ⟨hown, hwaiting⟩ := hapart
  have hclosest : (r.view p).closest location = r.closest location := rfl
  have hsome : ((r.view p).pending.tx.lookup ⟨(r.view p).ourKey, txid⟩).isSome =
      (r.pending.tx.lookup ⟨r.ourKey, txid⟩).isSome := by
    show ((r.pending.restrict (keepFor p)).tx.lookup ⟨r.ourKey, txid⟩).isSome = _
    rw [restrict_lookup]
    cases ht : r.pending.tx.lookup (⟨r.ourKey, txid⟩ : TXOwner) with
    | none => rfl
    | some t =>
      have hkeep : keepFor p t = true := by
        unfold keepFor
        split
        · exact decide_eq_true (hown t ht)
        · rfl
      simp [hkeep]
  unfold findRelayed
  simp only [hclosest, hsome]
  split
  · rfl
  split
  · rfl
  split
  · rfl
  cases (r.closest location)[relayOrder]? with
  | none => rfl
  | some =>
    refine view_start hr (decide_eq_true rfl) fun o t hw ht => ?_
    rw [hr.find_key hw ht]
    exact decide_eq_true (hwaiting o t hw ht)

lemma findRelayed_view_drop (hr : r.Orderly) (hapart : Apart (.find now path txid location relayOrder) r)
    (hne : path ≠ p) :
    let r' := (r.findRelayed now path txid location relayOrder).1
    r'.view p = (if r'.ids = r.ids then r.view p else { r.view p with ids := (r.view p).ids + 1 }) ∧
      onPath p (r.findRelayed now path txid location relayOrder).2 = [] := by
  refine findRelayed_ind (P := fun x => x.1.view p = (if x.1.ids = r.ids then r.view p else
    { r.view p with ids := (r.view p).ids + 1 }) ∧ onPath p x.2 = []) ?_ ?_ ?_
  · exact ⟨(if_pos rfl).symm, rfl⟩
  · refine ⟨(if_pos rfl).symm, filter_eq_nil_iff.mpr fun o ho => ?_⟩
    rw [(mem_answer ho).1]
    simpa using hne
  intro _
  constructor
  · refine Eq.trans ?_ (if_neg (Nat.succ_ne_self r.ids)).symm
    refine view_start_drop hr (decide_eq_false hne) fun o t hw ht => ?_
    rw [hr.find_key hw ht]
    exact decide_eq_false ((hapart.2 o t hw ht).symm ▸ hne)
  · refine filter_eq_nil_iff.mpr fun o ho => ?_
    rw [mem_start ho]
    simp

variable {found : List EncryptedIntroSet}

lemma onPath_replies (ts : List (TXOwner × IntroTX)) :
    onPath p ((ts.filter fun d => keepFor p d.2).flatMap fun t => r.sendReply c now found t.2) =
      onPath p (ts.flatMap fun t => r.sendReply c now found t.2) := by
  induction ts with
  | nil => rfl
  | cons t ts ih =>
    cases hk : keepFor p t.2 with
    | true => rw [filter_cons_of_pos (by simpa using hk), flatMap_cons, flatMap_cons, onPath_append, onPath_append, ih]
    | false =>
      have hother : onPath p (r.sendReply c now found t.2) = [] := by
        refine filter_eq_nil_iff.mpr fun o ho => ?_
        unfold keepFor at hk
        obtain ⟨-, ⟨_, l, hjob, rfl⟩ | ⟨e, k, hjob, rfl⟩⟩ := mem_sendReply ho
        · rw [hjob] at hk
          simpa using hk
        · rw [hjob] at hk
          cases hk
      rw [filter_cons_of_neg (by simp [hk]), ih, flatMap_cons, onPath_append, hother, nil_append]

lemma answered_view {x y : TXHolder TXOwner IntroTX × List (TXOwner × IntroTX)}
    (h : x = (y.1.restrict (keepFor p), y.2.filter fun d => keepFor p d.2)) :
    { r with pending := x.1 } = ({ r with pending := y.1 } : Relay).view p ∧
      onPath p (x.2.flatMap fun t => r.sendReply c now found t.2) =
        onPath p (y.2.flatMap fun t => r.sendReply c now found t.2) := by
  rw [h]
  exact ⟨rfl, onPath_replies y.2⟩

section
variable (hr : r.Orderly)
include hr

lemma inform_view (key : TXOwner) : ((r.view p).inform c now key found).1 = (r.inform c now key found).1.view p ∧
      onPath p ((r.view p).inform c now key found).2 = onPath p (r.inform c now key found).2 :=
  answered_view (restrict_inform (hr.uniform p) key)

lemma expire_view : ((r.view p).expire c now).1 = (r.expire c now).1.view p ∧
      onPath p ((r.view p).expire c now).2 = onPath p (r.expire c now).2 :=
  answered_view (restrict_expire (hr.uniform p) now)

lemma view_absent (ht : r.pending.tx.lookup o = some t)
    (hdrop : keepFor p t = false) : (r.view p).pending.Absent t.target := by
  have hu := hr.uniform p
  refine restrict_absent (any_eq_false.mpr fun o' ho' => ?_)
  rw [hu.keeps_waitingFor (fun o' t' hw ht' => (hu.same _ o' o t' t hw (hu.waits o t ht) ht' ht).trans hdrop) ho']
  exact Bool.false_ne_true

lemma gotIntro_view {sender : Key} :
    ((r.view p).gotIntro c now sender txid found).1 = (r.gotIntro c now sender txid found).1.view p ∧
      onPath p ((r.view p).gotIntro c now sender txid found).2 = onPath p (r.gotIntro c now sender txid found).2 := by
  have hlook : (r.view p).pending.tx.lookup ⟨sender, txid⟩ =
      (r.pending.tx.lookup ⟨sender, txid⟩).filter (keepFor p) := restrict_lookup
  unfold gotIntro
  split
  · rw [hlook]
    cases ht : r.pending.tx.lookup (⟨sender, txid⟩ : TXOwner) with
    | none => exact ⟨rfl, rfl⟩
    | some t =>
      have hinform : ((r.view p).inform c now t.target found).1 = (r.inform c now t.target found).1.view p ∧
          onPath p ((r.view p).inform c now t.target found).2 = onPath p (r.inform c now t.target found).2 :=
        inform_view hr t.target
      cases hk : keepFor p t with
      | true =>
        rw [Option.filter_some_pos hk]
        exact hinform
      | false =>
        rw [Option.filter_some_neg (by simp [hk])]
        have habsent : (r.view p).inform c now t.target found = (r.view p, []) := by
          unfold inform
          rw [(view_absent hr ht hk).inform_eq]
          rfl
        rw [habsent] at hinform
        exact hinform
  · exact ⟨rfl, rfl⟩

lemma receive_view {m : Envelope} : (receive c now m (r.view p)).1 = (receive c now m r).1.view p ∧
      onPath p (receive c now m (r.view p)).2 = onPath p (receive c now m r).2 := by
  unfold receive
  cases m.msg with
  | publishIntro introset txid =>
    have hclosest : (r.view p).closest introset.derivedSigningKey = r.closest introset.derivedSigningKey := rfl
    have hkey : (r.view p).ourKey = r.ourKey := rfl
    unfold publishDirect
    simp only [hclosest, hkey]
    split
    · exact ⟨rfl, rfl⟩
    split
    · exact ⟨rfl, rfl⟩
    split
    · exact ⟨rfl, rfl⟩
    split
    · exact ⟨view_putNode introset, rfl⟩
    · exact ⟨rfl, rfl⟩
  | findIntro location txid =>
    have hsilent (r : Relay) : (r.findDirect m.src txid location).1 = r ∧
        onPath p (r.findDirect m.src txid location).2 = [] :=
      findDirect_ind (P := fun x => x.1 = r ∧ onPath p x.2 = []) ⟨rfl, rfl⟩ fun _ => ⟨rfl, rfl⟩
    rw [(hsilent r).1, (hsilent r).2]
    exact hsilent (r.view p)
  | gotIntro found txid => exact gotIntro_view hr

lemma Orderly.same {r' : Relay} (hkey : r'.ourKey = r.ourKey) (hids : r.ids ≤ r'.ids)
    (hpending : r'.pending = r.pending) : r'.Orderly where
  sound := (Lawful.same hr.sound hkey hids hpending).sound
  uniform := by
    rw [hpending]
    exact hr.uniform

lemma Orderly.putNode (e : EncryptedIntroSet) : (r.putNode e).Orderly := by
  obtain ⟨_, h⟩ := r.putNode_eq e
  rw [h]
  exact hr.same rfl (le_refl _) rfl

lemma perform_orderly {op : Op} (hapart : Apart op r) : (perform c op r).1.Orderly := by
  cases op with
  | publish now path txid introset relayOrder =>
    exact publishRelayed_ind (P := fun x => x.1.Orderly) hr (hr.putNode introset) fun peer hne =>
      hr.start ⟨rfl, hne⟩ fun p o t hw => (hr.publish_key hne hw).elim
  | find now path txid location relayOrder =>
    refine findRelayed_ind (P := fun x => x.1.Orderly) hr hr fun peer => hr.start rfl fun p o t hw ht => ?_
    rw [hr.find_key hw ht, hapart.2 o t hw ht]
    rfl
  | receive now =>
    exact receive_ind (P := fun x => x.1.Orderly) hr (fun _ _ _ _ => hr) (fun e _ _ _ => hr.putNode e)
      (fun _ _ _ _ => hr) fun _ _ _ t _ _ => ⟨hr.sound.inform t.target _, fun p => (hr.uniform p).inform t.target⟩
  | expire now => exact ⟨hr.sound.expire, fun p => Uniform.informs (r.pending.expired now) (hr.uniform p) []⟩
  | clean | setNodeDB | setPaths => exact hr.same rfl (le_refl _) rfl
  | takeId => exact hr.same rfl (Nat.le_succ _) rfl

lemma perform_view {op : Op} (hapart : Apart op r)
    (hop : ∀ now path txid location relayOrder, op = .find now path txid location relayOrder → path = p) :
    (perform c op (r.view p)).1 = (perform c op r).1.view p ∧
      onPath p (perform c op (r.view p)).2 = onPath p (perform c op r).2 := by
  cases op with
  | publish now path txid introset relayOrder cause =>
    have h : (r.view p).publishRelayed c now path txid introset relayOrder cause = _ := publishRelayed_view hr
    exact ⟨congrArg Prod.fst h, congrArg (fun x => onPath p x.2) h⟩
  | find now path txid location relayOrder =>
    obtain rfl := hop now path txid location relayOrder rfl
    have h := findRelayed_view hr hapart
    exact ⟨congrArg Prod.fst h, congrArg (fun x => onPath path x.2) h⟩
  | receive now => exact receive_view hr
  | expire now => exact expire_view hr
  | clean | setNodeDB | setPaths | takeId => exact ⟨rfl, rfl⟩

end

lemma outputs_isolate (ops : List Op) (r : Relay) (hr : r.Orderly) (hops : Run.Obeys (step c) Apart ops r) :
    onPath p (outputs c (isolate c p ops r) (r.view p)) = onPath p (outputs c ops r) := by
  induction ops generalizing r with
  | nil => rfl
  | cons op ops ih =>
    obtain ⟨hapart, hrest⟩ := hops
    have hih := ih (perform c op r).1 (perform_orderly hr hapart) (hrest _ rfl)
    have hsame (hop : ∀ now path txid location relayOrder, op = .find now path txid location relayOrder → path = p) :
        onPath p (outputs c ([op] ++ isolate c p ops (perform c op r).1) (r.view p)) =
          onPath p ((perform c op r).2 ++ outputs c ops (perform c op r).1) := by
      obtain ⟨hview, hout⟩ := perform_view (c := c) (p := p) hr hapart hop
      show onPath p ((perform c op (r.view p)).2 ++
        outputs c (isolate c p ops (perform c op r).1) (perform c op (r.view p)).1) = _
      rw [onPath_append, onPath_append, hview, hout, hih]
    cases op with
    | find now path txid location relayOrder =>
      by_cases hpath : path = p
      · show onPath p (outputs c ((if path = p then [_] else _) ++ _) _) = _
        rw [if_pos hpath]
        refine hsame ?_
        rintro _ _ _ _ _ ⟨⟩
        exact hpath
      · show onPath p (outputs c ((if path = p then [_] else _) ++ _) _) = _
        have hdrop : (perform c (.find now path txid location relayOrder) r).1.view p =
              (if (perform c (.find now path txid location relayOrder) r).1.ids = r.ids then r.view p
                else { r.view p with ids := (r.view p).ids + 1 }) ∧
            onPath p (perform c (.find now path txid location relayOrder) r).2 = [] :=
          findRelayed_view_drop hr hapart hpath
        obtain ⟨hview, hout⟩ := hdrop
        rw [if_neg hpath]
        show _ = onPath p (_ ++ _)
        rw [onPath_append, hout, nil_append, ← hih, hview]
        split <;> rfl
    | publish | receive | expire | clean | setNodeDB | setPaths | takeId => exact hsame (by rintro _ _ _ _ _ ⟨⟩)

end Relay

open Relay

/-- A path gets the same replies as without the lookups of other paths, if no lookup comes in under the id of another
path's. -/
theorem lookups_apart {c : Crypto} {p : PathID} {ops : List Relay.Op} {r : Relay} (hr : r.pending = {})
    (hops : Run.Obeys (Relay.step c) Apart ops r) :
    onPath p (outputs c ops r) = onPath p (outputs c (isolate c p ops r) r) := by
  have horderly : r.Orderly := by
    refine ⟨.empty hr, fun p => ?_⟩
    rw [hr]
    refine ⟨fun _ _ _ hw => absurd hw not_mem_nil, fun _ _ ho => (nomatch ho),
      fun _ hw => absurd hw not_mem_nil, nodup_nil, fun k => ?_, fun _ _ _ _ _ hw =>
      absurd hw not_mem_nil⟩
    exact ⟨fun hk => absurd hk (notMem_empty k), fun ⟨_, hw⟩ => absurd hw not_mem_nil⟩
  have hview : r.view p = r := by
    obtain ⟨_, _, _, _, _, _⟩ := r
    cases hr
    rfl
  rw [← outputs_isolate ops r horderly hops, hview]

namespace Sample
open Router.Sample

def otherPath : PathID := .ofBytes 16 [2]

def twoPaths : Relay := { relay 9 with paths := [path, otherPath] }

def twoLookups (txid : ℕ) : List Relay.Op :=
  [.find 2 path txid (key 6) 0, .find 2 otherPath 7 (key 5) 0, .receive 3 ⟨key 4, key 9, .gotIntro [] 1 none⟩]

end Sample

open Sample

/-- The second client took the id of the first: it is told that there is no introset, which nobody was asked for. -/
theorem lookups_not_apart : onPath otherPath (outputs Router.Sample.crypto (twoLookups 7) twoPaths) =
      [.path otherPath 7 [] none] ∧
    onPath otherPath (outputs Router.Sample.crypto
      (isolate Router.Sample.crypto otherPath (twoLookups 7) twoPaths) twoPaths) = [] := by
  decide +kernel

theorem lookups_apart_by_id : onPath path (outputs Router.Sample.crypto (twoLookups 8) twoPaths) =
      [.path path 8 [] none] ∧
    onPath path (outputs Router.Sample.crypto (twoLookups 8) twoPaths) = onPath path (outputs Router.Sample.crypto
        (isolate Router.Sample.crypto path (twoLookups 8) twoPaths) twoPaths) := by
  refine ⟨by decide +kernel, lookups_apart rfl ⟨⟨fun t ht => (nomatch ht), fun o t hw => absurd hw not_mem_nil⟩,
    fun r hr => ?_⟩⟩
  cases hr
  refine ⟨⟨?_, ?_⟩, fun r hr => ⟨trivial, fun _ _ => trivial⟩⟩
  · intro t ht
    have hnone : (perform Router.Sample.crypto (.find 2 path 8 (Router.Sample.key 6) 0)
        twoPaths).1.pending.tx.lookup ⟨Router.Sample.key 9, 7⟩ = none := by decide +kernel
    cases hnone.symm.trans ht
  · intro o t hw
    cases mem_singleton.mp hw

end Belnet.Dht
