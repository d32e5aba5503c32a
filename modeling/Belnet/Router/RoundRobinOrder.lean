import Belnet.Router.OutboundMessages

/-!
# The order of the paths over runs

`roundRobinOrder` of `OutboundMessageHandler` over every run of `QueueMessage`, `RemovePath` and `Pump`.
-/

namespace Belnet.Router
open List AList

open Iwp (Millis)
open Belnet.Path (PathID RouterID)

namespace OutboundMessageHandler

def Admitted (s : OutboundMessageHandler) (entries : List MessageQueueEntry) (p : PathID) : Prop :=
  (∃ e ∈ entries, e.pathid = p) ∧ s.recentlyRemovedPaths.contains p = false

variable {s : OutboundMessageHandler} {p : PathID} {e : MessageQueueEntry}

lemma admitted_cons {entries : List MessageQueueEntry} :
    s.Admitted (e :: entries) p ↔ (e.pathid = p ∧ s.recentlyRemovedPaths.contains p = false) ∨ s.Admitted entries p := by
  unfold Admitted
  rw [exists_mem_cons_iff, or_and_right]

structure Sorts (s s' : OutboundMessageHandler) : Prop where
  removed : s'.recentlyRemovedPaths = s.recentlyRemovedPaths
  some : s'.removedSomePaths = s.removedSomePaths

lemma doCallback_eq (callback : Option ℕ) (status : SendStatus) (s : OutboundMessageHandler) :
    ∃ informed, s.doCallback callback status = { s with informed := informed } := by
  cases callback with
  | none => exact ⟨s.informed, rfl⟩
  | some => exact ⟨_, rfl⟩

lemma processEntry_spec (h : s.recentlyRemovedPaths.contains e.pathid = false) : Sorts s (s.processEntry e) ∧
    (∀ p, p ∈ (s.processEntry e).outboundMessageQueues ↔ p = e.pathid ∨ p ∈ s.outboundMessageQueues) ∧
    (s.processEntry e).roundRobinOrder =
      s.roundRobinOrder ++ if e.pathid ∉ s.outboundMessageQueues ∧ e.pathid ≠ zeroID then [e.pathid] else [] := by
  unfold processEntry
  rw [if_neg (by rw [h]; exact Bool.false_ne_true)]
  dsimp only
  have hnew : (!decide (e.pathid ∈ s.outboundMessageQueues) && !Path.isZero e.pathid) = true ↔
      e.pathid ∉ s.outboundMessageQueues ∧ e.pathid ≠ zeroID := by
    unfold Path.isZero
    simp
  -- the order is made first, the queue behind it
  by_cases hpath : e.pathid ∉ s.outboundMessageQueues ∧ e.pathid ≠ zeroID
  · rw [if_pos (hnew.mpr hpath), if_pos hpath]
    split
    · exact ⟨⟨rfl, rfl⟩, fun p => mem_insert _, rfl⟩
    obtain ⟨informed, hinformed⟩ := doCallback_eq e.inform .congestion { s with
        roundRobinOrder := s.roundRobinOrder ++ [e.pathid]
        outboundMessageQueues := s.outboundMessageQueues.insert e.pathid (s.queue e.pathid) }
    rw [hinformed]
    exact ⟨⟨rfl, rfl⟩, fun p => mem_insert _, rfl⟩
  · rw [if_neg (fun h => hpath (hnew.mp h)), if_neg hpath, append_nil]
    split
    · exact ⟨⟨rfl, rfl⟩, fun p => mem_insert _, rfl⟩
    obtain ⟨informed, hinformed⟩ := doCallback_eq e.inform .congestion
      { s with outboundMessageQueues := s.outboundMessageQueues.insert e.pathid (s.queue e.pathid) }
    rw [hinformed]
    exact ⟨⟨rfl, rfl⟩, fun p => mem_insert _, rfl⟩

lemma processEntries (entries : List MessageQueueEntry) (s : OutboundMessageHandler) : ∃ news : List PathID,
    Sorts s (entries.foldl processEntry s) ∧
    (entries.foldl processEntry s).roundRobinOrder = s.roundRobinOrder ++ news ∧ news.Nodup ∧
    (∀ p, p ∈ news ↔ p ≠ zeroID ∧ p ∉ s.outboundMessageQueues ∧ s.Admitted entries p) ∧
    ∀ p, p ∈ (entries.foldl processEntry s).outboundMessageQueues ↔ p ∈ s.outboundMessageQueues ∨ s.Admitted entries p := by
  induction entries generalizing s with
  | nil =>
    have hnone : ∀ p, ¬ s.Admitted [] p := fun p h => (h.1.elim fun e he => absurd he.1 not_mem_nil)
    refine ⟨[], ⟨rfl, rfl⟩, (append_nil _).symm, nodup_nil, fun p => ?_, fun p => ?_⟩
    · exact ⟨fun h => absurd h not_mem_nil, fun h => absurd h.2.2 (hnone p)⟩
    · exact ⟨.inl, fun h => h.resolve_right (hnone p)⟩
  | cons e entries ih =>
    rw [foldl_cons]
    by_cases hout : s.recentlyRemovedPaths.contains e.pathid = true
    · -- the message is kept out
      have hsame : s.processEntry e = s := by unfold processEntry; rw [if_pos hout]
      have hadmitted : ∀ p, s.Admitted (e :: entries) p ↔ s.Admitted entries p := by
        intro p
        rw [admitted_cons]
        refine ⟨fun h => h.resolve_left ?_, .inr⟩
        rintro ⟨rfl, hin⟩
        rw [hout] at hin
        cases hin
      simp only [hadmitted, hsame]
      exact ih s
    · have hin : s.recentlyRemovedPaths.contains e.pathid = false := by simpa using hout
      obtain ⟨hsorts, hkeys, horder⟩ := processEntry_spec hin
      obtain ⟨news, hsorts', horder', hnodup, hnews, hkeys'⟩ := ih (s.processEntry e)
      have hadmitted : ∀ p, s.Admitted (e :: entries) p ↔ p = e.pathid ∨ (s.processEntry e).Admitted entries p := by
        intro p
        rw [admitted_cons]
        unfold Admitted
        rw [hsorts.removed]
        refine or_congr_left ⟨fun h => h.1.symm, ?_⟩
        rintro rfl
        exact ⟨rfl, hin⟩
      refine ⟨(if e.pathid ∉ s.outboundMessageQueues ∧ e.pathid ≠ zeroID then [e.pathid] else []) ++ news,
        ⟨hsorts'.removed.trans hsorts.removed, hsorts'.some.trans hsorts.some⟩, ?_, ?_, fun p => ?_, fun p => ?_⟩
      · rw [horder', horder, append_assoc]
      · -- the path of the message is not new any more
        have hnot : e.pathid ∉ news := fun h => ((hnews _).mp h).2.1 ((hkeys _).mpr (.inl rfl))
        split
        · exact nodup_cons.mpr ⟨hnot, hnodup⟩
        · exact hnodup
      · rw [mem_append, hnews, hadmitted, hkeys]
        by_cases hp : p = e.pathid
        · subst hp
          simp
          tauto
        · split
          · simp only [mem_singleton, hp, false_or]
          · simp only [not_mem_nil, hp, false_or]
      · rw [hkeys', hadmitted, hkeys]
        tauto

def sorted (now : Millis) (s : OutboundMessageHandler) : OutboundMessageHandler :=
  ({ s with recentlyRemovedPaths := s.recentlyRemovedPaths.decay now }).processOutboundQueue

def Comes (now : Millis) (s : OutboundMessageHandler) (p : PathID) : Prop :=
  (∃ e ∈ s.outboundQueue, e.pathid = p) ∧ (s.recentlyRemovedPaths.decay now).contains p = false

lemma sorted_spec (now : Millis) (s : OutboundMessageHandler) : ∃ news : List PathID,
    (s.sorted now).roundRobinOrder = s.roundRobinOrder ++ news ∧ news.Nodup ∧
    (∀ p, p ∈ news ↔ p ≠ zeroID ∧ p ∉ s.outboundMessageQueues ∧ s.Comes now p) ∧
    (∀ p, p ∈ (s.sorted now).outboundMessageQueues ↔ p ∈ s.outboundMessageQueues ∨ s.Comes now p) ∧
    (s.sorted now).removedSomePaths = s.removedSomePaths := by
  obtain ⟨news, hsorts, horder, hnodup, hnews, hkeys⟩ := processEntries s.outboundQueue
    { s with recentlyRemovedPaths := s.recentlyRemovedPaths.decay now, outboundQueue := [] }
  exact ⟨news, horder, hnodup, hnews, hkeys, hsorts.some⟩

lemma pump_spec (now : Millis) (s : OutboundMessageHandler) : ∃ s', s.pump now = some (false, s') ∧
    s'.roundRobinOrder.Perm (s.sorted now).turnOrder ∧
    (∀ p, p = zeroID ∨ p ∈ (s.sorted now).outboundMessageQueues → p ∈ s'.outboundMessageQueues) ∧
    ∀ p ∈ s'.outboundMessageQueues, p = zeroID ∨ p ∈ (s.sorted now).outboundMessageQueues ∨ p ∈ (s.sorted now).turnOrder := by
  obtain ⟨_, s', hreturns, hturns, -⟩ := sendRoundRobin_turns (s.sorted now)
  have hready : ∀ p, p ∈ (s.sorted now).sendRouting.removeStale.outboundMessageQueues ↔
      p = zeroID ∨ p ∈ (s.sorted now).outboundMessageQueues := fun p => mem_insert _
  refine ⟨s', hreturns, ?_, fun p hp => hturns.kept p ((hready p).mpr hp), fun p hp => ?_⟩
  · rw [← ready_order]
    exact hturns.order
  rcases hturns.keys p hp with hp | hp
  · exact ((hready p).mp hp).imp_right .inl
  · rw [ready_order] at hp
    exact .inr (.inr hp)

structure Tracked (s : OutboundMessageHandler) : Prop where
  nodup : s.roundRobinOrder.Nodup
  nonzero : ∀ p ∈ s.roundRobinOrder, p ≠ zeroID
  listed : ∀ p ∈ s.outboundMessageQueues, p ≠ zeroID → p ∈ s.roundRobinOrder
  stale : ∀ p ∈ s.roundRobinOrder, p ∈ s.outboundMessageQueues ∨ s.removedSomePaths = true

lemma Listed.tracked (h : s.Listed) : s.Tracked where
  nodup := h.nodup
  nonzero p hp := ((h.mem_iff p).mp hp).1
  listed p hp hne := (h.mem_iff p).mpr ⟨hne, hp⟩
  stale p hp := .inl ((h.mem_iff p).mp hp).2

lemma mem_turnOrder (hne : p ≠ zeroID) :
    p ∈ s.turnOrder ↔ p ∈ s.roundRobinOrder ∧ (s.removedSomePaths = true → p ∈ s.outboundMessageQueues) := by
  unfold turnOrder
  split
  · rename_i hsome
    rw [mem_filter, decide_eq_true_eq]
    exact ⟨fun h => ⟨h.1, fun _ => h.2.resolve_left hne⟩, fun h => ⟨h.1, .inr (h.2 hsome)⟩⟩
  · rename_i hsome
    exact ⟨fun h => ⟨h, fun h' => absurd h' hsome⟩, fun h => h.1⟩

lemma turnOrder_sublist (s : OutboundMessageHandler) : s.turnOrder.Sublist s.roundRobinOrder := by
  unfold turnOrder
  split
  · exact filter_sublist
  · exact .refl _

variable {now : Millis}

lemma not_nodup_of_comes (hs : s.Tracked)
    (hp : p ∈ s.roundRobinOrder) (hgone : p ∉ s.outboundMessageQueues) (hcomes : s.Comes now p) :
    ¬ (s.sorted now).turnOrder.Nodup := by
  obtain ⟨news, horder, -, hnews, hkeys, hsome⟩ := sorted_spec now s
  have hremoved : s.removedSomePaths = true := (hs.stale p hp).resolve_left hgone
  have hnew : p ∈ news := (hnews p).mpr ⟨hs.nonzero p hp, hgone, hcomes⟩
  have hkept : decide (p = zeroID ∨ p ∈ (s.sorted now).outboundMessageQueues) = true :=
    decide_eq_true (.inr ((hkeys p).mpr (.inr hcomes)))
  unfold turnOrder
  rw [if_pos (hsome.trans hremoved), horder, filter_append]
  intro hnodup
  exact disjoint_of_nodup_append hnodup (mem_filter.mpr ⟨hp, hkept⟩) (mem_filter.mpr ⟨hnew, hkept⟩)

def PumpFine (now : Millis) (s : OutboundMessageHandler) : Prop :=
  ∀ e ∈ s.outboundQueue, e.pathid ∈ s.roundRobinOrder → e.pathid ∉ s.outboundMessageQueues →
    (s.recentlyRemovedPaths.decay now).contains e.pathid = true

lemma PumpFine.not_comes (h : PumpFine now s)
    (hp : p ∈ s.roundRobinOrder) (hgone : p ∉ s.outboundMessageQueues) : ¬ s.Comes now p := by
  rintro ⟨⟨e, he, rfl⟩, hin⟩
  rw [h e he hp hgone] at hin
  cases hin

lemma mem_turnOrder_sorted (hs : s.Tracked) (hne : p ≠ zeroID) :
    p ∈ (s.sorted now).turnOrder ↔ p ∈ (s.sorted now).outboundMessageQueues := by
  obtain ⟨_, horder, -, hnews, hkeys, hsome⟩ := sorted_spec now s
  rw [mem_turnOrder hne, horder, mem_append, hsome]
  constructor
  · rintro ⟨hp, hin⟩
    rcases hp with hp | hp
    · exact (hs.stale p hp).elim (fun h => (hkeys p).mpr (.inl h)) hin
    · exact (hkeys p).mpr (.inr ((hnews p).mp hp).2.2)
  · intro hp
    refine ⟨?_, fun _ => hp⟩
    by_cases hold : p ∈ s.outboundMessageQueues
    · exact .inl (hs.listed p hold hne)
    · exact .inr ((hnews p).mpr ⟨hne, hold, ((hkeys p).mp hp).resolve_left hold⟩)

lemma zero_not_mem_turnOrder (hs : s.Tracked) : zeroID ∉ (s.sorted now).turnOrder := by
  obtain ⟨_, horder, -, hnews, -, -⟩ := sorted_spec now s
  intro h
  have hin := (turnOrder_sublist _).subset h
  rw [horder, mem_append] at hin
  rcases hin with hin | hin
  · exact hs.nonzero _ hin rfl
  · exact ((hnews _).mp hin).1 rfl

variable {s' : OutboundMessageHandler}

lemma listed_pump_iff {more : Bool} (hs : s.Tracked)
    (h : s.pump now = some (more, s')) : s'.Listed ↔ PumpFine now s := by
  obtain ⟨_, hpump, hperm, hkept, hkeys⟩ := pump_spec now s
  rw [hpump] at h
  cases h
  constructor
  · intro hlisted e he hp hgone
    by_contra hin
    refine not_nodup_of_comes hs hp hgone ⟨⟨e, he, rfl⟩, by simpa using hin⟩ ?_
    exact hperm.nodup_iff.mp hlisted.nodup
  · intro hfine
    obtain ⟨_, horder, hnodup, hnews, -, -⟩ := sorted_spec now s
    constructor
    · refine hperm.nodup_iff.mpr ((turnOrder_sublist _).nodup ?_)
      rw [horder]
      refine nodup_append.mpr ⟨hs.nodup, hnodup, fun p hp q hq => ?_⟩
      rintro rfl
      obtain ⟨-, hgone, hcomes⟩ := (hnews p).mp hq
      exact hfine.not_comes hp hgone hcomes
    · intro p
      rw [hperm.mem_iff]
      constructor
      · intro hp
        have hne : p ≠ zeroID := by
          rintro rfl
          exact zero_not_mem_turnOrder hs hp
        exact ⟨hne, hkept p (.inr ((mem_turnOrder_sorted hs hne).mp hp))⟩
      · rintro ⟨hne, hp⟩
        rcases hkeys p hp with h | h | h
        · exact absurd h hne
        · exact (mem_turnOrder_sorted hs hne).mpr h
        · exact h

inductive Op where
  | queueMessage (allowed encoded hasSession : Bool) (ent : MessageQueueEntry)
  | removePath (now : Millis) (pathid : PathID)
  | pump (now : Millis)

def step : Op → Bool × OutboundMessageHandler → Except Unit (Bool × OutboundMessageHandler)
  | .queueMessage allowed encoded hasSession ent, (_, s) => .ok (false, (s.queueMessage allowed encoded hasSession ent).2)
  | .removePath now pathid, (_, s) => .ok (false, s.removePath now pathid)
  | .pump now, (_, s) => match s.pump now with
    | some r => .ok (true, r.2)
    | none => .error ()

def ListedWhenPumped (s : Bool × OutboundMessageHandler) : Prop := s.1 = true → s.2.Listed

def Fine : Op → Bool × OutboundMessageHandler → Prop
  | .pump now, s => PumpFine now s.2
  | _, _ => True

lemma Tracked.congr (hs : s.Tracked) (horder : s'.roundRobinOrder = s.roundRobinOrder)
    (hqueues : s'.outboundMessageQueues = s.outboundMessageQueues) (hsome : s'.removedSomePaths = s.removedSomePaths) :
    s'.Tracked where
  nodup := horder ▸ hs.nodup
  nonzero := horder ▸ hs.nonzero
  listed := horder ▸ hqueues ▸ hs.listed
  stale := horder ▸ hqueues ▸ hsome ▸ hs.stale

lemma Tracked.queueMessage (hs : s.Tracked) (allowed encoded hasSession : Bool)
    (ent : MessageQueueEntry) : (s.queueMessage allowed encoded hasSession ent).2.Tracked := by
  have hcallback : ∀ status, (s.doCallback ent.inform status).Tracked := by
    intro status
    obtain ⟨_, h⟩ := doCallback_eq ent.inform status s
    rw [h]
    exact hs.congr rfl rfl rfl
  unfold OutboundMessageHandler.queueMessage queueOutboundMessage
  split
  · exact hcallback _
  split
  · exact hs
  split
  · dsimp only
    split
    · exact hs.congr rfl rfl rfl
    · exact hcallback _
  · exact hs.congr rfl rfl rfl

lemma Tracked.removePath (hs : s.Tracked) (now : Millis) (pathid : PathID) : (s.removePath now pathid).Tracked where
  nodup := hs.nodup
  nonzero := hs.nonzero
  listed p hp := hs.listed p (mem_erase.mp hp).2
  stale _ _ := .inr rfl

variable {s s' : Bool × OutboundMessageHandler}

lemma step_pump (h : step (.pump now) s = .ok s') : s'.1 = true ∧ ∃ more, s.2.pump now = some (more, s'.2) := by
  obtain ⟨_, s⟩ := s
  obtain ⟨r, hr, -⟩ := pump_spec now s
  dsimp only [step] at h
  rw [hr] at h
  cases h
  exact ⟨rfl, false, hr⟩

lemma step_returns (op : Op) (s : Bool × OutboundMessageHandler) (e : Unit) : step op s ≠ .error e := by
  obtain ⟨_, s⟩ := s
  cases op with
  | queueMessage | removePath now => exact nofun
  | _ now =>
    obtain ⟨r, hr, -⟩ := pump_spec now s
    dsimp only [step]
    rw [hr]
    exact nofun

variable {op : Op}

lemma Tracked.step (hs : s.2.Tracked) (h : OutboundMessageHandler.step op s = .ok s')
    (hop : ∀ now, op ≠ .pump now) : s'.2.Tracked ∧ s'.1 = false := by
  obtain ⟨_, s⟩ := s
  cases op with
  | queueMessage allowed encoded hasSession ent =>
    cases h
    exact ⟨hs.queueMessage allowed encoded hasSession ent, rfl⟩
  | removePath now pathid =>
    cases h
    exact ⟨hs.removePath now pathid, rfl⟩
  | pump now => exact absurd rfl (hop now)

lemma tracked_step_iff (hs : s.2.Tracked) (h : step op s = .ok s') :
    s'.2.Tracked ∧ ListedWhenPumped s' ↔ Fine op s := by
  cases op with
  | pump now =>
    obtain ⟨hpumped, _, hpump⟩ := step_pump h
    have hiff := listed_pump_iff hs hpump
    exact ⟨fun h => hiff.mp (h.2 hpumped), fun h => ⟨(hiff.mpr h).tracked, fun _ => hiff.mpr h⟩⟩
  | queueMessage | removePath now =>
    obtain ⟨htracked, hpumped⟩ := hs.step h nofun
    exact iff_of_true ⟨htracked, fun h => by rw [hpumped] at h; cases h⟩ trivial

lemma tracked_of_listed (hs : s.2.Tracked) (h : step op s = .ok s') (hlisted : ListedWhenPumped s') : s'.2.Tracked := by
  cases op with
  | pump now => exact (hlisted (step_pump h).1).tracked
  | queueMessage | removePath now => exact (hs.step h nofun).1

lemma tracked_init (maxQueueSize : ℕ) : (init maxQueueSize).Tracked where
  nodup := nodup_nil
  nonzero _ hp := absurd hp not_mem_nil
  listed _ hp hne := absurd (mem_singleton.mp hp) hne
  stale _ hp := absurd hp not_mem_nil

/-- Behind every `Pump` the order lists the paths that have a queue, once each, exactly if no `Pump` finds a message
for a path removed since the last one and not in `recentlyRemovedPaths` any more. -/
theorem order_kept_iff (maxQueueSize : ℕ) (ops : List Op) :
    Run.Always step ListedWhenPumped ops (false, init maxQueueSize) ↔ Run.Obeys step Fine ops (false, init maxQueueSize) := by
  have hinit := tracked_init maxQueueSize
  have hstart : ListedWhenPumped (false, init maxQueueSize) := nofun
  rw [Run.always_congr (J := fun _ => True) (Q := fun s => s.2.Tracked ∧ ListedWhenPumped s) (fun _ _ _ _ _ => trivial)
    (fun s _ hs => hs.2) (fun _ _ _ _ hs h hs' => ⟨tracked_of_listed hs.1 h hs', hs'⟩) ops _ trivial ⟨hinit, hstart⟩]
  exact Run.always_iff_obeys (J := fun _ => True) (fun _ _ _ _ _ => trivial) (fun op s e h => absurd h (step_returns op s e))
    (fun _ _ _ _ hs => tracked_step_iff hs.1) ops _ trivial ⟨hinit, hstart⟩

/-- A message, the path is removed, and five seconds later, before the next pump, one more: the path is twice in the
order. -/
theorem path_twice : ∃ s, Run.exec step
    [.queueMessage true true true (exampleMessage 0), .pump 1000, .removePath 2000 (examplePath 0),
     .queueMessage true true true (exampleMessage 0), .pump 7000] (false, init maxOutboundQueueSize) = .ok (true, s) ∧
    s.roundRobinOrder = [examplePath 0, examplePath 0] := ⟨_, rfl, rfl⟩

end OutboundMessageHandler

end Belnet.Router
