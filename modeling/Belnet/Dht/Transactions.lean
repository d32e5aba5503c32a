import Belnet.Dht.TXHolder
import Belnet.Lib.Run

/-!
# Transactions whose replies add transactions

`TXHolder` again, where `SendReply` may call `NewTX` while `Inform` goes over the transactions of a key.
-/

namespace Belnet.Dht
open Iwp List AList TXHolder Option

/-- where `emplace` puts a transaction of the key that is gone over -/
inductive Place where
  | before
  | after
  | rehash
deriving DecidableEq

inductive IteratorFault where
  | invalidated

structure Request (T : Type) where
  askpeer : TXOwner
  t : T
  timeout : Millis
  place : Place

inductive TXEvent (T : Type) where
  | added (o : TXOwner) (t : T) (others : List TXOwner)
  | started (o : TXOwner)
  | replied (o : TXOwner)
deriving DecidableEq

def replies {T : Type} (o : TXOwner) (log : List (TXEvent T)) : ℕ :=
  log.countP fun
    | .replied o' => o' = o
    | _ => false

structure Book (K T : Type) [DecidableEq K] where
  holder : TXHolder K T := {}
  log : List (TXEvent T) := []

namespace Book
variable {K T : Type} [DecidableEq K] (key : T → K) (now : Millis)

def newTX (r : Request T) (b : Book K T) : Book K T :=
  let h := b.holder.newTX now r.askpeer (key r.t) r.t r.timeout
  { holder := h.1
    log := b.log ++ .added r.askpeer r.t (b.holder.waitingFor (key r.t)) :: if h.2 then [.started r.askpeer] else [] }

def nested (k : K) (x : Book K T × List TXOwner) (r : Request T) : Except IteratorFault (Book K T × List TXOwner) :=
  match r.place with
  | .rehash => .error .invalidated
  | .before => .ok (newTX key now r x.1, x.2)
  | .after => .ok (newTX key now r x.1, if key r.t = k then x.2 ++ [r.askpeer] else x.2)

def replied (o : TXOwner) (b : Book K T) : Book K T := { b with log := b.log ++ [.replied o] }

def eraseTX (o : TXOwner) (b : Book K T) : Book K T :=
  { b with holder := { b.holder with tx := b.holder.tx.erase o } }

def visit (k : K) (calls : List (Request T)) (o : TXOwner) (q : List TXOwner) (b : Book K T) :
    Except IteratorFault (Book K T × List TXOwner) := do
  let x ← calls.foldlM (nested key now k) (b.replied o, q)
  return (x.1.eraseTX o, x.2)

def next (h : TXHolder K T) : List TXOwner → Option (TXOwner × List TXOwner)
  | [] => none
  | o :: q => if (h.tx.lookup o).isSome then some (o, q) else next h q

def drain (q : List TXOwner) (b : Book K T) : Book K T :=
  q.foldl (fun b o => if (b.holder.tx.lookup o).isSome then (b.replied o).eraseTX o else b) b

def loop (k : K) : List (List (Request T)) → List TXOwner → Book K T → Except IteratorFault (Book K T)
  | [], q, b => .ok (drain q b)
  | calls :: script, q, b =>
    match next b.holder q with
    | none => .ok b
    | some (o, q) => do
      let x ← visit key now k calls o q b
      loop k script x.2 x.1

def eraseKey (k : K) (b : Book K T) : Book K T :=
  { b with holder := { b.holder with
      waiting := b.holder.waiting.filter fun w => w.1 ≠ k
      timeouts := b.holder.timeouts.erase k } }

def inform (k : K) (script : List (List (Request T))) (b : Book K T) : Except IteratorFault (Book K T) := do
  let b ← loop key now k script (b.holder.waitingFor k) b
  return b.eraseKey k

def expireOne (b : Book K T) (v : K × List (List (Request T))) : Except IteratorFault (Book K T) :=
  match b.holder.timeouts.lookup v.1 with
  | some t => if t ≤ now then inform key now v.1 v.2 b else .ok b
  | none => .ok b

inductive Op (K T : Type) where
  | newTX (now : Millis) (r : Request T)
  | found (now : Millis) (k : K) (script : List (List (Request T)))
  | notFound (now : Millis) (owner : TXOwner) (script : List (List (Request T)))
  | expire (now : Millis) (visits : List (K × List (List (Request T))))

def step (op : Op K T) (b : Book K T) : Except IteratorFault (Book K T) :=
  match op with
  | .newTX now r => .ok (newTX key now r b)
  | .found now k script => inform key now k script b
  | .notFound now owner script =>
    match b.holder.tx.lookup owner with
    | none => .ok b
    | some t => inform key now (key t) script b
  | .expire now visits => visits.foldlM (expireOne key now) b

def Op.requests : Op K T → List (Request T)
  | .newTX _ r => [r]
  | .found _ _ script => script.flatten
  | .notFound _ _ script => script.flatten
  | .expire _ visits => visits.flatMap fun v => v.2.flatten

def Fresh (rs : List (Request T)) (b : Book K T) : Prop :=
  (rs.map Request.askpeer).Nodup ∧ ∀ r ∈ rs, ∀ t others, .added r.askpeer t others ∉ b.log

/-- The calls within replies for the key `k` do not lead to a rehash, and what they add for `k` itself is still
visited. -/
def Tame (k : K) (script : List (List (Request T))) : Prop :=
  ∀ r ∈ script.flatten, r.place ≠ .rehash ∧ (key r.t = k → r.place = .after)

def Allowed (op : Op K T) (b : Book K T) : Prop :=
  Fresh op.requests b ∧
  match op with
  | .newTX _ _ => True
  | .found _ k script => Tame key k script
  | .notFound _ owner script => ∀ t, b.holder.tx.lookup owner = some t → Tame key (key t) script
  | .expire _ visits => ∀ v ∈ visits, Tame key v.1 v.2

variable {key now} {b : Book K T} {cur : Option TXOwner} {o : TXOwner} {k : K} {t : T} {r : Request T}

structure Sound (key : T → K) (cur : Option TXOwner) (b : Book K T) : Prop where
  keyed : ∀ k o t, (k, o) ∈ b.holder.waiting → b.holder.tx.lookup o = some t → key t = k
  waits : ∀ o t, b.holder.tx.lookup o = some t → (key t, o) ∈ b.holder.waiting
  timed : ∀ k o, (k, o) ∈ b.holder.waiting → k ∈ b.holder.timeouts
  started : ∀ k o, (k, o) ∈ b.holder.waiting → ∃ o', (k, o') ∈ b.holder.waiting ∧ .started o' ∈ b.log
  begun : ∀ o t others, .added o t others ∈ b.log → .started o ∈ b.log ∨ ∃ o' ∈ others, .started o' ∈ b.log
  known : ∀ w ∈ b.holder.waiting, ∃ t others, .added w.2 t others ∈ b.log
  once : ∀ o t others, .added o t others ∈ b.log →
    replies o b.log = if (b.holder.tx.lookup o).isSome ∧ cur ≠ some o then 0 else 1
  replied : ∀ o, .replied o ∈ b.log → ∃ t others, .added o t others ∈ b.log
  current : ∀ o, cur = some o → .replied o ∈ b.log

lemma replies_eq_zero {log : List (TXEvent T)} (h : .replied o ∉ log) : replies o log = 0 := by
  refine countP_eq_zero.mpr fun e he => ?_
  cases e with
  | replied o' =>
    have hne : o' ≠ o := by
      rintro rfl
      exact h he
    simpa using hne
  | added | started => simp

lemma Sound.fresh (hs : b.Sound key cur) (hr : ∀ t others, .added r.askpeer t others ∉ b.log) :
    b.holder.tx.lookup r.askpeer = none ∧ ∀ w ∈ b.holder.waiting, w.2 ≠ r.askpeer := by
  have hne : ∀ w ∈ b.holder.waiting, w.2 ≠ r.askpeer := by
    intro w hw heq
    obtain ⟨t, others, hadded⟩ := hs.known w hw
    rw [heq] at hadded
    exact hr t others hadded
  refine ⟨?_, hne⟩
  cases ht : b.holder.tx.lookup r.askpeer with
  | none => rfl
  | some t => exact absurd rfl (hne _ (hs.waits _ t ht))

lemma newTX_lookup (hnone : b.holder.tx.lookup r.askpeer = none) (o : TXOwner) :
    (newTX key now r b).holder.tx.lookup o = if o = r.askpeer then some r.t else b.holder.tx.lookup o := by
  show (b.holder.newTX now r.askpeer (key r.t) r.t r.timeout).1.tx.lookup o = _
  unfold TXHolder.newTX
  rw [hnone]
  by_cases ho : o = r.askpeer
  · rw [if_pos ho, ho, lookup_insert]
  · rw [if_neg ho, lookup_insert_ne ho]

lemma newTX_waiting (w : K × TXOwner) :
    w ∈ (newTX key now r b).holder.waiting ↔ w ∈ b.holder.waiting ∨ w = (key r.t, r.askpeer) := by
  show w ∈ b.holder.waiting ++ [(key r.t, r.askpeer)] ↔ _
  rw [mem_append, mem_singleton]

lemma newTX_timeouts (k : K) : k ∈ (newTX key now r b).holder.timeouts ↔ k = key r.t ∨ k ∈ b.holder.timeouts := by
  show k ∈ (match b.holder.timeouts.lookup (key r.t) with | some _ => b.holder.timeouts | none => _) ↔ _
  cases hk : b.holder.timeouts.lookup (key r.t) with
  | some =>
    refine ⟨.inr, fun h => h.elim (fun heq => ?_) id⟩
    rw [heq]
    exact lookup_isSome.mp (by rw [hk]; rfl)
  | none => exact mem_insert _

lemma newTX_log : (newTX key now r b).log = b.log ++ .added r.askpeer r.t (b.holder.waitingFor (key r.t)) ::
    if (b.holder.waitingFor (key r.t)).isEmpty then [.started r.askpeer] else [] := rfl

variable {e : TXEvent T}

lemma mem_newTX_log (he : e ∈ (newTX key now r b).log) :
    e ∈ b.log ∨ e = .added r.askpeer r.t (b.holder.waitingFor (key r.t)) ∨ e = .started r.askpeer := by
  rcases mem_append.mp he with he | he
  · exact .inl he
  rcases mem_cons.mp he with he | he
  · exact .inr (.inl he)
  split at he
  · exact .inr (.inr (mem_singleton.mp he))
  · exact absurd he not_mem_nil

lemma newTX_log_mono (he : e ∈ b.log) : e ∈ (newTX key now r b).log := by exact mem_append_left _ he

lemma newTX_replies (o : TXOwner) : replies o (newTX key now r b).log = replies o b.log := by
  rw [newTX_log]
  unfold replies
  split <;> simp

lemma newTX_begun (now : Millis) (hs : b.Sound key cur) : .started r.askpeer ∈ (newTX key now r b).log ∨
    ∃ o' ∈ b.holder.waitingFor (key r.t), .started o' ∈ b.log := by
  cases hempty : b.holder.waitingFor (key r.t) with
  | nil =>
    left
    rw [newTX_log, hempty]
    simp
  | cons o =>
    right
    have ho : o ∈ b.holder.waitingFor (key r.t) := by
      rw [hempty]
      exact mem_cons_self
    obtain ⟨o', ho', hstarted⟩ := hs.started _ _ (mem_waitingFor.mp ho)
    rw [← hempty]
    exact ⟨o', mem_waitingFor.mpr ho', hstarted⟩

lemma newTX_sound (hs : b.Sound key cur) (hr : ∀ t others, .added r.askpeer t others ∉ b.log) :
    (newTX key now r b).Sound key cur := by
  obtain ⟨hnone, hne⟩ := hs.fresh hr
  constructor
  · intro k o t hw ht
    rw [newTX_lookup hnone] at ht
    rcases (newTX_waiting _).mp hw with hw | hw
    · rw [if_neg (hne _ hw)] at ht
      exact hs.keyed k o t hw ht
    cases hw
    rw [if_pos rfl] at ht
    cases ht
    rfl
  · intro o t ht
    rw [newTX_lookup hnone] at ht
    split at ht
    · rename_i ho
      cases ht
      rw [ho]
      exact (newTX_waiting _).mpr (.inr rfl)
    · exact (newTX_waiting _).mpr (.inl (hs.waits o t ht))
  · intro k o hw
    rw [newTX_timeouts]
    rcases (newTX_waiting _).mp hw with hw | hw
    · exact .inr (hs.timed k o hw)
    · cases hw
      exact .inl rfl
  · intro k o hw
    rcases (newTX_waiting _).mp hw with hw | hw
    · obtain ⟨o', ho', hstarted⟩ := hs.started k o hw
      exact ⟨o', (newTX_waiting _).mpr (.inl ho'), newTX_log_mono hstarted⟩
    cases hw
    rcases newTX_begun now (r := r) hs with hstarted | ⟨o', ho', hstarted⟩
    · exact ⟨r.askpeer, (newTX_waiting _).mpr (.inr rfl), hstarted⟩
    · exact ⟨o', (newTX_waiting _).mpr (.inl (mem_waitingFor.mp ho')), newTX_log_mono hstarted⟩
  · intro o t others hadded
    rcases mem_newTX_log hadded with hadded | hadded | hadded
    · exact (hs.begun o t others hadded).imp newTX_log_mono fun ⟨o', ho', h⟩ => ⟨o', ho', newTX_log_mono h⟩
    · cases hadded
      exact (newTX_begun now hs).imp id fun ⟨o', ho', h⟩ => ⟨o', ho', newTX_log_mono h⟩
    · cases hadded
  · intro w hw
    rcases (newTX_waiting _).mp hw with hw | rfl
    · obtain ⟨t, others, hadded⟩ := hs.known w hw
      exact ⟨t, others, newTX_log_mono hadded⟩
    · refine ⟨r.t, b.holder.waitingFor (key r.t), ?_⟩
      exact mem_append_right _ mem_cons_self
  · intro o t others hadded
    rw [newTX_replies, newTX_lookup hnone]
    rcases mem_newTX_log hadded with hadded | hadded | hadded
    · have hne : o ≠ r.askpeer := by
        rintro rfl
        exact hr t others hadded
      rw [if_neg hne]
      exact hs.once o t others hadded
    · cases hadded
      have hnever : .replied r.askpeer ∉ b.log := by
        intro hmem
        obtain ⟨t, others, hadded⟩ := hs.replied _ hmem
        exact hr t others hadded
      have hcur : cur ≠ some r.askpeer := fun hcur => hnever (hs.current _ hcur)
      rw [if_pos rfl, if_pos ⟨rfl, hcur⟩]
      exact replies_eq_zero hnever
    · cases hadded
  · intro o ho
    rcases mem_newTX_log ho with ho | ho | ho
    · obtain ⟨t, others, hadded⟩ := hs.replied o ho
      exact ⟨t, others, newTX_log_mono hadded⟩
    · cases ho
    · cases ho
  · exact fun o hcur => newTX_log_mono (hs.current o hcur)

lemma mem_replied : e ∈ (b.replied o).log ↔ e ∈ b.log ∨ e = .replied o := by
  show e ∈ b.log ++ [.replied o] ↔ _
  rw [mem_append, mem_singleton]

lemma replies_replied (o' : TXOwner) : replies o' (b.replied o).log = replies o' b.log + if o = o' then 1 else 0 := by
  show replies o' (b.log ++ [.replied o]) = _
  unfold replies
  by_cases ho : o = o' <;> simp [ho]

lemma replied_sound (hs : b.Sound key none) (ht : b.holder.tx.lookup o = some t) :
    (b.replied o).Sound key (some o) where
  keyed := hs.keyed
  waits := hs.waits
  timed := hs.timed
  started := by
    intro k o' hw
    obtain ⟨o'', ho'', hstarted⟩ := hs.started k o' hw
    exact ⟨o'', ho'', mem_replied.mpr (.inl hstarted)⟩
  begun := by
    intro o' t' others hadded
    rcases mem_replied.mp hadded with hadded | hadded
    · exact (hs.begun o' t' others hadded).imp (fun h => mem_replied.mpr (.inl h))
        fun ⟨o'', ho'', h⟩ => ⟨o'', ho'', mem_replied.mpr (.inl h)⟩
    · cases hadded
  known := by
    intro w hw
    obtain ⟨t', others, hadded⟩ := hs.known w hw
    exact ⟨t', others, mem_replied.mpr (.inl hadded)⟩
  once := by
    intro o' t' others hadded
    rcases mem_replied.mp hadded with hadded | hadded
    · rw [replies_replied, hs.once o' t' others hadded]
      show _ = if (b.holder.tx.lookup o').isSome ∧ some o ≠ some o' then 0 else 1
      by_cases ho : o = o'
      · subst ho
        simp [ht]
      · simp [ho]
    · cases hadded
  replied := by
    intro o' ho'
    rcases mem_replied.mp ho' with ho' | ho'
    · obtain ⟨t', others, hadded⟩ := hs.replied o' ho'
      exact ⟨t', others, mem_replied.mpr (.inl hadded)⟩
    cases ho'
    obtain ⟨t', others, hadded⟩ := hs.known _ (hs.waits o t ht)
    exact ⟨t', others, mem_replied.mpr (.inl hadded)⟩
  current := by
    rintro o' ⟨⟩
    exact mem_replied.mpr (.inr rfl)

lemma eraseTX_lookup (o' : TXOwner) :
    (b.eraseTX o).holder.tx.lookup o' = if o' = o then none else b.holder.tx.lookup o' := by
  show (b.holder.tx.erase o).lookup o' = _
  by_cases ho : o' = o
  · rw [if_pos ho, ho, lookup_erase]
  · rw [if_neg ho, lookup_erase_ne ho]

lemma eraseTX_keeps {o' : TXOwner} (ht : (b.eraseTX o).holder.tx.lookup o' = some t) :
    o' ≠ o ∧ b.holder.tx.lookup o' = some t := by
  rw [eraseTX_lookup] at ht
  split at ht
  · cases ht
  · rename_i hne
    exact ⟨hne, ht⟩

lemma eraseTX_sound (hs : b.Sound key (some o)) : (b.eraseTX o).Sound key none where
  keyed := fun k o' t' hw ht' => hs.keyed k o' t' hw (eraseTX_keeps ht').2
  waits := fun o' t' ht' => hs.waits o' t' (eraseTX_keeps ht').2
  timed := hs.timed
  started := hs.started
  begun := hs.begun
  known := hs.known
  once := by
    intro o' t' others hadded
    have honce := hs.once o' t' others hadded
    show replies o' b.log = _
    rw [eraseTX_lookup]
    by_cases ho : o' = o
    · subst ho
      simpa using honce
    have hne : some o ≠ some o' := fun h => ho (some.inj h).symm
    rw [if_neg ho]
    simpa [hne] using honce
  replied := hs.replied
  current := fun _ h => (nomatch h)

def Covers (key : T → K) (cur : Option TXOwner) (k : K) (q : List TXOwner) (b : Book K T) : Prop :=
  ∀ o t, b.holder.tx.lookup o = some t → key t = k → cur ≠ some o → o ∈ q

lemma Fresh.cons {rs : List (Request T)} (hf : Fresh (r :: rs) b) : Fresh rs (newTX key now r b) := by
  obtain ⟨hnodup, hnew⟩ := hf
  obtain ⟨hnotMem, hnodup⟩ := nodup_cons.mp hnodup
  refine ⟨hnodup, fun r' hr' t others hadded => ?_⟩
  rcases mem_newTX_log hadded with hadded | hadded | hadded
  · exact hnew r' (mem_cons_of_mem _ hr') t others hadded
  · exact hnotMem (mem_map.mpr ⟨r', hr', (TXEvent.added.inj hadded).1⟩)
  · cases hadded

variable {q : List TXOwner}

section
variable (now : Millis)

lemma nested_ok (hs : b.Sound key cur) (hr : ∀ t others, .added r.askpeer t others ∉ b.log)
    (hc : Covers key cur k q b) (hplace : r.place ≠ .rehash) (hafter : key r.t = k → r.place = .after) :
    ∃ q', nested key now k (b, q) r = .ok (newTX key now r b, q') ∧ Covers key cur k q' (newTX key now r b) := by
  obtain ⟨hnone, -⟩ := hs.fresh hr
  have hcovers {q' : List TXOwner} (hsub : ∀ o ∈ q, o ∈ q') (hnew : key r.t = k → r.askpeer ∈ q') :
      Covers key cur k q' (newTX key now r b) := by
    intro o t ht hkey hcur
    rw [newTX_lookup hnone] at ht
    split at ht
    · rename_i ho
      cases ht
      rw [ho]
      exact hnew hkey
    · exact hsub o (hc o t ht hkey hcur)
  unfold nested
  cases hp : r.place with
  | rehash => exact absurd hp hplace
  | before =>
    refine ⟨q, rfl, hcovers (fun o ho => ho) fun hkey => ?_⟩
    cases hp.symm.trans (hafter hkey)
  | after =>
    refine ⟨_, rfl, hcovers (fun o ho => ?_) fun hkey => ?_⟩
    · split
      · exact mem_append_left _ ho
      · exact ho
    · rw [if_pos hkey]
      exact mem_append_right _ (mem_singleton.mpr rfl)

lemma calls_ok (calls rest : List (Request T)) (hs : b.Sound key cur)
    (hf : Fresh (calls ++ rest) b) (hc : Covers key cur k q b)
    (htame : ∀ r ∈ calls, r.place ≠ .rehash ∧ (key r.t = k → r.place = .after)) :
    ∃ b' q', calls.foldlM (nested key now k) (b, q) = .ok (b', q') ∧ b'.Sound key cur ∧ Covers key cur k q' b' ∧
      Fresh rest b' := by
  induction calls generalizing b q with
  | nil => exact ⟨b, q, rfl, hs, hc, hf⟩
  | cons r calls ih =>
    obtain ⟨⟨hplace, hafter⟩, htame⟩ := forall_mem_cons.mp htame
    have hnew := hf.2 r mem_cons_self
    obtain ⟨q', hnested, hc'⟩ := nested_ok now hs hnew hc hplace hafter
    rw [foldlM_cons, hnested]
    exact ih (newTX_sound hs hnew) hf.cons hc' htame

lemma visit_ok (calls rest : List (Request T)) (hs : b.Sound key none)
    (hf : Fresh (calls ++ rest) b) (ht : b.holder.tx.lookup o = some t)
    (hc : ∀ o' t', b.holder.tx.lookup o' = some t' → key t' = k → o' = o ∨ o' ∈ q)
    (htame : ∀ r ∈ calls, r.place ≠ .rehash ∧ (key r.t = k → r.place = .after)) :
    ∃ b' q', visit key now k calls o q b = .ok (b', q') ∧ b'.Sound key none ∧ Covers key none k q' b' ∧
      Fresh rest b' := by
  have hf' : Fresh (calls ++ rest) (b.replied o) := by
    refine ⟨hf.1, fun r hr t' others hadded => ?_⟩
    rcases mem_replied.mp hadded with hadded | hadded
    · exact hf.2 r hr t' others hadded
    · cases hadded
  have hc' : Covers key (some o) k q (b.replied o) := by
    intro o' t' ht' hkey hcur
    exact (hc o' t' ht' hkey).resolve_left fun h => hcur (by rw [h])
  obtain ⟨b', q', hcalls, hs', hcov, hfresh⟩ := calls_ok now calls rest (replied_sound hs ht) hf' hc' htame
  refine ⟨b'.eraseTX o, q', ?_, eraseTX_sound hs', ?_, hfresh⟩
  · unfold visit
    rw [hcalls]
    rfl
  · intro o' t' ht' hkey _
    obtain ⟨hne, ht'⟩ := eraseTX_keeps ht'
    exact hcov o' t' ht' hkey fun h => hne (some.inj h).symm

variable {h : TXHolder K T}

lemma next_some {q' : List TXOwner} (hn : next h q = some (o, q')) :
    (h.tx.lookup o).isSome ∧ ∀ o' ∈ q, (h.tx.lookup o').isSome → o' = o ∨ o' ∈ q' := by
  induction q with
  | nil => cases hn
  | cons o₁ q ih =>
    unfold next at hn
    split at hn
    · rename_i hsome
      cases hn
      exact ⟨hsome, fun o' ho' _ => mem_cons.mp ho'⟩
    rename_i hnone
    obtain ⟨hsome, hrest⟩ := ih hn
    refine ⟨hsome, fun o' ho' hsome' => ?_⟩
    rcases mem_cons.mp ho' with rfl | ho'
    · exact absurd hsome' hnone
    · exact hrest o' ho' hsome'

lemma next_none (hn : next h q = none) : ∀ o ∈ q, h.tx.lookup o = none := by
  induction q with
  | nil => exact fun o ho => absurd ho not_mem_nil
  | cons o₁ q ih =>
    unfold next at hn
    split at hn
    · cases hn
    rename_i hnone
    intro o ho
    rcases mem_cons.mp ho with rfl | ho
    · exact not_isSome_iff_eq_none.mp hnone
    · exact ih hn o ho

def Done (key : T → K) (k : K) (b : Book K T) : Prop := ∀ o t, b.holder.tx.lookup o = some t → key t ≠ k

lemma drain_ok (rest : List (Request T)) (q : List TXOwner) (hs : b.Sound key none) (hc : Covers key none k q b)
    (hf : Fresh rest b) : (drain q b).Sound key none ∧ Done key k (drain q b) ∧ Fresh rest (drain q b) := by
  induction q generalizing b with
  | nil =>
    refine ⟨hs, fun o t ht hkey => ?_, hf⟩
    exact absurd (hc o t ht hkey (by simp)) not_mem_nil
  | cons o q ih =>
    unfold drain
    rw [foldl_cons]
    split
    · rename_i hsome
      obtain ⟨t, ht⟩ := isSome_iff_exists.mp hsome
      obtain ⟨_, _, hvisit, hs', hc', hf'⟩ := visit_ok 0 (k := k) (q := q) [] rest hs hf ht
        (fun o' t' ht' hkey => mem_cons.mp (hc o' t' ht' hkey (by simp))) fun r hr => absurd hr not_mem_nil
      cases hvisit
      exact ih hs' hc' hf'
    · rename_i hnone
      refine ih hs (fun o' t' ht' hkey hcur => ?_) hf
      rcases mem_cons.mp (hc o' t' ht' hkey hcur) with rfl | ho'
      · rw [ht'] at hnone
        exact absurd rfl hnone
      · exact ho'

lemma loop_ok (script : List (List (Request T))) (rest : List (Request T))
    (hs : b.Sound key none) (hc : Covers key none k q b) (hf : Fresh (script.flatten ++ rest) b)
    (htame : Tame key k script) :
    ∃ b', loop key now k script q b = .ok b' ∧ b'.Sound key none ∧ Done key k b' ∧ Fresh rest b' := by
  induction script generalizing b q with
  | nil =>
    obtain ⟨hs', hdone, hf'⟩ := drain_ok rest q hs hc hf
    exact ⟨_, rfl, hs', hdone, hf'⟩
  | cons calls script ih =>
    rw [flatten_cons, append_assoc] at hf
    have htame' := htame
    unfold loop
    cases hn : next b.holder q with
    | none =>
      refine ⟨b, rfl, hs, fun o t ht hkey => ?_, ?_⟩
      · have hnone := next_none hn o (hc o t ht hkey (by simp))
        rw [hnone] at ht
        cases ht
      obtain ⟨hnodup, hnew⟩ := hf
      rw [← append_assoc, map_append] at hnodup
      exact ⟨(nodup_append.mp hnodup).2.1, fun r hr =>
        hnew r (mem_append_right _ (mem_append_right _ hr))⟩
    | some x =>
      obtain ⟨o, q'⟩ := x
      obtain ⟨hsome, hrest⟩ := next_some hn
      obtain ⟨t, ht⟩ := isSome_iff_exists.mp hsome
      obtain ⟨b', _, hvisit, hs', hc', hf'⟩ := visit_ok now (k := k) (q := q') calls _ hs hf ht
        (fun o' t' ht' hkey => hrest o' (hc o' t' ht' hkey (by simp)) (by rw [ht']; rfl))
        fun r hr => htame' r (mem_append_left _ hr)
      dsimp only
      rw [hvisit]
      exact ih hs' hc' hf' fun r hr => htame' r (mem_append_right _ hr)

lemma eraseKey_sound (hs : b.Sound key none) (hdone : Done key k b) : (b.eraseKey k).Sound key none := by
  have hmem (w : K × TXOwner) : w ∈ (b.eraseKey k).holder.waiting ↔ w ∈ b.holder.waiting ∧ w.1 ≠ k := by
    show w ∈ b.holder.waiting.filter _ ↔ _
    simp
  constructor
  · exact fun k' o t hw => hs.keyed k' o t ((hmem _).mp hw).1
  · exact fun o t ht => (hmem _).mpr ⟨hs.waits o t ht, hdone o t ht⟩
  · intro k' o hw
    obtain ⟨hw, hne⟩ := (hmem _).mp hw
    exact mem_erase.mpr ⟨hne, hs.timed k' o hw⟩
  · intro k' o hw
    obtain ⟨hw, hne⟩ := (hmem _).mp hw
    obtain ⟨o', ho', hstarted⟩ := hs.started k' o hw
    exact ⟨o', (hmem _).mpr ⟨ho', hne⟩, hstarted⟩
  · exact hs.begun
  · exact fun w hw => hs.known w ((hmem _).mp hw).1
  · exact hs.once
  · exact hs.replied
  · exact hs.current

lemma inform_ok (script : List (List (Request T))) (rest : List (Request T)) (hs : b.Sound key none)
    (hf : Fresh (script.flatten ++ rest) b) (htame : Tame key k script) :
    ∃ b', inform key now k script b = .ok b' ∧ b'.Sound key none ∧ Fresh rest b' := by
  have hc : Covers key none k (b.holder.waitingFor k) b := by
    intro o t ht hkey _
    have hw := hs.waits o t ht
    rw [hkey] at hw
    exact mem_waitingFor.mpr hw
  obtain ⟨b', hloop, hs', hdone, hf'⟩ := loop_ok now script rest hs hc hf htame
  refine ⟨b'.eraseKey k, ?_, eraseKey_sound hs' hdone, hf'⟩
  unfold inform
  rw [hloop]
  rfl

lemma Fresh.of_append {rs rs' : List (Request T)} (hf : Fresh (rs ++ rs') b) : Fresh rs' b := by
  obtain ⟨hnodup, hnew⟩ := hf
  rw [map_append] at hnodup
  exact ⟨(nodup_append.mp hnodup).2.1, fun r hr => hnew r (mem_append_right _ hr)⟩

lemma expire_ok (visits : List (K × List (List (Request T)))) (hs : b.Sound key none)
    (hf : Fresh (visits.flatMap fun v => v.2.flatten) b) (htame : ∀ v ∈ visits, Tame key v.1 v.2) :
    ∃ b', visits.foldlM (expireOne key now) b = .ok b' ∧ b'.Sound key none := by
  induction visits generalizing b with
  | nil => exact ⟨b, rfl, hs⟩
  | cons v visits ih =>
    obtain ⟨htame, htames⟩ := forall_mem_cons.mp htame
    have hone : ∃ b', expireOne key now b v = .ok b' ∧ b'.Sound key none ∧
        Fresh (visits.flatMap fun v => v.2.flatten) b' := by
      unfold expireOne
      split
      · split
        · exact inform_ok now v.2 _ hs hf htame
        · exact ⟨b, rfl, hs, hf.of_append⟩
      · exact ⟨b, rfl, hs, hf.of_append⟩
    obtain ⟨b', hstep, hs', hf'⟩ := hone
    rw [foldlM_cons, hstep]
    exact ih hs' hf' htames

end

lemma step_ok {op : Op K T} (hs : b.Sound key none) (hop : Allowed key op b) :
    ∃ b', step key op b = .ok b' ∧ b'.Sound key none := by
  obtain ⟨hf, htame⟩ := hop
  have hinform {k : K} {now : Millis} {script : List (List (Request T))} (hf : Fresh script.flatten b)
      (htame : Tame key k script) : ∃ b', inform key now k script b = .ok b' ∧ b'.Sound key none := by
    obtain ⟨b', hstep, hs', -⟩ := inform_ok now script [] hs (by rwa [append_nil]) htame
    exact ⟨b', hstep, hs'⟩
  cases op with
  | newTX now r => exact ⟨_, rfl, newTX_sound hs (hf.2 r (mem_singleton.mpr rfl))⟩
  | found now k script => exact hinform hf htame
  | notFound now owner script =>
    cases ht : b.holder.tx.lookup owner with
    | none =>
      refine ⟨b, ?_, hs⟩
      unfold step
      dsimp only
      rw [ht]
    | some t =>
      obtain ⟨b', hstep, hs'⟩ := hinform hf (htame t ht)
      refine ⟨b', ?_, hs'⟩
      unfold step
      dsimp only
      rw [ht]
      exact hstep
  | expire now visits => exact expire_ok now visits hs hf htame

lemma start_sound : ({} : Book K T).Sound key none where
  keyed := fun _ _ _ hw => absurd hw not_mem_nil
  waits := fun _ _ ht => (nomatch ht)
  timed := fun _ _ hw => absurd hw not_mem_nil
  started := fun _ _ hw => absurd hw not_mem_nil
  begun := fun _ _ _ h => absurd h not_mem_nil
  known := fun _ hw => absurd hw not_mem_nil
  once := fun _ _ _ h => absurd h not_mem_nil
  replied := fun _ h => absurd h not_mem_nil
  current := fun _ h => (nomatch h)

end Book

open Book

/-- If the calls within a reply add no transaction for its key where the loop does not come, and rehash nothing: a
transaction waits for its key, which has a time; it or one waiting for this key was started; it is answered once, when
it is removed; and no iterator is invalid. -/
theorem transactions_answered_once {K T : Type} [DecidableEq K] {key : T → K} {b : Book K T}
    (hr : Run.Reaches (step key) (Allowed key) {} b) :
    (∀ o t, b.holder.tx.lookup o = some t → (key t, o) ∈ b.holder.waiting ∧ key t ∈ b.holder.timeouts) ∧
    (∀ o t others, .added o t others ∈ b.log → .started o ∈ b.log ∨ ∃ o' ∈ others, .started o' ∈ b.log) ∧
    (∀ o t others, .added o t others ∈ b.log → replies o b.log = if (b.holder.tx.lookup o).isSome then 0 else 1) ∧
    ∀ op, Allowed key op b → ∃ b', step key op b = .ok b' := by
  have hs : b.Sound key none := by
    refine hr.inv ?_ start_sound
    intro op a b ha hop hstep
    obtain ⟨b', hstep', hs'⟩ := step_ok ha hop
    cases hstep.symm.trans hstep'
    exact hs'
  refine ⟨fun o t ht => ⟨hs.waits o t ht, hs.timed _ o (hs.waits o t ht)⟩, hs.begun, fun o t others hadded => ?_,
    fun op hop => ?_⟩
  · rw [hs.once o t others hadded]
    simp
  · obtain ⟨b', hstep, -⟩ := step_ok hs hop
    exact ⟨b', hstep⟩

namespace Sample

def owner (n : ℕ) : TXOwner := { txid := n }

def request (n k : ℕ) : Request ℕ := ⟨owner n, k, 15000, .before⟩

end Sample

open Sample

/-- The reply of a transaction adds one for its key, in front of the iterator: it waits for nothing and is never
answered. -/
theorem transaction_orphaned : ∃ b : Book ℕ ℕ,
    Run.exec (step id) [.newTX 1 (request 1 5), .found 2 5 [[request 2 5]]] {} = .ok b ∧
    b.holder.tx.lookup (owner 2) = some 5 ∧ b.holder.waiting = [] ∧ 5 ∉ b.holder.timeouts ∧
    .started (owner 2) ∉ b.log ∧ replies (owner 2) b.log = 0 := by
  refine ⟨_, rfl, ?_⟩
  decide +kernel

theorem transactions_answered_once_nested : ∃ b : Book ℕ ℕ,
    Run.Reaches (step id) (Allowed id) {} b ∧ b.holder.tx.lookup (owner 2) = some 6 ∧
    (6, owner 2) ∈ b.holder.waiting ∧ 6 ∈ b.holder.timeouts := by
  have hfirst : Allowed id (.newTX 1 (request 1 5)) ({} : Book ℕ ℕ) :=
    ⟨⟨nodup_singleton _, fun _ _ _ _ h => absurd h not_mem_nil⟩, trivial⟩
  have hsecond : Allowed id (.found 2 5 [[request 2 6]]) (newTX id 1 (request 1 5) ({} : Book ℕ ℕ)) := by
    refine ⟨⟨nodup_singleton _, fun r hr t others h => ?_⟩, fun r hr => ?_⟩
    · cases mem_singleton.mp hr
      rcases mem_newTX_log h with h | h | h
      · exact absurd h not_mem_nil
      · exact absurd (TXEvent.added.inj h).1 (by decide)
      · cases h
    · cases mem_singleton.mp hr
      exact ⟨by decide, by decide⟩
  obtain ⟨b, hb, ht⟩ : ∃ b, step id (.found 2 5 [[request 2 6]])
      (newTX id 1 (request 1 5) ({} : Book ℕ ℕ)) = .ok b ∧ b.holder.tx.lookup (owner 2) = some 6 :=
    Run.ok_sat
  have hreach : Run.Reaches (step id) (Allowed id) {} b := .tail _ (.tail _ .refl hfirst rfl) hsecond hb
  exact ⟨b, hreach, ht, (transactions_answered_once hreach).1 _ _ ht⟩

end Belnet.Dht
