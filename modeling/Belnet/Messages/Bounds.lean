import Belnet.Messages.Independence
import Belnet.Util.Faults

/-!
# Where the decoders of link messages leave the message

The loops of `bencode_read_dict` and `bencode_read_list`, integers, contacts and log messages look at a next byte also
when the message ends there.
-/

namespace Belnet.Contact
open Iwp hiding RouterContact
open Util Net Dns
open Service (decodeDict keySink)
open Belnet.Path (recordVersion)

lemma keySink_fails {σ : Type} {P : MemFault → Prop} {F : Bytes → Bytes → Prop}
    {decodeKey : σ → Bytes → Bytes → Decoded σ}
    (h : ∀ s key b, Fails P (decodeKey s key b) ↔ F key b) (s : σ) (b : Bytes) :
    Fails P (decodeDict decodeKey s b) ↔ DictFails P (keySink decodeKey) s F b :=
  readDict_fails h (fun _ _ => not_fails_ok _) s b

namespace AddressInfo
variable (P : MemFault → Prop)

def DialectFails (v : Bytes) : Prop := P (.outside 128 1) ∧ ∃ x r, readString v = some (x, r) ∧ x.length = 128

def EntryFails (key v : Bytes) : Prop :=
  if startsWith [99] key then IntFails P v
  else if startsWith [100] key then DialectFails P v
  else if startsWith [101] key then False
  else if startsWith [105] key then False
  else if startsWith [112] key then IntFails P v
  else if startsWith [118] key then IntFails P v
  else P .pastEnd ∧ key = [] ∧ v = []

def Fails (lib : Libs) (b : Bytes) : Prop := DictFails P (keySink (decodeKey lib)) {} (EntryFails P) b

variable {P} (lib : Libs)

lemma decodeKey_fails (a : AddressInfo) (key b : Bytes) :
    Util.Fails P (decodeKey lib a key b) ↔ EntryFails P key b := by
  refine fails_ite int_fails (fails_ite ?_ (fails_ite buffer_fails (fails_ite ?_
    (fails_ite int_fails (fails_ite int_fails ?_)))))
  · unfold DialectFails
    cases readString b with
    | none => exact iff_of_false (not_fails_ok _) (by rintro ⟨-, x, r, h, -⟩; cases h)
    | some y =>
      obtain ⟨x, r⟩ := y
      dsimp only
      have hsame : (∃ x' r', some (x, r) = some (x', r') ∧ x'.length = 128) ↔ x.length = 128 := by
        refine ⟨?_, fun h => ⟨x, r, rfl, h⟩⟩
        rintro ⟨x', r', heq, h⟩
        cases heq
        exact h
      rw [hsame]
      split
      · exact iff_of_false (not_fails_ok _) fun h => by omega
      · exact fails_if
  · cases readString b with
    | none => exact fails_ok
    | some y =>
      dsimp only
      split <;> exact fails_ok
  · exact fails_if

lemma bdecode_fails (b : Bytes) : Util.Fails P (bdecode lib {} b) ↔ Fails P lib b :=
  keySink_fails (decodeKey_fails lib) {} b

end AddressInfo

namespace RouterContact
variable (lib : ContactLibs) (P : MemFault → Prop)

def EntryFails (key v : Bytes) : Prop :=
  if startsWith [97] key then VectorFails P (AddressInfo.bdecode lib.net {}) (AddressInfo.Fails P lib.net) v
  else if startsWith [105] key then False
  else if startsWith [107] key then False
  else if startsWith [114] key then ListFails P RouterVersion.item (RouterVersion.empty, 0) (fun _ => False) v
  else if startsWith [110] key then False
  else if startsWith [115] key then VectorFails P (SRVData.bdecode lib.bt) (fun r => DiscardFails P (r.length + 1) r) v
  else if startsWith [112] key then False
  else if startsWith [117] key then IntFails P v
  else if startsWith [118] key then IntFails P v
  else if startsWith [122] key then False
  else DiscardFails P (v.length + 1) v

def Behind (f : MemFault) : Prop := f ≠ .pastEnd ∧ P f

def Fails (b : Bytes) : Prop :=
  match b with
  | [] => P .pastEnd
  | x :: _ =>
    if x = 100 then DictFails P (keySink (decodeKey lib)) blank (EntryFails lib P) b
    else if x ≠ 108 then False
    else match lib.list b with
      | none => False
      | some l => l.version = 1 ∧ l.finished = true ∧ l.signature.length = 64 ∧
        DictFails (Behind P) (keySink (decodeKey lib)) blank (EntryFails lib (Behind P)) l.dict

variable {P}

lemma srv_fails (b : Bytes) : Util.Fails P (SRVData.bdecode lib.bt b) ↔ DiscardFails P (b.length + 1) b := by
  refine (fails_bind fun o => ?_).trans (discard_fails b)
  cases o with
  | none => exact not_fails_ok _
  | some =>
    dsimp only
    split <;> exact not_fails_ok _

lemma routerVersion_fails (b : Bytes) : Util.Fails P (RouterVersion.bdecode b) ↔
    ListFails P RouterVersion.item (RouterVersion.empty, 0) (fun _ => False) b := by
  refine (fails_bind fun o => ?_).trans (readList_fails (fun s x b => ?_) _ b)
  · cases o with
    | none | some => exact not_fails_ok _
  · refine iff_of_false (fun h => ?_) id
    have hint := integer_fails.mp ((fails_bind fun o => by cases o <;> exact not_fails_ok _).mp h)
    exact absurd hint.2 (List.cons_ne_nil x b)

lemma decodeKey_fails (r : RouterContact) (key b : Bytes) :
    Util.Fails P (decodeKey lib r key b) ↔ EntryFails lib P key b := by
  refine fails_ite ?_ (fails_ite ?_ (fails_ite buffer_fails (fails_ite ?_ (fails_ite ?_
    (fails_ite ?_ (fails_ite buffer_fails (fails_ite int_fails (fails_ite
      int_fails (fails_ite buffer_fails ?_)))))))))
  · exact fails_map (vector_fails (fun x b => AddressInfo.bdecode_fails lib.net (x :: b)) r.addrs b)
  · exact fails_ok
  · exact fails_map (routerVersion_fails b)
  · exact fails_ok
  · exact fails_map (vector_fails (fun x b =>
      srv_fails lib (x :: b)) r.srvRecords b)
  · exact fails_map (discard_fails b)

lemma decodeDict_fails (f : Frame) (b : Bytes) : Util.Fails P (decodeDict (decodeKey lib) (f.put blank) b) ↔
    DictFails P (keySink (decodeKey lib)) blank (EntryFails lib P) b := by
  refine (keySink_fails (decodeKey_fails lib) (f.put blank) b).trans ?_
  refine dictFails_sim (R := fun s s' => ∃ f : Frame, s = f.put s') ?_ ?_ ⟨f, rfl⟩ b
  · rintro s s' key b ⟨f, rfl⟩
    show shape (decodeKey lib (f.put s') key b) = shape (decodeKey lib s' key b)
    rw [decodeKey_frame, shape_onState]
  rintro s s' key b a _ r _ ⟨f, rfl⟩ hs hs'
  change decodeKey lib (f.put s') key b = _ at hs
  change decodeKey lib s' key b = _ at hs'
  rw [decodeKey_frame, hs'] at hs
  cases hs
  exact ⟨f.after key, rfl⟩

lemma atTerminator_fails {α : Type} {e : Except MemFault (Option α)} :
    Util.Fails P (atTerminator e) ↔ Util.Fails (Behind P) e := by
  cases e with
  | error f =>
    cases f with
    | pastEnd => exact iff_of_false (not_fails_ok _) fun h => (fails_error.mp h).1 rfl
    | outside =>
      refine fails_error.trans (Iff.trans ?_ fails_error.symm)
      exact (and_iff_right (by simp)).symm
  | ok => exact iff_of_false (not_fails_ok _) (not_fails_ok _)

lemma bdecode_fails (r : RouterContact) (b : Bytes) : Util.Fails P (bdecode lib r b) ↔ Fails lib P b := by
  cases b with
  | nil => exact fails_error
  | cons x t =>
    show Util.Fails P (if x = 100 then _ else if x ≠ 108 then _ else _) ↔ if x = 100 then _ else if x ≠ 108 then _ else _
    refine fails_ite ?_ (fails_ite fails_ok ?_)
    · exact decodeDict_fails lib ⟨some r.netID, some (.zero 64), [], r.signedBtDict⟩ (x :: t)
    cases lib.list (x :: t) with
    | none => exact fails_ok
    | some l =>
      dsimp only
      by_cases hv : l.version = 1
      · rw [if_pos hv]
        unfold decodeVersion1
        by_cases hfinished : l.finished = true
        · rw [if_neg (by simp [hfinished])]
          by_cases hlen : l.signature.length = 64
          · rw [if_neg (not_not_intro hlen)]
            refine fails_map (atTerminator_fails.trans ?_)
            refine (decodeDict_fails lib ⟨some r.netID, some (.ofBytes 64 l.signature), [], l.dict⟩
              l.dict).trans ?_
            exact ⟨fun h => ⟨hv, hfinished, hlen, h⟩, fun h => h.2.2.2⟩
          · rw [if_pos hlen]
            exact iff_of_false (not_fails_ok _) fun h => hlen h.2.2.1
        · rw [if_pos (by simpa using hfinished)]
          exact iff_of_false (not_fails_ok _) fun h => hfinished h.2.1
      · rw [if_neg hv]
        exact iff_of_false (not_fails_ok _) fun h => hv h.1

end RouterContact

end Belnet.Contact

namespace Belnet.Messages
open Iwp hiding RouterContact LinkIntroMessage
open Util
open Service (keySink EncryptedIntroSet)
open Belnet.Path (recordVersion)
open Contact (RouterContact ContactLibs)
open Dht (Key)
variable (lib : ContactLibs) (net : Contact.NetID) (P : MemFault → Prop)

def NoKeyFails (key v : Bytes) : Prop := P .pastEnd ∧ key = [] ∧ v = []

def IntroSetEntryFails (key v : Bytes) : Prop :=
  if startsWith [115] key then IntFails P v else NoKeyFails P key v

def IntroSetFails (b : Bytes) : Prop := DictFails P (loggedSink EncryptedIntroSet.decodeKey) {} (IntroSetEntryFails P) b

def FindName.EntryFails (key v : Bytes) : Prop :=
  if startsWith [72] key then False
  else if startsWith [84] key then IntFails P v
  else DiscardFails P (v.length + 1) v

def GotName.EntryFails (key v : Bytes) : Prop :=
  if startsWith [68] key then False
  else if startsWith [78] key then False
  else if startsWith [84] key then IntFails P v
  else DiscardFails P (v.length + 1) v

def FindIntro.EntryFails (key v : Bytes) : Prop :=
  if startsWith [78] key then False
  else if startsWith [79] key then IntFails P v
  else if startsWith [83] key then False
  else if startsWith [84] key then IntFails P v
  else if startsWith [86] key then IntFails P v
  else False

def FindRouter.EntryFails (key v : Bytes) : Prop :=
  if startsWith [69] key then IntFails P v
  else if startsWith [73] key then IntFails P v
  else if startsWith [75] key then False
  else if startsWith [84] key then IntFails P v
  else if startsWith [86] key then IntFails P v
  else False

def GotRouter.EntryFails (key v : Bytes) : Prop :=
  if startsWith [75] key then False
  else if startsWith [78] key then VectorFails P (fun b => .ok (readBuffer 32 b)) (fun _ => False) v
  else if startsWith [82] key then
    VectorFails P (RouterContact.bdecode lib { netID := net }) (RouterContact.Fails lib P) v
  else if startsWith [84] key then IntFails P v
  else if startsWith [86] key then IntFails P v
  else False

def PublishIntro.EntryFails (key v : Bytes) : Prop :=
  if startsWith [73] key then IntroSetFails P v
  else if startsWith [79] key then IntFails P v
  else if startsWith [82] key then IntFails P v
  else if startsWith [84] key then IntFails P v
  else if startsWith [86] key then IntFails P v
  else False

def GotIntro.EntryFails (key v : Bytes) : Prop :=
  if startsWith [73] key then VectorFails P readIntroSet (IntroSetFails P) v
  else if startsWith [75] key then False
  else if startsWith [84] key then IntFails P v
  else if startsWith [86] key then IntFails P v
  else False

def DhtMessage.BodyFails (n : ℕ) (b : Bytes) : DhtMessage → Prop
  | .findName m => EntriesFails P (keySink FindName.decodeKey) n m (FindName.EntryFails P) b
  | .gotName m => EntriesFails P (keySink GotName.decodeKey) n m (GotName.EntryFails P) b
  | .findIntro m => EntriesFails P (keySink FindIntro.decodeKey) n m (FindIntro.EntryFails P) b
  | .findRouter m => EntriesFails P (keySink FindRouter.decodeKey) n m (FindRouter.EntryFails P) b
  | .gotRouter m => EntriesFails P (keySink (GotRouter.decodeKey lib net)) n m (GotRouter.EntryFails lib net P) b
  | .publishIntro m => EntriesFails P (keySink PublishIntro.decodeKey) n m (PublishIntro.EntryFails P) b
  | .gotIntro m => EntriesFails P (keySink GotIntro.decodeKey) n m (GotIntro.EntryFails P) b

def DhtMessage.Fails (b : Bytes) : Prop :=
  match header 65 DhtMessage.new b with
  | none => False
  | some (m, rest) => m.BodyFails lib net P (b.length - 1) rest

def LinkIntro.EntryFails (key v : Bytes) : Prop :=
  if startsWith [97] key then False
  else if startsWith [110] key then False
  else if startsWith [112] key then IntFails P v
  else if startsWith [114] key then RouterContact.Fails lib P v
  else if startsWith [118] key then IntFails P v
  else if startsWith [122] key then False
  else NoKeyFails P key v

def ImmediateEntryFails (source : Key) (key v : Bytes) : Prop :=
  if startsWith [109] key then
    VectorFails P (fun b => do return (← DhtMessage.decode lib net b).map fun x => ((source, x.1), x.2))
      (DhtMessage.Fails lib net P) v
  else if startsWith [118] key then IntFails P v
  else False

def Holder.Fails (source : Key) (b : Bytes) : Prop :=
  match Holder.header b with
  | some (.intro, rest) => EntriesFails P (keySink (Holder.decodeKey lib net source .intro)) (b.length - 1)
      (Holder.fresh net 0) (LinkIntro.EntryFails lib P) rest
  | some (.immediate, rest) => EntriesFails P (keySink (Holder.decodeKey lib net source .immediate)) (b.length - 1)
      (Holder.fresh net 0) (ImmediateEntryFails lib net P source) rest
  | _ => False

variable {P} {σ : Type} {b : Bytes} {s : σ}

lemma version_fails : Fails P (verifyVersion s b) ↔ IntFails P b := int_fails

lemma discarded_fails : Fails P (do return (← discard b).map fun b => (s, b)) ↔ DiscardFails P (b.length + 1) b :=
  fails_map (discard_fails b)

lemma introSet_blind (key b : Bytes) : Blind fun e => EncryptedIntroSet.decodeKey e key b := by
  intro e e'
  unfold EncryptedIntroSet.decodeKey
  split
  · cases readString b with
    | none => rfl
    | some x =>
      dsimp only
      split <;> rfl
  split
  · exact blind_buffer (fun e x => { e with derivedSigningKey := x }) b e e'
  split
  · exact blind_buffer (fun e x => { e with nounce := x }) b e e'
  split
  · exact blind_int (fun e i => { e with signedAt := i.toInt64.toInt }) b e e'
  split
  · exact blind_buffer (fun e x => { e with sig := x }) b e e'
  · rfl

lemma introSetEntry_fails (e : EncryptedIntroSet) (key b : Bytes) :
    Fails P (loggedSink EncryptedIntroSet.decodeKey e (some key) b) ↔ IntroSetEntryFails P key b := by
  by_cases hkey : key = []
  · -- nobody knows a key without letters
    subst hkey
    show Fails P (if [] = [] ∧ b = [] then .error .pastEnd else .ok none) ↔ NoKeyFails P [] b
    exact fails_if
  · have hlog : Fails P (loggedSink EncryptedIntroSet.decodeKey e (some key) b) ↔
        Fails P (EncryptedIntroSet.decodeKey e key b) := by
      simp only [loggedSink]
      rcases EncryptedIntroSet.decodeKey e key b with f | _ | y
      · exact .rfl
      · rw [if_neg fun h => hkey h.1]
      · exact .rfl
    rw [hlog]
    unfold IntroSetEntryFails EncryptedIntroSet.decodeKey
    by_cases h115 : startsWith [115] key = true
    · have hother : ∀ x : UInt8, x ≠ 115 → ¬ startsWith [x] key = true := fun x hx h => hx (startsWith_unique h h115)
      rw [if_neg (hother 120 (by decide)), if_neg (hother 100 (by decide)), if_neg (hother 110 (by decide)), if_pos h115,
        if_pos h115]
      exact int_fails
    · rw [if_neg h115, if_neg h115]
      refine iff_of_false ?_ fun h => hkey h.2.1
      split
      · exact not_fails_ok _
      split
      · exact buffer_fails.mp
      split
      · exact buffer_fails.mp
      split
      · exact buffer_fails.mp
      · exact not_fails_ok _

lemma introSet_fails (e : EncryptedIntroSet) (b : Bytes) :
    Fails P (readDict (loggedSink EncryptedIntroSet.decodeKey) e b) ↔ IntroSetFails P b :=
  (readDict_fails introSetEntry_fails (fun _ _ => not_fails_ok _) e b).trans
    (dictFails_blind (loggedSink_blind introSet_blind) e {} b)

lemma FindName.fails_iff (m : FindName) (key b : Bytes) : Fails P (m.decodeKey key b) ↔ FindName.EntryFails P key b :=
  fails_ite buffer_fails (fails_ite int_fails discarded_fails)

lemma GotName.fails_iff (m : GotName) (key b : Bytes) : Fails P (m.decodeKey key b) ↔ GotName.EntryFails P key b :=
  fails_ite fails_ok (fails_ite buffer_fails
    (fails_ite int_fails discarded_fails))

lemma FindIntro.fails_iff (m : FindIntro) (key b : Bytes) :
    Fails P (m.decodeKey key b) ↔ FindIntro.EntryFails P key b :=
  fails_ite buffer_fails (fails_ite int_fails (fails_ite buffer_fails
    (fails_ite int_fails (fails_ite version_fails fails_ok))))

lemma FindRouter.fails_iff (m : FindRouter) (key b : Bytes) :
    Fails P (m.decodeKey key b) ↔ FindRouter.EntryFails P key b :=
  fails_ite int_fails (fails_ite int_fails (fails_ite buffer_fails
    (fails_ite int_fails (fails_ite int_fails fails_ok))))

lemma once_fails {c : Bool} {n : ℕ} {f : AlignedBuffer n → σ} :
    Fails P (if c then .ok none else bufferEntry f b) ↔ False := by
  split
  · exact fails_ok
  · exact buffer_fails

lemma GotRouter.fails_iff (m : GotRouter) (key b : Bytes) :
    Fails P (m.decodeKey lib net key b) ↔ GotRouter.EntryFails lib net P key b := by
  refine fails_ite once_fails (fails_ite ?_ (fails_ite ?_ (fails_ite int_fails
    (fails_ite int_fails fails_ok))))
  · exact fails_map (vector_fails (fun x b => fails_ok) m.nearKeys b)
  · exact fails_map (vector_fails (fun x b => RouterContact.bdecode_fails lib _ (x :: b)) m.foundRCs b)

lemma PublishIntro.fails_iff (m : PublishIntro) (key b : Bytes) :
    Fails P (m.decodeKey key b) ↔ PublishIntro.EntryFails P key b :=
  fails_ite (fails_map (introSet_fails m.introset b))
    (fails_ite int_fails (fails_ite int_fails (fails_ite int_fails
      (fails_ite int_fails fails_ok))))

lemma GotIntro.fails_iff (m : GotIntro) (key b : Bytes) :
    Fails P (m.decodeKey key b) ↔ GotIntro.EntryFails P key b := by
  refine fails_ite ?_ (fails_ite once_fails (fails_ite int_fails
    (fails_ite int_fails fails_ok)))
  exact fails_map (vector_fails (fun x b => introSet_fails {} (x :: b)) m.found b)

lemma entries_fails {F : Bytes → Bytes → Prop}
    {decodeKey : σ → Bytes → Bytes → Decoded σ}
    (h : ∀ s key b, Fails P (decodeKey s key b) ↔ F key b) {g : σ → DhtMessage}
    (hg : ∀ s key b, (g s).decodeKey lib net key b = onState g (decodeKey s key b)) (n : ℕ) (s : σ) (b : Bytes) :
    Fails P (readEntries (DhtMessage.sink lib net) n (some (g s)) b) ↔ EntriesFails P (keySink decodeKey) n s F b := by
  have hlift : ∀ s key b, DhtMessage.sink lib net (some (g s)) key b
      = onState (fun s => some (g s)) (keySink decodeKey s key b) := by
    intro s key b
    cases key with
    | none => rfl
    | some key =>
      show onState some ((g s).decodeKey lib net key b) = onState _ (decodeKey s key b)
      rw [hg]
      rcases decodeKey s key b with f | _ | y <;> rfl
  rw [entries_lift hlift n s b, fails_onState]
  exact readEntries_fails h (fun _ _ => not_fails_ok _) n s b

lemma DhtMessage.fails_iff (b : Bytes) : Util.Fails P (DhtMessage.decode lib net b) ↔ DhtMessage.Fails lib net P b := by
  have hdict : readDict (DhtMessage.sink lib net) none b = (Util.header 65 DhtMessage.new b).elim (.ok none) fun x =>
      readEntries (DhtMessage.sink lib net) (b.length - 1) (some x.1) x.2 :=
    readDict_header some (fun _ _ => rfl) (fun b => rfl) b
  refine (fails_bind fun o => ?_).trans ?_
  · match o with
    | none | some (none, _) | some (some m, r) => exact not_fails_ok _
  rw [hdict]
  unfold DhtMessage.Fails
  cases header 65 DhtMessage.new b with
  | none => exact fails_ok
  | some x =>
    obtain ⟨m, rest⟩ := x
    show Util.Fails P (readEntries (DhtMessage.sink lib net) (b.length - 1) (some m) rest) ↔
      m.BodyFails lib net P (b.length - 1) rest
    cases m with
    | findName m => exact entries_fails lib net FindName.fails_iff (fun _ _ _ => rfl) _ m rest
    | gotName m => exact entries_fails lib net GotName.fails_iff (fun _ _ _ => rfl) _ m rest
    | findIntro m => exact entries_fails lib net FindIntro.fails_iff (fun _ _ _ => rfl) _ m rest
    | findRouter m => exact entries_fails lib net FindRouter.fails_iff (fun _ _ _ => rfl) _ m rest
    | gotRouter m => exact entries_fails lib net (GotRouter.fails_iff lib net) (fun _ _ _ => rfl) _ m rest
    | publishIntro m => exact entries_fails lib net PublishIntro.fails_iff (fun _ _ _ => rfl) _ m rest
    | gotIntro m => exact entries_fails lib net GotIntro.fails_iff (fun _ _ _ => rfl) _ m rest

lemma LinkIntro.fails_iff (m : LinkIntro) (key b : Bytes) :
    Fails P (m.decodeKey lib key b) ↔ LinkIntro.EntryFails lib P key b := by
  refine fails_ite fails_ok (fails_ite buffer_fails (fails_ite
    int_fails (fails_ite ?_ (fails_ite version_fails
      (fails_ite buffer_fails fails_if)))))
  exact fails_map (RouterContact.bdecode_fails lib m.rc b)

lemma immediate_fails (source : Key) (l : List (Key × DhtMessage)) (key b : Bytes) :
    Fails P (decodeImmediate lib net source l key b) ↔ ImmediateEntryFails lib net P source key b := by
  refine fails_ite ?_ (fails_ite version_fails fails_ok)
  exact vector_fails (fun x b => fails_map (DhtMessage.fails_iff lib net (x :: b))) l b

namespace Holder

lemma parse_fails_iff (source : Key) (h : Holder) {k : Kind} {rest : Bytes} (hk : header b = some (k, rest))
    (hkind : k = .intro ∨ k = .immediate) :
    Util.Fails P (parse lib net source h b) ↔ Fails lib net P source b := by
  have hbody : Util.Fails P (parse lib net source h b) ↔
      Util.Fails P (body lib net source k (b.length - 1) h rest) := by
    rw [parse_eq, hk]
    exact fails_bind fun o => not_fails_ok _
  rw [hbody]
  unfold Fails
  rw [hk]
  obtain rfl | rfl := hkind
  · refine (readEntries_fails (fun s key b => ?_) (fun _ _ => not_fails_ok _) _ h rest).trans
      (entriesFails_blind (keySink_blind lib net source .intro) _ h (fresh net 0) rest)
    exact fails_onState.trans (LinkIntro.fails_iff lib s.i key b)
  · refine (readEntries_fails (fun s key b => ?_) (fun _ _ => not_fails_ok _) _ h rest).trans
      (entriesFails_blind (keySink_blind lib net source .immediate) _ h (fresh net 0) rest)
    exact fails_onState.trans (immediate_fails lib net source s.m key b)

/-- A link intro or list of DHT messages is decoded inside exactly if it does not end where the decoders look for more,
and no address has a dialect of 128 bytes. -/
theorem decoded_in_bounds_iff (source : Key) (h : Holder) {k : Kind} {b rest : Bytes} (hk : header b = some (k, rest))
    (hkind : k = .intro ∨ k = .immediate) :
    (∀ f, parse lib net source h b ≠ .error f) ↔ ¬ Fails lib net (fun _ => True) source b := by
  rw [← parse_fails_iff lib net source h hk hkind]
  exact ⟨fun hall ⟨f, _, hf⟩ => hall f hf, fun hnot f hf => hnot ⟨f, trivial, hf⟩⟩

def bareIntro : Bytes := [100, 49, 58, 97, 49, 58, 105, 101]

def cutIntro : Bytes := [100, 49, 58, 97, 49, 58, 105]

def longDialect : Bytes :=
  [100, 49, 58, 97, 49, 58, 105, 49, 58, 114, 100, 49, 58, 97, 108, 100, 49, 58, 100, 49, 50, 56, 58] ++
    List.replicate 128 120

section
set_option maxRecDepth 4096

theorem decoded_in_bounds_iff_intros :
    ¬ Fails Contact.Sample.libs (.zero 8) (fun _ => True) (.zero 32) bareIntro ∧
      Fails Contact.Sample.libs (.zero 8) (fun _ => True) (.zero 32) longDialect := by
  have hiff {b rest : Bytes} (hk : header b = some (.intro, rest)) :=
    decoded_in_bounds_iff Contact.Sample.libs (.zero 8) (.zero 32) (fresh (.zero 8) 0) hk (.inl rfl)
  refine ⟨(hiff rfl).mp nofun, ?_⟩
  by_contra hinside
  exact (hiff rfl).mpr hinside _ rfl

theorem decoded_out_of_bounds : parse Contact.Sample.libs (.zero 8) (.zero 32) (fresh (.zero 8) 0) cutIntro
        = .error .pastEnd ∧
      parse Contact.Sample.libs (.zero 8) (.zero 32) (fresh (.zero 8) 0) longDialect
        = .error (.outside 128 1) := ⟨rfl, rfl⟩

end

end Holder

end Belnet.Messages
