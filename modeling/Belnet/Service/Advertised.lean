import Belnet.Dns.SRVData
import Belnet.Net.Policy
import Belnet.Service.Codec

/-!
# Introsets with all that they advertise

`IntroSet` with its exit policy, its ranges and its SRV records, and `BEncode` of `llarp/service/intro_set.cpp`.
-/

namespace Belnet.Service
open Iwp Util Belnet.Path Net Dns Ordered List TrafficPolicy Introduction SRVTuple

structure AdvertisedIntroSet extends IntroSet where
  exitTrafficPolicy : Option TrafficPolicy := none
  ownedRanges : SortedSet IPRange.key := .empty
  srvs : List SRVTuple := []

structure IntroSetLibs where
  net : Libs
  bt : BtLibs
  pqPubKeySize : ℕ

structure IntroSetLibs.Lawful (lib : IntroSetLibs) : Prop where
  net : lib.net.Lawful
  bt : lib.bt.Lawful
  pqPubKeySize : lib.pqPubKeySize < 10^9

namespace AdvertisedIntroSet
variable (lib : IntroSetLibs)

def writePolicy : Option TrafficPolicy → Writer
  | none => skip
  | some p => (writeBytestring [101]).seq (p.bencode lib.net)

variable (i : AdvertisedIntroSet)

def bencode : Writer :=
  (((((((((((startDict.seq ((writeBytestring [97]).seq i.addressKeys.bencode)).seq
    (writePolicy lib i.exitTrafficPolicy)).seq
    (writeDictList [105] Introduction.bencode i.intros)).seq
    (writeEntry [107] i.sntrupKey)).seq
    -- the text of a topic has 16 bytes, it is never empty
    (writeEntry [110] i.topic.toList)).seq
    (if i.supportedProtocols = [] then skip else writeDictList [112] writeUint64 i.supportedProtocols)).seq
    (if i.ownedRanges.toList = [] then skip else writeDictList [114] (IPRange.bencode lib.net) i.ownedRanges.toList)).seq
    (if i.srvs = [] then skip else (writeBytestring [115]).seq (write (serializeAll i.srvs)))).seq
    (writeDictInt [116] (.ofInt i.timestampSignedAt))).seq
    (writeDictInt [118] i.version)).seq
    (writeEntry [122] i.signature.toList)).seq
    endDict

def policyEntry : Option TrafficPolicy → Bytes
  | none => []
  | some p => str [101] ++ p.encoding lib.net

def middle : Bytes :=
  (str [105] ++ 108 :: (i.intros.flatMap encoding ++ [101])) ++ entry [107] i.sntrupKey ++ entry [110] i.topic.toList ++
    (if i.supportedProtocols = [] then [] else str [112] ++ 108 :: (i.supportedProtocols.flatMap int ++ [101]))

def rangesEntry (s : SortedSet IPRange.key) : Bytes :=
  if s.toList = [] then [] else str [114] ++ rangeList lib.net s

def last : Bytes :=
  (if i.srvs = [] then [] else str [115] ++ serializeAll i.srvs) ++
    (str [116] ++ int (.ofInt i.timestampSignedAt)) ++ (str [118] ++ int i.version) ++
    entry [122] i.signature.toList

def encoding : Bytes :=
  100 :: ((str [97] ++ i.addressKeys.encoding) ++ policyEntry lib i.exitTrafficPolicy ++ i.middle ++
    rangesEntry lib i.ownedRanges ++ i.last ++ [101])

lemma prints_writePolicy (p : Option TrafficPolicy) : Prints (writePolicy lib p) (policyEntry lib p) := by
  cases p with
  | none => exact prints_skip
  | some p => exact (prints_writeBytestring [101]).seq (p.prints_bencode lib.net)

lemma prints_bencode : PrintsDict (i.bencode lib) (i.encoding lib) := by
  have head := ((prints_write [100]).seq ((prints_writeBytestring [97]).seq i.addressKeys.prints_bencode)).seq
    (prints_writePolicy lib i.exitTrafficPolicy)
  have intros := ((head.seq (prints_dictList [105] Introduction.prints_bencode i.intros)).seq
    (prints_entry [107] i.sntrupKey)).seq (prints_entry [110] i.topic.toList)
  have protocols := intros.seq (prints_unless (p := i.supportedProtocols = [])
    (prints_dictList [112] prints_writeUint64 i.supportedProtocols))
  have ranges := protocols.seq (prints_unless (p := i.ownedRanges.toList = [])
    (prints_dictList [114] (fun r : IPRange => prints_write (r.encoding lib.net)) i.ownedRanges.toList))
  have srvs := ranges.seq (prints_unless (p := i.srvs = [])
    ((prints_writeBytestring [115]).seq (prints_write (SRVTuple.serializeAll i.srvs))))
  have times := (srvs.seq (prints_dictInt [116] (.ofInt i.timestampSignedAt))).seq
    (prints_dictInt [118] i.version)
  have all := (times.seq (prints_entry [122] i.signature.toList)).dict
  simp only [encoding, middle, last, rangesEntry, rangeList, append_assoc, cons_append, nil_append] at all ⊢
  exact all

def readers : IntroSetReaders where
  policy _ := .ok none
  ranges _ := .ok none
  srvs _ := false
  pqPubKeySize := lib.pqPubKeySize

def decodeKey (key b : Bytes) : Except MemFault (Option (AdvertisedIntroSet × Bytes)) :=
  if startsWith [101] key then do
    return (← bdecode lib.net b).map fun r => ({ i with exitTrafficPolicy := some r.1 }, r.2)
  else if startsWith [114] key then do
    return (← readSet (IPRange.bdecode lib.net) i.ownedRanges b).map fun r => ({ i with ownedRanges := r.1 }, r.2)
  else if startsWith [115] key then do
    match ← discard b with
    | none => return none
    | some rest => return (lib.bt.tuples (b.take (b.length - rest.length))).map fun l => ({ i with srvs := l }, rest)
  else do
    return (← i.toIntroSet.decodeKey (readers lib) key b).map fun r => ({ i with toIntroSet := r.1 }, r.2)

def bdecode (b : Bytes) : Except MemFault (Option AdvertisedIntroSet) := do
  return (← decodeDict (decodeKey lib) {} b).map Prod.fst

def receivedPolicy : Option TrafficPolicy → Option (Option TrafficPolicy)
  | none => some none
  | some p => p.received.map some

def received : Option AdvertisedIntroSet := do
  let p ← receivedPolicy i.exitTrafficPolicy
  let r ← receivedRanges i.ownedRanges
  return { i with
    addressKeys := i.addressKeys.received, intros := i.intros.map Introduction.received,
    exitTrafficPolicy := p, ownedRanges := r }

section
variable {lib : IntroSetLibs} {i s : AdvertisedIntroSet}

lemma reads_base {j : IntroSet} {c : UInt8} {val : Bytes} (hc : c ≠ 101 ∧ c ≠ 114 ∧ c ≠ 115)
    (h : ∀ rest, s.toIntroSet.decodeKey (readers lib) [c] (val ++ rest) = .ok (some (j, rest))) :
    Reads (keySink (decodeKey lib)) s (str [c] ++ val) { s with toIntroSet := j } := by
  apply reads_entry
  intro rest
  unfold decodeKey
  rw [if_neg (by simpa [startsWith] using hc.1.symm), if_neg (by simpa [startsWith] using hc.2.1.symm),
    if_neg (by simpa [startsWith] using hc.2.2.symm), h]
  rfl

lemma reads_address (i : AdvertisedIntroSet) : Reads (keySink (decodeKey lib)) {} (str [97] ++ i.addressKeys.encoding)
    { addressKeys := i.addressKeys.received } := by
  refine reads_base (j := { addressKeys := i.addressKeys.received }) (by decide) fun rest => ?_
  show (do return (← ServiceInfo.bdecode {} (i.addressKeys.encoding ++ rest)).map _) = _
  rw [ServiceInfo.bdecode_encoding]
  rfl

lemma decodeKey_policy (hlib : lib.Lawful) (p : TrafficPolicy) (rest : Bytes) :
    decodeKey lib s [101] (p.encoding lib.net ++ rest)
      = .ok (p.received.map fun p => ({ s with exitTrafficPolicy := some p }, rest)) := by
  show (do return (← TrafficPolicy.bdecode lib.net (p.encoding lib.net ++ rest)).map _) = _
  rw [TrafficPolicy.bdecode_encoding hlib.net]
  cases p.received with
  | none => rfl
  | some => rfl

lemma reads_policy (hlib : lib.Lawful) {p p' : Option TrafficPolicy} (hs : s.exitTrafficPolicy = none)
    (h : receivedPolicy p = some p') :
    Reads (keySink (decodeKey lib)) s (policyEntry lib p) { s with exitTrafficPolicy := p' } := by
  cases p with
  | none =>
    cases h
    have hsame : { s with exitTrafficPolicy := none } = s := by rw [← hs]
    rw [hsame]
    exact .nil
  | some p =>
    obtain ⟨q, hq, rfl⟩ := Option.map_eq_some_iff.mp h
    apply reads_entry
    intro _
    rw [decodeKey_policy hlib, hq]
    rfl

lemma readIntros {l : List Introduction} (h : ∀ x ∈ l, x.InRange) (rest : Bytes) :
    readList (fun l b => do return (← Introduction.bdecode {} b).map fun r => (l ++ [r.1], r.2)) []
      (108 :: (l.flatMap Introduction.encoding ++ [101]) ++ rest) = .ok (some (l.map Introduction.received, rest)) := by
  exact readList_collect (fun x => ⟨100, _, rfl, by decide⟩) l (fun x hx => bdecode_encoding (h x hx)) [] rest

lemma reads_middle (hlib : lib.Lawful) (hintros : s.intros = []) (hprotocols : s.supportedProtocols = [])
    (hrange : ∀ x ∈ i.intros, x.InRange) (hkey : i.sntrupKey.length = lib.pqPubKeySize) :
    Reads (keySink (decodeKey lib)) s i.middle
      { s with
        intros := i.intros.map Introduction.received, sntrupKey := i.sntrupKey, topic := i.topic,
        supportedProtocols := i.supportedProtocols } := by
  have hi : Reads (keySink (decodeKey lib)) s (str [105] ++ 108 :: (i.intros.flatMap Introduction.encoding ++ [101]))
      { s with intros := i.intros.map Introduction.received } := by
    refine reads_base (j := { s.toIntroSet with intros := i.intros.map Introduction.received }) (by decide) fun rest => ?_
    show (do return (← readList _ s.intros
      (108 :: (i.intros.flatMap Introduction.encoding ++ [101]) ++ rest)).map _) = _
    rw [hintros, readIntros hrange]
    rfl
  have hk (s : AdvertisedIntroSet) : Reads (keySink (decodeKey lib)) s (entry [107] i.sntrupKey)
      { s with sntrupKey := i.sntrupKey } := by
    refine reads_base (j := { s.toIntroSet with sntrupKey := i.sntrupKey }) (by decide) fun rest => ?_
    unfold IntroSet.decodeKey
    rw [if_neg (by decide), if_neg (by decide), if_neg (by decide), if_pos (by decide),
      readString_str (by rw [hkey]; exact hlib.pqPubKeySize)]
    dsimp only
    rw [if_pos (show i.sntrupKey.length = (readers lib).pqPubKeySize from hkey)]
  have hn (s : AdvertisedIntroSet) : Reads (keySink (decodeKey lib)) s (entry [110] i.topic.toList)
      { s with topic := i.topic } :=
    reads_base (by decide) fun rest =>
      bufferEntry_str (fun x => ({ s.toIntroSet with topic := x } : IntroSet)) i.topic (by norm_num) rest
  have hp (s : AdvertisedIntroSet) (hprotocols : s.supportedProtocols = []) : Reads (keySink (decodeKey lib)) s
      (if i.supportedProtocols = [] then [] else str [112] ++ 108 :: (i.supportedProtocols.flatMap int ++ [101]))
      { s with supportedProtocols := i.supportedProtocols } := by
    apply Reads.unless
    · intro _
      refine reads_base (j := { s.toIntroSet with supportedProtocols := i.supportedProtocols }) (by decide) fun rest => ?_
      show (do return (← readList _ s.supportedProtocols
        (108 :: (i.supportedProtocols.flatMap int ++ [101]) ++ rest)).map _) = _
      rw [hprotocols, ProtocolInfo.readInts]
      rfl
    · intro hempty
      rw [hempty, ← hprotocols]
  exact ((hi.append (hk _)).append (hn _)).append (hp _ hprotocols)

lemma decodeKey_ranges (hlib : lib.Lawful) (hs : s.ownedRanges = .empty) (r : SortedSet IPRange.key) (rest : Bytes) :
    decodeKey lib s [114] (rangeList lib.net r ++ rest)
      = .ok ((receivedRanges r).map fun r => ({ s with ownedRanges := r }, rest)) := by
  show (do return (← readSet (IPRange.bdecode lib.net) s.ownedRanges (rangeList lib.net r ++ rest)).map _) = _
  rw [hs, readRanges hlib.net]
  cases receivedRanges r with
  | none => rfl
  | some => rfl

lemma ranges_empty {r : SortedSet IPRange.key} (h : r.toList = []) : receivedRanges r = some .empty := by
  unfold receivedRanges
  rw [h]
  rfl

lemma reads_ranges (hlib : lib.Lawful) (hs : s.ownedRanges = .empty) {r r' : SortedSet IPRange.key}
    (h : receivedRanges r = some r') :
    Reads (keySink (decodeKey lib)) s (rangesEntry lib r) { s with ownedRanges := r' } := by
  apply Reads.unless
  · intro _
    apply reads_entry
    intro _
    rw [decodeKey_ranges hlib hs, h]
    rfl
  · intro hempty
    rw [ranges_empty hempty] at h
    cases h
    rw [← hs]

lemma reads_last (hlib : lib.Lawful) (hs : s.srvs = []) (hlen : (serializeAll i.srvs).length < 10^9)
    (htime : Timestamp i.timestampSignedAt) :
    Reads (keySink (decodeKey lib)) s i.last
      { s with
        srvs := i.srvs, timestampSignedAt := i.timestampSignedAt, version := i.version, signature := i.signature } := by
  have hsrvs : Reads (keySink (decodeKey lib)) s (if i.srvs = [] then [] else str [115] ++ serializeAll i.srvs)
      { s with srvs := i.srvs } := by
    apply Reads.unless
    · intro _
      apply reads_entry
      intro rest
      have htaken : (serializeAll i.srvs ++ rest).take
          ((serializeAll i.srvs ++ rest).length - rest.length) = serializeAll i.srvs := by
        rw [length_append, Nat.add_sub_cancel, take_left]
      unfold decodeKey
      rw [if_neg (by decide), if_neg (by decide), if_pos (by decide), discard_serializeAll hlen]
      dsimp only [bind, Except.bind]
      rw [htaken, hlib.bt.tuples_serializeAll]
      rfl
    · intro hempty
      rw [hempty, ← hs]
  have ht (s : AdvertisedIntroSet) : Reads (keySink (decodeKey lib)) s
      (str [116] ++ int (.ofInt i.timestampSignedAt)) { s with timestampSignedAt := i.timestampSignedAt } := by
    refine reads_base (j := { s.toIntroSet with timestampSignedAt := i.timestampSignedAt }) (by decide) fun rest => ?_
    show intEntry _ (int (.ofInt i.timestampSignedAt) ++ rest) = _
    rw [intEntry_int, toInt64_ofInt htime]
    rfl
  have hv (s : AdvertisedIntroSet) : Reads (keySink (decodeKey lib)) s (str [118] ++ int i.version)
      { s with version := i.version } :=
    reads_base (by decide) fun rest =>
      intEntry_int (fun x => some ({ s.toIntroSet with version := x } : IntroSet)) i.version rest
  have hz (s : AdvertisedIntroSet) : Reads (keySink (decodeKey lib)) s (entry [122] i.signature.toList)
      { s with signature := i.signature } :=
    reads_base (by decide) fun rest =>
      bufferEntry_str (fun x => ({ s.toIntroSet with signature := x } : IntroSet)) i.signature (by norm_num) rest
  exact ((hsrvs.append (ht _)).append (hv _)).append (hz _)

def atRanges (i : AdvertisedIntroSet) (p : Option TrafficPolicy) : AdvertisedIntroSet where
  addressKeys := i.addressKeys.received
  exitTrafficPolicy := p
  intros := i.intros.map Introduction.received
  sntrupKey := i.sntrupKey
  topic := i.topic
  supportedProtocols := i.supportedProtocols

section
variable (hlib : lib.Lawful) (hrange : ∀ x ∈ i.intros, x.InRange) (hkey : i.sntrupKey.length = lib.pqPubKeySize)
include hlib hrange hkey

lemma reads_atRanges
    {p : Option TrafficPolicy}
    (hp : receivedPolicy i.exitTrafficPolicy = some p) :
    Reads (keySink (decodeKey lib)) {}
      ((str [97] ++ i.addressKeys.encoding) ++ policyEntry lib i.exitTrafficPolicy ++ i.middle) (i.atRanges p) :=
  ((reads_address i).append (reads_policy hlib rfl hp)).append (reads_middle hlib rfl rfl hrange hkey)

lemma bdecode_encoding (htime : Timestamp i.timestampSignedAt)
    (hlen : (SRVTuple.serializeAll i.srvs).length < 10^9) : bdecode lib (i.encoding lib) = .ok i.received := by
  suffices h : readDict (keySink (decodeKey lib)) {} (i.encoding lib) = .ok (i.received.map fun j => (j, [])) by
    show (do return (← readDict (keySink (decodeKey lib)) {} (i.encoding lib)).map Prod.fst) = _
    rw [h]
    cases i.received with
    | none => rfl
    | some j => rfl
  cases hp : receivedPolicy i.exitTrafficPolicy with
  | none =>
    have hnone : i.received = none := by
      unfold received
      rw [hp]
      rfl
    cases hpolicy : i.exitTrafficPolicy with
    | none =>
      rw [hpolicy] at hp
      cases hp
    | some p =>
      rw [hpolicy] at hp
      have hrefused : p.received = none := Option.map_eq_none_iff.mp hp
      have hassoc : i.encoding lib = 100 :: ((str [97] ++ i.addressKeys.encoding) ++ (str [101] ++ p.encoding lib.net) ++
          (i.middle ++ rangesEntry lib i.ownedRanges ++ i.last ++ [101])) := by simp [encoding, policyEntry, hpolicy]
      rw [hassoc, hnone]
      refine (reads_address i).dict_none (fun rest => ?_) _
      show decodeKey lib _ [101] (p.encoding lib.net ++ rest) = _
      rw [decodeKey_policy hlib, hrefused]
      rfl
  | some p =>
    have head := reads_atRanges hlib hrange hkey hp
    cases hr : TrafficPolicy.receivedRanges i.ownedRanges with
    | none =>
      have hnone : i.received = none := by
        unfold received
        rw [hp, hr]
        rfl
      have hentry : rangesEntry lib i.ownedRanges = str [114] ++ TrafficPolicy.rangeList lib.net i.ownedRanges := by
        apply if_neg
        intro hempty
        rw [ranges_empty hempty] at hr
        cases hr
      have hassoc : i.encoding lib = 100 :: (((str [97] ++ i.addressKeys.encoding) ++
          policyEntry lib i.exitTrafficPolicy ++ i.middle) ++
          (str [114] ++ TrafficPolicy.rangeList lib.net i.ownedRanges) ++ (i.last ++ [101])) := by
        simp [encoding, hentry]
      rw [hassoc, hnone]
      refine head.dict_none (fun rest => ?_) _
      show decodeKey lib _ [114] (rangeList lib.net i.ownedRanges ++ rest) = _
      rw [decodeKey_ranges hlib rfl, hr]
      rfl
    | some r =>
      have hsome : i.received = some { i with
          addressKeys := i.addressKeys.received, intros := i.intros.map Introduction.received,
          exitTrafficPolicy := p, ownedRanges := r } := by
        unfold received
        rw [hp, hr]
        rfl
      have all := (head.append (reads_ranges hlib rfl hr)).append (reads_last hlib rfl hlen htime)
      rw [hsome, ← append_nil (i.encoding lib)]
      exact all.dict []

end

end

def Same (i j : AdvertisedIntroSet) : Prop :=
  i.intros = j.intros ∧ i.topic = j.topic ∧ i.srvs = j.srvs ∧ i.ownedRanges = j.ownedRanges ∧
    i.supportedProtocols = j.supportedProtocols ∧ i.exitTrafficPolicy = j.exitTrafficPolicy

instance (i j : AdvertisedIntroSet) : Decidable (i.Same j) := inferInstanceAs (Decidable (_ ∧ _))

def Faithful (i : AdvertisedIntroSet) : Prop :=
  (∀ x ∈ i.intros, 0 ≤ x.latency) ∧ (∀ p ∈ i.exitTrafficPolicy, ∀ r ∈ p.ranges.toList, r.Plain) ∧
    ∀ r ∈ i.ownedRanges.toList, r.Plain

lemma receivedPolicy_eq_iff (p : Option TrafficPolicy) :
    receivedPolicy p = some p ↔ ∀ q ∈ p, ∀ r ∈ q.ranges.toList, r.Plain := by
  cases p with
  | none => simp [receivedPolicy]
  | some p =>
    have hmap : receivedPolicy (some p) = some (some p) ↔ p.received = some p := by simp [receivedPolicy]
    rw [hmap, p.received_eq_iff]
    simp

lemma intros_received_iff (l : List Introduction) : l.map Introduction.received = l ↔ ∀ x ∈ l, 0 ≤ x.latency := by
  have hid : l.map Introduction.received = l.map id ↔ ∀ x ∈ l, x.received = x := map_inj_left
  rw [map_id] at hid
  rw [hid]
  exact forall₂_congr fun x _ => x.received_eq_iff

lemma received_same_iff (i : AdvertisedIntroSet) : (∃ j, i.received = some j ∧ j.Same i) ↔ i.Faithful := by
  unfold Faithful
  rw [← intros_received_iff, ← receivedPolicy_eq_iff, ← TrafficPolicy.ranges_eq_iff]
  constructor
  · rintro ⟨j, hj, hintros, _, _, hranges, _, hpolicy⟩
    obtain ⟨p, hp, hj⟩ := Option.bind_eq_some_iff.mp hj
    obtain ⟨r, hr, hj⟩ := Option.bind_eq_some_iff.mp hj
    cases hj
    refine ⟨hintros, ?_, ?_⟩
    · rw [hp]
      exact congrArg some hpolicy
    · rw [hr]
      exact congrArg some hranges
  · rintro ⟨hintros, hpolicy, hranges⟩
    refine ⟨{ i with addressKeys := i.addressKeys.received, intros := i.intros.map Introduction.received }, ?_, hintros,
      rfl, rfl, rfl, rfl, rfl⟩
    unfold received
    rw [hpolicy, hranges]
    rfl

end AdvertisedIntroSet

end Belnet.Service
