import Belnet.Path.Messages
import Belnet.Util.Dict

/-!
# Commit records on the wire

`BEncode` and `BDecode` of `llarp/messages/relay_commit.cpp`; the codecs of contacts and proofs of work are parameters.
-/

namespace Belnet.Path
open Iwp Util List Decimal

def RoundTrips {α : Type} (bencode : α → Writer) (bdecode : Bytes → Except MemFault (Option (α × Bytes))) (a : α) : Prop :=
  ∃ t, Emits (bencode a) t ∧ ∀ rest, bdecode (t ++ rest) = .ok (some (a, rest))

namespace LRCommitRecord
variable {codec : RCCodec} {pow : PoWCodec} {r s : LRCommitRecord} {n : ℕ}

lemma reads_buffer (key : UInt8) (x : AlignedBuffer n) (f : AlignedBuffer n → LRCommitRecord) (hn : n < 10^9 := by norm_num)
    (hsink : ∀ b, onKeyWith codec pow s (some [key]) b = bufferEntry f b := by intro _; rfl) :
    Reads (onKeyWith codec pow) s (str [key] ++ str x.toList) (f x) :=
  .entry (by simp) fun _ => by rw [hsink, bufferEntry_str f x hn]

lemma reads_version (hs : s.version = recordVersion) :
    Reads (onKeyWith codec pow) s (str [118] ++ int recordVersion) s := by
  refine .entry (by simp) fun rest => ?_
  refine (intEntry_int (fun i => if i = recordVersion then some { s with version := i } else none)
    recordVersion rest).trans ?_
  rw [← hs]
  simp

/-- the bytes of the entry of the next contact, where `P` holds of those of the contact -/
lemma exists_rcEntry (pow : PoWCodec) {P : Bytes → Prop} (h : ∀ rc, r.nextRC = some rc → ∃ t, P t ∧
      Emits (codec.bencode rc) t ∧ ∀ rest, codec.bdecode (t ++ rest) = .ok (some (rc, rest))) :
    ∃ e, (e = [] ∨ ∃ t, P t ∧ e = str [117] ++ t) ∧ Emits (writeOption 117 codec.bencode r.nextRC) e ∧
      ∀ s : LRCommitRecord, s.nextRC = none →
        Reads (onKeyWith codec pow) s e { s with nextRC := r.nextRC } := by
  cases hrc : r.nextRC with
  | none =>
    refine ⟨[], .inl rfl, emits_skip, fun s hs => ?_⟩
    rw [← hs]
    exact .nil
  | some rc =>
    obtain ⟨t, hP, hemits, hback⟩ := h rc hrc
    refine ⟨str [117] ++ t, .inr ⟨t, hP, rfl⟩, (emits_writeBytestring [117]).seq hemits, fun s _ => ?_⟩
    refine .entry (by simp) fun rest => ?_
    show codec.bdecode (t ++ rest) >>= _ = _
    rw [hback]
    rfl

lemma exists_powEntry (h : ∀ w, r.work = some w → RoundTrips pow.bencode pow.bdecode w) :
    ∃ e, Emits (writeOption 119 pow.bencode r.work) e ∧
      ∀ s : LRCommitRecord, s.work = none → Reads (onKeyWith codec pow) s e { s with work := r.work } := by
  cases hw : r.work with
  | none =>
    refine ⟨[], emits_skip, fun s hs => ?_⟩
    rw [← hs]
    exact .nil
  | some w =>
    obtain ⟨t, hemits, hback⟩ := h w hw
    refine ⟨str [119] ++ t, (emits_writeBytestring [119]).seq hemits, fun s hs => ?_⟩
    refine .entry (by simp) fun rest => ?_
    have hnone : s.work.isSome = false := by rw [hs]; rfl
    show (if s.work.isSome then _ else pow.bdecode (t ++ rest) >>= _) = _
    rw [hnone, hback]
    rfl

variable {b rest : Bytes}

lemma readText_cons {delim x : UInt8} {p : Bytes} (hx : x ≠ delim)
    (h : readText delim (n + 1) (x :: b) = some (p, rest)) : ∃ t, p = x :: t := by
  have hr : readUntil delim (n + 1) (x :: b) = (x :: (readUntil delim n b).1, (readUntil delim n b).2) := if_neg hx
  unfold readText at h
  simp only [hr] at h
  split at h
  · cases h
  · exact ⟨_, (Prod.mk.inj (Option.some.inj h)).1.symm⟩

lemma atoi_int (t : Bytes) : atoi (105 :: t) = 0 := by
  have hspace : isSpace 105 = false := by decide
  have hdigit : isDigit 105 = false := by decide
  simp [atoi, digitsValue, hspace, hdigit]

lemma readString_of_int {x : Bytes} (h : readString (105 :: b) = some (x, rest)) : x = [] := by
  unfold readString at h
  cases hnum : readText 58 9 (105 :: b) with
  | none =>
    rw [hnum] at h
    cases h
  | some =>
    obtain ⟨t, ht⟩ := readText_cons (by decide) hnum
    rw [hnum] at h
    simp only [ht, atoi_int, lt_self_iff_false, if_false, Int.toNat_zero, Nat.not_lt_zero, take_zero] at h
    exact (Prod.mk.inj (Option.some.inj h)).1.symm

lemma readBuffer_int (hn : n ≠ 0) (b : Bytes) : readBuffer n (105 :: b) = none := by
  unfold readBuffer
  cases hx : readString (105 :: b) with
  | none => rfl
  | some r =>
    obtain ⟨x, _⟩ := r
    obtain rfl := readString_of_int hx
    exact if_neg hn.symm

/-- a record's entries before and behind the lifetime; `e₁` is that of the next contact, `e₂` of the proof of work -/
def front (r : LRCommitRecord) : Bytes := (str [99] ++ str r.commkey.toList) ++ (str [105] ++ str r.nextHop.toList)

def back (r : LRCommitRecord) (e₁ e₂ : Bytes) : Bytes :=
  (str [110] ++ str r.tunnelNonce.toList) ++ (str [114] ++ str r.rxid.toList) ++ (str [116] ++ str r.txid.toList) ++ e₁
    ++ (str [118] ++ int recordVersion ++ e₂)

def lifetimeEntry (r : LRCommitRecord) : Bytes :=
  if Short r.lifetime then str [105] ++ int (.ofInt r.lifetime) else []

def text (r : LRCommitRecord) (e₁ e₂ : Bytes) : Bytes := 100 :: (front r ++ lifetimeEntry r ++ back r e₁ e₂) ++ [101]

lemma emits_buffer (k : UInt8) (x : Bytes) : Emits ((writeBytestring [k]).seq (writeBytestring x)) (str [k] ++ str x) :=
  (emits_writeBytestring [k]).seq (emits_writeBytestring x)

lemma emits_lifetime (r : LRCommitRecord) :
    Emits (if Short r.lifetime then writeDictInt [105] (.ofInt r.lifetime) else skip) (lifetimeEntry r) := by
  unfold lifetimeEntry
  split
  · exact emits_dictInt [105] _
  · exact emits_skip

variable {e₁ e₂ : Bytes}

lemma bencodeWith_writes (h₁ : Emits (writeOption 117 codec.bencode r.nextRC) e₁)
    (h₂ : Emits (writeOption 119 pow.bencode r.work) e₂) {b : Buf} (hb : b.cur + (text r e₁ e₂).length ≤ b.data.length) :
    ∃ d, r.bencodeWith codec pow b = (true, ⟨d, b.cur + (text r e₁ e₂).length⟩) ∧
      d.length = b.data.length ∧
      d.take (b.cur + (text r e₁ e₂).length) = b.data.take b.cur ++ text r e₁ e₂ := by
  have hentries := ((((((((emits_write [100]).seq (emits_buffer 99 r.commkey.toList)).seq
    (emits_buffer 105 r.nextHop.toList)).seq (emits_lifetime r)).seq (emits_buffer 110 r.tunnelNonce.toList)).seq
    (emits_buffer 114 r.rxid.toList)).seq (emits_buffer 116 r.txid.toList)).seq h₁).seq
    ((emits_dictInt [118] recordVersion).seq h₂)
  have htext : text r e₁ e₂ = [100] ++ (str [99] ++ str r.commkey.toList) ++ (str [105] ++ str r.nextHop.toList)
      ++ lifetimeEntry r ++ (str [110] ++ str r.tunnelNonce.toList) ++ (str [114] ++ str r.rxid.toList)
      ++ (str [116] ++ str r.txid.toList) ++ e₁ ++ (str [118] ++ int recordVersion ++ e₂) ++ [101] := by
    simp only [text, front, back, append_assoc, cons_append, nil_append]
  rw [htext] at hb ⊢
  exact hentries.seq_write (by simp) hb

lemma reads_front : Reads (onKeyWith codec pow) {} (front r) { commkey := r.commkey, nextHop := r.nextHop } :=
  (reads_buffer 99 r.commkey (fun x => { commkey := x })).append
    (reads_buffer 105 r.nextHop (fun x => { commkey := r.commkey, nextHop := x }))

lemma reads_back
    (h₁ : ∀ s : LRCommitRecord, s.nextRC = none → Reads (onKeyWith codec pow) s e₁ { s with nextRC := r.nextRC })
    (h₂ : ∀ s : LRCommitRecord, s.work = none → Reads (onKeyWith codec pow) s e₂ { s with work := r.work }) :
    Reads (onKeyWith codec pow) { commkey := r.commkey, nextHop := r.nextHop } (back r e₁ e₂)
      { r with version := recordVersion, lifetime := 0 } := by
  have hbuffers : Reads (onKeyWith codec pow) { commkey := r.commkey, nextHop := r.nextHop }
      ((str [110] ++ str r.tunnelNonce.toList) ++ (str [114] ++ str r.rxid.toList) ++ (str [116] ++ str r.txid.toList))
      { r with nextRC := none, work := none, version := recordVersion, lifetime := 0 } :=
    ((reads_buffer 110 r.tunnelNonce
        (fun x => { commkey := r.commkey, nextHop := r.nextHop, tunnelNonce := x })).append
      (reads_buffer 114 r.rxid
        (fun x => { commkey := r.commkey, nextHop := r.nextHop, tunnelNonce := r.tunnelNonce, rxid := x }))).append
      (reads_buffer 116 r.txid
        (fun x => { r with txid := x, nextRC := none, work := none, version := recordVersion, lifetime := 0 }))
  exact (hbuffers.append (h₁ _ rfl)).append ((reads_version rfl).append (h₂ _ rfl))

lemma bdecodeWith_text (hlife : ¬ Short r.lifetime)
    (h₁ : ∀ s : LRCommitRecord, s.nextRC = none → Reads (onKeyWith codec pow) s e₁ { s with nextRC := r.nextRC })
    (h₂ : ∀ s : LRCommitRecord, s.work = none → Reads (onKeyWith codec pow) s e₂ { s with work := r.work }) (rest : Bytes) :
    bdecodeWith codec pow (text r e₁ e₂ ++ rest) = .ok (some { r with version := recordVersion, lifetime := 0 }) := by
  have htext : text r e₁ e₂ ++ rest = 100 :: (front r ++ back r e₁ e₂ ++ [101]) ++ rest := by
    simp only [text, lifetimeEntry, if_neg hlife, append_nil, append_assoc, cons_append, nil_append]
  unfold bdecodeWith
  rw [htext, (reads_front.append (reads_back h₁ h₂)).dict rest]
  rfl

lemma bdecodeWith_text_short (hlife : Short r.lifetime) (rest : Bytes) :
    bdecodeWith codec pow (text r e₁ e₂ ++ rest) = .ok none := by
  have htext : text r e₁ e₂ ++ rest =
      100 :: (front r ++ (str [105] ++ int (.ofInt r.lifetime)) ++ (back r e₁ e₂ ++ 101 :: rest)) := by
    simp only [text, lifetimeEntry, if_pos hlife, append_assoc, cons_append, nil_append]
  unfold bdecodeWith
  rw [htext, reads_front.dict_none]
  · rfl
  intro rest
  have hsink : ∀ s b, onKeyWith codec pow s (some [105]) b = bufferEntry (fun x => { s with nextHop := x }) b :=
    fun _ _ => rfl
  rw [hsink]
  unfold bufferEntry int
  rw [cons_append, cons_append, readBuffer_int (by norm_num)]
  rfl

structure Survives (r r' : LRCommitRecord) : Prop where
  commkey : r'.commkey = r.commkey
  nextHop : r'.nextHop = r.nextHop
  tunnelNonce : r'.tunnelNonce = r.tunnelNonce
  txid : r'.txid = r.txid
  rxid : r'.rxid = r.rxid
  nextRC : r'.nextRC = r.nextRC
  work : r'.work = r.work
  lifetime : Short r.lifetime → r'.lifetime = r.lifetime

/-- Every record is written if there is room, and read back, whatever is behind it, exactly if its lifetime is not
written. -/
theorem record_survives_iff (hrc : ∀ rc, r.nextRC = some rc → RoundTrips codec.bencode codec.bdecode rc)
    (hwork : ∀ w, r.work = some w → RoundTrips pow.bencode pow.bdecode w) : ∃ t : Bytes,
    (∀ b : Buf, b.cur + t.length ≤ b.data.length → ∃ d, r.bencodeWith codec pow b = (true, ⟨d, b.cur + t.length⟩) ∧
      d.take (b.cur + t.length) = b.data.take b.cur ++ t) ∧
    ∀ rest, (∃ r', bdecodeWith codec pow (t ++ rest) = .ok (some r') ∧ Survives r r') ↔ ¬ Short r.lifetime := by
  obtain ⟨e₁, -, hemits₁, hreads₁⟩ := exists_rcEntry pow (P := fun _ => True) fun rc h => by
    obtain ⟨t, ht⟩ := hrc rc h
    exact ⟨t, trivial, ht⟩
  obtain ⟨e₂, hemits₂, hreads₂⟩ := exists_powEntry hwork
  refine ⟨text r e₁ e₂, fun b hb => ?_, fun rest => ?_⟩
  · obtain ⟨d, hd, -, htake⟩ := bencodeWith_writes hemits₁ hemits₂ hb
    exact ⟨d, hd, htake⟩
  constructor
  · rintro ⟨r', hr', -⟩ hlife
    rw [bdecodeWith_text_short hlife] at hr'
    cases hr'
  · intro hlife
    refine ⟨_, bdecodeWith_text hlife hreads₁ hreads₂ rest, ?_⟩
    exact ⟨rfl, rfl, rfl, rfl, rfl, rfl, rfl, fun h => absurd h hlife⟩

def emptyContact : RouterContact := ⟨⟨.zero 32, [], none, []⟩, .zero 32⟩

def contactCodec (rc : RouterContact) : RCCodec where
  bencode _ := writeBytestring []
  bdecode b := .ok ((readString b).map fun x => (rc, x.2))
  bdecode_inside _ _ _ := by simp

lemma contactCodec_roundTrips (rc : RouterContact) :
    RoundTrips (contactCodec rc).bencode (contactCodec rc).bdecode rc := by
  refine ⟨str [], emits_writeBytestring [], fun rest => ?_⟩
  show Except.ok ((readString (str [] ++ rest)).map fun x => (rc, x.2)) = _
  rw [readString_str (by simp)]
  rfl

lemma powCodec_roundTrips : RoundTrips PoW.codec.bencode PoW.codec.bdecode {} := by
  refine ⟨[100] ++ [101], (emits_write [100]).seq (emits_write [101]), fun rest => ?_⟩
  exact (Reads.nil : Reads PoW.decodeKey {} [] {}).dict rest

def defaultRecord : LRCommitRecord where
  nextRC := some emptyContact
  work := some {}
  lifetime := defaultLifetime

theorem defaultRecord_survives : ∃ t : Bytes, ∀ rest, ∃ r',
    bdecode (contactCodec emptyContact) (t ++ rest) = .ok (some r') ∧ Survives defaultRecord r' := by
  have hrc : ∀ rc, defaultRecord.nextRC = some rc →
      RoundTrips (contactCodec emptyContact).bencode (contactCodec emptyContact).bdecode rc := by
    rintro rc ⟨⟩
    exact contactCodec_roundTrips _
  have hwork : ∀ w, defaultRecord.work = some w → RoundTrips PoW.codec.bencode PoW.codec.bdecode w := by
    rintro w ⟨⟩
    exact powCodec_roundTrips
  obtain ⟨t, -, h⟩ := record_survives_iff hrc hwork
  exact ⟨t, fun rest => (h rest).mpr (by decide)⟩

/-- a record with a lifetime of one minute is written and not read -/
theorem minute_not_read : ∃ t : Bytes, (∀ b : Buf, b.cur + t.length ≤ b.data.length → ∃ d,
      bencode (contactCodec emptyContact) { lifetime := 60000 } b = (true, ⟨d, b.cur + t.length⟩) ∧
        d.take (b.cur + t.length) = b.data.take b.cur ++ t) ∧
    bdecode (contactCodec emptyContact) t = .ok none := by
  refine ⟨text { lifetime := 60000 } [] [], fun b hb => ?_, ?_⟩
  · have hrc : Emits (writeOption 117 (contactCodec emptyContact).bencode none) [] := emits_skip
    have hwork : Emits (writeOption 119 PoW.codec.bencode none) [] := emits_skip
    obtain ⟨d, hd, -, htake⟩ := bencodeWith_writes hrc hwork hb
    exact ⟨d, hd, htake⟩
  · rw [← append_nil (text _ [] [])]
    exact bdecodeWith_text_short (by decide) []

end LRCommitRecord

end Belnet.Path
