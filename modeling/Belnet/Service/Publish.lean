import Belnet.Service.Advertised

/-!
# Publishing an introset

`EncryptAndSignIntroSet` of `llarp/service/identity.cpp`: an introset is encoded, encrypted with the service's address
and signed.

* `introsets_readable`  which introsets are published and come back with the same content.
-/

namespace Belnet.Service
open Iwp Util Belnet.Path Decimal List EncryptedIntroSet Option AlignedBuffer UInt64 Dns.SRVTuple
variable {e : EncryptedIntroSet}

namespace EncryptedIntroSet

def decodeKey (e : EncryptedIntroSet) (key b : Bytes) : Except MemFault (Option (EncryptedIntroSet × Bytes)) :=
  if startsWith [120] key then
    .ok (match readString b with
      | some (x, b) => if maxIntrosetSize < x.length then none else some ({ e with introsetPayload := x }, b)
      | none => none)
  else if startsWith [100] key then bufferEntry (fun x => { e with derivedSigningKey := x }) b
  else if startsWith [110] key then bufferEntry (fun x => { e with nounce := x }) b
  else if startsWith [115] key then intEntry (fun x => some { e with signedAt := x.toInt64.toInt }) b
  else if startsWith [122] key then bufferEntry (fun x => { e with sig := x }) b
  else .ok none

def bdecode (b : Bytes) : Except MemFault (Option (EncryptedIntroSet × Bytes)) := decodeDict decodeKey {} b

lemma prints_bencode (e : EncryptedIntroSet) : PrintsDict e.bencode e.encoding := by
  have head := ((prints_write [100]).seq (prints_entry [100] e.derivedSigningKey.toList)).seq
    (prints_entry [110] e.nounce.toList)
  have body := (head.seq (prints_dictInt [115] (ofInt e.signedAt))).seq
    (prints_entry [120] e.introsetPayload)
  exact (body.seq (prints_entry [122] e.sig.toList)).dict

section
variable (htime : Timestamp e.signedAt) (hpayload : e.introsetPayload.length ≤ maxIntrosetSize)
include htime hpayload

lemma reads_entries :
    Reads (keySink decodeKey) {} (entry [100] e.derivedSigningKey.toList ++ entry [110] e.nounce.toList ++
      (str [115] ++ int (ofInt e.signedAt)) ++ entry [120] e.introsetPayload ++ entry [122] e.sig.toList) e := by
  have hkey (s) := reads_setBuffer decodeKey s 100 (fun s x => { s with derivedSigningKey := x }) e.derivedSigningKey
  have hnounce (s) := reads_setBuffer decodeKey s 110 (fun s x => { s with nounce := x }) e.nounce
  have hsigned (s : EncryptedIntroSet) : Reads (keySink decodeKey) s (str [115] ++ int (ofInt e.signedAt))
      { s with signedAt := e.signedAt } := by
    refine reads_int _ (fun x => some { s with signedAt := x.toInt64.toInt }) (fun _ => rfl) ?_
    rw [toInt64_ofInt htime]
  have hdata (s : EncryptedIntroSet) : Reads (keySink decodeKey) s (entry [120] e.introsetPayload)
      { s with introsetPayload := e.introsetPayload } := by
    apply reads_entry
    intro _
    unfold decodeKey
    rw [if_pos (by decide), readString_str (lt_of_le_of_lt hpayload (by norm_num))]
    dsimp only
    rw [if_neg (not_lt.mpr hpayload)]
  have hsig (s) := reads_setBuffer decodeKey s 122 (fun s x => { s with sig := x }) e.sig
  exact ((((hkey _).append (hnounce _)).append (hsigned _)).append (hdata _)).append (hsig _)

lemma bdecode_encoding : bdecode e.encoding = .ok (some (e, [])) := by
  unfold bdecode
  rw [← append_nil e.encoding]
  exact dict_reads (reads_entries htime hpayload) []

end

def sealedLength (n : ℕ) (t : Millis) : ℕ := n + (decimal n).length + (decimal (UInt64.ofInt t).toNat).length + 157

lemma encoding_length (e : EncryptedIntroSet) :
    e.encoding.length = sealedLength e.introsetPayload.length e.signedAt := by
  have h1 : (decimal 1).length = 1 := by simp [decimal]
  have h32 : (decimal 32).length = 2 := by simp [decimal]
  have h64 : (decimal 64).length = 2 := by simp [decimal]
  simp only [encoding, entry, str, int, sealedLength, length_append, length_cons, length_nil,
    Vector.toList_length, h1, h32, h64]
  omega

lemma signed_into (e : EncryptedIntroSet) :
    e.signed = { e with sig := .zero 64 }.bencode.into (maxIntrosetSize + 128) := by
  unfold signed Writer.into
  generalize bencode { e with sig := .zero 64 } ⟨replicate (maxIntrosetSize + 128) 0, 0⟩ = r
  obtain ⟨ok, b⟩ := r
  cases ok with
  | true => rfl
  | false => rfl

end EncryptedIntroSet

/-! ## publishing -/

/-- the keys of `Identity` that publishing uses: `derivedPublic` and `sign` are those of `derivedSignKey` -/
structure Publisher where
  pub : ServiceInfo
  pqPublic : Bytes
  derivedPublic : Option PubKey
  sign : Bytes → Option Signature

def EncryptedIntroSet.sign (e : EncryptedIntroSet) (id : Publisher) (timeNow : Millis) : Option EncryptedIntroSet := do
  let k ← id.derivedPublic
  let e := { e with signedAt := timeNow, derivedSigningKey := k, sig := .zero 64 }
  let buf ← e.bencode.into (maxIntrosetSize + 128)
  let z ← id.sign buf
  return { e with sig := z }

def AdvertisedIntroSet.prepared (i : AdvertisedIntroSet) (id : Publisher) (now : Millis) : AdvertisedIntroSet :=
  { i with timestampSignedAt := now, addressKeys := id.pub, sntrupKey := id.pqPublic }

def encryptAndSignIntroSet (c : Crypto) (lib : IntroSetLibs) (id : Publisher) (nounce : TunnelNonce) (timeNow : Millis)
    (i : AdvertisedIntroSet) (now : Millis) : Option EncryptedIntroSet :=
  if i.intros = [] then none
  else do
    let buf ← ((i.prepared id now).bencode lib).into maxIntrosetSize
    let payload := c.xchacha20 buf id.pub.addr nounce
    sign { nounce, signedAt := now, introsetPayload := payload } id timeNow

def EncryptedIntroSet.maybeDecryptAll (c : Crypto) (lib : IntroSetLibs) (e : EncryptedIntroSet) (root : PubKey) :
    Except MemFault (Option AdvertisedIntroSet) :=
  AdvertisedIntroSet.bdecode lib (c.xchacha20 e.introsetPayload root e.nounce)

/-- Readers get what was published: it verifies until it expires, is read back as written, and decrypts with the
service's address. -/
def EncryptedIntroSet.Readable (c : Crypto) (lib : IntroSetLibs) (addr : Address) (e : EncryptedIntroSet)
    (i : AdvertisedIntroSet) : Prop :=
  (∀ t, e.isExpired t = false → e.verify c t = true) ∧ (e.bencode.into (maxIntrosetSize + 128)).isSome ∧
    (∀ b b' : Buf, b.cur ≤ b.data.length → e.bencode b = (true, b') →
      bdecode ((b'.data.take b'.cur).drop b.cur) = .ok (some (e, []))) ∧
    ∃ j, e.maybeDecryptAll c lib addr = .ok (some j) ∧ j.Same i

section
variable {c : Crypto} {lib : IntroSetLibs} {id : Publisher} {nounce : TunnelNonce} {timeNow now : Millis}
  {i : AdvertisedIntroSet} {k : PubKey}

def unsigned (c : Crypto) (lib : IntroSetLibs) (id : Publisher) (nounce : TunnelNonce) (timeNow : Millis)
    (i : AdvertisedIntroSet) (now : Millis) (k : PubKey) : EncryptedIntroSet where
  derivedSigningKey := k
  signedAt := timeNow
  introsetPayload := c.xchacha20 ((i.prepared id now).encoding lib) id.pub.addr nounce
  nounce := nounce

lemma sign_eq (hk : id.derivedPublic = some k) (e : EncryptedIntroSet) : e.sign id timeNow =
    if sealedLength e.introsetPayload.length timeNow ≤ maxIntrosetSize + 128 then
      (id.sign { e with signedAt := timeNow, derivedSigningKey := k, sig := .zero 64 }.encoding).map
        fun z => { e with signedAt := timeNow, derivedSigningKey := k, sig := z }
    else none := by
  unfold sign
  rw [hk]
  simp only [Option.bind_eq_bind, Option.bind_some, Option.pure_def, Option.map_eq_bind, Function.comp_def]
  rw [(prints_bencode _).into_eq, encoding_length]
  split
  · rw [Option.bind_some]
  · rw [bind_none]

lemma encryptAndSignIntroSet_eq (hk : id.derivedPublic = some k) (hintros : i.intros ≠ []) :
    encryptAndSignIntroSet c lib id nounce timeNow i now =
      if sealedLength ((i.prepared id now).encoding lib).length timeNow ≤ maxIntrosetSize + 128 then
        (id.sign (unsigned c lib id nounce timeNow i now k).encoding).map fun z =>
          { unsigned c lib id nounce timeNow i now k with sig := z }
      else none := by
  have hfirst := ((i.prepared id now).prints_bencode lib).into_eq maxIntrosetSize
  unfold encryptAndSignIntroSet
  rw [if_neg hintros, hfirst]
  by_cases hfits : ((i.prepared id now).encoding lib).length ≤ maxIntrosetSize
  · rw [if_pos hfits, bind_eq_bind, bind_some, sign_eq hk]
    dsimp only [unsigned]
    rw [Crypto.xchacha20_length]
  rw [if_neg hfits, if_neg]
  · rfl
  · unfold sealedLength
    omega

lemma verify_unexpired (hlen : e.encoding.length ≤ maxIntrosetSize + 128)
    (hsig : c.verify e.derivedSigningKey { e with sig := .zero 64 }.encoding e.sig = true) {t : Millis}
    (ht : e.isExpired t = false) : e.verify c t = true := by
  have hlen' : { e with sig := .zero 64 }.encoding.length ≤ maxIntrosetSize + 128 := by
    rw [encoding_length] at hlen ⊢
    exact hlen
  unfold verify
  rw [ht, signed_into, (prints_bencode _).into_eq, if_pos hlen']
  exact hsig

lemma serializeAll_length_le (lib : IntroSetLibs) (i : AdvertisedIntroSet) :
    (serializeAll i.srvs).length ≤ (i.encoding lib).length := by
  unfold AdvertisedIntroSet.encoding AdvertisedIntroSet.last
  by_cases h : i.srvs = []
  · rw [h]
    simp only [serializeAll, flatMap_nil, length_append, length_cons, length_nil]
    omega
  · rw [if_neg h]
    simp only [length_append, length_cons]
    omega

lemma maybeDecryptAll_eq (hlib : lib.Lawful) (hpq : id.pqPublic.length = lib.pqPubKeySize)
    (hrange : ∀ x ∈ i.intros, x.InRange) (hnow : Timestamp now)
    (hfits : ((i.prepared id now).encoding lib).length < 10^9)
    (he : e.introsetPayload = c.xchacha20 ((i.prepared id now).encoding lib) id.pub.addr e.nounce) :
    e.maybeDecryptAll c lib id.pub.addr = .ok (i.prepared id now).received := by
  have hsrvs := serializeAll_length_le lib (i.prepared id now)
  unfold maybeDecryptAll
  rw [he, EncryptedFrame.xchacha20_twice]
  exact AdvertisedIntroSet.bdecode_encoding hlib hrange hpq hnow (by omega)

/-- An introset with introductions reaches its readers exactly when it fits once sealed, no latency is negative, and
its ranges' netmasks are numbers of bits. -/
theorem introsets_readable (hlib : lib.Lawful) (hk : id.derivedPublic = some k)
    (hsign : ∀ b, ∃ z, id.sign b = some z ∧ c.verify k b z = true) (hpq : id.pqPublic.length = lib.pqPubKeySize)
    (hintros : i.intros ≠ []) (hrange : ∀ x ∈ i.intros, x.InRange) (hnow : Timestamp now)
    (htime : Timestamp timeNow) :
    (∃ e, encryptAndSignIntroSet c lib id nounce timeNow i now = some e ∧ e.Readable c lib id.pub.addr i) ↔
      sealedLength ((i.prepared id now).encoding lib).length timeNow ≤ maxIntrosetSize + 128 ∧ i.Faithful := by
  rw [encryptAndSignIntroSet_eq hk hintros]
  by_cases hfits : sealedLength ((i.prepared id now).encoding lib).length timeNow ≤ maxIntrosetSize + 128
  case neg =>
    rw [if_neg hfits]
    constructor
    · rintro ⟨e, he, -⟩
      cases he
    · rintro ⟨h, -⟩
      exact absurd h hfits
  rw [if_pos hfits]
  have hshort : ((i.prepared id now).encoding lib).length ≤ maxIntrosetSize := by
    unfold sealedLength at hfits
    omega
  have hdecrypt : ∀ z, maybeDecryptAll c lib { unsigned c lib id nounce timeNow i now k with sig := z }
      id.pub.addr = .ok (i.prepared id now).received := by
    intro z
    refine maybeDecryptAll_eq hlib hpq hrange hnow (lt_of_le_of_lt hshort (by norm_num)) ?_
    dsimp only [unsigned]
  have hreceived : (∃ j, (i.prepared id now).received = some j ∧ j.Same i) ↔ i.Faithful :=
    (i.prepared id now).received_same_iff
  constructor
  · rintro ⟨e, he, -, -, -, j, hj, hsame⟩
    obtain ⟨z, -, rfl⟩ := map_eq_some_iff.mp he
    refine ⟨hfits, hreceived.mp ⟨j, ?_, hsame⟩⟩
    rw [hdecrypt z] at hj
    exact Except.ok.inj hj
  · rintro ⟨-, hfaithful⟩
    obtain ⟨z, hz, hverify⟩ := hsign (unsigned c lib id nounce timeNow i now k).encoding
    obtain ⟨j, hj, hsame⟩ := hreceived.mpr hfaithful
    have hj' := (hdecrypt z).trans (congrArg Except.ok hj)
    rw [hz]
    generalize he : { unsigned c lib id nounce timeNow i now k with sig := z } = e at hj'
    have hpayload : e.introsetPayload.length = ((i.prepared id now).encoding lib).length := by
      rw [← he]
      dsimp only [unsigned]
      rw [Crypto.xchacha20_length]
    have hsigned : e.signedAt = timeNow := by
      rw [← he]
      dsimp only [unsigned]
    have hlen : e.encoding.length ≤ maxIntrosetSize + 128 := by
      rw [e.encoding_length, hpayload, hsigned]
      exact hfits
    refine ⟨e, congrArg some he, ?_, ?_, ?_, j, hj', hsame⟩
    · intro t ht
      refine verify_unexpired hlen ?_ ht
      rw [← he]
      dsimp only [unsigned] at hverify ⊢
      exact hverify
    · rw [e.prints_bencode.into_eq, if_pos hlen]
      rfl
    · intro b b' hb hb'
      rw [e.prints_bencode.written hb hb']
      exact bdecode_encoding (by rw [hsigned]; exact htime) (by rw [hpayload]; exact hshort)

end

namespace Sample

/-- `PQ_PUBKEYSIZE` -/
abbrev pqSize : ℕ := 1218

def libs : IntroSetLibs := ⟨Net.Libs.decimals, Dns.BtLibs.taking, pqSize⟩

lemma libs_lawful : libs.Lawful := ⟨Net.Libs.decimals_lawful, Dns.BtLibs.taking_lawful, by decide⟩

def publisher : Publisher where
  pub := { signkey := key 1 }
  pqPublic := replicate pqSize 9
  derivedPublic := some (key 1)
  sign _ := some (ofBytes 64 [1])

lemma publisher_signs (b : Bytes) : ∃ z, publisher.sign b = some z ∧ crypto.toCrypto.verify (key 1) b z = true :=
  ⟨ofBytes 64 [1], rfl, rfl⟩

def range : Net.IPRange := ⟨Net.expandV4 0x0a000000, Net.netmaskIpv6Bits 104⟩

lemma range_plain : range.Plain := ⟨104, by decide, rfl, fun _ => by decide⟩

def ranges : Ordered.SortedSet Net.IPRange.key := ⟨[range], pairwise_singleton _ _⟩

def exitSet (n : ℕ) : AdvertisedIntroSet where
  addressKeys := { signkey := key 1 }
  intros := [{ pathID := ofBytes 16 [3], latency := 20, expiresAt := 1700000600000 }]
  sntrupKey := replicate pqSize 9
  topic := ofBytes 16 [7]
  supportedProtocols := [4]
  exitTrafficPolicy := some ⟨ranges, ⟨[⟨6, some 20480⟩], pairwise_singleton _ _⟩⟩
  ownedRanges := ranges
  srvs := replicate n ([95, 120, 109, 112, 112, 46, 95, 116, 99, 112], 0, 0, 5222, [46])
  timestampSignedAt := 1700000000000

/-- a service that is no exit, with `n` SRV records -/
def serviceSet (n : ℕ) : AdvertisedIntroSet :=
  { exitSet n with exitTrafficPolicy := none, ownedRanges := .empty }

lemma ranges_plain : ∀ r ∈ ranges.toList, r.Plain := by
  intro r hr
  rw [mem_singleton.mp hr]
  exact range_plain

lemma exitSet_faithful (n : ℕ) : (exitSet n).Faithful := by
  refine ⟨by simp [exitSet], ?_, ranges_plain⟩
  intro p hp
  cases hp
  exact ranges_plain

end Sample

open Sample

theorem introsets_readable_exit : ∃ e,
    encryptAndSignIntroSet crypto.toCrypto libs publisher (.zero 32) 1700000000001
      (exitSet 2) 1700000000000 = some e ∧
    e.Readable crypto.toCrypto libs publisher.pub.addr (exitSet 2) :=
  (introsets_readable libs_lawful (k := key 1) rfl publisher_signs length_replicate (by decide)
    (by decide) (by decide) (by decide)).mpr ⟨by decide +kernel, exitSet_faithful 2⟩

/-- with 85 records the introset has 4092 bytes, as it is and as it is encrypted, and cannot be
signed -/
theorem introset_not_published : (serviceSet 85).intros ≠ [] ∧
    ((serviceSet 85).encoding libs).length ≤ maxIntrosetSize ∧
    (((serviceSet 85).prepared publisher 1700000000000).encoding libs).length ≤ maxIntrosetSize ∧
    encryptAndSignIntroSet crypto.toCrypto libs publisher (.zero 32) 1700000000001
      (serviceSet 85) 1700000000000 = none := by
  refine ⟨by decide, by decide +kernel, by decide +kernel, ?_⟩
  rw [encryptAndSignIntroSet_eq (k := key 1) rfl (by decide), if_neg (by decide +kernel)]

end Belnet.Service
