import Belnet.Iwp.Packet
import Belnet.Util.Bencode

/-!
# Encrypted frames

`llarp/crypto/encrypted_frame.cpp`: a storage of `encryptedFrameSize` bytes, of which the first `sz` are `hash ++ nonce
++ pubkey ++ body`.
-/

namespace Belnet.Path
open Iwp Util List Bytes AlignedBuffer Crypto

abbrev encryptedFrameOverheadSize : ℕ := 32 + 32 + 32

abbrev encryptedFrameBodySize : ℕ := 128 * 6

abbrev encryptedFrameSize : ℕ := encryptedFrameOverheadSize + encryptedFrameBodySize

structure PathCrypto extends Crypto where
  dhClient : PubKey → SecretKey → TunnelNonce → Option SharedSecret
  dhServer : PubKey → SecretKey → TunnelNonce → Option SharedSecret
  toPublic : SecretKey → PubKey

def sub64 (a b : ℕ) : ℕ := (a + (2^64 - b)) % 2^64

variable {a b : ℕ}

lemma sub64_of_le (h : b ≤ a) (ha : a < 2^64) : sub64 a b = a - b := by
  unfold sub64
  omega

lemma sub64_of_lt (h : a < b) (hb : b ≤ 2^64) : sub64 a b = 2^64 - (b - a) := by
  unfold sub64
  omega

structure EncryptedFrame where
  buf : AlignedBuffer encryptedFrameSize
  sz : ℕ
  sz_le : sz ≤ encryptedFrameSize

abbrev Frames := List.Vector EncryptedFrame 8

namespace EncryptedFrame
variable (f : EncryptedFrame)

def bytes (off n : ℕ) : Bytes := part f.buf.toList off n

def write (off : ℕ) (x : Bytes) : EncryptedFrame :=
  { f with buf := AlignedBuffer.ofBytes _ (overwrite f.buf.toList off x) }

def region (off n : ℕ) : Except MemFault Bytes :=
  if off + n ≤ encryptedFrameSize then .ok (f.bytes off n) else .error (.outside off n)

def new (sz : ℕ) : EncryptedFrame where
  buf := AlignedBuffer.zero _
  sz := min sz encryptedFrameBodySize + encryptedFrameOverheadSize
  sz_le := by unfold encryptedFrameSize; omega

def copied : EncryptedFrame where
  buf := AlignedBuffer.ofBytes _ (f.bytes 0 f.sz)
  sz := f.sz
  sz_le := f.sz_le

def assign (f g : EncryptedFrame) : EncryptedFrame :=
  { f.write 0 (g.bytes 0 g.sz) with sz := g.sz, sz_le := g.sz_le }

def randomize (r : Bytes) : EncryptedFrame := f.write 0 (r.take f.sz)

/-- `BDecode` with the string `b`: the storage keeps what is behind it.  `sizeof` counts a pointer and padding, so up
to sixteen bytes too many are copied. -/
def bdecode (b : Bytes) : Except MemFault (Option EncryptedFrame) :=
  if encryptedFrameSize + 16 < b.length then .ok none
  else if h : b.length ≤ encryptedFrameSize then
    .ok (some { f.write 0 b with sz := b.length, sz_le := h })
  else .error (.outside 0 b.length)

def hash : ShortHash := AlignedBuffer.ofBytes 32 (f.bytes 0 32)

def nonce : TunnelNonce := AlignedBuffer.ofBytes 32 (f.bytes 32 32)

def pubkey : PubKey := AlignedBuffer.ofBytes 32 (f.bytes 64 32)

def body : Bytes := f.bytes encryptedFrameOverheadSize (f.sz - encryptedFrameOverheadSize)

def writeRecord (w : Writer) (f : EncryptedFrame) : Bool × EncryptedFrame :=
  let r := w ⟨f.bytes 0 f.sz, encryptedFrameOverheadSize⟩
  (r.1, f.write 0 r.2.data)

section
variable (c : Crypto) (shared : SharedSecret)

def doEncrypt (noise : Option (TunnelNonce × PubKey)) (f : EncryptedFrame) :
    Except MemFault (Bool × EncryptedFrame) := do
  let f := match noise with
    | some (n, pk) => (f.write 32 n.toList).write 64 pk.toList
    | none => f
  let body ← f.region encryptedFrameOverheadSize (sub64 f.sz encryptedFrameOverheadSize)
  -- encrypt body
  let f := f.write encryptedFrameOverheadSize (c.xchacha20 body shared f.nonce)
  -- generate message auth
  let buf ← f.region 32 (sub64 f.sz 32)
  match c.hmac buf shared with
  | none => return (false, f)
  | some h => return (true, f.write 0 h.toList)

def doDecrypt (f : EncryptedFrame) : Except MemFault (Bool × EncryptedFrame) := do
  let buf ← f.region 32 (sub64 f.sz 32)
  match c.hmac buf shared with
  | none => return (false, f)
  | some digest =>
    if digest ≠ f.hash then return (false, f)
    else
      let body ← f.region encryptedFrameOverheadSize (sub64 f.sz encryptedFrameOverheadSize)
      return (true, f.write encryptedFrameOverheadSize (c.xchacha20 body shared f.nonce))

end

def encryptInPlace (c : PathCrypto) (ourSecretKey : SecretKey) (otherPubkey : PubKey) (n : TunnelNonce)
    (f : EncryptedFrame) : Except MemFault (Bool × EncryptedFrame) :=
  let f := (f.write 64 (c.toPublic ourSecretKey).toList).write 32 n.toList
  match c.dhClient otherPubkey ourSecretKey n with
  | none => .ok (false, f)
  | some shared => f.doEncrypt c.toCrypto shared none

def decryptInPlace (c : PathCrypto) (ourSecretKey : SecretKey) (f : EncryptedFrame) :
    Except MemFault (Bool × EncryptedFrame) :=
  match c.dhServer f.pubkey ourSecretKey f.nonce with
  | none => .ok (false, f)
  | some shared => f.doDecrypt c.toCrypto shared

section
variable {f : EncryptedFrame} {off off' n : ℕ} {x : Bytes}

lemma write_toList (h : off + x.length ≤ encryptedFrameSize) :
    (f.write off x).buf.toList = overwrite f.buf.toList off x := by
  have hlen : f.buf.toList.length = encryptedFrameSize := f.buf.toList_length
  have hover := overwrite_length (show off + x.length ≤ f.buf.toList.length by omega)
  show (overwrite f.buf.toList off x ++ replicate _ 0).take encryptedFrameSize = _
  rw [take_append_of_le_length (by omega), take_of_length_le (by omega)]

lemma bytes_length (h : off + n ≤ encryptedFrameSize) : (f.bytes off n).length = n :=
  part_length (by rw [f.buf.toList_length]; exact h)

lemma bytes_write (h : off + x.length ≤ encryptedFrameSize) (hn : x.length = n) : (f.write off x).bytes off n = x := by
  subst hn
  unfold bytes
  rw [write_toList h]
  exact part_overwrite (by rw [f.buf.toList_length]; exact h)

lemma write_apart (h : off + x.length ≤ encryptedFrameSize)
    (hapart : off' + n ≤ off ∨ off + x.length ≤ off') : (f.write off x).bytes off' n = f.bytes off' n := by
  unfold bytes
  rw [write_toList h]
  exact part_overwrite_apart (by rw [f.buf.toList_length]; exact h) hapart

lemma region_of_le (h : off + n ≤ encryptedFrameSize) : f.region off n = .ok (f.bytes off n) := if_pos h

end

def Same (f g : EncryptedFrame) : Prop := f.sz = g.sz ∧ f.bytes 0 f.sz = g.bytes 0 f.sz

variable {n off : ℕ}

section
variable {f g h : EncryptedFrame}

lemma Same.refl (f : EncryptedFrame) : Same f f := ⟨rfl, rfl⟩

lemma Same.trans (hfg : Same f g) (hgh : Same g h) : Same f h := by
  refine ⟨hfg.1.trans hgh.1, hfg.2.trans ?_⟩
  rw [hfg.1]
  exact hgh.2

lemma Same.bytes (hs : Same f g) (h : off + n ≤ f.sz) : f.bytes off n = g.bytes off n := by
  have hpart : ∀ e : EncryptedFrame, e.bytes off n = part (e.bytes 0 f.sz) off n := by
    intro e
    apply ext_getElem?
    intro k
    unfold EncryptedFrame.bytes
    rw [part_get, part_get, part_get]
    by_cases hk : k < n
    · rw [if_pos hk, if_pos hk, if_pos (by omega), Nat.zero_add]
    · rw [if_neg hk, if_neg hk]
  rw [hpart f, hpart g, hs.2]

lemma frame_sizes : encryptedFrameSize = 864 ∧ encryptedFrameOverheadSize = 96 := ⟨rfl, rfl⟩

lemma whole_length (g : EncryptedFrame) : (g.bytes 0 g.sz).length = g.sz := bytes_length (by have := g.sz_le; omega)

lemma assign_same (f g : EncryptedFrame) : Same g (f.assign g) := by
  have hlen := g.whole_length
  refine ⟨rfl, ?_⟩
  exact (bytes_write (by rw [hlen]; have := g.sz_le; omega) hlen).symm

lemma copied_same (g : EncryptedFrame) : Same g g.copied := by
  have hlen := g.whole_length
  refine ⟨rfl, ?_⟩
  show g.bytes 0 g.sz = part ((g.bytes 0 g.sz ++ _).take encryptedFrameSize) 0 g.sz
  unfold part
  rw [drop_zero, take_take, Nat.min_eq_left g.sz_le, take_append_of_le_length (by omega), take_of_length_le (by omega)]

lemma bdecode_bytes (f g : EncryptedFrame) : f.bdecode (g.bytes 0 g.sz) = .ok (some (f.assign g)) := by
  have hlen := g.whole_length
  have hsz := g.sz_le
  unfold bdecode
  rw [if_neg (by omega), dif_pos (by omega)]
  simp only [assign, hlen]

end

section
variable {c : Crypto} {k : SharedSecret} {f g : EncryptedFrame}

def MacOk (c : Crypto) (k : SharedSecret) (f : EncryptedFrame) : Prop := c.hmac (f.bytes 32 (f.sz - 32)) k = some f.hash

instance : Decidable (MacOk c k f) := inferInstanceAs (Decidable (_ = _))

section
variable (hs : Same f g)
include hs

lemma Same.hash (h : 32 ≤ f.sz) : f.hash = g.hash := by
  unfold EncryptedFrame.hash
  rw [hs.bytes (by omega)]

lemma Same.nonce (h : 64 ≤ f.sz) : f.nonce = g.nonce := by
  unfold EncryptedFrame.nonce
  rw [hs.bytes (by omega)]

lemma Same.pubkey (h : 96 ≤ f.sz) : f.pubkey = g.pubkey := by
  unfold EncryptedFrame.pubkey
  rw [hs.bytes (by omega)]

lemma Same.body (h : encryptedFrameOverheadSize ≤ f.sz) : f.body = g.body := by
  unfold EncryptedFrame.body
  rw [← hs.1, hs.bytes (by omega)]

lemma Same.macOk (h : 32 ≤ f.sz) : MacOk c k f ↔ MacOk c k g := by
  unfold MacOk
  rw [← hs.1, ← hs.hash h, hs.bytes (by omega)]

end

def crypted (c : Crypto) (k : SharedSecret) (f : EncryptedFrame) : EncryptedFrame :=
  f.write encryptedFrameOverheadSize (c.xchacha20 f.body k f.nonce)

lemma xchacha20_twice (c : Crypto) (k : SharedSecret) (n : TunnelNonce) (b : Bytes) :
    c.xchacha20 (c.xchacha20 b k n) k n = b := xorStream_twice _ _

lemma hash_write (h : ShortHash) : (f.write 0 h.toList).hash = h := by
  have hlen : h.toList.length = 32 := h.toList_length
  unfold hash
  rw [bytes_write (by rw [hlen]; decide) hlen]
  simpa using ofBytes_append h []

variable {x : Bytes}

lemma nonce_write_apart (h : off + x.length ≤ encryptedFrameSize)
    (hapart : 64 ≤ off ∨ off + x.length ≤ 32) : (f.write off x).nonce = f.nonce := by
  unfold nonce
  rw [write_apart h hapart]

lemma body_length (h : encryptedFrameOverheadSize ≤ f.sz) : f.body.length = f.sz - encryptedFrameOverheadSize :=
  bytes_length (by have := f.sz_le; omega)

lemma crypted_fits (c : Crypto) (k : SharedSecret) (h : encryptedFrameOverheadSize ≤ f.sz) :
    encryptedFrameOverheadSize + (c.xchacha20 f.body k f.nonce).length ≤ encryptedFrameSize := by
  have hsz := f.sz_le
  rw [xchacha20_length, body_length h]
  omega

section
variable (h : encryptedFrameOverheadSize ≤ f.sz)
include h

lemma crypted_body : (crypted c k f).body = c.xchacha20 f.body k f.nonce := by
  have hlen : (c.xchacha20 f.body k f.nonce).length = f.sz - encryptedFrameOverheadSize := by
    rw [xchacha20_length, body_length h]
  exact bytes_write (crypted_fits c k h) hlen

lemma crypted_nonce : (crypted c k f).nonce = f.nonce := nonce_write_apart (crypted_fits c k h) (.inl (by decide))

lemma regions_of_le : f.region 32 (sub64 f.sz 32) = .ok (f.bytes 32 (f.sz - 32)) ∧
      f.region encryptedFrameOverheadSize (sub64 f.sz encryptedFrameOverheadSize) = .ok f.body := by
  have hsz : f.sz ≤ 864 := f.sz_le
  have h96 : 96 ≤ f.sz := h
  rw [sub64_of_le (show 32 ≤ f.sz by omega) (by omega), sub64_of_le h (by omega)]
  exact ⟨region_of_le (show 32 + (f.sz - 32) ≤ 864 by omega), region_of_le (show 96 + (f.sz - 96) ≤ 864 by omega)⟩

end

lemma doDecrypt_mac (h : 32 ≤ f.sz) : f.doDecrypt c k = if MacOk c k f then
        (fun body => (true, f.write encryptedFrameOverheadSize (c.xchacha20 body k f.nonce))) <$>
          f.region encryptedFrameOverheadSize (sub64 f.sz encryptedFrameOverheadSize)
      else .ok (false, f) := by
  have hsz : f.sz ≤ 864 := f.sz_le
  have hmac : f.region 32 (sub64 f.sz 32) = .ok (f.bytes 32 (f.sz - 32)) := by
    rw [sub64_of_le h (by omega)]
    exact region_of_le (show 32 + (f.sz - 32) ≤ 864 by omega)
  unfold doDecrypt
  rw [hmac]
  show (match c.hmac (f.bytes 32 (f.sz - 32)) k with
    | none => _
    | some digest => _) = _
  by_cases hok : MacOk c k f
  · have hm : c.hmac (f.bytes 32 (f.sz - 32)) k = some f.hash := hok
    simp only [if_pos hok, hm, ne_eq]
    cases f.region encryptedFrameOverheadSize (sub64 f.sz encryptedFrameOverheadSize) <;> rfl
  rw [if_neg hok]
  split
  · rfl
  rename_i digest hm
  have hne : digest ≠ f.hash := fun heq => hok (hm.trans (congrArg some heq))
  rw [if_pos hne]
  rfl

lemma doDecrypt_eq (h : encryptedFrameOverheadSize ≤ f.sz) :
    f.doDecrypt c k = .ok (if MacOk c k f then (true, crypted c k f) else (false, f)) := by
  have h96 : 96 ≤ f.sz := h
  rw [doDecrypt_mac (by omega), (regions_of_le h).2]
  split <;> rfl

variable (noise : Option (TunnelNonce × PubKey))

def noised (f : EncryptedFrame) : EncryptedFrame :=
  match noise with
  | some (n, pk) => (f.write 32 n.toList).write 64 pk.toList
  | none => f

lemma noised_sz : (noised noise f).sz = f.sz := by cases noise <;> rfl

lemma noised_body : (noised noise f).body = f.body := by
  cases noise with
  | none => rfl
  | some np =>
    obtain ⟨n, pk⟩ := np
    have hn : n.toList.length = 32 := n.toList_length
    have hpk : pk.toList.length = 32 := pk.toList_length
    show ((f.write 32 n.toList).write 64 pk.toList).bytes 96 (f.sz - 96) = f.bytes 96 (f.sz - 96)
    rw [write_apart (by rw [hpk]; decide) (.inr (by omega)),
      write_apart (by rw [hn]; decide) (.inr (by omega))]

lemma doEncrypt_noised : f.doEncrypt c k noise = (noised noise f).doEncrypt c k none := by cases noise <;> rfl

variable {noise : Option (TunnelNonce × PubKey)}

section
variable (h : encryptedFrameOverheadSize ≤ f.sz)
include h

variable (noise) in
lemma noised_fits : encryptedFrameOverheadSize ≤ (noised noise f).sz := by rw [noised_sz]; exact h

lemma doEncrypt_eq : f.doEncrypt c k noise = .ok
      (match c.hmac ((crypted c k (noised noise f)).bytes 32 (f.sz - 32)) k with
        | none => (false, crypted c k (noised noise f))
        | some m => (true, (crypted c k (noised noise f)).write 0 m.toList)) := by
  have h' := noised_fits noise h
  have hc : encryptedFrameOverheadSize ≤ (crypted c k (noised noise f)).sz := h'
  have hsz : (crypted c k (noised noise f)).sz = f.sz := noised_sz noise
  have hcrypted : (noised noise f).write encryptedFrameOverheadSize
      (c.xchacha20 (noised noise f).body k (noised noise f).nonce) = crypted c k (noised noise f) := rfl
  rw [doEncrypt_noised]
  unfold doEncrypt
  dsimp only
  rw [(regions_of_le h').2, Run.ok_bind_eq, hcrypted, (regions_of_le hc).1, hsz, Run.ok_bind_eq]
  cases c.hmac ((crypted c k (noised noise f)).bytes 32 (f.sz - 32)) k <;> rfl

lemma doEncrypt_ok (hok : f.doEncrypt c k noise = .ok (true, g)) :
    ∃ m, c.hmac ((crypted c k (noised noise f)).bytes 32 (f.sz - 32)) k = some m ∧
      g = (crypted c k (noised noise f)).write 0 m.toList := by
  rw [doEncrypt_eq h] at hok
  cases hm : c.hmac ((crypted c k (noised noise f)).bytes 32 (f.sz - 32)) k with
  | none =>
    rw [hm] at hok
    cases hok
  | some m =>
    rw [hm] at hok
    cases hok
    exact ⟨m, rfl, rfl⟩

lemma doEncrypt_total (htotal : ∀ b k, c.hmac b k ≠ none) : ∃ g, f.doEncrypt c k noise = .ok (true, g) := by
  rw [doEncrypt_eq h]
  cases hm : c.hmac ((crypted c k (noised noise f)).bytes 32 (f.sz - 32)) k with
  | none => exact absurd hm (htotal _ _)
  | some => exact ⟨_, rfl⟩

lemma decrypt_encrypt (hok : f.doEncrypt c k noise = .ok (true, g)) :
    g.sz = f.sz ∧ g.nonce = (noised noise f).nonce ∧
      ∃ g', g.doDecrypt c k = .ok (true, g') ∧ g'.sz = f.sz ∧ g'.body = f.body := by
  obtain ⟨m, hm, rfl⟩ := doEncrypt_ok h hok
  have h' := noised_fits noise h
  have hlen : m.toList.length = 32 := m.toList_length
  have hfit : 0 + m.toList.length ≤ encryptedFrameSize := by rw [hlen]; decide
  have hsz : ((crypted c k (noised noise f)).write 0 m.toList).sz = f.sz := noised_sz noise
  have hnonce : ((crypted c k (noised noise f)).write 0 m.toList).nonce = (noised noise f).nonce := by
    rw [nonce_write_apart hfit (.inr (by omega)), crypted_nonce h']
  have hbody : ((crypted c k (noised noise f)).write 0 m.toList).body
      = c.xchacha20 (noised noise f).body k (noised noise f).nonce := by
    rw [← crypted_body (c := c) (k := k) h']
    exact write_apart hfit (.inr (by rw [hlen]; decide))
  refine ⟨hsz, hnonce, crypted c k ((crypted c k (noised noise f)).write 0 m.toList), ?_, hsz, ?_⟩
  · rw [doDecrypt_eq (by rw [hsz]; exact h)]
    have hmac : MacOk c k ((crypted c k (noised noise f)).write 0 m.toList) := by
      unfold MacOk
      rw [hash_write, write_apart hfit (.inr (by omega)), hsz]
      exact hm
    rw [if_pos hmac]
  · rw [crypted_body (by rw [hsz]; exact h), hbody, hnonce, xchacha20_twice, noised_body]

lemma doEncrypt_pubkey (hok : f.doEncrypt c k noise = .ok (true, g)) : g.pubkey = (noised noise f).pubkey := by
  obtain ⟨m, -, rfl⟩ := doEncrypt_ok h hok
  have h' := noised_fits noise h
  have hlen : m.toList.length = 32 := m.toList_length
  unfold pubkey
  rw [write_apart (by rw [hlen]; decide) (.inr (by omega))]
  unfold crypted
  rw [write_apart (crypted_fits c k h') (.inl (by decide))]

lemma decrypt_encryptInPlace {c : PathCrypto} {sk ourSecretKey : SecretKey} {otherPubkey : PubKey}
    {n : TunnelNonce}
    (hagree : c.dhClient otherPubkey ourSecretKey n = c.dhServer (c.toPublic ourSecretKey) sk n)
    (hok : f.encryptInPlace c ourSecretKey otherPubkey n = .ok (true, g)) :
    g.sz = f.sz ∧ ∃ g', g.decryptInPlace c sk = .ok (true, g') ∧ g'.body = f.body := by
  obtain ⟨f₁, hf₁⟩ : ∃ f₁, f₁ = (f.write 64 (c.toPublic ourSecretKey).toList).write 32 n.toList := ⟨_, rfl⟩
  have hpk : (c.toPublic ourSecretKey).toList.length = 32 := (c.toPublic ourSecretKey).toList_length
  have hn : n.toList.length = 32 := n.toList_length
  have hsz : f₁.sz = f.sz := by rw [hf₁]; rfl
  have hnonce : f₁.nonce = n := by
    unfold nonce
    rw [hf₁, bytes_write (by rw [hn]; decide) hn]
    simpa using ofBytes_append n []
  have hpubkey : f₁.pubkey = c.toPublic ourSecretKey := by
    unfold pubkey
    rw [hf₁, write_apart (by rw [hn]; decide) (.inr (by omega)), bytes_write (by rw [hpk]; decide) hpk]
    simpa using ofBytes_append (c.toPublic ourSecretKey) []
  have hbody : f₁.body = f.body := by
    unfold body
    rw [hsz, hf₁, write_apart (by rw [hn]; decide) (.inr (by rw [hn]; decide)),
      write_apart (by rw [hpk]; decide) (.inr (by rw [hpk]))]
  unfold encryptInPlace at hok
  rw [← hf₁] at hok
  cases hdh : c.dhClient otherPubkey ourSecretKey n with
  | none =>
    rw [hdh] at hok
    cases hok
  | some =>
    rw [hdh] at hok
    have h₁ : encryptedFrameOverheadSize ≤ f₁.sz := by rw [hsz]; exact h
    obtain ⟨hgsz, hgnonce, g', hdec, -, hgbody⟩ := decrypt_encrypt h₁ hok
    have hgpub := doEncrypt_pubkey h₁ hok
    refine ⟨hgsz.trans hsz, g', ?_, hgbody.trans hbody⟩
    unfold decryptInPlace
    rw [hgpub, hgnonce]
    show (match c.dhServer f₁.pubkey sk f₁.nonce with
      | none => _
      | some shared => _) = _
    rw [hpubkey, hnonce, ← hagree, hdh]
    exact hdec

lemma writeRecord_body {w : Writer} {d : Bytes}
    (hw : w ⟨f.bytes 0 f.sz, encryptedFrameOverheadSize⟩ = (true, ⟨d, n⟩)) (hd : d.length = f.sz)
    (htake : d.take (encryptedFrameOverheadSize + x.length) = (f.bytes 0 f.sz).take encryptedFrameOverheadSize ++ x) :
    ∃ g rest, f.writeRecord w = (true, g) ∧ g.sz = f.sz ∧ g.body = x ++ rest := by
  have hsz := f.sz_le
  have hlen := f.whole_length
  have hfront : ((f.bytes 0 f.sz).take encryptedFrameOverheadSize).length = encryptedFrameOverheadSize := by
    rw [length_take]
    omega
  refine ⟨f.write 0 d, d.drop (encryptedFrameOverheadSize + x.length), ?_, rfl, ?_⟩
  · unfold writeRecord
    rw [hw]
  have hall : (f.write 0 d).bytes 0 f.sz = d := bytes_write (by omega) hd
  have hbody : (f.write 0 d).body = d.drop encryptedFrameOverheadSize := by
    have hadd := part_add (f.write 0 d).buf.toList 0 encryptedFrameOverheadSize (f.sz - encryptedFrameOverheadSize)
    rw [show encryptedFrameOverheadSize + (f.sz - encryptedFrameOverheadSize) = f.sz by omega] at hadd
    have hd' : d = (f.write 0 d).bytes 0 encryptedFrameOverheadSize ++ (f.write 0 d).body := hall.symm.trans hadd
    have hlen' : ((f.write 0 d).bytes 0 encryptedFrameOverheadSize).length = encryptedFrameOverheadSize :=
      bytes_length (by decide)
    exact ((congrArg (drop encryptedFrameOverheadSize) hd').trans (drop_left' hlen')).symm
  have hsplit := take_append_drop (encryptedFrameOverheadSize + x.length) d
  rw [htake, append_assoc] at hsplit
  rw [hbody]
  exact (congrArg (drop encryptedFrameOverheadSize) hsplit).symm.trans (drop_left' hfront)

end

def Fits (c : Crypto) (k : SharedSecret) (f : EncryptedFrame) : Prop :=
  32 ≤ f.sz ∧ (MacOk c k f → encryptedFrameOverheadSize ≤ f.sz)

lemma region_of_lt (hn : n ≤ 96) (h : f.sz < n) : f.region n (sub64 f.sz n) = .error (.outside n (sub64 f.sz n)) := by
  unfold region
  rw [sub64_of_lt h (by omega), if_neg]
  have hsize : encryptedFrameSize = 864 := rfl
  omega

lemma doEncrypt_short (h : f.sz < encryptedFrameOverheadSize) : f.doEncrypt c k noise
      = .error (.outside encryptedFrameOverheadSize (sub64 f.sz encryptedFrameOverheadSize)) := by
  have hregion := region_of_lt (f := noised noise f) (n := encryptedFrameOverheadSize) (by decide)
    (by rw [noised_sz]; exact h)
  rw [doEncrypt_noised]
  unfold doEncrypt
  dsimp only
  rw [hregion, noised_sz]
  rfl

lemma doDecrypt_short (h32 : 32 ≤ f.sz) (h : f.sz < encryptedFrameOverheadSize) : f.doDecrypt c k = if MacOk c k f then
        .error (.outside encryptedFrameOverheadSize (sub64 f.sz encryptedFrameOverheadSize))
      else .ok (false, f) := by
  rw [doDecrypt_mac h32, region_of_lt (by decide) h]
  rfl

lemma doDecrypt_outside (h : ¬ Fits c k f) : ∃ off n, f.doDecrypt c k = .error (.outside off n) := by
  by_cases h32 : 32 ≤ f.sz
  · have hshort : f.sz < encryptedFrameOverheadSize := by
      by_contra hle
      exact h ⟨h32, fun _ => by omega⟩
    have hmac : MacOk c k f := by
      by_contra hno
      exact h ⟨h32, fun hok => absurd hok hno⟩
    rw [doDecrypt_short h32 hshort, if_pos hmac]
    exact ⟨_, _, rfl⟩
  · refine ⟨32, sub64 f.sz 32, ?_⟩
    unfold doDecrypt
    rw [region_of_lt (by decide) (by omega)]
    rfl

lemma doDecrypt_ok_iff : (∃ r, f.doDecrypt c k = .ok r) ↔ Fits c k f := by
  constructor
  · rintro ⟨r, hr⟩
    by_contra hno
    obtain ⟨_, n, herr⟩ := doDecrypt_outside hno
    rw [herr] at hr
    cases hr
  · intro hfit
    by_cases h : encryptedFrameOverheadSize ≤ f.sz
    · exact ⟨_, doDecrypt_eq h⟩
    have hmac : ¬ MacOk c k f := fun hok => h (hfit.2 hok)
    rw [doDecrypt_short hfit.1 (by omega), if_neg hmac]
    exact ⟨_, rfl⟩

lemma doDecrypt_accepts (h : f.doDecrypt c k = .ok (true, g)) :
    encryptedFrameOverheadSize ≤ f.sz ∧ MacOk c k f ∧ g = crypted c k f := by
  obtain ⟨h32, hfit⟩ := doDecrypt_ok_iff.mp ⟨_, h⟩
  have hmac : MacOk c k f := by
    by_contra hno
    rw [doDecrypt_mac h32, if_neg hno] at h
    cases h
  have h96 := hfit hmac
  rw [doDecrypt_eq h96, if_pos hmac] at h
  cases h
  exact ⟨h96, hmac, rfl⟩

lemma Same.accepts (hs : Same f g) {f' : EncryptedFrame} (h : f.doDecrypt c k = .ok (true, f')) :
    ∃ g', g.doDecrypt c k = .ok (true, g') ∧ g'.body = f'.body := by
  obtain ⟨h96, hmac, rfl⟩ := doDecrypt_accepts h
  have hle : 96 ≤ f.sz := h96
  have hg : encryptedFrameOverheadSize ≤ g.sz := hs.1 ▸ h96
  refine ⟨crypted c k g, ?_, ?_⟩
  · rw [doDecrypt_eq hg, if_pos ((hs.macOk (by omega)).mp hmac)]
  · rw [crypted_body h96, crypted_body hg, hs.body h96, hs.nonce (by omega)]

end

end EncryptedFrame

end Belnet.Path
