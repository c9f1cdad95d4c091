import Passlib.Basic

/-! # `compile_hmac`

A resolved digest is a hash object (`const(msg)`, `update`, `digest`) that streams a hash
function `hash`, and the HMAC compiler pre-feeds the two padded keys into two seed states.
The single-shot function it returns is RFC 2104 HMAC over `hash` (`compileHmac_eq_rfc`),
for every key length on both sides of the block size. -/

namespace Passlib

/-- A digest resolved by `lookup_hash`, as `compile_hmac` and the KDFs use it. A hash object
fed the chunks `cs` from `fresh` digests to `hash cs.flatten`, and every digest has
`digestSize` bytes: the sanity check `HashInfo` makes, stated for every message. -/
structure Digest where
  State : Type
  fresh : State
  update : State → Bytes → State
  digest : State → Bytes
  hash : Bytes → Bytes
  name : String
  digestSize : Nat
  blockSize : Nat
  streams : ∀ chunks : List Bytes, digest (chunks.foldl update fresh) = hash chunks.flatten
  length_hash : ∀ m, (hash m).length = digestSize

namespace Digest

variable (D : Digest)

/-- `const(msg)`: a new hash object fed `msg`. -/
def const (msg : Bytes) : D.State := D.update D.fresh msg

theorem digest_const (x : Bytes) : D.digest (D.const x) = D.hash x := by
  simpa [const] using D.streams [x]

theorem digest_update_const (x m : Bytes) :
    D.digest (D.update (D.const x) m) = D.hash (x ++ m) := by
  simpa [const] using D.streams [x, m]

theorem digest_foldl_const (x : Bytes) (cs : List Bytes) :
    D.digest (cs.foldl D.update (D.const x)) = D.hash (x ++ cs.flatten) := by
  simpa [const] using D.streams (x :: cs)

/-- The digest whose hash objects buffer what they are fed and hash it on `digest`:
every hash function of fixed output length is one. -/
def ofHash (hash : Bytes → Bytes) (name : String) (digestSize blockSize : Nat)
    (length_hash : ∀ m, (hash m).length = digestSize) : Digest where
  State := Bytes
  fresh := []
  update := (· ++ ·)
  digest := hash
  hash := hash
  name := name
  digestSize := digestSize
  blockSize := blockSize
  streams chunks := by
    suffices ∀ s : Bytes, chunks.foldl (· ++ ·) s = s ++ chunks.flatten by simp [this]
    induction chunks with
    | nil => simp
    | cons c cs ih => intro s; simp [ih]
  length_hash := length_hash

/-- A SHA-1-shaped digest (20-byte output, 64-byte block) for concrete runs. -/
def sample : Digest :=
  ofHash (fun m => List.replicate 20 (UInt8.ofNat m.length)) "sha1" 20 64 (fun _ => List.length_replicate _ _)

end Digest

/-- `_TRANS_5C` and `_TRANS_36`: `join_byte_values((x ^ c) for x in irange(256))`. -/
def transTable (c : Nat) : Bytes := (List.range 256).map fun x => UInt8.ofNat (x ^^^ c)

def trans5C : Bytes := transTable 0x5C

def trans36 : Bytes := transTable 0x36

/-- `bytes.translate(table)`. -/
def translate (table b : Bytes) : Bytes := b.map fun x => table.getD x.toNat 0

/-- Every entry of a translation table is the XOR of its index with the mask. -/
theorem translate_transTable {c : Nat} (hc : c < 256) (b : Bytes) :
    translate (transTable c) b = b.map (· ^^^ UInt8.ofNat c) := by
  refine List.map_congr_left fun x _ => ?_
  have hx : x.toNat < 256 := x.toNat_lt_size
  have hxc : x.toNat ^^^ c < 256 := Nat.xor_lt_two_pow (n := 8) hx hc
  apply UInt8.toNat.inj
  simp [transTable, List.getD_eq_getElem?_getD, List.getElem?_range hx, toNat_xor,
    UInt8.toNat_ofNat_of_lt hxc, UInt8.toNat_ofNat_of_lt hc]

/-- The key block of `compile_hmac`: a key longer than the block is replaced by its digest,
and a key shorter than the block is padded with zero bytes. -/
def hmacKey (D : Digest) (key : Bytes) : Bytes :=
  let (key, klen) := if D.blockSize < key.length then (D.digest (D.const key), D.digestSize)
    else (key, key.length)
  if klen < D.blockSize then key ++ List.replicate (D.blockSize - klen) 0 else key

/-- The two pre-initialised hash objects whose copies every call starts from. -/
def hmacSeeds (D : Digest) (key : Bytes) : D.State × D.State :=
  (D.const (translate trans36 (hmacKey D key)), D.const (translate trans5C (hmacKey D key)))

/-- The single-shot `hmac(msg)` closure over the two seeds. -/
def hmacWith (D : Digest) (seeds : D.State × D.State) (msg : Bytes) : Bytes :=
  D.digest (D.update seeds.2 (D.digest (D.update seeds.1 msg)))

/-- `compile_hmac(digest, key)` for a resolved digest. -/
def compileHmac (D : Digest) (key : Bytes) : Except PyError (Bytes → Bytes) :=
  if D.blockSize < 16 then .error (.assertionError "block size too small")
  else .ok (hmacWith D (hmacSeeds D key))

/-- HMAC as RFC 2104 defines it over `D.hash`, in the words of the specification:
`K0` is the key, or its hash when it is longer than the block, right-padded with zeros. -/
def hmacRfc (D : Digest) (k m : Bytes) : Bytes :=
  let k' := if D.blockSize < k.length then D.hash k else k
  let K0 := k' ++ List.replicate (D.blockSize - k'.length) 0
  D.hash (K0.map (· ^^^ 0x5c) ++ D.hash (K0.map (· ^^^ 0x36) ++ m))

theorem hmacKey_eq (D : Digest) (k : Bytes) :
    hmacKey D k = (if D.blockSize < k.length then D.hash k else k) ++
      List.replicate (D.blockSize - (if D.blockSize < k.length then D.hash k else k).length) 0 := by
  unfold hmacKey
  split_ifs <;> simp_all [Digest.digest_const, D.length_hash]

theorem compileHmac_eq_rfc (D : Digest) (hB : 16 ≤ D.blockSize) (k : Bytes) :
    compileHmac D k = .ok (hmacRfc D k) := by
  have h36 := translate_transTable (c := 0x36) (by norm_num)
  have h5c := translate_transTable (c := 0x5C) (by norm_num)
  simp only [compileHmac, if_neg (Nat.not_lt.mpr hB), Except.ok.injEq]
  funext m
  simp only [hmacWith, hmacSeeds, trans36, trans5C, h36, h5c, Digest.digest_update_const,
    hmacRfc, hmacKey_eq]
  rfl

theorem compileHmac_eq_rfc_sample :
    16 ≤ Digest.sample.blockSize ∧ compileHmac Digest.sample [1, 2, 3] = .ok (hmacRfc Digest.sample [1, 2, 3]) :=
  ⟨by decide, compileHmac_eq_rfc Digest.sample (by decide) [1, 2, 3]⟩

/-! ## Keys `compile_hmac` does not tell apart -/

theorem compileHmac_congr_key {D : Digest} {k k' : Bytes} (h : hmacKey D k = hmacKey D k') :
    compileHmac D k = compileHmac D k' := by
  unfold compileHmac hmacSeeds
  rw [h]

/-- Keys that differ only by trailing zero bytes, both within the block, compile to one HMAC:
both are padded to the same block. -/
theorem compileHmac_zero_pad (D : Digest) (key : Bytes) (n : Nat)
    (h : key.length + n ≤ D.blockSize) :
    compileHmac D (key ++ List.replicate n 0) = compileHmac D key := by
  refine compileHmac_congr_key ?_
  have hlen : (key ++ List.replicate n (0 : UInt8)).length = key.length + n := by simp
  rw [hmacKey_eq, hmacKey_eq, if_neg (by omega), if_neg (by omega), hlen, List.append_assoc,
    ← List.replicate_add]
  congr 2
  omega

theorem compileHmac_zero_pad_sample :
    [1, 2, 3].length + 5 ≤ Digest.sample.blockSize ∧
      compileHmac Digest.sample ([1, 2, 3] ++ List.replicate 5 0) = compileHmac Digest.sample [1, 2, 3] :=
  ⟨by decide, compileHmac_zero_pad Digest.sample [1, 2, 3] 5 (by decide)⟩

/-- A key longer than the block compiles to the HMAC of its own digest, when digests fit in the
block: the digest is then not hashed again. -/
theorem compileHmac_long_key (D : Digest) (key : Bytes) (hd : D.digestSize ≤ D.blockSize)
    (hk : D.blockSize < key.length) :
    compileHmac D key = compileHmac D (D.hash key) :=
  compileHmac_congr_key (by rw [hmacKey_eq, hmacKey_eq, if_pos hk, if_neg (by rw [D.length_hash]; omega)])

theorem compileHmac_long_key_sample :
    Digest.sample.digestSize ≤ Digest.sample.blockSize ∧
      Digest.sample.blockSize < (List.replicate 65 (7 : UInt8)).length ∧
      compileHmac Digest.sample (List.replicate 65 7) =
        compileHmac Digest.sample (Digest.sample.hash (List.replicate 65 7)) :=
  ⟨by decide, by decide, compileHmac_long_key Digest.sample _ (by decide) (by decide)⟩

end Passlib
