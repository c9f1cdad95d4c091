import Passlib.Digest.Hmac

/-! # `pbkdf2_hmac`

The keylen and block-count validation, the choice of backend, and the builtin path with the
Python 3 "from-bytes" looper. The looper keeps the XOR accumulator as one integer; since
`int.from_bytes` and `int.to_bytes` carry integer XOR to bytewise XOR on strings of the
digest's length, the builtin path computes PBKDF2 as RFC 2898 states it
(`pbkdf2Hmac_builtin_eq_rfc`). -/

namespace Passlib

/-- `MAX_UINT32`. -/
def maxUInt32 : Nat := 2 ^ 32 - 1

/-- `_pack_uint32 = Struct(">L").pack`. -/
def packUInt32 (n : Nat) : Except PyError Bytes :=
  if n < 2 ^ 32 then .ok (encodeBE 4 n)
  else .error (.structError "'L' format requires 0 <= number <= 4294967295")

/-- An accelerated PBKDF2-HMAC provider (`fastpbkdf2`, or OpenSSL's `hashlib.pbkdf2_hmac`):
the memoized `supported_by_*` probe of a digest name, false when the library is missing,
and the provider's own computation. -/
structure Backend where
  supports : String → Bool
  run : String → Bytes → Bytes → Nat → Nat → Except PyError Bytes

/-- A provider whose library is not installed. -/
def Backend.absent : Backend :=
  ⟨fun _ => false, fun _ _ _ _ _ => .error (.typeError "'NoneType' object is not callable")⟩

/-- `(keylen + digest_size - 1) // digest_size`, for the positive key length it is given. -/
def blockCount (digestSize keylen : Nat) : Nat := (keylen + digestSize - 1) / digestSize

/-- The validation of `pbkdf2_hmac`, in the source's order. It returns the rounds, the key
length (the digest size when `keylen` is `None`) and the block count. -/
def pbkdf2Params (digestSize : Nat) (rounds : Int) (keylen : Option Int) :
    Except PyError (Nat × Nat × Nat) := do
  if rounds < 1 then throw (.valueError "rounds must be at least 1")
  let keylen : Nat ← match keylen with
    | none => pure digestSize
    | some k => if k < 1 then throw (.valueError "keylen must be at least 1") else pure k.toNat
  if digestSize = 0 then throw (.zeroDivisionError "integer division or modulo by zero")
  if maxUInt32 < blockCount digestSize keylen then throw (.overflowError "keylen too long for digest")
  pure (rounds.toNat, keylen, blockCount digestSize keylen)

/-- The loop of `_pbkdf2_looper`: `n` times, `digest = keyed_hmac(digest)` and
`accum ^= from_bytes(digest)`. -/
def looperAccum (keyedHmac : Bytes → Bytes) : Bytes → Nat → Nat → Nat
  | _, accum, 0 => accum
  | digest, accum, n + 1 =>
    looperAccum keyedHmac (keyedHmac digest) (accum ^^^ fromBytes (keyedHmac digest)) n

/-- `_pbkdf2_looper(digest_size, keyed_hmac, digest, rounds)`, the "from-bytes" backend. -/
def pbkdf2Looper (digestSize : Nat) (keyedHmac : Bytes → Bytes) (digest : Bytes) (rounds : Nat) :
    Except PyError Bytes :=
  toBytes (looperAccum keyedHmac digest (fromBytes digest) (rounds - 1)) digestSize

/-- The blocks of the builtin path:
`calc_block(keyed_hmac, keyed_hmac(salt + _pack_uint32(i)), rounds)` for `i` in `1..block_count`. -/
def pbkdf2Blocks (digestSize : Nat) (keyedHmac : Bytes → Bytes) (salt : Bytes)
    (rounds blockCount : Nat) : Except PyError (List Bytes) :=
  (List.range' 1 blockCount).mapM fun i => do
    let packed ← packUInt32 i
    pbkdf2Looper digestSize keyedHmac (keyedHmac (salt ++ packed)) rounds

/-- `pbkdf2_hmac(digest, secret, salt, rounds, keylen)` for a resolved digest. -/
def pbkdf2Hmac (fast stdlib : Backend) (D : Digest) (secret salt : Bytes) (rounds : Int)
    (keylen : Option Int) : Except PyError Bytes := do
  let (rounds, keylen, blockCount) ← pbkdf2Params D.digestSize rounds keylen
  if fast.supports D.name then fast.run D.name secret salt rounds keylen
  else if stdlib.supports D.name then stdlib.run D.name secret salt rounds keylen
  else do
    let keyedHmac ← compileHmac D secret
    let blocks ← pbkdf2Blocks D.digestSize keyedHmac salt rounds blockCount
    pure (blocks.flatten.take keylen)

/-! ## PBKDF2 as the specification states it -/

/-- `U_1, ..., U_n` with `U_1 = u` and `U_{j+1} = P(U_j)`. -/
def prfChain (P : Bytes → Bytes) : Bytes → Nat → List Bytes
  | _, 0 => []
  | u, n + 1 => u :: prfChain P (P u) n

/-- `U_1 xor U_2 xor ... xor U_n`. -/
def xorAll : List Bytes → Bytes
  | [] => []
  | u :: us => us.foldl xorBytes u

/-- `T_1 || ... || T_l` cut to `keylen` bytes, with `T_i` the XOR of the chain from
`U_1 = P(salt || be32(i))`. -/
def pbkdf2Rfc (P : Bytes → Bytes) (salt : Bytes) (rounds keylen l : Nat) : Bytes :=
  ((List.range' 1 l).map fun i => xorAll (prfChain P (P (salt ++ encodeBE 4 i)) rounds)).flatten.take keylen

/-! ## The builtin path -/

theorem length_foldl_xorBytes {d : Nat} (us : List Bytes) (hus : ∀ u ∈ us, u.length = d) :
    ∀ T : Bytes, T.length = d → (us.foldl xorBytes T).length = d := by
  induction us with
  | nil => intro T hT; exact hT
  | cons u us ih =>
    intro T hT
    exact ih (fun v hv => hus v (.tail _ hv)) _ (by simp [hT, hus u (.head _)])

theorem length_prfChain {d : Nat} {P : Bytes → Bytes} (hP : ∀ x, x.length = d → (P x).length = d) :
    ∀ (n : Nat) (u : Bytes), u.length = d → ∀ v ∈ prfChain P u n, v.length = d := by
  intro n
  induction n with
  | zero => simp [prfChain]
  | succ n ih =>
    intro u hu v hv
    rcases List.mem_cons.mp hv with rfl | hv
    · exact hu
    · exact ih (P u) (hP u hu) v hv

/-- The integer accumulator of the looper is the bytewise XOR of the chain, read as an integer. -/
theorem looperAccum_eq {d : Nat} {P : Bytes → Bytes} (hP : ∀ x, (P x).length = d) (n : Nat) :
    ∀ (u T : Bytes), T.length = d →
      looperAccum P u (fromBytes T) n = fromBytes ((prfChain P (P u) n).foldl xorBytes T) := by
  induction n with
  | zero => intro u T _; rfl
  | succ n ih =>
    intro u T hT
    have hx : (xorBytes T (P u)).length = d := by simp [hT, hP]
    rw [looperAccum, ← fromBytes_xorBytes (by rw [hT, hP]), ih (P u) _ hx]
    rfl

/-- The from-bytes looper computes `U_1 xor ... xor U_rounds`. -/
theorem pbkdf2Looper_eq {d : Nat} {P : Bytes → Bytes} (hP : ∀ x, (P x).length = d) {u : Bytes}
    (hu : u.length = d) {rounds : Nat} (hr : 1 ≤ rounds) :
    pbkdf2Looper d P u rounds = .ok (xorAll (prfChain P u rounds)) := by
  obtain ⟨r, rfl⟩ := Nat.exists_eq_add_of_le' hr
  have hlen := length_foldl_xorBytes _ (length_prfChain (fun x _ => hP x) r (P u) (hP u)) u hu
  rw [pbkdf2Looper, Nat.add_sub_cancel, looperAccum_eq hP r u u hu, ← hlen, toBytes_fromBytes]
  rfl

theorem mapM_eq_ok {α β : Type} {f : α → Except PyError β} {g : α → β} :
    ∀ l : List α, (∀ a ∈ l, f a = .ok (g a)) → l.mapM f = .ok (l.map g)
  | [], _ => rfl
  | a :: l, h => by
    rw [List.mapM_cons, h a (.head _), mapM_eq_ok l fun b hb => h b (.tail _ hb)]
    rfl

theorem packUInt32_eq {i : Nat} (h : i ≤ maxUInt32) : packUInt32 i = .ok (encodeBE 4 i) := by
  rw [packUInt32, if_pos (by unfold maxUInt32 at h; omega)]

/-- With the block count in range every block index packs, and each block is its `T_i`. -/
theorem pbkdf2Blocks_eq {d : Nat} {P : Bytes → Bytes} (hP : ∀ x, (P x).length = d)
    (salt : Bytes) {rounds l : Nat} (hr : 1 ≤ rounds) (hl : l ≤ maxUInt32) :
    pbkdf2Blocks d P salt rounds l =
      .ok ((List.range' 1 l).map fun i =>
        xorAll (prfChain P (P (salt ++ encodeBE 4 i)) rounds)) := by
  refine mapM_eq_ok _ fun i hi => ?_
  have hi' : i ≤ maxUInt32 := by have := List.mem_range'_1.mp hi; omega
  rw [packUInt32_eq hi']
  exact pbkdf2Looper_eq hP (hP _) hr

theorem length_hmacWith (D : Digest) (seeds : D.State × D.State) (key : Bytes)
    (h : seeds = hmacSeeds D key) (m : Bytes) : (hmacWith D seeds m).length = D.digestSize := by
  subst h
  simp only [hmacWith, hmacSeeds, Digest.digest_update_const, D.length_hash]

theorem length_flatten_blocks {d : Nat} {P : Bytes → Bytes} (hP : ∀ x, (P x).length = d)
    (salt : Bytes) {rounds : Nat} (hr : 1 ≤ rounds) (l : Nat) :
    ((List.range' 1 l).map fun i =>
        xorAll (prfChain P (P (salt ++ encodeBE 4 i)) rounds)).flatten.length = l * d := by
  have hT : ∀ i, (xorAll (prfChain P (P (salt ++ encodeBE 4 i)) rounds)).length = d := by
    intro i
    obtain ⟨r, rfl⟩ := Nat.exists_eq_add_of_le' hr
    exact length_foldl_xorBytes _ (length_prfChain (fun x _ => hP x) r _ (hP _)) _ (hP _)
  simp [List.length_flatten, Function.comp_def, hT]

theorem length_pbkdf2Rfc {d : Nat} {P : Bytes → Bytes} (hP : ∀ x, (P x).length = d)
    (salt : Bytes) {rounds : Nat} (hr : 1 ≤ rounds) (keylen l : Nat) :
    (pbkdf2Rfc P salt rounds keylen l).length = min keylen (l * d) := by
  rw [pbkdf2Rfc, List.length_take, length_flatten_blocks hP salt hr]

/-! ## The block count -/

theorem le_blockCount_mul {d : Nat} (hd : 1 ≤ d) (keylen : Nat) :
    keylen ≤ blockCount d keylen * d := by
  have h := Nat.div_add_mod (keylen + d - 1) d
  have hr := Nat.mod_lt (keylen + d - 1) (by omega : 0 < d)
  have hc := Nat.mul_comm d ((keylen + d - 1) / d)
  unfold blockCount
  omega

theorem blockCount_le {d keylen l : Nat} (hd : 1 ≤ d) (h : keylen ≤ l * d) :
    blockCount d keylen ≤ l :=
  Nat.lt_succ_iff.mp ((Nat.div_lt_iff_lt_mul (by omega)).mpr (by rw [Nat.succ_mul]; omega))

theorem blockCount_le_max_iff {d : Nat} (hd : 1 ≤ d) (keylen : Nat) :
    blockCount d keylen ≤ maxUInt32 ↔ keylen ≤ d * maxUInt32 := by
  constructor
  · intro h
    have := le_blockCount_mul hd keylen
    have := Nat.mul_le_mul_right d h
    rw [Nat.mul_comm d]
    omega
  · exact fun h => blockCount_le hd (Nat.mul_comm d _ ▸ h)

theorem pbkdf2Params_ok {d rounds keylen : Nat} (hd : 1 ≤ d) (hr : 1 ≤ rounds)
    (hk : 1 ≤ keylen) (hl : blockCount d keylen ≤ maxUInt32) :
    pbkdf2Params d rounds (some keylen) = .ok (rounds, keylen, blockCount d keylen) := by
  have hr' : ¬ (rounds : Int) < 1 := by omega
  have hk' : ¬ (keylen : Int) < 1 := by omega
  simp [pbkdf2Params, hr', hk', Nat.not_lt.mpr hl, show d ≠ 0 by omega]
  rfl

theorem pbkdf2Params_overflow {d rounds keylen : Nat} (hd : 1 ≤ d) (hr : 1 ≤ rounds)
    (hk : 1 ≤ keylen) (h : d * maxUInt32 < keylen) :
    pbkdf2Params d rounds (some keylen) = .error (.overflowError "keylen too long for digest") := by
  have hr' : ¬ (rounds : Int) < 1 := by omega
  have hk' : ¬ (keylen : Int) < 1 := by omega
  have hl : maxUInt32 < blockCount d keylen :=
    Nat.lt_of_not_le fun hl => Nat.not_le.mpr h ((blockCount_le_max_iff hd keylen).mp hl)
  simp [pbkdf2Params, hr', hk', hl, show d ≠ 0 by omega]
  rfl

/-! ## `pbkdf2_hmac` end to end -/

/-- On a digest with a block of at least 16 bytes that no accelerated backend accepts,
`pbkdf2_hmac` returns exactly `keylen` bytes, the PBKDF2 of RFC 2898 over the compiled HMAC. -/
theorem pbkdf2Hmac_builtin_eq_rfc (fast stdlib : Backend) (D : Digest) (secret salt : Bytes)
    (rounds keylen : Nat) (hd : 1 ≤ D.digestSize) (hB : 16 ≤ D.blockSize)
    (hfast : fast.supports D.name = false) (hstd : stdlib.supports D.name = false)
    (hr : 1 ≤ rounds) (hk : 1 ≤ keylen) (hl : blockCount D.digestSize keylen ≤ maxUInt32) :
    ∃ P, compileHmac D secret = .ok P ∧
      pbkdf2Hmac fast stdlib D secret salt rounds (some keylen) =
        .ok (pbkdf2Rfc P salt rounds keylen (blockCount D.digestSize keylen)) ∧
      (pbkdf2Rfc P salt rounds keylen (blockCount D.digestSize keylen)).length = keylen := by
  have hP := length_hmacWith D _ secret rfl
  refine ⟨hmacWith D (hmacSeeds D secret), by simp [compileHmac, hB], ?_, ?_⟩
  · simp only [pbkdf2Hmac, pbkdf2Params_ok hd hr hk hl, hfast, hstd, compileHmac,
      if_neg (Nat.not_lt.mpr hB), pbkdf2Blocks_eq hP salt hr hl, ok_bind]
    rfl
  · rw [length_pbkdf2Rfc hP salt hr]
    exact Nat.min_eq_left (le_blockCount_mul hd keylen)

theorem pbkdf2Hmac_builtin_eq_rfc_sample :
    1 ≤ Digest.sample.digestSize ∧ 16 ≤ Digest.sample.blockSize ∧
    blockCount Digest.sample.digestSize 30 ≤ maxUInt32 ∧
    ∃ P, compileHmac Digest.sample [1] = .ok P ∧
      pbkdf2Hmac Backend.absent Backend.absent Digest.sample [1] [2] 2 (some 30) =
        .ok (pbkdf2Rfc P [2] 2 30 (blockCount Digest.sample.digestSize 30)) ∧
      (pbkdf2Rfc P [2] 2 30 (blockCount Digest.sample.digestSize 30)).length = 30 :=
  ⟨by decide, by decide, by decide, pbkdf2Hmac_builtin_eq_rfc Backend.absent Backend.absent
    Digest.sample [1] [2] 2 30 (by decide) (by decide) rfl rfl (by decide) (by decide) (by decide)⟩

/-- A SHA-1-shaped digest with an 8-byte block, which `compile_hmac` refuses. -/
def smallBlockDigest : Digest :=
  Digest.ofHash (fun m => List.replicate 20 (UInt8.ofNat m.length)) "tiny" 20 8
    (fun _ => List.length_replicate _ _)

theorem pbkdf2Hmac_small_block :
    pbkdf2Hmac Backend.absent Backend.absent smallBlockDigest [] [] 1 (some 20) =
      .error (.assertionError "block size too small") := rfl

/-- The block count is the least `l` with `keylen ≤ l * d`. `pbkdf2_hmac`'s own check raises
`OverflowError` exactly when `keylen > d * (2 ^ 32 - 1)`, and then whatever the backends are
and whatever the digest's block size (so before a backend or `compile_hmac` runs). Below
that bound every block index packs, and the builtin path computes blocks that cover `keylen`
bytes. -/
theorem pbkdf2Hmac_overflow_iff (D : Digest) (secret salt : Bytes) (rounds keylen : Nat)
    (hd : 1 ≤ D.digestSize) (hr : 1 ≤ rounds) (hk : 1 ≤ keylen) :
    (keylen ≤ blockCount D.digestSize keylen * D.digestSize ∧
      ∀ l, keylen ≤ l * D.digestSize → blockCount D.digestSize keylen ≤ l) ∧
    ((∀ fast stdlib : Backend, pbkdf2Hmac fast stdlib D secret salt rounds (some keylen) =
        .error (.overflowError "keylen too long for digest")) ↔ D.digestSize * maxUInt32 < keylen) ∧
    (keylen ≤ D.digestSize * maxUInt32 →
      (∀ i ∈ List.range' 1 (blockCount D.digestSize keylen),
        1 ≤ i ∧ i ≤ maxUInt32 ∧ packUInt32 i = .ok (encodeBE 4 i)) ∧
      ∀ P : Bytes → Bytes, (∀ x, (P x).length = D.digestSize) →
        ∃ blocks, pbkdf2Blocks D.digestSize P salt rounds (blockCount D.digestSize keylen) =
          .ok blocks ∧ keylen ≤ blocks.flatten.length) := by
  refine ⟨⟨le_blockCount_mul hd keylen, fun l => blockCount_le hd⟩, ⟨fun h => ?_, fun h _ _ => ?_⟩,
    fun h => ⟨fun i hi => ?_, fun P hP => ?_⟩⟩
  · refine Nat.lt_of_not_le fun hle => ?_
    have hok := h ⟨fun _ => true, fun _ _ _ _ _ => .ok []⟩ Backend.absent
    simp [pbkdf2Hmac, pbkdf2Params_ok hd hr hk ((blockCount_le_max_iff hd keylen).mpr hle)] at hok
  · simp [pbkdf2Hmac, pbkdf2Params_overflow hd hr hk h]
  · have hl := (blockCount_le_max_iff hd keylen).mpr h
    have := List.mem_range'_1.mp hi
    exact ⟨this.1, by omega, packUInt32_eq (by omega)⟩
  · refine ⟨_, pbkdf2Blocks_eq hP salt hr ((blockCount_le_max_iff hd keylen).mpr h), ?_⟩
    rw [length_flatten_blocks hP salt hr]
    exact le_blockCount_mul hd keylen

theorem pbkdf2Hmac_overflow_iff_sample :
    1 ≤ Digest.sample.digestSize ∧
    (30 ≤ blockCount Digest.sample.digestSize 30 * Digest.sample.digestSize ∧
      ∀ l, 30 ≤ l * Digest.sample.digestSize → blockCount Digest.sample.digestSize 30 ≤ l) ∧
    ((∀ fast stdlib : Backend, pbkdf2Hmac fast stdlib Digest.sample [] [] 1 (some 30) =
        .error (.overflowError "keylen too long for digest")) ↔ Digest.sample.digestSize * maxUInt32 < 30) ∧
    (30 ≤ Digest.sample.digestSize * maxUInt32 →
      (∀ i ∈ List.range' 1 (blockCount Digest.sample.digestSize 30),
        1 ≤ i ∧ i ≤ maxUInt32 ∧ packUInt32 i = .ok (encodeBE 4 i)) ∧
      ∀ P : Bytes → Bytes, (∀ x, (P x).length = Digest.sample.digestSize) →
        ∃ blocks, pbkdf2Blocks Digest.sample.digestSize P [] 1 (blockCount Digest.sample.digestSize 30) =
          .ok blocks ∧ 30 ≤ blocks.flatten.length) :=
  ⟨by decide, pbkdf2Hmac_overflow_iff Digest.sample [] [] 1 30 (by decide) le_rfl (by decide)⟩

/-- OpenSSL's `hashlib.pbkdf2_hmac` as CPython wraps it, on the one digest name it accepts:
its argument checks come before OpenSSL derives the key. -/
def hashlibPbkdf2 (name : String) (derive : Bytes → Bytes → Nat → Nat → Bytes) : Backend where
  supports n := n == name
  run _ secret salt rounds keylen :=
    if 2 ^ 31 - 1 < secret.length then .error (.overflowError "password is too long.")
    else if 2 ^ 31 - 1 < salt.length then .error (.overflowError "salt is too long.")
    else if 2 ^ 31 - 1 < rounds then .error (.overflowError "iteration value is too great.")
    else if 2 ^ 31 - 1 < keylen then .error (.overflowError "key length is too great.")
    else .ok (derive secret salt rounds keylen)

theorem pbkdf2Hmac_hashlib_overflow :
    pbkdf2Hmac Backend.absent (hashlibPbkdf2 "sha1" fun _ _ _ _ => []) Digest.sample [] [] 1
        (some (2 ^ 31)) = .error (.overflowError "key length is too great.") ∧
      2 ^ 31 ≤ Digest.sample.digestSize * maxUInt32 := ⟨rfl, by decide⟩

/-! ## Key lengths -/

/-- With every block index in range, the builtin path returns the RFC blocks cut to `keylen`. -/
theorem pbkdf2Hmac_builtin {fast stdlib : Backend} {D : Digest} (secret salt : Bytes)
    {rounds keylen : Nat} (hd : 1 ≤ D.digestSize) (hB : 16 ≤ D.blockSize)
    (hfast : fast.supports D.name = false) (hstd : stdlib.supports D.name = false)
    (hr : 1 ≤ rounds) (hk : 1 ≤ keylen) (hl : blockCount D.digestSize keylen ≤ maxUInt32) :
    pbkdf2Hmac fast stdlib D secret salt rounds (some keylen) =
      .ok (pbkdf2Rfc (hmacWith D (hmacSeeds D secret)) salt rounds keylen
        (blockCount D.digestSize keylen)) := by
  simp only [pbkdf2Hmac, pbkdf2Params_ok hd hr hk hl, hfast, hstd, compileHmac,
    if_neg (Nat.not_lt.mpr hB), pbkdf2Blocks_eq (length_hmacWith D _ secret rfl) salt hr hl, ok_bind]
  rfl

/-- Cutting more blocks to fewer bytes: the first `k` bytes only come from the first `l`
blocks. -/
theorem pbkdf2Rfc_take {d : Nat} {P : Bytes → Bytes} (hP : ∀ x, (P x).length = d) (salt : Bytes)
    {rounds : Nat} (hr : 1 ≤ rounds) {k k' l l' : Nat} (hkk : k ≤ k') (hll : l ≤ l')
    (hkl : k ≤ l * d) :
    pbkdf2Rfc P salt rounds k l = (pbkdf2Rfc P salt rounds k' l').take k := by
  have hsplit := List.range'_append 1 l (l' - l) 1
  rw [Nat.one_mul, Nat.sub_add_cancel hll] at hsplit
  rw [pbkdf2Rfc, pbkdf2Rfc, List.take_take, Nat.min_eq_left hkk, ← hsplit, List.map_append,
    List.flatten_append, List.take_append_of_le_length (by rw [length_flatten_blocks hP salt hr]; exact hkl)]

/-- On the builtin path, the key derived for a shorter `keylen` is the start of the key derived
for a longer one. -/
theorem pbkdf2Hmac_keylen_prefix (fast stdlib : Backend) (D : Digest) (secret salt : Bytes)
    (rounds k k' : Nat) (hd : 1 ≤ D.digestSize) (hB : 16 ≤ D.blockSize)
    (hfast : fast.supports D.name = false) (hstd : stdlib.supports D.name = false)
    (hr : 1 ≤ rounds) (hk : 1 ≤ k) (hkk : k ≤ k') (hl : blockCount D.digestSize k' ≤ maxUInt32) :
    ∃ key, pbkdf2Hmac fast stdlib D secret salt rounds (some k') = .ok key ∧ key.length = k' ∧
      pbkdf2Hmac fast stdlib D secret salt rounds (some k) = .ok (key.take k) := by
  have hP := length_hmacWith D _ secret rfl
  have hll : blockCount D.digestSize k ≤ blockCount D.digestSize k' :=
    Nat.div_le_div_right (by omega)
  refine ⟨_, pbkdf2Hmac_builtin secret salt hd hB hfast hstd hr (by omega) hl, ?_, ?_⟩
  · rw [length_pbkdf2Rfc hP salt hr]
    exact Nat.min_eq_left (le_blockCount_mul hd k')
  · rw [pbkdf2Hmac_builtin secret salt hd hB hfast hstd hr hk (hll.trans hl),
      pbkdf2Rfc_take hP salt hr hkk hll (le_blockCount_mul hd k)]

theorem pbkdf2Hmac_keylen_prefix_sample :
    1 ≤ Digest.sample.digestSize ∧ 16 ≤ Digest.sample.blockSize ∧
    Backend.absent.supports Digest.sample.name = false ∧ 1 ≤ 2 ∧ 1 ≤ 25 ∧ 25 ≤ 50 ∧
    blockCount Digest.sample.digestSize 50 ≤ maxUInt32 ∧
    ∃ key, pbkdf2Hmac Backend.absent Backend.absent Digest.sample [1] [2] 2 (some 50) = .ok key ∧
      key.length = 50 ∧
      pbkdf2Hmac Backend.absent Backend.absent Digest.sample [1] [2] 2 (some 25) = .ok (key.take 25) :=
  ⟨by decide, by decide, rfl, by decide, by decide, by decide, by decide,
    pbkdf2Hmac_keylen_prefix Backend.absent Backend.absent Digest.sample [1] [2] 2 25 50 (by decide)
      (by decide) rfl rfl (by decide) (by decide) (by decide) (by decide)⟩

end Passlib
