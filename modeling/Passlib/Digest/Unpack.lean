import Passlib.Digest.Pbkdf2

/-! # The "unpack" PBKDF2 looper

Where `int.from_bytes` is missing, `_get_pbkdf2_looper` compiles a helper per digest size
that splits every digest into native-order `struct` lanes (`Q` on 64-bit systems, with one
trailing `I` when the size is 4 mod 8; `I` otherwise) and XORs lane by lane. Lanes cut the
digest into pieces and XOR acts piecewise, so the helper agrees with the bytewise reference
in its docstring for every admitted size cut into more than one lane, both word sizes and both
byte orders (`getPbkdf2Looper_agrees`). A helper of one lane binds tuples, not integers, and
raises (`getPbkdf2Looper_one_lane`). -/

namespace Passlib

/-- The lane widths, in bytes, of the `struct` format `_get_pbkdf2_looper` picks:
`"=%dQ"`, `"=%dQI"` or `"=%dI"`. -/
def looperLanes (have64 : Bool) (digestSize : Nat) : Except PyError (List Nat) :=
  if have64 && digestSize &&& 0x7 == 0 then .ok (List.replicate (digestSize >>> 3) 8)
  else if digestSize &&& 0x3 == 0 then
    if have64 then .ok (List.replicate (digestSize >>> 3) 8 ++ [4])
    else .ok (List.replicate (digestSize >>> 2) 4)
  else .error (.notImplementedError s!"unsupported digest size: {digestSize}")

/-- One native-order lane read as an unsigned integer. -/
def decodeLane (little : Bool) (b : Bytes) : Nat := fromBytes (if little then b.reverse else b)

/-- One unsigned integer written as a native-order lane of `w` bytes. -/
def encodeLane (little : Bool) (w n : Nat) : Bytes :=
  if little then (encodeBE w n).reverse else encodeBE w n

def splitLanes (little : Bool) : List Nat → Bytes → List Nat
  | [], _ => []
  | w :: ws, b => decodeLane little (b.take w) :: splitLanes little ws (b.drop w)

/-- `struct.unpack`. -/
def structUnpack (little : Bool) (lanes : List Nat) (b : Bytes) : Except PyError (List Nat) :=
  if b.length = lanes.sum then .ok (splitLanes little lanes b)
  else .error (.structError s!"unpack requires a buffer of {lanes.sum} bytes")

def packLanes (little : Bool) : List Nat → List Nat → Except PyError Bytes
  | w :: ws, v :: vs =>
    if v < 256 ^ w then (packLanes little ws vs).map (encodeLane little w v ++ ·)
    else .error (.structError (if w = 4 then "'I' format requires 0 <= number <= 4294967295"
      else "argument out of range"))
  | _, _ => .ok []

/-- `struct.pack`. -/
def structPack (little : Bool) (lanes vals : List Nat) : Except PyError Bytes :=
  if vals.length = lanes.length then packLanes little lanes vals
  else .error (.structError s!"pack expected {lanes.length} items for packing (got {vals.length})")

/-- The loop of the generated helper: `digest = keyed_hmac(digest)`, unpack it, and
`acc_i ^= dig_i` for every lane. -/
def unpackLoop (little : Bool) (lanes : List Nat) (keyedHmac : Bytes → Bytes) :
    Bytes → List Nat → Nat → Except PyError (List Nat)
  | _, acc, 0 => .ok acc
  | digest, acc, n + 1 => do
    let dig ← structUnpack little lanes (keyedHmac digest)
    unpackLoop little lanes keyedHmac (keyedHmac digest) (List.zipWith (· ^^^ ·) acc dig) n

/-- The helper compiled for a lane layout, `helper(keyed_hmac, digest, rounds)`. With one lane
the generated lines read `acc_0 = unpack_digest(digest)` and `dig_0 = unpack_digest(digest)`,
which bind 1-tuples: `acc_0 ^= dig_0` then raises `TypeError`, and with no round to run
`struct.pack(acc_0)` is handed a tuple. -/
def unpackHelper (little : Bool) (lanes : List Nat) (keyedHmac : Bytes → Bytes) (digest : Bytes)
    (rounds : Nat) : Except PyError Bytes := do
  let acc ← structUnpack little lanes digest
  if lanes.length = 1 then
    if 1 < rounds then
      let _ ← structUnpack little lanes (keyedHmac digest)
      throw (.typeError "unsupported operand type(s) for ^=: 'tuple' and 'tuple'")
    else throw (.structError "required argument is not an integer")
  else
    let acc ← unpackLoop little lanes keyedHmac digest acc (rounds - 1)
    structPack little lanes acc

/-- Compiling the generated source. With no lane, its accumulator line reads
`     = unpack_digest(digest)`, which does not compile. -/
def compileLooper (lanes : List Nat) : Except PyError (List Nat) :=
  if lanes = [] then .error (.syntaxError "unexpected indent") else .ok lanes

/-- The helper generated and compiled for a digest size. -/
def generateLooper (have64 : Bool) (digestSize : Nat) : Except PyError (List Nat) :=
  looperLanes have64 digestSize >>= compileLooper

/-- `_looper_cache`: the layout of the helper compiled for each digest size. -/
abbrev LooperCache := Nat → Option (List Nat)

/-- `_get_pbkdf2_looper(digest_size)`: the cached helper, or a new one that is then cached. -/
def getPbkdf2Looper (have64 : Bool) (cache : LooperCache) (digestSize : Nat) :
    Except PyError (List Nat) × LooperCache :=
  match cache digestSize with
  | some lanes => (.ok lanes, cache)
  | none =>
    match generateLooper have64 digestSize with
    | .ok lanes => (.ok lanes, fun n => if n = digestSize then some lanes else cache n)
    | .error e => (.error e, cache)

/-- The cache after a sequence of `_get_pbkdf2_looper` calls from an empty one. -/
def looperCacheAfter (have64 : Bool) (sizes : List Nat) : LooperCache :=
  sizes.foldl (fun c n => (getPbkdf2Looper have64 c n).2) fun _ => none

/-- The reference helper in `_get_pbkdf2_looper`'s docstring, with `accum ^= digest` bytewise. -/
def referenceLoop (keyedHmac : Bytes → Bytes) : Bytes → Bytes → Nat → Bytes
  | _, accum, 0 => accum
  | digest, accum, n + 1 => referenceLoop keyedHmac (keyedHmac digest) (xorBytes accum (keyedHmac digest)) n

def referenceHelper (keyedHmac : Bytes → Bytes) (digest : Bytes) (rounds : Nat) : Bytes :=
  referenceLoop keyedHmac digest digest (rounds - 1)

theorem referenceLoop_eq (P : Bytes → Bytes) (n : Nat) :
    ∀ u T, referenceLoop P u T n = (prfChain P (P u) n).foldl xorBytes T := by
  induction n with
  | zero => intro u T; rfl
  | succ n ih => intro u T; exact ih (P u) _

theorem referenceHelper_eq (P : Bytes → Bytes) (u : Bytes) {rounds : Nat} (hr : 1 ≤ rounds) :
    referenceHelper P u rounds = xorAll (prfChain P u rounds) := by
  obtain ⟨r, rfl⟩ := Nat.exists_eq_add_of_le' hr
  rw [referenceHelper, Nat.add_sub_cancel, referenceLoop_eq]
  rfl

/-! ## Lanes -/

theorem decodeLane_lt (little : Bool) (b : Bytes) : decodeLane little b < 256 ^ b.length := by
  unfold decodeLane
  cases little
  · exact fromBytes_lt b
  · simpa using fromBytes_lt b.reverse

theorem encodeLane_decodeLane (little : Bool) (b : Bytes) :
    encodeLane little b.length (decodeLane little b) = b := by
  unfold encodeLane decodeLane
  cases little
  · simp
  · simpa using congrArg List.reverse (encodeBE_fromBytes b.reverse)

theorem decodeLane_xorBytes (little : Bool) {a b : Bytes} (h : a.length = b.length) :
    decodeLane little (xorBytes a b) = decodeLane little a ^^^ decodeLane little b := by
  unfold decodeLane
  cases little
  · exact fromBytes_xorBytes h
  · simpa [xorBytes, List.reverse_zipWith h] using fromBytes_xorBytes (by simpa using h)

@[simp] theorem length_splitLanes (little : Bool) (lanes : List Nat) (b : Bytes) :
    (splitLanes little lanes b).length = lanes.length := by
  induction lanes generalizing b <;> simp [splitLanes, *]

/-- Unpacking carries bytewise XOR to lanewise XOR. -/
theorem splitLanes_xorBytes (little : Bool) (lanes : List Nat) :
    ∀ a b : Bytes, a.length = b.length →
      List.zipWith (· ^^^ ·) (splitLanes little lanes a) (splitLanes little lanes b) =
        splitLanes little lanes (xorBytes a b) := by
  induction lanes with
  | nil => intros; rfl
  | cons w ws ih =>
    intro a b h
    simp only [splitLanes, List.zipWith_cons_cons, xorBytes, List.take_zipWith, List.drop_zipWith]
    rw [← xorBytes, ← xorBytes, decodeLane_xorBytes little (by simp [h]),
      ih _ _ (by simp [h])]

/-- Packing what was unpacked gives the digest back, and no lane is out of range. -/
theorem packLanes_splitLanes (little : Bool) (lanes : List Nat) :
    ∀ a : Bytes, a.length = lanes.sum →
      packLanes little lanes (splitLanes little lanes a) = .ok a := by
  induction lanes with
  | nil => intro a h; simp_all [packLanes, splitLanes]
  | cons w ws ih =>
    intro a h
    have hw : (a.take w).length = w := by simp at h ⊢; omega
    have hlt := decodeLane_lt little (a.take w)
    rw [hw] at hlt
    rw [splitLanes, packLanes, if_pos hlt, ih _ (by simp at h ⊢; omega)]
    have he := encodeLane_decodeLane little (a.take w)
    rw [hw] at he
    simp only [Except.map, he, List.take_append_drop]

theorem unpackLoop_eq (little : Bool) {lanes : List Nat} {d : Nat} (hsum : lanes.sum = d)
    {P : Bytes → Bytes} (hP : ∀ x, x.length = d → (P x).length = d) (n : Nat) :
    ∀ u T : Bytes, u.length = d → T.length = d →
      unpackLoop little lanes P u (splitLanes little lanes T) n =
        .ok (splitLanes little lanes ((prfChain P (P u) n).foldl xorBytes T)) := by
  induction n with
  | zero => intros; rfl
  | succ n ih =>
    intro u T hu hT
    have hPu := hP u hu
    rw [unpackLoop, structUnpack, if_pos (hPu.trans hsum.symm), ok_bind,
      splitLanes_xorBytes little lanes T (P u) (hT.trans hPu.symm),
      ih (P u) _ hPu (by simp [hT, hPu])]
    rfl

/-- A helper of more than one lane that covers the digest computes the reference helper. -/
theorem unpackHelper_eq (little : Bool) {lanes : List Nat} {d : Nat} (hsum : lanes.sum = d)
    (hl : lanes.length ≠ 1) {P : Bytes → Bytes} (hP : ∀ x, x.length = d → (P x).length = d)
    {u : Bytes} (hu : u.length = d) {rounds : Nat} (hr : 1 ≤ rounds) :
    unpackHelper little lanes P u rounds = .ok (referenceHelper P u rounds) := by
  obtain ⟨r, rfl⟩ := Nat.exists_eq_add_of_le' hr
  have hlen := length_foldl_xorBytes _ (length_prfChain hP r (P u) (hP u hu)) u hu
  rw [unpackHelper, structUnpack, if_pos (hu.trans hsum.symm), ok_bind, if_neg hl,
    Nat.add_sub_cancel, unpackLoop_eq little hsum hP r u u hu hu, ok_bind, structPack,
    if_pos (by simp),
    packLanes_splitLanes little lanes _ (hlen.trans hsum.symm), referenceHelper, Nat.add_sub_cancel,
    referenceLoop_eq]

/-- Every positive multiple of 4 gets a helper whose lanes cover it exactly; it has one lane
for 4 bytes, and for 8 bytes on a 64-bit system. -/
theorem generateLooper_ok (have64 : Bool) {ds : Nat} (hpos : 0 < ds) (h4 : ds % 4 = 0) :
    ∃ lanes, generateLooper have64 ds = .ok lanes ∧ lanes.sum = ds ∧
      (lanes.length = 1 ↔ ds = 4 ∨ (have64 = true ∧ ds = 8)) := by
  have h7 : ds &&& 0x7 = ds % 8 := Nat.and_pow_two_sub_one_eq_mod ds 3
  have h3 : ds &&& 0x3 = ds % 4 := Nat.and_pow_two_sub_one_eq_mod ds 2
  simp only [generateLooper, looperLanes, h7, h3, h4, Nat.shiftRight_eq_div_pow]
  cases have64
  · exact ⟨List.replicate (ds / 4) 4, by simp [compileLooper]; omega,
      by simp [List.sum_replicate]; omega, by simp; omega⟩
  · by_cases h8 : ds % 8 = 0
    · exact ⟨List.replicate (ds / 8) 8, by simp [h8, compileLooper]; omega,
        by simp [List.sum_replicate]; omega, by simp; omega⟩
    · exact ⟨List.replicate (ds / 8) 8 ++ [4], by simp [h8, compileLooper],
        by simp [List.sum_replicate]; omega, by simp; omega⟩

/-! ## The cache -/

/-- Every helper in the cache is the one generated for its size. -/
def LooperCache.Sound (have64 : Bool) (cache : LooperCache) : Prop :=
  ∀ n lanes, cache n = some lanes → generateLooper have64 n = .ok lanes

/-- A sound cache answers what generation would, and stays sound. -/
theorem getPbkdf2Looper_sound {have64 : Bool} {cache : LooperCache}
    (hc : LooperCache.Sound have64 cache) (n : Nat) :
    (getPbkdf2Looper have64 cache n).1 = generateLooper have64 n ∧
      LooperCache.Sound have64 (getPbkdf2Looper have64 cache n).2 := by
  unfold getPbkdf2Looper
  split
  · rename_i lanes h
    exact ⟨(hc n lanes h).symm, hc⟩
  · split
    · rename_i lanes h
      refine ⟨h.symm, fun m l hm => ?_⟩
      by_cases hmn : m = n
      · subst hmn
        simp only [↓reduceIte, Option.some.injEq] at hm
        exact hm ▸ h
      · simp only [if_neg hmn] at hm; exact hc m l hm
    · rename_i e h
      exact ⟨h.symm, hc⟩

theorem looperCacheAfter_sound (have64 : Bool) (sizes : List Nat) :
    LooperCache.Sound have64 (looperCacheAfter have64 sizes) := by
  suffices ∀ c, LooperCache.Sound have64 c →
      LooperCache.Sound have64 (sizes.foldl (fun c n => (getPbkdf2Looper have64 c n).2) c) from
    this _ fun _ _ h => nomatch h
  induction sizes with
  | nil => exact fun c hc => hc
  | cons n ns ih => exact fun c hc => ih _ (getPbkdf2Looper_sound hc n).2

/-- After any earlier calls, `_get_pbkdf2_looper(digest_size)` returns, for every positive
multiple of 4 that it splits into more than one lane, either word size and either byte order,
a helper that agrees with the reference helper: `U_1 xor ... xor U_rounds`. -/
theorem getPbkdf2Looper_agrees (have64 little : Bool) (prior : List Nat) {digestSize : Nat}
    (hpos : 0 < digestSize) (h4 : digestSize % 4 = 0)
    (hmulti : ¬(digestSize = 4 ∨ (have64 = true ∧ digestSize = 8))) :
    ∃ lanes, (getPbkdf2Looper have64 (looperCacheAfter have64 prior) digestSize).1 = .ok lanes ∧
      ∀ (keyedHmac : Bytes → Bytes) (digest : Bytes) (rounds : Nat),
        (∀ x, x.length = digestSize → (keyedHmac x).length = digestSize) →
        digest.length = digestSize → 1 ≤ rounds →
        unpackHelper little lanes keyedHmac digest rounds = .ok (referenceHelper keyedHmac digest rounds) ∧
        referenceHelper keyedHmac digest rounds = xorAll (prfChain keyedHmac digest rounds) := by
  obtain ⟨lanes, hgen, hsum, hone⟩ := generateLooper_ok have64 hpos h4
  refine ⟨lanes, ((getPbkdf2Looper_sound (looperCacheAfter_sound have64 prior) _).1.trans hgen), ?_⟩
  intro P u rounds hP hu hr
  exact ⟨unpackHelper_eq little hsum (mt hone.mp hmulti) hP hu hr, referenceHelper_eq P u hr⟩

/-- A one-lane helper raises once its digest is unpacked. -/
theorem unpackHelper_one_lane (little : Bool) {lanes : List Nat} {d : Nat} (hsum : lanes.sum = d)
    (hl : lanes.length = 1) {P : Bytes → Bytes} (hP : ∀ x, x.length = d → (P x).length = d)
    {u : Bytes} (hu : u.length = d) (rounds : Nat) :
    unpackHelper little lanes P u rounds =
      if 1 < rounds then .error (.typeError "unsupported operand type(s) for ^=: 'tuple' and 'tuple'")
      else .error (.structError "required argument is not an integer") := by
  rw [unpackHelper, structUnpack, if_pos (hu.trans hsum.symm), ok_bind, if_pos hl]
  by_cases hr : 1 < rounds
  · rw [if_pos hr, if_pos hr, structUnpack, if_pos ((hP u hu).trans hsum.symm), ok_bind]
    rfl
  · rw [if_neg hr, if_neg hr]
    rfl

/-- The helper `_get_pbkdf2_looper` compiles for 4 bytes, or for 8 bytes on a 64-bit system,
has one lane and never returns: for every keyed HMAC, digest and round count it raises
`TypeError` when there is a round to XOR, and `struct.error` otherwise. -/
theorem getPbkdf2Looper_one_lane (have64 little : Bool) (prior : List Nat) {digestSize : Nat}
    (hone : digestSize = 4 ∨ (have64 = true ∧ digestSize = 8)) :
    ∃ lanes, (getPbkdf2Looper have64 (looperCacheAfter have64 prior) digestSize).1 = .ok lanes ∧
      ∀ (keyedHmac : Bytes → Bytes) (digest : Bytes) (rounds : Nat),
        (∀ x, x.length = digestSize → (keyedHmac x).length = digestSize) →
        digest.length = digestSize →
        unpackHelper little lanes keyedHmac digest rounds =
          if 1 < rounds then .error (.typeError "unsupported operand type(s) for ^=: 'tuple' and 'tuple'")
          else .error (.structError "required argument is not an integer") := by
  have hd : 0 < digestSize ∧ digestSize % 4 = 0 := by rcases hone with rfl | ⟨-, rfl⟩ <;> decide
  obtain ⟨lanes, hgen, hsum, hl⟩ := generateLooper_ok have64 hd.1 hd.2
  exact ⟨lanes, (getPbkdf2Looper_sound (looperCacheAfter_sound have64 prior) _).1.trans hgen,
    fun P u rounds hP hu => unpackHelper_one_lane little hsum (hl.mpr hone) hP hu rounds⟩

/-- SHA-1 truncated to 8 bytes: the 64-bit helper raises at two rounds. -/
theorem getPbkdf2Looper_one_lane_eight :
    (8 = 4 ∨ (true = true ∧ 8 = 8)) ∧
    ∃ lanes, (getPbkdf2Looper true (looperCacheAfter true []) 8).1 = .ok lanes ∧
      ∀ (keyedHmac : Bytes → Bytes) (digest : Bytes) (rounds : Nat),
        (∀ x, x.length = 8 → (keyedHmac x).length = 8) →
        digest.length = 8 →
        unpackHelper true lanes keyedHmac digest rounds =
          if 1 < rounds then .error (.typeError "unsupported operand type(s) for ^=: 'tuple' and 'tuple'")
          else .error (.structError "required argument is not an integer") :=
  ⟨.inr ⟨rfl, rfl⟩, getPbkdf2Looper_one_lane true true [] (.inr ⟨rfl, rfl⟩)⟩

end Passlib
