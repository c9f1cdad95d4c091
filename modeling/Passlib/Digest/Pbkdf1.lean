import Passlib.Digest.Hmac

/-! # `pbkdf1`

PKCS#5 v1.5 key derivation for a resolved digest: the validation of `rounds` and `keylen`, in the
source's order, then `rounds` applications of the hash to `secret + salt`, cut to `keylen` bytes.
The validation raises `ValueError` exactly on a non-positive round count or a key length outside
`0..digest_size`; otherwise the result is the first `keylen` bytes of `H^rounds(secret + salt)`,
which has exactly `keylen` bytes since at least one round ran (`pbkdf1_eq`). -/

namespace Passlib

/-- The validation of `pbkdf1`, in the source's order. It returns the rounds and the key length,
the digest size when `keylen` is `None`. -/
def pbkdf1Params (digestSize : Nat) (rounds : Int) (keylen : Option Int) :
    Except PyError (Nat × Nat) := do
  if rounds < 1 then throw (.valueError "rounds must be at least 1")
  let keylen : Nat ← match keylen with
    | none => pure digestSize
    | some k =>
      if k < 0 then throw (.valueError "keylen must be at least 0")
      else if (digestSize : Int) < k then
        throw (.valueError ("keylength too large for digest: " ++ toString k ++ " > " ++
          toString digestSize))
      else pure k.toNat
  pure (rounds.toNat, keylen)

/-- `pbkdf1(digest, secret, salt, rounds, keylen)` for a resolved digest:
`for _ in irange(rounds): block = const(block).digest()` from `secret + salt`, then
`block[:keylen]`. -/
def pbkdf1 (D : Digest) (secret salt : Bytes) (rounds : Int) (keylen : Option Int) :
    Except PyError Bytes := do
  let (rounds, keylen) ← pbkdf1Params D.digestSize rounds keylen
  let block := (List.range rounds).foldl (fun block _ => D.digest (D.const block)) (secret ++ salt)
  pure (block.take keylen)

/-- The key length `pbkdf1` cuts to: `keylen`, or the digest size when it is `None`. -/
def pbkdf1Keylen (digestSize : Nat) (keylen : Option Int) : Nat :=
  (keylen.map Int.toNat).getD digestSize

/-- The arguments `pbkdf1` refuses. -/
def Pbkdf1Refused (digestSize : Nat) (rounds : Int) (keylen : Option Int) : Prop :=
  rounds < 1 ∨ ∃ k, keylen = some k ∧ (k < 0 ∨ (digestSize : Int) < k)

/-! ## The validation -/

theorem pbkdf1Params_ok {d : Nat} {rounds : Int} {keylen : Option Int}
    (h : ¬Pbkdf1Refused d rounds keylen) :
    pbkdf1Params d rounds keylen = .ok (rounds.toNat, pbkdf1Keylen d keylen) := by
  simp only [Pbkdf1Refused, not_or, not_exists, not_and] at h
  obtain ⟨hr, hk⟩ := h
  cases keylen with
  | none => simp [pbkdf1Params, pbkdf1Keylen, hr]; rfl
  | some k =>
    have := hk k rfl
    simp [pbkdf1Params, pbkdf1Keylen, hr, this.1, this.2]; rfl

theorem pbkdf1Params_refused {d : Nat} {rounds : Int} {keylen : Option Int}
    (h : Pbkdf1Refused d rounds keylen) :
    ∃ msg, pbkdf1Params d rounds keylen = .error (.valueError msg) := by
  rcases h with hr | ⟨k, rfl, hk⟩
  · exact ⟨_, by simp [pbkdf1Params, hr]; rfl⟩
  · by_cases hr : rounds < 1
    · exact ⟨_, by simp [pbkdf1Params, hr]; rfl⟩
    rcases hk with hk | hk
    · exact ⟨_, by simp [pbkdf1Params, hr, hk]; rfl⟩
    · exact ⟨_, by simp [pbkdf1Params, hr, hk, not_lt.mpr (by omega : (0 : Int) ≤ k)]; rfl⟩

/-! ## The loop -/

/-- The loop of `pbkdf1` applies the hash `rounds` times. -/
theorem foldl_const_digest (D : Digest) (x : Bytes) (n : Nat) :
    (List.range n).foldl (fun block _ => D.digest (D.const block)) x = D.hash^[n] x := by
  induction n with
  | zero => rfl
  | succ n ih =>
    rw [List.range_succ, List.foldl_append, ih, List.foldl_cons, List.foldl_nil, D.digest_const,
      Function.iterate_succ_apply']

theorem length_iterate_hash (D : Digest) {n : Nat} (hn : 1 ≤ n) (x : Bytes) :
    (D.hash^[n] x).length = D.digestSize := by
  obtain ⟨m, rfl⟩ : ∃ m, n = m + 1 := ⟨n - 1, by omega⟩
  rw [Function.iterate_succ_apply', D.length_hash]

/-! ## What `pbkdf1` computes -/

/-- `pbkdf1` raises `ValueError` exactly on the refused arguments; otherwise it returns the first
`keylen` bytes of the hash applied `rounds` times to `secret + salt`, and that has `keylen`
bytes. -/
theorem pbkdf1_eq (D : Digest) (secret salt : Bytes) (rounds : Int) (keylen : Option Int) :
    ((∃ msg, pbkdf1 D secret salt rounds keylen = .error (.valueError msg)) ↔
        Pbkdf1Refused D.digestSize rounds keylen) ∧
      (¬Pbkdf1Refused D.digestSize rounds keylen →
        pbkdf1 D secret salt rounds keylen =
          .ok ((D.hash^[rounds.toNat] (secret ++ salt)).take (pbkdf1Keylen D.digestSize keylen)) ∧
        ((D.hash^[rounds.toNat] (secret ++ salt)).take
          (pbkdf1Keylen D.digestSize keylen)).length = pbkdf1Keylen D.digestSize keylen) := by
  have hok : ¬Pbkdf1Refused D.digestSize rounds keylen →
      pbkdf1 D secret salt rounds keylen =
        .ok ((D.hash^[rounds.toNat] (secret ++ salt)).take (pbkdf1Keylen D.digestSize keylen)) :=
    fun h => by simp only [pbkdf1, pbkdf1Params_ok h, ok_bind, foldl_const_digest]; rfl
  refine ⟨⟨fun ⟨msg, he⟩ => ?_, fun h => ?_⟩, fun h => ⟨hok h, ?_⟩⟩
  · by_contra h
    rw [hok h] at he
    cases he
  · obtain ⟨msg, he⟩ := pbkdf1Params_refused h
    exact ⟨msg, by simp only [pbkdf1, he, error_bind]⟩
  · simp only [Pbkdf1Refused, not_or, not_exists, not_and, not_lt] at h
    have hk : pbkdf1Keylen D.digestSize keylen ≤ D.digestSize := by
      cases keylen with
      | none => exact le_refl _
      | some k =>
        have := h.2 k rfl
        show k.toNat ≤ D.digestSize
        omega
    rw [List.length_take, length_iterate_hash D (by omega)]
    exact min_eq_left hk

end Passlib
