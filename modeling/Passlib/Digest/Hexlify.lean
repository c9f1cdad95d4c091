import Passlib.Digest.Pbkdf2
import Passlib.Text
import Mathlib.Tactic.Ring

/-! # The "hexlify" PBKDF2 looper

With `PASSLIB_PBKDF2_BACKEND=hexlify`, `_pbkdf2_looper` reads every digest as
`int(hexlify(digest), 16)`, XORs the integers, and writes the result with
`int_to_bytes(accum, len(digest))`. Two hex digits make one byte, so the integer read is
`int.from_bytes(digest, "big")`, and the looper computes what the "from-bytes" looper does
(`hexlifyLooper_agrees`). -/

namespace Passlib

/-- The digit `binascii.hexlify` writes for `n < 16`. -/
def hexDigit (n : Nat) : Char := Char.ofNat (if n < 10 then 48 + n else 87 + n)

/-- `binascii.hexlify(b)`. -/
def hexlify (b : Bytes) : List Char :=
  b.flatMap fun x => [hexDigit (x.toNat / 16), hexDigit (x.toNat % 16)]

/-- The value of a base-16 digit. -/
def hexValue (c : Char) : Option Nat :=
  if '0' ≤ c ∧ c ≤ '9' then some (c.toNat - 48)
  else if 'a' ≤ c ∧ c ≤ 'f' then some (c.toNat - 87)
  else if 'A' ≤ c ∧ c ≤ 'F' then some (c.toNat - 55)
  else none

/-- The digits of a string read in base 16 after `acc`. -/
def parseHex : Nat → List Char → Option Nat
  | acc, [] => some acc
  | acc, c :: cs => (hexValue c).bind fun d => parseHex (16 * acc + d) cs

/-- `int(s, 16)` of the bytes `hexlify` returns. Signs, prefixes, underscores and whitespace,
which `hexlify` never writes, are not modelled. -/
def intBase16 (s : List Char) : Except PyError Nat :=
  match s, parseHex 0 s with
  | _ :: _, some n => .ok n
  | _, _ => .error (.valueError ("invalid literal for int() with base 16: " ++ pyBytesRepr s))

/-- `passlib.utils.int_to_bytes(num, count)`: `count` big-endian bytes. -/
def intToBytes (num count : Nat) : Except PyError Bytes :=
  if num < 2 ^ (8 * count) then .ok (encodeBE count num)
  else .error (.valueError s!"value too large for {count} bytes")

/-- The loop of the hexlify looper: `digest = keyed_hmac(digest)` and
`accum ^= int(hexlify(digest), 16)`, keeping the last digest for `len(digest)`. -/
def hexlifyLoop (keyedHmac : Bytes → Bytes) : Bytes → Nat → Nat → Except PyError (Nat × Bytes)
  | digest, accum, 0 => .ok (accum, digest)
  | digest, accum, n + 1 => do
    let v ← intBase16 (hexlify (keyedHmac digest))
    hexlifyLoop keyedHmac (keyedHmac digest) (accum ^^^ v) n

/-- `_pbkdf2_looper(keyed_hmac, digest, rounds)`, the "hexlify" backend. -/
def hexlifyLooper (keyedHmac : Bytes → Bytes) (digest : Bytes) (rounds : Nat) :
    Except PyError Bytes := do
  let accum ← intBase16 (hexlify digest)
  let (accum, digest) ← hexlifyLoop keyedHmac digest accum (rounds - 1)
  intToBytes accum digest.length

theorem hexValue_hexDigit : ∀ n < 16, hexValue (hexDigit n) = some n := by decide

theorem parseHex_hexlify (b : Bytes) :
    ∀ acc, parseHex acc (hexlify b) = some (acc * 256 ^ b.length + fromBytes b) := by
  induction b with
  | nil => intro acc; simp [hexlify, parseHex, fromBytes]
  | cons x xs ih =>
    intro acc
    have hx : x.toNat < 256 := x.toNat_lt_size
    have hdigits : 16 * (16 * acc + x.toNat / 16) + x.toNat % 16 = 256 * acc + x.toNat := by omega
    have hcons : hexlify (x :: xs) =
        hexDigit (x.toNat / 16) :: hexDigit (x.toNat % 16) :: hexlify xs := rfl
    rw [hcons, parseHex, hexValue_hexDigit _ (by omega), Option.some_bind, parseHex,
      hexValue_hexDigit _ (by omega), Option.some_bind, hdigits, ih, fromBytes, List.length_cons,
      pow_succ]
    congr 1
    ring

/-- `int(hexlify(b), 16)` is `int.from_bytes(b, "big")` for every non-empty `b`. -/
theorem intBase16_hexlify {b : Bytes} (hb : b ≠ []) : intBase16 (hexlify b) = .ok (fromBytes b) := by
  obtain ⟨x, xs, rfl⟩ := List.exists_cons_of_ne_nil hb
  have h := parseHex_hexlify (x :: xs) 0
  rw [Nat.zero_mul, Nat.zero_add] at h
  unfold intBase16
  rw [h]
  rfl

/-- On digests of a fixed non-zero size, the hexlify loop keeps the from-bytes accumulator and
ends on a digest of that size. -/
theorem hexlifyLoop_eq {d : Nat} {P : Bytes → Bytes} (hP : ∀ x, (P x).length = d) (hd : 0 < d)
    (n : Nat) : ∀ (u : Bytes) (acc : Nat), u.length = d →
      ∃ v, v.length = d ∧ hexlifyLoop P u acc n = .ok (looperAccum P u acc n, v) := by
  induction n with
  | zero => exact fun u acc hu => ⟨u, hu, rfl⟩
  | succ n ih =>
    intro u acc _
    have hne : P u ≠ [] := List.ne_nil_of_length_pos (by rw [hP]; exact hd)
    obtain ⟨v, hv, he⟩ := ih (P u) (acc ^^^ fromBytes (P u)) (hP u)
    exact ⟨v, hv, by rw [hexlifyLoop, intBase16_hexlify hne, ok_bind, he]; rfl⟩

/-- On digests of a fixed non-zero size, the hexlify looper returns what the from-bytes looper
returns, the overflow of `int_to_bytes` and of `int.to_bytes` included. -/
theorem hexlifyLooper_eq {d : Nat} {P : Bytes → Bytes} (hP : ∀ x, (P x).length = d) (hd : 0 < d)
    {u : Bytes} (hu : u.length = d) {rounds : Nat} (hr : 1 ≤ rounds) :
    hexlifyLooper P u rounds = pbkdf2Looper d P u rounds := by
  have hne : u ≠ [] := List.ne_nil_of_length_pos (by rw [hu]; exact hd)
  obtain ⟨v, hv, hloop⟩ := hexlifyLoop_eq hP hd (rounds - 1) u (fromBytes u) hu
  have hfrom := pbkdf2Looper_eq hP hu hr
  rw [pbkdf2Looper, toBytes] at hfrom ⊢
  rw [hexlifyLooper, intBase16_hexlify hne, ok_bind, hloop, ok_bind]
  dsimp only
  rw [hv, intToBytes, ← pow_256]
  split
  · rfl
  · rw [if_neg ‹_›] at hfrom
    cases hfrom

/-- For every keyed HMAC whose digests have a fixed non-zero size, every first block of that
size and every positive number of rounds, the "hexlify" looper returns the block the
"from-bytes" looper returns, `U_1 xor ... xor U_rounds`. -/
theorem hexlifyLooper_agrees {d : Nat} (P : Bytes → Bytes) (hP : ∀ x, (P x).length = d)
    (hd : 0 < d) (u : Bytes) (hu : u.length = d) (rounds : Nat) (hr : 1 ≤ rounds) :
    hexlifyLooper P u rounds = pbkdf2Looper d P u rounds ∧
      pbkdf2Looper d P u rounds = .ok (xorAll (prfChain P u rounds)) :=
  ⟨hexlifyLooper_eq hP hd hu hr, pbkdf2Looper_eq hP hu hr⟩

/-- A 2-byte keyed HMAC over 3 rounds. -/
theorem hexlifyLooper_agrees_three :
    let P : Bytes → Bytes := fun x => [x.getLastD 0 ^^^ 0xff, x.headD 0 + 1]
    (∀ x, (P x).length = 2) ∧ 0 < 2 ∧ [0x12, 0x34].length = 2 ∧ 1 ≤ 3 ∧
      (hexlifyLooper P [0x12, 0x34] 3 = pbkdf2Looper 2 P [0x12, 0x34] 3 ∧
        pbkdf2Looper 2 P [0x12, 0x34] 3 = .ok (xorAll (prfChain P [0x12, 0x34] 3))) :=
  ⟨fun _ => rfl, by decide, rfl, by decide,
    hexlifyLooper_agrees (fun x => [x.getLastD 0 ^^^ 0xff, x.headD 0 + 1]) (fun _ => rfl)
      (by decide) [0x12, 0x34] rfl 3 (by decide)⟩

end Passlib
