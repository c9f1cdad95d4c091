import Mathlib.Data.Nat.Bitwise
import Mathlib.Tactic.Linarith
import Mathlib.Tactic.Positivity

/-! Byte strings, Python's exceptions and the `int` <-> `bytes` conversions that the
PBKDF2 loopers use. `int.from_bytes(b, "big")` is `fromBytes`; `int.to_bytes(n, len, "big")`
is `toBytes`. The one fact the loopers rely on is that both conversions carry integer XOR to
bytewise XOR on strings of one length (`fromBytes_xorBytes`, `encodeBE_fromBytes`). -/

namespace Passlib

/-- Python `bytes`. -/
abbrev Bytes := List UInt8

/-- The exceptions raised by the modelled functions, with their messages. -/
inductive PyError
  | valueError (msg : String)
  | typeError (msg : String)
  | overflowError (msg : String)
  | keyError (msg : String)
  | assertionError (msg : String)
  | runtimeError (msg : String)
  | structError (msg : String)
  | notImplementedError (msg : String)
  | zeroDivisionError (msg : String)
  | syntaxError (msg : String)
  | importError (msg : String)
  | attributeError (msg : String)
  | unknownHashError (name : String)
  | recursionError (msg : String)
  | indexError (msg : String)
  deriving DecidableEq, Repr

@[simp] theorem ok_bind {α β : Type} (a : α) (f : α → Except PyError β) :
    (Except.ok a >>= f) = f a := rfl

@[simp] theorem error_bind {α β : Type} (e : PyError) (f : α → Except PyError β) :
    (Except.error e >>= f) = .error e := rfl

/-- A check that raises: returning past it means the check failed. -/
theorem ok_of_ite_error {α : Type} {c : Prop} [Decidable c] {e : PyError} {x : Except PyError α}
    {v : α} (h : (if c then .error e else x) = .ok v) : ¬c ∧ x = .ok v := by
  by_cases hc : c
  · rw [if_pos hc] at h
    cases h
  · rw [if_neg hc] at h
    exact ⟨hc, h⟩

/-- Bytewise XOR, the `bytes ^ bytes` that Python lacks. -/
def xorBytes (a b : Bytes) : Bytes := List.zipWith (· ^^^ ·) a b

/-- `int.from_bytes(b, "big")`. -/
def fromBytes : Bytes → Nat
  | [] => 0
  | x :: xs => 256 ^ xs.length * x.toNat + fromBytes xs

/-- The `len` big-endian base-256 digits of `n` (of `n % 256 ^ len`). -/
def encodeBE : Nat → Nat → Bytes
  | 0, _ => []
  | k + 1, n => UInt8.ofNat (n / 256 ^ k) :: encodeBE k (n % 256 ^ k)

/-- `n.to_bytes(length, "big")`, which raises once `n` needs more than `length` bytes. -/
def toBytes (n length : Nat) : Except PyError Bytes :=
  if n < 256 ^ length then .ok (encodeBE length n)
  else .error (.overflowError "int too big to convert")

theorem toNat_xor (a b : UInt8) : (a ^^^ b).toNat = a.toNat ^^^ b.toNat :=
  BitVec.toNat_xor a.toBitVec b.toBitVec

theorem ofNat_toNat (a : UInt8) : UInt8.ofNat a.toNat = a :=
  UInt8.toNat.inj (UInt8.toNat_ofNat_of_lt a.toNat_lt_size)

theorem pow_256 (k : Nat) : 256 ^ k = 2 ^ (8 * k) := by rw [pow_mul]; rfl

@[simp] theorem length_xorBytes (a b : Bytes) : (xorBytes a b).length = min a.length b.length :=
  List.length_zipWith _ _ _

@[simp] theorem length_encodeBE (k n : Nat) : (encodeBE k n).length = k := by
  induction k generalizing n <;> simp [encodeBE, *]

theorem fromBytes_lt (a : Bytes) : fromBytes a < 256 ^ a.length := by
  induction a with
  | nil => simp [fromBytes]
  | cons x xs ih =>
    have hx : x.toNat < 256 := x.toNat_lt_size
    simp only [fromBytes, List.length_cons, pow_succ]
    nlinarith

/-- XOR acts digitwise on a base-`2 ^ i` numeral. -/
theorem xor_mul_pow_add {i a b c d : Nat} (hb : b < 2 ^ i) (hd : d < 2 ^ i) :
    (2 ^ i * a + b) ^^^ (2 ^ i * c + d) = 2 ^ i * (a ^^^ c) + (b ^^^ d) := by
  apply Nat.eq_of_testBit_eq
  intro j
  rw [Nat.testBit_xor, Nat.testBit_mul_pow_two_add _ hb, Nat.testBit_mul_pow_two_add _ hd,
    Nat.testBit_mul_pow_two_add _ (Nat.xor_lt_two_pow hb hd)]
  split <;> simp

theorem fromBytes_xorBytes {a b : Bytes} (h : a.length = b.length) :
    fromBytes (xorBytes a b) = fromBytes a ^^^ fromBytes b := by
  induction a generalizing b with
  | nil => cases b <;> simp_all [xorBytes, fromBytes]
  | cons x xs ih =>
    cases b with
    | nil => simp at h
    | cons y ys =>
      have h' : xs.length = ys.length := Nat.succ.inj h
      have hxs := pow_256 _ ▸ fromBytes_lt xs
      have hys := pow_256 _ ▸ h' ▸ fromBytes_lt ys
      have hl : (xorBytes xs ys).length = xs.length := by simp [h']
      calc fromBytes (xorBytes (x :: xs) (y :: ys))
          = 2 ^ (8 * xs.length) * (x.toNat ^^^ y.toNat) + (fromBytes xs ^^^ fromBytes ys) := by
            rw [← ih h', ← toNat_xor, ← pow_256, ← hl]; rfl
        _ = fromBytes (x :: xs) ^^^ fromBytes (y :: ys) := by
            simp only [fromBytes, ← h', pow_256, xor_mul_pow_add hxs hys]

theorem encodeBE_head {k a b : Nat} (hb : b < 256 ^ k) :
    encodeBE (k + 1) (256 ^ k * a + b) = UInt8.ofNat a :: encodeBE k b := by
  have hp : 0 < 256 ^ k := by positivity
  simp only [encodeBE, Nat.mul_add_div hp, Nat.div_eq_of_lt hb, Nat.add_zero, Nat.mul_add_mod,
    Nat.mod_eq_of_lt hb]

@[simp] theorem encodeBE_fromBytes (a : Bytes) : encodeBE a.length (fromBytes a) = a := by
  induction a with
  | nil => rfl
  | cons x xs ih =>
    rw [List.length_cons, fromBytes, encodeBE_head (fromBytes_lt xs), ih, ofNat_toNat]

theorem toBytes_fromBytes (a : Bytes) : toBytes (fromBytes a) a.length = .ok a := by
  simp [toBytes, fromBytes_lt]

end Passlib
