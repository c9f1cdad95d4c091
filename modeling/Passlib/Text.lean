import Passlib.Basic

/-! # Python `str`

A Python string is a list of characters. `str.lower`, `str.strip`, the `\d` and
case-insensitive `[a-z]` classes of `re`, and which characters `repr` leaves unescaped read
CPython's Unicode tables, which the model takes as a parameter (`PyUnicode`) together with the
properties of those tables that the proofs use. `PyUnicode.ascii` shows the properties can all
hold at once. -/

namespace Passlib

/-- Python `str`. -/
abbrev Str := List Char

/-- The parts of CPython's Unicode tables that the modelled code reads: `str.lower`,
`str.isspace` (what `str.strip()` removes), `\d`, `[a-z]` under `re.IGNORECASE`, and
`Py_UNICODE_ISPRINTABLE`, which `repr` consults for non-ASCII characters. -/
structure PyUnicode where
  lower : Str → Str
  isSpace : Char → Bool
  isDigit : Char → Bool
  isLetter : Char → Bool
  isPrintable : Char → Bool
  /-- On ASCII text `lower` maps `A-Z` to `a-z` and fixes the rest. -/
  lower_ascii : ∀ s : Str, (∀ c ∈ s, c.toNat < 128) → lower s = s.map Char.toLower
  /-- Lowering is per character except for the final-sigma rule of capital sigma, so a string
  whose characters are all fixed is fixed. -/
  lower_eq_self : ∀ s : Str, (∀ c ∈ s, lower [c] = [c]) → lower s = s
  /-- Every character `lower` produces is fixed by `lower`. -/
  lower_stable : ∀ s : Str, ∀ c ∈ lower s, lower [c] = [c]
  isSpace_ascii : ∀ c : Char, c.toNat < 128 →
    (isSpace c = true ↔ c.toNat ∈ [9, 10, 11, 12, 13, 28, 29, 30, 31, 32])
  isDigit_ascii : ∀ c : Char, c.toNat < 128 → (isDigit c = true ↔ c.isDigit = true)
  isLetter_ascii : ∀ c : Char, c.toNat < 128 → (isLetter c = true ↔ c.isAlpha = true)
  /-- Decimal digits and the letters of `[a-z]` are neither spaces nor each other. -/
  not_space_of_digit : ∀ c, isDigit c = true → isSpace c = false
  not_space_of_letter : ∀ c, isLetter c = true → isSpace c = false
  not_digit_of_letter : ∀ c, isLetter c = true → isDigit c = false

/-- `s.strip()`. -/
def strip (U : PyUnicode) (s : Str) : Str :=
  ((s.dropWhile U.isSpace).reverse.dropWhile U.isSpace).reverse

/-- `n` as `w` lowercase hexadecimal digits (`Py_hexdigits`). -/
def hexDigits : Nat → Nat → List Char
  | 0, _ => []
  | w + 1, n => hexDigits w (n / 16) ++ [Nat.digitChar (n % 16)]

/-- How `repr` writes one character inside the quote `q`, in the order of CPython's
`unicode_repr`: the quote and backslash escaped, `\t` `\n` `\r`, other control characters and
DEL as `\xhh`, the rest of ASCII as is, and a non-ASCII character as is when printable, else
as `\xhh`, `\uhhhh` or `\Uhhhhhhhh`. -/
def reprChar (U : PyUnicode) (q c : Char) : List Char :=
  if c = q ∨ c = '\\' then ['\\', c]
  else if c = '\t' then ['\\', 't']
  else if c = '\n' then ['\\', 'n']
  else if c = '\r' then ['\\', 'r']
  else if c.toNat < 0x20 ∨ c.toNat = 0x7f then '\\' :: 'x' :: hexDigits 2 c.toNat
  else if c.toNat < 0x7f ∨ U.isPrintable c then [c]
  else if c.toNat ≤ 0xff then '\\' :: 'x' :: hexDigits 2 c.toNat
  else if c.toNat ≤ 0xffff then '\\' :: 'u' :: hexDigits 4 c.toNat
  else '\\' :: 'U' :: hexDigits 8 c.toNat

/-- `repr(s)`, the `%r` of the messages: in single quotes, unless the text has a single quote
and no double quote. -/
def pyRepr (U : PyUnicode) (s : Str) : String :=
  let q := if '\x27' ∈ s ∧ '\x22' ∉ s then '\x22' else '\x27'
  String.mk (q :: s.flatMap (reprChar U q) ++ [q])

theorem toNat_ofNat_of_lt {n : Nat} (h : n < 0xd800) : (Char.ofNat n).toNat = n := by
  rw [Char.ofNat, dif_pos (Or.inl h)]
  simp [Char.ofNatAux, Char.toNat, UInt32.toNat]

theorem toLower_toLower (c : Char) : c.toLower.toLower = c.toLower := by
  unfold Char.toLower
  by_cases h : c.toNat ≥ 65 ∧ c.toNat ≤ 90
  · simp only [if_pos h]
    rw [toNat_ofNat_of_lt (by omega), if_neg (by omega)]
  · simp only [if_neg h]

theorem toNat_of_isDigit {c : Char} (h : c.isDigit = true) : 48 ≤ c.toNat ∧ c.toNat ≤ 57 := by
  simpa [Char.isDigit, Char.le_def, UInt32.le_def, BitVec.le_def, Char.toNat, UInt32.toNat] using h

theorem toNat_of_isAlpha {c : Char} (h : c.isAlpha = true) :
    (65 ≤ c.toNat ∧ c.toNat ≤ 90) ∨ (97 ≤ c.toNat ∧ c.toNat ≤ 122) := by
  simpa [Char.isAlpha, Char.isUpper, Char.isLower, Char.le_def, UInt32.le_def, BitVec.le_def,
    Char.toNat, UInt32.toNat] using h

namespace PyUnicode
variable (U : PyUnicode)

theorem isSpace_eq {c : Char} (h : c.toNat < 128) :
    U.isSpace c = [9, 10, 11, 12, 13, 28, 29, 30, 31, 32].contains c.toNat :=
  Bool.eq_iff_iff.mpr ((U.isSpace_ascii c h).trans (by simp))

theorem isDigit_eq {c : Char} (h : c.toNat < 128) : U.isDigit c = c.isDigit :=
  Bool.eq_iff_iff.mpr (U.isDigit_ascii c h)

theorem isLetter_eq {c : Char} (h : c.toNat < 128) : U.isLetter c = c.isAlpha :=
  Bool.eq_iff_iff.mpr (U.isLetter_ascii c h)

theorem lower_single {c : Char} (h : c.toNat < 128) : U.lower [c] = [c.toLower] :=
  U.lower_ascii [c] (by simpa using h)

/-! The ASCII characters the hash-name code tests for. -/

@[simp] theorem isSpace_hyphen : U.isSpace '-' = false := by rw [U.isSpace_eq (by decide)]; decide
@[simp] theorem isSpace_underscore : U.isSpace '_' = false := by
  rw [U.isSpace_eq (by decide)]; decide
@[simp] theorem isDigit_hyphen : U.isDigit '-' = false := by rw [U.isDigit_eq (by decide)]; decide
@[simp] theorem isLetter_hyphen : U.isLetter '-' = false := by
  rw [U.isLetter_eq (by decide)]; decide
@[simp] theorem isLetter_newline : U.isLetter '\n' = false := by
  rw [U.isLetter_eq (by decide)]; decide
@[simp] theorem lower_hyphen : U.lower ['-'] = ['-'] := by rw [U.lower_single (by decide)]; decide
@[simp] theorem lower_underscore : U.lower ['_'] = ['_'] := by
  rw [U.lower_single (by decide)]; decide

/-- A letter of `[a-z]` is none of the characters `[_ /]` and no hyphen. -/
theorem ne_of_isLetter {c : Char} (h : U.isLetter c = true) :
    c ≠ '_' ∧ c ≠ ' ' ∧ c ≠ '/' ∧ c ≠ '-' := by
  refine ⟨?_, ?_, ?_, ?_⟩ <;> rintro rfl <;> rw [U.isLetter_eq (by decide)] at h <;>
    exact absurd h (by decide)

/-- A digit of `\d` is none of the characters `[_ /]` and no hyphen. -/
theorem ne_of_isDigit {c : Char} (h : U.isDigit c = true) :
    c ≠ '_' ∧ c ≠ ' ' ∧ c ≠ '/' ∧ c ≠ '-' := by
  refine ⟨?_, ?_, ?_, ?_⟩ <;> rintro rfl <;> rw [U.isDigit_eq (by decide)] at h <;>
    exact absurd h (by decide)

theorem isLetter_of_isDigit {c : Char} (h : U.isDigit c = true) : U.isLetter c = false := by
  cases hl : U.isLetter c
  · rfl
  · rw [U.not_digit_of_letter c hl] at h; cases h

end PyUnicode

/-- The ASCII part of CPython's tables, with nothing beyond ASCII in any class. -/
def PyUnicode.ascii : PyUnicode where
  lower := List.map Char.toLower
  isSpace c := [9, 10, 11, 12, 13, 28, 29, 30, 31, 32].contains c.toNat
  isDigit := Char.isDigit
  isLetter := Char.isAlpha
  isPrintable c := decide (0x20 ≤ c.toNat ∧ c.toNat < 0x7f)
  lower_ascii _ _ := rfl
  lower_eq_self s h := (List.map_congr_left fun c hc => by simpa using h c hc).trans (List.map_id s)
  lower_stable s c hc := by
    obtain ⟨d, -, rfl⟩ := List.mem_map.mp hc
    simp [toLower_toLower]
  isSpace_ascii c _ := by simp
  isDigit_ascii _ _ := .rfl
  isLetter_ascii _ _ := .rfl
  not_space_of_digit c h := by
    have := toNat_of_isDigit h
    refine Bool.eq_false_iff.mpr fun hs => ?_
    simp at hs
    omega
  not_space_of_letter c h := by
    have := toNat_of_isAlpha h
    refine Bool.eq_false_iff.mpr fun hs => ?_
    simp at hs
    omega
  not_digit_of_letter c h := by
    have := toNat_of_isAlpha h
    cases hd : c.isDigit
    · rfl
    · have := toNat_of_isDigit hd
      omega

/-- `repr(b)` of a byte string: the `str` repr of its bytes read as characters, with every
byte from 0x7f on escaped, after a `b`. -/
def pyBytesRepr (b : Str) : String := "b" ++ pyRepr PyUnicode.ascii b

/-- On ASCII text `repr` does not read the tables. -/
theorem pyRepr_ascii (U U' : PyUnicode) {s : Str} (hs : ∀ c ∈ s, c.toNat < 128) :
    pyRepr U s = pyRepr U' s := by
  have hc : ∀ q, ∀ c ∈ s, reprChar U q c = reprChar U' q c := by
    intro q c hcs
    have := hs c hcs
    unfold reprChar
    by_cases h : c.toNat < 0x7f
    · simp only [h, true_or, if_true]
    · simp only [show c.toNat = 0x7f by omega, or_true, if_true]
  unfold pyRepr
  dsimp only
  rw [List.flatMap_congr (hc _)]

example : pyRepr PyUnicode.ascii "abc\n".toList = "'abc\\n'" := by decide

example : pyRepr PyUnicode.ascii "it's".toList = "\"it's\"" := by decide

end Passlib
