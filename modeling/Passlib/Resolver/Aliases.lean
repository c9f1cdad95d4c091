import Passlib.Text
import Mathlib.Data.List.Infix

/-! # `_get_hash_aliases`

The normalisation of hash names that `lookup_hash` caches under. A name is cleaned (stripped,
lower-cased, separators made hyphens, a SCRAM prefix removed), looked up in `_known_hash_names`,
and otherwise parsed by a regular expression into a base name, a revision digit and a size. The
first element of the result is the hashlib name `lookup_hash` resolves the name to; iterating it
reaches a fixed point, the canonical name (`CanonicalName`). Every alias of a canonical name
resolves back to it in one step (`hashlibName_of_alias`), except for the canonical names `scram`
followed by three digits, whose IANA form `scram-DDD` loses its prefix to the cleaning. -/

namespace Passlib

/-! ## 1. The source -/

/-- `_known_hash_names`: rows of (hashlib name, IANA name or stand-in, other aliases ...). -/
def knownHashNames : List (List Str) :=
  ([["md2", "md2"], ["md5", "md5"], ["sha1", "sha-1"], ["sha224", "sha-224", "sha2-224"],
    ["sha256", "sha-256", "sha2-256"], ["sha384", "sha-384", "sha2-384"],
    ["sha512", "sha-512", "sha2-512"], ["md4", "md4"], ["sha", "sha-0", "sha0"],
    ["ripemd", "ripemd"], ["ripemd160", "ripemd-160"]] : List (List String)).map
    (·.map String.toList)

/-- `check_table(name)`: the first row that holds the name. -/
def checkTable (name : Str) : Option (List Str) := knownHashNames.find? (name ∈ ·)

/-- `re.sub("[_ /]", "-", s)`. -/
def subSeparators (s : Str) : Str :=
  s.map fun c => if c = '_' ∨ c = ' ' ∨ c = '/' then '-' else c

/-- `s.replace("-", "_")`. -/
def hyphensToUnderscores (s : Str) : Str := s.map fun c => if c = '-' then '_' else c

section
variable (U : PyUnicode)

/-- The name `_get_hash_aliases` works on: `re.sub("[_ /]", "-", name.strip().lower())`, then a
`scram-` prefix removed and, after it, a `-plus` suffix. -/
def cleanHashName (name : Str) : Str :=
  let name := subSeparators (U.lower (strip U name))
  if "scram-".toList.isPrefixOf name then
    let name := name.drop 6
    if "-plus".toList.isSuffixOf name then name.take (name.length - 5) else name
  else name

/-- `$`: the end of the string, or a newline that ends it. -/
def reEnd (s : Str) : Bool := s.isEmpty || s == ['\n']

/-- `-?` followed by the rest of the pattern: with the hyphen first, when there is one. -/
def optHyphen {α : Type} (k : Str → Option α) (s : Str) : Option α :=
  if s.head? = some '-' then k s.tail <|> k s else k s

/-- `(\d)?` followed by the rest of the pattern: with a digit first, when there is one. -/
def optDigit {α : Type} (k : Option Char → Str → Option α) : Str → Option α
  | c :: t => (if U.isDigit c then k (some c) t else none) <|> k none (c :: t)
  | [] => k none []

/-- `(\d{3,4})?` followed by the rest of the pattern: four digits, then three, then none. -/
def optSize {α : Type} (k : Option Str → Str → Option α) (s : Str) : Option α :=
  ((if (s.take 4).length = 4 ∧ (s.take 4).all U.isDigit then k (some (s.take 4)) (s.drop 4)
    else none) <|>
   if (s.take 3).length = 3 ∧ (s.take 3).all U.isDigit then k (some (s.take 3)) (s.drop 3)
   else none) <|>
  k none s

/-- `[a-z]+` under `re.IGNORECASE`, followed by the rest of the pattern: the longest run of
letters first, then shorter ones. -/
def letters {α : Type} (k : Str → Str → Option α) (s : Str) : Option α :=
  (List.range (s.takeWhile U.isLetter).length).reverse.findSome? fun i =>
    k (s.take (i + 1)) (s.drop (i + 1))

/-- `-?(?P<rev>\d)?-?(?P<size>\d{3,4})?$` after the `name` group. -/
def afterName (name : Str) : Str → Option (Str × Option Char × Option Str) :=
  optHyphen (optDigit U fun rev => optHyphen (optSize U fun size rest =>
    if reEnd rest then some (name, rev, size) else none))

/-- `re.match(r"(?i)^(?P<name>[a-z]+)-?(?P<rev>\d)?-?(?P<size>\d{3,4})?$", name)` and its
groups `name`, `rev`, `size`, found in the order Python's backtracking matcher tries them. -/
def hashNameMatch (s : Str) : Option (Str × Option Char × Option Str) :=
  letters U (afterName U) s

/-- The rest of `_get_hash_aliases`, on the cleaned name: the table row, else the names built
from the groups of the match (a row if the IANA name is in the table), else the name itself. -/
def aliasesOfClean (name : Str) : List Str :=
  match checkTable name with
  | some row => row
  | none =>
    match hashNameMatch U name with
    | some (base, rev, none) =>
      (checkTable (base ++ rev.toList)).getD [base ++ rev.toList, base ++ rev.toList]
    | some (base, rev, some size) =>
      let iana := base ++ rev.toList ++ '-' :: size
      (checkTable iana).getD
        [base ++ rev.toList ++ (if rev.isSome then ['_'] else []) ++ size, iana]
    | none => [hyphensToUnderscores name, name]

/-- `_get_hash_aliases(name)` for a `str` name: `(hashlib_name, iana_name, ... aliases)`. -/
def getHashAliases (name : Str) : List Str := aliasesOfClean U (cleanHashName U name)

/-- `_get_hash_aliases(name)[0]`, the name `lookup_hash` resolves `name` to. -/
def hashlibName (name : Str) : Str := (getHashAliases U name).headD []

/-- `c` is where iterating `s ↦ _get_hash_aliases(s)[0]` from `s` stops: the canonical name. -/
inductive CanonicalName : Str → Str → Prop
  | fixed {c : Str} : hashlibName U c = c → CanonicalName c c
  | step {s c : Str} : hashlibName U s ≠ s → CanonicalName (hashlibName U s) c →
      CanonicalName s c

/-- `scram` followed by three characters that `\d` matches. -/
def IsScramDigits (c : Str) : Prop :=
  ∃ z : Str, c = "scram".toList ++ z ∧ z.length = 3 ∧ ∀ x ∈ z, U.isDigit x = true

end

section
variable {U : PyUnicode}

theorem CanonicalName.eq_of_fixed {s c : Str} (h : CanonicalName U s c) : hashlibName U c = c := by
  induction h with
  | fixed hc => exact hc
  | step _ _ ih => exact ih

theorem CanonicalName.unique {s c c' : Str} (h : CanonicalName U s c) (h' : CanonicalName U s c') :
    c = c' := by
  induction h with
  | fixed hc =>
    cases h' with
    | fixed _ => rfl
    | step hne _ => exact absurd hc hne
  | step hne _ ih =>
    cases h' with
    | fixed hc => exact absurd hc hne
    | step _ h' => exact ih h'

/-- A name whose hashlib name is a fixed point has that fixed point as its canonical name. -/
theorem CanonicalName.of_hashlibName {n c : Str} (hn : hashlibName U n = c)
    (hc : hashlibName U c = c) : CanonicalName U n c := by
  by_cases h : hashlibName U n = n
  · rw [h] at hn
    subst hn
    exact .fixed h
  · exact .step h (by rw [hn]; exact .fixed hc)

/-! ## 2. Strings that cleaning leaves alone -/

theorem dropWhile_eq_self {p : Char → Bool} {l : Str} (h : ∀ x ∈ l.head?, p x = false) :
    l.dropWhile p = l := by
  cases l with
  | nil => rfl
  | cons x l => simp [List.dropWhile, h x rfl]

theorem strip_eq_self {s : Str} (hh : ∀ x ∈ s.head?, U.isSpace x = false)
    (hl : ∀ x ∈ s.getLast?, U.isSpace x = false) : strip U s = s := by
  rw [strip, dropWhile_eq_self hh, dropWhile_eq_self (by rwa [List.head?_reverse]),
    List.reverse_reverse]

theorem strip_map {f : Char → Char} (hf : ∀ x, U.isSpace (f x) = U.isSpace x) (s : Str) :
    strip U (s.map f) = (strip U s).map f := by
  have hp : U.isSpace ∘ f = U.isSpace := funext hf
  rw [strip, List.dropWhile_map, hp, ← List.map_reverse, List.dropWhile_map, hp,
    ← List.map_reverse, strip]

theorem mem_of_mem_strip {s : Str} {x : Char} (hx : x ∈ strip U s) : x ∈ s := by
  rw [strip, List.mem_reverse] at hx
  have h1 := (List.dropWhile_sublist _).subset hx
  rw [List.mem_reverse] at h1
  exact (List.dropWhile_sublist _).subset h1

theorem subSeparators_eq_self {s : Str} (h : ∀ x ∈ s, x ≠ '_' ∧ x ≠ ' ' ∧ x ≠ '/') :
    subSeparators s = s := by
  conv_rhs => rw [← List.map_id s]
  exact List.map_congr_left fun x hx => if_neg (by simpa using h x hx)

theorem subSeparators_hyphensToUnderscores (s : Str) :
    subSeparators (hyphensToUnderscores s) = subSeparators s := by
  simp only [subSeparators, hyphensToUnderscores, List.map_map]
  congr 1
  funext c
  by_cases hc : c = '-' <;> simp [hc]

theorem mem_subSeparators_of_mem_cleanHashName {s : Str} {x : Char}
    (hx : x ∈ cleanHashName U s) : x ∈ subSeparators (U.lower (strip U s)) := by
  unfold cleanHashName at hx
  dsimp only at hx
  split_ifs at hx
  · exact List.mem_of_mem_drop (List.mem_of_mem_take hx)
  · exact List.mem_of_mem_drop hx
  · exact hx

theorem lower_of_mem_cleanHashName {s : Str} {x : Char} (hx : x ∈ cleanHashName U s) :
    U.lower [x] = [x] := by
  obtain ⟨y, hy, rfl⟩ := List.mem_map.mp (mem_subSeparators_of_mem_cleanHashName hx)
  split_ifs
  · exact U.lower_hyphen
  · exact U.lower_stable _ y hy

/-- A name whose ends are not spaces, whose characters are fixed by `lower`, with no separator
to replace and no SCRAM prefix, is its own cleaned name. -/
theorem cleanHashName_eq_self {s : Str} (hh : ∀ x ∈ s.head?, U.isSpace x = false)
    (hl : ∀ x ∈ s.getLast?, U.isSpace x = false) (hlow : ∀ x ∈ s, U.lower [x] = [x])
    (hsep : ∀ x ∈ s, x ≠ '_' ∧ x ≠ ' ' ∧ x ≠ '/')
    (hscram : "scram-".toList.isPrefixOf s = false) : cleanHashName U s = s := by
  rw [cleanHashName, strip_eq_self hh hl, U.lower_eq_self s hlow, subSeparators_eq_self hsep]
  simp only [hscram, Bool.false_eq_true, if_false]

/-- Cleaning does not see the difference between hyphens and underscores in a name whose
characters `lower` fixes. -/
theorem cleanHashName_hyphensToUnderscores {s : Str} (hlow : ∀ x ∈ s, U.lower [x] = [x]) :
    cleanHashName U (hyphensToUnderscores s) = cleanHashName U s := by
  have hspace : ∀ x, U.isSpace (if x = '-' then '_' else x) = U.isSpace x := by
    intro x; split_ifs with h <;> simp [h]
  have hlow' : ∀ x ∈ strip U s, U.lower [x] = [x] := fun x hx => hlow x (mem_of_mem_strip hx)
  have hmap : U.lower (hyphensToUnderscores (strip U s)) = hyphensToUnderscores (strip U s) := by
    refine U.lower_eq_self _ fun x hx => ?_
    obtain ⟨y, hy, rfl⟩ := List.mem_map.mp hx
    split_ifs
    · exact U.lower_underscore
    · exact hlow' y hy
  simp only [cleanHashName]
  rw [hyphensToUnderscores, strip_map hspace, ← hyphensToUnderscores, hmap,
    subSeparators_hyphensToUnderscores, U.lower_eq_self _ hlow']

/-! ## 3. The table -/

theorem cleanHashName_ascii {s : Str} (h : ∀ x ∈ s, x.toNat < 128) :
    cleanHashName U s = cleanHashName PyUnicode.ascii s := by
  have hstrip : strip U s = strip PyUnicode.ascii s := by
    have hsp : ∀ l : Str, (∀ x ∈ l, x.toNat < 128) →
        l.dropWhile U.isSpace = l.dropWhile PyUnicode.ascii.isSpace := by
      intro l hl
      induction l with
      | nil => rfl
      | cons x l ih =>
        have hx : U.isSpace x = PyUnicode.ascii.isSpace x := by
          rw [U.isSpace_eq (hl x (List.mem_cons_self _ _)),
            PyUnicode.ascii.isSpace_eq (hl x (List.mem_cons_self _ _))]
        simp only [List.dropWhile, hx]
        split
        · exact ih fun y hy => hl y (List.mem_cons_of_mem _ hy)
        · rfl
    rw [strip, hsp s h, hsp (s.dropWhile PyUnicode.ascii.isSpace).reverse
      fun x hx => h x ((List.dropWhile_sublist _).subset (List.mem_reverse.mp hx)), strip]
  have hlow : U.lower (strip U s) = PyUnicode.ascii.lower (strip U s) :=
    U.lower_ascii _ fun x hx => h x (mem_of_mem_strip hx)
  simp only [cleanHashName]
  rw [hlow, hstrip]

/-- Every name of the table is its own cleaned name and finds its own row. -/
theorem table_names :
    knownHashNames.all (fun row => row.all fun n => n.all (fun x => x.toNat < 128) &&
      cleanHashName PyUnicode.ascii n == n && checkTable n == some row) = true := by
  decide

theorem getHashAliases_of_mem_row {row : List Str} (hrow : row ∈ knownHashNames) {n : Str}
    (hn : n ∈ row) : getHashAliases U n = row := by
  have h := List.all_eq_true.mp (List.all_eq_true.mp table_names row hrow) n hn
  simp only [Bool.and_eq_true, List.all_eq_true, decide_eq_true_eq, beq_iff_eq] at h
  rw [getHashAliases, cleanHashName_ascii h.1.1, h.1.2, aliasesOfClean, h.2]

theorem hashlibName_of_mem_row {x : Str} {row : List Str} (hrow : checkTable x = some row)
    {n : Str} (hn : n ∈ row) : hashlibName U n = row.headD [] := by
  rw [hashlibName, getHashAliases_of_mem_row (List.mem_of_find?_eq_some hrow) hn]

theorem two_le_length_of_checkTable {x : Str} {row : List Str} (h : checkTable x = some row) :
    2 ≤ row.length := by
  have hall : knownHashNames.all (fun r => decide (2 ≤ r.length)) = true := by decide
  simpa using List.all_eq_true.mp hall row (List.mem_of_find?_eq_some h)

theorem two_le_length_getD (x : Str) {d : List Str} (hd : 2 ≤ d.length) :
    2 ≤ ((checkTable x).getD d).length := by
  cases h : checkTable x with
  | none => exact hd
  | some row => exact two_le_length_of_checkTable h

/-- `_get_hash_aliases` returns at least the hashlib name and the IANA name. -/
theorem two_le_length_getHashAliases (n : Str) : 2 ≤ (getHashAliases U n).length := by
  unfold getHashAliases aliasesOfClean
  split
  · exact two_le_length_of_checkTable ‹_›
  · split
    · exact two_le_length_getD _ (by simp)
    · exact two_le_length_getD _ (by simp)
    · simp

theorem getHashAliases_eq_cons (x : Str) :
    ∃ iana rest, getHashAliases U x = hashlibName U x :: iana :: rest := by
  have hl := two_le_length_getHashAliases (U := U) x
  unfold hashlibName
  match getHashAliases U x, hl with
  | a :: b :: rest, _ => exact ⟨b, rest, rfl⟩

/-! ## 4. The regular expression

Each piece of the pattern calls the rest of it on a suffix of its input; a match yields a run
of letters, a digit and a size of three or four digits, all taken from the input. On the names
`lookup_hash` builds, the match is computed outright. -/

section
variable {α : Type}

theorem optHyphen_some {k : Str → Option α} {s : Str} {g : α} (h : optHyphen k s = some g) :
    ∃ t, t <:+ s ∧ k t = some g := by
  unfold optHyphen at h
  split_ifs at h
  · rcases (Option.orElse_eq_some _ _ _).mp h with h | ⟨-, h⟩
    · exact ⟨s.tail, List.tail_suffix s, h⟩
    · exact ⟨s, List.suffix_refl s, h⟩
  · exact ⟨s, List.suffix_refl s, h⟩

theorem optDigit_some {k : Option Char → Str → Option α} {s : Str} {g : α}
    (h : optDigit U k s = some g) :
    ∃ r t, t <:+ s ∧ (∀ d ∈ r, U.isDigit d = true ∧ d ∈ s) ∧ k r t = some g := by
  cases s with
  | nil => exact ⟨none, [], List.suffix_refl _, by simp, h⟩
  | cons c t =>
    rw [optDigit] at h
    rcases (Option.orElse_eq_some _ _ _).mp h with h | ⟨-, h⟩
    · split_ifs at h with hc
      exact ⟨some c, t, List.suffix_cons c t, by simp [hc], h⟩
    · exact ⟨none, c :: t, List.suffix_refl _, by simp, h⟩

theorem optSize_some {k : Option Str → Str → Option α} {s : Str} {g : α}
    (h : optSize U k s = some g) :
    ∃ z t, t <:+ s ∧ (∀ w ∈ z, (w.length = 3 ∨ w.length = 4) ∧
      ∀ x ∈ w, U.isDigit x = true ∧ x ∈ s) ∧ k z t = some g := by
  unfold optSize at h
  rcases (Option.orElse_eq_some _ _ _).mp h with h | ⟨-, h⟩
  · rcases (Option.orElse_eq_some _ _ _).mp h with h | ⟨-, h⟩
    · split_ifs at h with h4
      refine ⟨_, _, List.drop_suffix _ _, fun w hw => ?_, h⟩
      cases hw
      exact ⟨.inr h4.1, fun x hx => ⟨List.all_eq_true.mp h4.2 x hx, List.mem_of_mem_take hx⟩⟩
    · split_ifs at h with h3
      refine ⟨_, _, List.drop_suffix _ _, fun w hw => ?_, h⟩
      cases hw
      exact ⟨.inl h3.1, fun x hx => ⟨List.all_eq_true.mp h3.2 x hx, List.mem_of_mem_take hx⟩⟩
  · exact ⟨none, s, List.suffix_refl s, by simp, h⟩

theorem letters_some {k : Str → Str → Option α} {s : Str} {g : α} (h : letters U k s = some g) :
    ∃ b t, b ≠ [] ∧ (∀ x ∈ b, U.isLetter x = true ∧ x ∈ s) ∧ t <:+ s ∧ k b t = some g := by
  obtain ⟨i, hi, hk⟩ := List.exists_of_findSome?_eq_some h
  rw [List.mem_reverse, List.mem_range] at hi
  obtain ⟨rest, hrest⟩ := List.takeWhile_prefix (l := s) U.isLetter
  have htake : s.take (i + 1) = (s.takeWhile U.isLetter).take (i + 1) := by
    conv_lhs => rw [← hrest]
    exact List.take_append_of_le_length hi
  refine ⟨s.take (i + 1), s.drop (i + 1), ?_, fun x hx => ⟨?_, List.mem_of_mem_take hx⟩,
    List.drop_suffix _ _, hk⟩
  · rw [Ne, List.take_eq_nil_iff]
    rintro (h | rfl)
    · omega
    · simp at hi
  · rw [htake] at hx
    exact List.mem_takeWhile_imp (List.mem_of_mem_take hx)

/-- What a match of the name pattern yields: a non-empty run of letters, a digit, and a size of
three or four digits, all taken from the name. -/
theorem hashNameMatch_some {s b : Str} {r : Option Char} {z : Option Str}
    (h : hashNameMatch U s = some (b, r, z)) :
    b ≠ [] ∧ (∀ x ∈ b, U.isLetter x = true ∧ x ∈ s) ∧ (∀ d ∈ r, U.isDigit d = true ∧ d ∈ s) ∧
      ∀ w ∈ z, (w.length = 3 ∨ w.length = 4) ∧ ∀ x ∈ w, U.isDigit x = true ∧ x ∈ s := by
  obtain ⟨b', t₁, hb, hbl, ht₁, h⟩ := letters_some h
  obtain ⟨t₂, ht₂, h⟩ := optHyphen_some h
  obtain ⟨r', t₃, ht₃, hr, h⟩ := optDigit_some h
  obtain ⟨t₄, ht₄, h⟩ := optHyphen_some h
  obtain ⟨z', t₅, -, hz, h⟩ := optSize_some h
  split_ifs at h
  simp only [Option.some.injEq, Prod.mk.injEq] at h
  obtain ⟨rfl, rfl, rfl⟩ := h
  have h₂ : t₂ <:+ s := ht₂.trans ht₁
  have h₄ : t₄ <:+ s := ht₄.trans (ht₃.trans h₂)
  exact ⟨hb, hbl, fun d hd => ⟨(hr d hd).1, h₂.subset (hr d hd).2⟩,
    fun w hw => ⟨(hz w hw).1, fun x hx => ⟨((hz w hw).2 x hx).1, h₄.subset ((hz w hw).2 x hx).2⟩⟩⟩

/-- The longest run of letters is tried first. -/
theorem letters_append {k : Str → Str → Option α} {b t : Str} (hb : b ≠ [])
    (hl : ∀ x ∈ b, U.isLetter x = true) (ht : ∀ x ∈ t.head?, U.isLetter x = false) {g : α}
    (hk : k b t = some g) : letters U k (b ++ t) = some g := by
  have htw : (b ++ t).takeWhile U.isLetter = b := by
    rw [List.takeWhile_append_of_pos hl]
    cases t with
    | nil => simp
    | cons x t => simp [List.takeWhile, ht x rfl]
  obtain ⟨n, hn⟩ : ∃ n, b.length = n + 1 := ⟨b.length - 1, by cases b <;> simp_all⟩
  rw [letters, htw, hn, List.range_succ, List.reverse_append, List.reverse_singleton,
    List.singleton_append, List.findSome?_cons, ← hn, List.take_left, List.drop_left, hk]

end

theorem exists_of_length_four {z : Str} (h : z.length = 4) :
    ∃ z₁ z₂ z₃ z₄, z = [z₁, z₂, z₃, z₄] := by
  rcases z with _ | ⟨z₁, _ | ⟨z₂, _ | ⟨z₃, _ | ⟨z₄, _ | ⟨z₅, z⟩⟩⟩⟩⟩ <;> simp at h
  exact ⟨z₁, z₂, z₃, z₄, rfl⟩

section
variable {b : Str}

theorem afterName_four {z₁ z₂ z₃ z₄ : Char} (h₁ : U.isDigit z₁ = true) (h₂ : U.isDigit z₂ = true)
    (h₃ : U.isDigit z₃ = true) (h₄ : U.isDigit z₄ = true) :
    afterName U b [z₁, z₂, z₃, z₄] = some (b, some z₁, some [z₂, z₃, z₄]) := by
  have n₁ := (U.ne_of_isDigit h₁).2.2.2
  have n₂ := (U.ne_of_isDigit h₂).2.2.2
  simp [afterName, optHyphen, optDigit, optSize, reEnd, h₁, h₂, h₃, h₄, n₁, n₂]

theorem afterName_rev {d : Char} {z : Str} (hd : U.isDigit d = true)
    (hz : z.length = 3 ∨ z.length = 4) (hzd : ∀ x ∈ z, U.isDigit x = true) :
    afterName U b (d :: '-' :: z) = some (b, some d, some z) := by
  have n := (U.ne_of_isDigit hd).2.2.2
  rcases z with _ | ⟨z₁, _ | ⟨z₂, _ | ⟨z₃, _ | ⟨z₄, _ | ⟨z₅, z⟩⟩⟩⟩⟩ <;> simp at hz hzd
  · simp [afterName, optHyphen, optDigit, optSize, reEnd, hd, n, hzd]
  · simp [afterName, optHyphen, optDigit, optSize, reEnd, hd, n, hzd]

theorem afterName_hyphen {z : Str} (hz : z.length = 3) (hzd : ∀ x ∈ z, U.isDigit x = true) :
    afterName U b ('-' :: z) = some (b, none, some z) := by
  obtain ⟨z₁, z₂, z₃, rfl⟩ := List.length_eq_three.mp hz
  simp only [List.mem_cons, List.mem_singleton, List.not_mem_nil, or_false, forall_eq_or_imp,
    forall_eq] at hzd
  have n₁ := (U.ne_of_isDigit hzd.1).2.2.2
  have n₂ := (U.ne_of_isDigit hzd.2.1).2.2.2
  simp [afterName, optHyphen, optDigit, optSize, reEnd, hzd, n₁, n₂]

end

end

/-! ## 5. Aliases resolve to their canonical name -/

section
variable {U : PyUnicode}

theorem eq_of_append_hyphen : ∀ {p q u v : Str}, '-' ∉ p → '-' ∉ q →
    p ++ '-' :: u = q ++ '-' :: v → p = q
  | [], [], _, _, _, _, _ => rfl
  | [], y :: q, _, _, _, hq, h => by
    simp only [List.nil_append, List.cons_append, List.cons.injEq] at h
    exact absurd (by rw [h.1]; exact List.mem_cons_self _ _) hq
  | x :: p, [], _, _, hp, _, h => by
    simp only [List.nil_append, List.cons_append, List.cons.injEq] at h
    exact absurd (by rw [← h.1]; exact List.mem_cons_self _ _) hp
  | x :: p, y :: q, _, _, hp, hq, h => by
    simp only [List.cons_append, List.cons.injEq] at h
    rw [h.1, eq_of_append_hyphen (fun h' => hp (List.mem_cons_of_mem _ h'))
      (fun h' => hq (List.mem_cons_of_mem _ h')) h.2]

theorem mem_of_getLast?_append {l z : Str} (hz : z ≠ []) {x : Char}
    (hx : x ∈ (l ++ z).getLast?) : x ∈ z := by
  rw [List.getLast?_append_of_ne_nil _ hz] at hx
  exact List.mem_of_getLast?_eq_some hx

/-- The first alias of a canonical name is the name itself. -/
theorem hashlibName_head {c h : Str} {t : List Str} (hc : hashlibName U c = c)
    (hA : getHashAliases U c = h :: t) : hashlibName U h = c := by
  have : h = c := by rw [← hc, hashlibName, hA]; rfl
  rw [this, hc]

/-- When the cleaned name of a canonical name does not match the pattern, the cleaned name
resolves back to it: it differs from the canonical name only in hyphens for underscores. -/
theorem hashlibName_clean_of_noMatch {c : Str} (hc : hashlibName U c = c)
    (ht : checkTable (cleanHashName U c) = none) (hr : hashNameMatch U (cleanHashName U c) = none) :
    hashlibName U (cleanHashName U c) = c := by
  have hcm : c = hyphensToUnderscores (cleanHashName U c) := by
    conv_lhs => rw [← hc]
    simp [hashlibName, getHashAliases, aliasesOfClean, ht, hr]
  have hmm : cleanHashName U (cleanHashName U c) = cleanHashName U c := by
    rw [← cleanHashName_hyphensToUnderscores fun x hx => lower_of_mem_cleanHashName hx, ← hcm]
  rw [hashlibName, getHashAliases, hmm]
  exact hc

/-- A name of letters, digits and hyphens that `lower` fixes, which begins with a letter, ends with
a digit and does not begin with `scram-`, is its own cleaned name. -/
theorem cleanHashName_of_word {s : Str} (hh : ∀ x ∈ s.head?, U.isLetter x = true)
    (hl : ∀ x ∈ s.getLast?, U.isDigit x = true)
    (hw : ∀ x ∈ s, x = '-' ∨ ((U.isLetter x = true ∨ U.isDigit x = true) ∧ U.lower [x] = [x]))
    (hscram : "scram-".toList.isPrefixOf s = false) : cleanHashName U s = s := by
  refine cleanHashName_eq_self (fun x hx => U.not_space_of_letter x (hh x hx))
    (fun x hx => U.not_space_of_digit x (hl x hx)) (fun x hx => ?_) (fun x hx => ?_) hscram
  · rcases hw x hx with rfl | h
    · exact U.lower_hyphen
    · exact h.2
  · rcases hw x hx with rfl | h
    · decide
    · have := h.1.elim U.ne_of_isLetter U.ne_of_isDigit
      exact ⟨this.1, this.2.1, this.2.2.1⟩

/-- The groups of a match of the name pattern on a cleaned name: a run of letters, a revision
digit and a size of three or four digits, all fixed by `lower`. -/
structure MatchParts (U : PyUnicode) (b : Str) (r : Option Char) (z : Str) : Prop where
  ne : b ≠ []
  letters : ∀ x ∈ b, U.isLetter x = true
  rev : ∀ d ∈ r, U.isDigit d = true
  size : z.length = 3 ∨ z.length = 4
  digits : ∀ x ∈ z, U.isDigit x = true
  lower : ∀ x ∈ b ++ r.toList ++ z, U.lower [x] = [x]

theorem MatchParts.of_clean {c b z : Str} {r : Option Char}
    (hr : hashNameMatch U (cleanHashName U c) = some (b, r, some z)) : MatchParts U b r z := by
  obtain ⟨hb, hbl, hrd, hzd⟩ := hashNameMatch_some hr
  obtain ⟨hzl, hzd⟩ := hzd z rfl
  refine ⟨hb, fun x hx => (hbl x hx).1, fun d hd => (hrd d hd).1, hzl, fun x hx => (hzd x hx).1,
    fun x hx => ?_⟩
  simp only [List.mem_append, Option.mem_toList] at hx
  rcases hx with (hx | hx) | hx
  · exact lower_of_mem_cleanHashName (hbl x hx).2
  · exact lower_of_mem_cleanHashName (hrd x hx).2
  · exact lower_of_mem_cleanHashName (hzd x hx).2

namespace MatchParts
variable {b z : Str} {r : Option Char} (hp : MatchParts U b r z)
include hp

theorem word :
    ∀ x ∈ b ++ r.toList ++ z, (U.isLetter x = true ∨ U.isDigit x = true) ∧ U.lower [x] = [x] := by
  intro x hx
  refine ⟨?_, hp.lower x hx⟩
  simp only [List.mem_append, Option.mem_toList] at hx
  rcases hx with (hx | hx) | hx
  · exact .inl (hp.letters x hx)
  · exact .inr (hp.rev x hx)
  · exact .inr (hp.digits x hx)

theorem hyphen_not_mem : '-' ∉ b ++ r.toList ++ z := fun h =>
  ((hp.word '-' h).1.elim U.ne_of_isLetter U.ne_of_isDigit).2.2.2 rfl

theorem head (t : Str) : ∀ x ∈ (b ++ t).head?, U.isLetter x = true := fun x hx => by
  rw [List.head?_append_of_ne_nil _ hp.ne] at hx
  exact hp.letters x (List.mem_of_mem_head? hx)

theorem last (l : Str) : ∀ x ∈ (l ++ z).getLast?, U.isDigit x = true := fun x hx => by
  have hz : z ≠ [] := by rintro rfl; rcases hp.size with h | h <;> simp at h
  exact hp.digits x (mem_of_getLast?_append hz hx)

end MatchParts

/-- With a revision digit, the IANA name built from the groups cannot begin with `scram-`: the
letters and the digit would spell `scram`. -/
theorem MatchParts.not_scram {b z : Str} {d : Char} (hp : MatchParts U b (some d) z) :
    "scram-".toList.isPrefixOf (b ++ d :: '-' :: z) = false := by
  refine Bool.eq_false_iff.mpr fun hpre => ?_
  obtain ⟨u, hu⟩ := List.isPrefixOf_iff_prefix.mp hpre
  have hbr : "scram".toList = b ++ [d] :=
    eq_of_append_hyphen (u := u) (v := z) (by decide)
      (fun h => hp.hyphen_not_mem (List.mem_append_left _ (by simpa using h))) (by simpa using hu)
  have hdm : d = 'm' := by
    have := congrArg List.getLast? hbr
    simp at this
    exact this.symm
  have := hp.rev d rfl
  rw [hdm, U.isDigit_eq (by decide)] at this
  exact absurd this (by decide)

section
variable {c b z : Str} {r : Option Char} (hc : hashlibName U c = c)
  (ht : checkTable (cleanHashName U c) = none)
  (hr : hashNameMatch U (cleanHashName U c) = some (b, r, some z))
  (hi : checkTable (b ++ r.toList ++ '-' :: z) = none)
include hc ht hr hi

/-- A canonical name whose cleaned form matches with a size is the hashlib name the groups
build. -/
theorem eq_of_match_size : c = b ++ r.toList ++ (if r.isSome then ['_'] else []) ++ z := by
  have hi' : checkTable (b ++ (r.toList ++ '-' :: z)) = none := by simpa using hi
  conv_lhs => rw [← hc]
  simp [hashlibName, getHashAliases, aliasesOfClean, ht, hr, hi']

/-- Without a revision digit the size has three digits: before four digits the pattern takes the
first one as the revision digit. -/
theorem size_three_of_rev_none (hnone : r = none) : z.length = 3 := by
  subst hnone
  have hp := MatchParts.of_clean hr
  have hcz : c = b ++ z := by simpa using eq_of_match_size hc ht hr hi
  refine hp.size.resolve_right fun h4 => ?_
  have hcl : cleanHashName U c = c := by
    rw [hcz]
    refine cleanHashName_of_word (hp.head z) (hp.last b)
      (fun x hx => .inr (hp.word x (by simpa using hx))) (Bool.eq_false_iff.mpr fun hpre => ?_)
    have := (List.isPrefixOf_iff_prefix.mp hpre).subset (by decide : '-' ∈ "scram-".toList)
    exact hp.hyphen_not_mem (by simpa using this)
  obtain ⟨z₁, z₂, z₃, z₄, rfl⟩ := exists_of_length_four h4
  have hd := hp.digits
  simp only [List.mem_cons, List.mem_singleton, List.not_mem_nil, or_false, forall_eq_or_imp,
    forall_eq] at hd
  have hm := letters_append (k := afterName U) hp.ne hp.letters
    (by simpa using U.isLetter_of_isDigit hd.1) (afterName_four hd.1 hd.2.1 hd.2.2.1 hd.2.2.2)
  rw [hcl, hcz, hashNameMatch, hm] at hr
  simp at hr

/-- The IANA name built from the groups is its own cleaned name, unless the canonical name is
`scram` and three digits. -/
theorem cleanHashName_iana (hs : ¬IsScramDigits U c) :
    cleanHashName U (b ++ r.toList ++ '-' :: z) = b ++ r.toList ++ '-' :: z := by
  have hp := MatchParts.of_clean hr
  refine cleanHashName_of_word (by simpa using hp.head (r.toList ++ '-' :: z))
    (by simpa using hp.last (b ++ r.toList ++ ['-'])) (fun x hx => ?_)
    (Bool.eq_false_iff.mpr fun hpre => ?_)
  · rw [List.mem_append, List.mem_cons] at hx
    rcases hx with hx | rfl | hx
    · exact .inr (hp.word x (List.mem_append_left _ hx))
    · exact .inl rfl
    · exact .inr (hp.word x (List.mem_append_right _ hx))
  -- a `scram-` prefix would make the canonical name `scram` and three digits
  obtain ⟨u, hu⟩ := List.isPrefixOf_iff_prefix.mp hpre
  have hbr : "scram".toList = b ++ r.toList :=
    eq_of_append_hyphen (u := u) (v := z) (by decide)
      (fun h => hp.hyphen_not_mem (List.mem_append_left _ h)) (by simpa using hu)
  rcases r with _ | d
  · have hb' : b = "scram".toList := by simpa using hbr.symm
    exact hs ⟨z, by rw [eq_of_match_size hc ht hr hi, hb']; simp,
      size_three_of_rev_none hc ht hr hi rfl, hp.digits⟩
  · rw [show b ++ (some d).toList ++ '-' :: z = b ++ d :: '-' :: z by simp, hp.not_scram] at hpre
    cases hpre

/-- The IANA name built from the groups matches the pattern with the same groups. -/
theorem hashNameMatch_iana :
    hashNameMatch U (b ++ r.toList ++ '-' :: z) = some (b, r, some z) := by
  have hp := MatchParts.of_clean hr
  rw [List.append_assoc, hashNameMatch]
  rcases r with _ | d
  · exact letters_append hp.ne hp.letters (by simp)
      (afterName_hyphen (size_three_of_rev_none hc ht hr hi rfl) hp.digits)
  · exact letters_append hp.ne hp.letters (by simpa using U.isLetter_of_isDigit (hp.rev d rfl))
      (afterName_rev (hp.rev d rfl) hp.size hp.digits)

/-- The IANA name built from the match of a canonical name's cleaned form resolves back to the
canonical name, unless that is `scram` and three digits. -/
theorem hashlibName_iana (hs : ¬IsScramDigits U c) :
    hashlibName U (b ++ r.toList ++ '-' :: z) = c := by
  have hi' : checkTable (b ++ (r.toList ++ '-' :: z)) = none := by simpa using hi
  have hclean : cleanHashName U (b ++ (r.toList ++ '-' :: z)) = b ++ (r.toList ++ '-' :: z) := by
    simpa using cleanHashName_iana hc ht hr hi hs
  have hmatch : hashNameMatch U (b ++ (r.toList ++ '-' :: z)) = some (b, r, some z) := by
    simpa using hashNameMatch_iana hc ht hr hi
  conv_rhs => rw [eq_of_match_size hc ht hr hi]
  simp [hashlibName, getHashAliases, hclean, aliasesOfClean, hi', hmatch]

end

/-- Every alias of a canonical name resolves to it in one step, unless the canonical name is
`scram` followed by three digits. -/
theorem hashlibName_of_alias {c : Str} (hc : hashlibName U c = c) (hs : ¬IsScramDigits U c)
    {n : Str} (hn : n ∈ getHashAliases U c) : hashlibName U n = c := by
  have hrow : ∀ {x row}, checkTable x = some row → getHashAliases U c = row →
      hashlibName U n = c := fun hx hrow => by
    rw [hashlibName_of_mem_row hx (hrow ▸ hn), ← hc, hashlibName, hrow]
  have hA : getHashAliases U c = aliasesOfClean U (cleanHashName U c) := rfl
  cases ht : checkTable (cleanHashName U c) with
  | some row => exact hrow ht (by rw [hA, aliasesOfClean, ht])
  | none =>
    cases hr : hashNameMatch U (cleanHashName U c) with
    | none =>
      have hpair : getHashAliases U c =
          [hyphensToUnderscores (cleanHashName U c), cleanHashName U c] := by
        rw [hA, aliasesOfClean, ht]; simp only [hr]
      rw [hpair, List.mem_pair] at hn
      rcases hn with rfl | rfl
      · exact hashlibName_head hc hpair
      · exact hashlibName_clean_of_noMatch hc ht hr
    | some g =>
      obtain ⟨b, r, _ | z⟩ := g
      · cases hi : checkTable (b ++ r.toList) with
        | some row => exact hrow hi (by rw [hA, aliasesOfClean, ht]; simp [hr, hi])
        | none =>
          have hpair : getHashAliases U c = [b ++ r.toList, b ++ r.toList] := by
            rw [hA, aliasesOfClean, ht]; simp [hr, hi]
          have hn' : n = b ++ r.toList := by rw [hpair] at hn; simpa using hn
          exact hn' ▸ hashlibName_head hc hpair
      · cases hi : checkTable (b ++ r.toList ++ '-' :: z) with
        | some row =>
          have hi' : checkTable (b ++ (r.toList ++ '-' :: z)) = some row := by simpa using hi
          exact hrow hi (by rw [hA, aliasesOfClean, ht]; simp [hr, hi'])
        | none =>
          have hi' : checkTable (b ++ (r.toList ++ '-' :: z)) = none := by simpa using hi
          have hpair : getHashAliases U c = [b ++ r.toList ++ (if r.isSome then ['_'] else []) ++ z,
              b ++ r.toList ++ '-' :: z] := by
            rw [hA, aliasesOfClean, ht]; simp [hr, hi']
          rw [hpair, List.mem_pair] at hn
          rcases hn with rfl | rfl
          · exact hashlibName_head hc hpair
          · exact hashlibName_iana hc ht hr hi hs

end

end Passlib
