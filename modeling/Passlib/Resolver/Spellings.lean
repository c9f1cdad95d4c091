import Passlib.Resolver.Aliases

/-! # Spellings of the table's names

`_get_hash_aliases` returns the row of a name of `_known_hash_names` for every spelling of it
that its cleaning undoes: any ASCII case change, any of `- _ space /` for a hyphen, a `scram-`
prefix and a `-plus` suffix (themselves spelt so), and any whitespace around the whole
(`Spells`, `scramForms`). Whitespace inside the SCRAM wrapper is not undone: it is stripped before
the prefix is removed. The same holds of the spellings `name sep rev sep size` whose standardized
form `name rev-size` is in a row (`standardName`): the cleaned spelling is in that row, or matches
the pattern with the same groups. -/

namespace Passlib

/-! ## 1. The spellings -/

/-- `y` spells the character `x` of a name: a hyphen by any of `- _ space /`, any other character
by itself under an ASCII case change. -/
def SpellsChar (x y : Char) : Prop :=
  (x = '-' ∧ y ∈ ['-', '_', ' ', '/']) ∨ (x ≠ '-' ∧ y.toNat < 128 ∧ y.toLower = x)

instance : DecidableRel SpellsChar := fun _ _ => inferInstanceAs (Decidable (_ ∨ _))

/-- `t` spells `u` character by character. -/
def Spells (u t : Str) : Prop := List.Forall₂ SpellsChar u t

/-- A name and its SCRAM forms `scram-NAME` and `scram-NAME-plus`. -/
def scramForms (e : Str) : List Str :=
  [e, "scram-".toList ++ e, "scram-".toList ++ e ++ "-plus".toList]

/-- The separators a spelling may put between the groups of the name pattern. -/
def nameSeparators : List Str := [[], ['-'], ['_'], [' '], ['/']]

/-- The standardized form of the groups `name`, `rev`, `size`: `name + rev + "-" + size`, or
`name + rev` without a size. -/
def standardName (b : Str) (r : Option Char) (z : Str) : Str :=
  if z = [] then b ++ r.toList else b ++ r.toList ++ '-' :: z

/-! ## 2. The table -/

/-- Every name of the table is lowercase ASCII without `[_ /]`, begins with a letter and ends
with a letter or a digit, neither begins with `scram` nor ends with `-plus`, and does not end in
a hyphen and four characters. -/
theorem table_shapes : knownHashNames.all (fun R => R.all fun e =>
    !e.isEmpty && e.head?.all Char.isLower && e.getLast?.all Char.isAlphanum &&
    e.all (fun x => decide (x.toNat < 128) && x.toLower == x && x != '_' && x != ' ' && x != '/') &&
    !"scram".toList.isPrefixOf e && !"-plus".toList.isSuffixOf e && e.reverse[4]? != some '-') =
      true := by
  decide

/-- Two names of the table that differ only in hyphens are in one row. -/
theorem table_rows_hyphens : knownHashNames.all (fun R => knownHashNames.all fun R' =>
    R.all fun e => R'.all fun n =>
      e.filter (· != '-') != n.filter (· != '-') || R == R') = true := by
  decide

/-- What the proofs read of a name of the table. -/
structure TableName (e : Str) : Prop where
  ne : e ≠ []
  head : ∀ x ∈ e.head?, x.isLower = true
  last : ∀ x ∈ e.getLast?, x.isAlphanum = true
  chars : ∀ x ∈ e, x.toNat < 128 ∧ x.toLower = x ∧ x ≠ '_' ∧ x ≠ ' ' ∧ x ≠ '/'
  not_scram : "scram".toList.isPrefixOf e = false
  not_plus : "-plus".toList.isSuffixOf e = false
  not_four : e.reverse[4]? ≠ some '-'

theorem TableName.of_mem {R : List Str} (hR : R ∈ knownHashNames) {e : Str} (he : e ∈ R) :
    TableName e := by
  have h := List.all_eq_true.mp (List.all_eq_true.mp table_shapes R hR) e he
  simp only [Bool.and_eq_true, Bool.not_eq_true', List.all_eq_true, bne_iff_ne, ne_eq,
    decide_eq_true_eq, beq_iff_eq] at h
  obtain ⟨⟨⟨⟨⟨⟨h0, hh⟩, hl⟩, hc⟩, hs⟩, hp⟩, hf⟩ := h
  exact ⟨fun h => by simp [h] at h0, fun x hx => by simpa [Option.mem_def.mp hx] using hh,
    fun x hx => by simpa [Option.mem_def.mp hx] using hl,
    fun x hx => ⟨(hc x hx).1.1.1.1, (hc x hx).1.1.1.2, (hc x hx).1.1.2, (hc x hx).1.2,
      (hc x hx).2⟩, hs, hp, hf⟩

theorem row_eq_of_filter {R R' : List Str} (hR : R ∈ knownHashNames) (hR' : R' ∈ knownHashNames)
    {e n : Str} (he : e ∈ R) (hn : n ∈ R') (h : e.filter (· != '-') = n.filter (· != '-')) :
    R = R' := by
  have := List.all_eq_true.mp (List.all_eq_true.mp (List.all_eq_true.mp
    (List.all_eq_true.mp table_rows_hyphens R hR) R' hR') e he) n hn
  simpa [h] using this

theorem checkTable_of_mem {R : List Str} (hR : R ∈ knownHashNames) {e : Str} (he : e ∈ R) :
    checkTable e = some R := by
  have h := List.all_eq_true.mp (List.all_eq_true.mp table_names R hR) e he
  simp only [Bool.and_eq_true, List.all_eq_true, decide_eq_true_eq, beq_iff_eq] at h
  exact h.2

/-! ## 3. Spellings of a name and of its SCRAM forms -/

section
variable {U : PyUnicode}

theorem SpellsChar.ascii {x y : Char} (h : SpellsChar x y) : y.toNat < 128 := by
  rcases h with ⟨-, hy⟩ | ⟨-, hy, -⟩
  · simp only [List.mem_cons, List.mem_singleton, List.not_mem_nil, or_false] at hy
    rcases hy with rfl | rfl | rfl | rfl <;> decide
  · exact hy

theorem SpellsChar.not_space {x y : Char} (h : SpellsChar x y) (hx : x.isAlphanum = true) :
    U.isSpace y = false := by
  rcases h with ⟨rfl, -⟩ | ⟨-, hy, rfl⟩
  · exact absurd hx (by decide)
  have hrange : (48 ≤ y.toNat ∧ y.toNat ≤ 57) ∨ (65 ≤ y.toNat ∧ y.toNat ≤ 90) ∨
      (97 ≤ y.toNat ∧ y.toNat ≤ 122) := by
    unfold Char.toLower at hx
    dsimp only at hx
    split_ifs at hx with hup
    · exact .inr (.inl ⟨hup.1, hup.2⟩)
    · rcases Bool.or_eq_true_iff.mp hx with h | h
      · exact .inr (toNat_of_isAlpha h)
      · exact .inl (toNat_of_isDigit h)
  rw [U.isSpace_eq hy, Bool.eq_false_iff]
  intro hc
  simp only [List.contains_cons, List.contains_nil, Bool.or_false, Bool.or_eq_true, beq_iff_eq]
    at hc
  omega

theorem Spells.ascii {u t : Str} (h : Spells u t) : ∀ y ∈ t, y.toNat < 128 := by
  induction h with
  | nil => exact fun _ h => nomatch h
  | cons hxy _ ih =>
    intro y hy
    rcases List.mem_cons.mp hy with rfl | hy
    · exact hxy.ascii
    · exact ih y hy

theorem Spells.head {u t : Str} (h : Spells u t) :
    ∀ x ∈ u.head?, ∀ y ∈ t.head?, SpellsChar x y := by
  cases h with
  | nil => exact fun _ h => nomatch h
  | cons hxy _ =>
    intro x hx y hy
    simp only [List.head?_cons, Option.mem_def, Option.some.injEq] at hx hy
    exact hx ▸ hy ▸ hxy

theorem Spells.last {u t : Str} (h : Spells u t) :
    ∀ x ∈ u.getLast?, ∀ y ∈ t.getLast?, SpellsChar x y := by
  rw [← List.head?_reverse, ← List.head?_reverse]
  exact Spells.head (List.forall₂_reverse_iff.mpr h)

/-- Lowering a spelling and replacing its separators gives back what it spells. -/
theorem subSeparators_spells {u t : Str} (h : Spells u t)
    (hu : ∀ x ∈ u, x.toLower = x ∧ x ≠ '_' ∧ x ≠ ' ' ∧ x ≠ '/') :
    subSeparators (t.map Char.toLower) = u := by
  induction h with
  | nil => rfl
  | @cons x y u t hxy _ ih =>
    have hx := hu x (List.mem_cons_self _ _)
    have ih' := ih fun x' hx' => hu x' (List.mem_cons_of_mem _ hx')
    simp only [subSeparators, List.map_cons] at ih' ⊢
    rw [ih']
    congr 1
    rcases hxy with ⟨rfl, hy⟩ | ⟨-, -, rfl⟩
    · simp only [List.mem_cons, List.mem_singleton, List.not_mem_nil, or_false] at hy
      rcases hy with rfl | rfl | rfl | rfl <;> decide
    · exact if_neg (by simpa [not_or] using hx.2)

theorem dropWhile_append_of_all {p : Char → Bool} {w l : Str} (h : ∀ x ∈ w, p x = true) :
    (w ++ l).dropWhile p = l.dropWhile p := by
  induction w with
  | nil => rfl
  | cons x w ih =>
    rw [List.cons_append, List.dropWhile_cons, if_pos (h x (List.mem_cons_self _ _))]
    exact ih fun y hy => h y (List.mem_cons_of_mem _ hy)

/-- Stripping removes whitespace around a text whose ends are no spaces. -/
theorem strip_surround {w₁ t w₂ : Str} (h₁ : ∀ x ∈ w₁, U.isSpace x = true)
    (h₂ : ∀ x ∈ w₂, U.isSpace x = true) (ht : t ≠ []) (hh : ∀ x ∈ t.head?, U.isSpace x = false)
    (hl : ∀ x ∈ t.getLast?, U.isSpace x = false) : strip U (w₁ ++ t ++ w₂) = t := by
  have e₁ : (t ++ w₂).dropWhile U.isSpace = t ++ w₂ :=
    dropWhile_eq_self (by rwa [List.head?_append_of_ne_nil _ ht])
  have e₂ : t.reverse.dropWhile U.isSpace = t.reverse :=
    dropWhile_eq_self (by rwa [List.head?_reverse])
  rw [strip, List.append_assoc, dropWhile_append_of_all h₁, e₁, List.reverse_append,
    dropWhile_append_of_all (fun x hx => h₂ x (List.mem_reverse.mp hx)), e₂, List.reverse_reverse]

/-- The SCRAM prefix and suffix come off a SCRAM form of a name of the table, and nothing comes
off the name itself. -/
theorem scramForms_clean {e u : Str} (he : TableName e) (hu : u ∈ scramForms e) :
    (if "scram-".toList.isPrefixOf u then
      if "-plus".toList.isSuffixOf (u.drop 6) then (u.drop 6).take ((u.drop 6).length - 5)
      else u.drop 6
    else u) = e := by
  have hpre : ∀ v, "scram-".toList.isPrefixOf ("scram-".toList ++ v) = true := fun v =>
    List.isPrefixOf_iff_prefix.mpr (List.prefix_append _ _)
  simp only [scramForms, List.mem_cons, List.mem_singleton, List.not_mem_nil, or_false] at hu
  rcases hu with rfl | rfl | rfl
  · have hne : "scram-".toList.isPrefixOf u = false := by
      refine Bool.eq_false_iff.mpr fun h => ?_
      obtain ⟨v, rfl⟩ := List.isPrefixOf_iff_prefix.mp h
      have h5 : "scram".toList.isPrefixOf ("scram-".toList ++ v) = true :=
        List.isPrefixOf_iff_prefix.mpr ⟨'-' :: v, rfl⟩
      rw [he.not_scram] at h5
      cases h5
    rw [if_neg (by rw [hne]; decide)]
  · rw [if_pos (hpre e), List.drop_left' (show "scram-".toList.length = 6 from rfl),
      if_neg (by rw [he.not_plus]; decide)]
  · have hs : "-plus".toList.isSuffixOf (e ++ "-plus".toList) = true :=
      List.isSuffixOf_iff_suffix.mpr (List.suffix_append _ _)
    rw [List.append_assoc, if_pos (hpre _),
      List.drop_left' (show "scram-".toList.length = 6 from rfl), if_pos hs, List.length_append]
    exact List.take_left' (show e.length = e.length + "-plus".toList.length - 5 from rfl)

/-- What a SCRAM form of a name of the table reads of the name. -/
theorem scramForms_chars {e u : Str} (he : TableName e) (hu : u ∈ scramForms e) :
    u ≠ [] ∧ (∀ x ∈ u.head?, x.isAlphanum = true) ∧ (∀ x ∈ u.getLast?, x.isAlphanum = true) ∧
      ∀ x ∈ u, x.toLower = x ∧ x ≠ '_' ∧ x ≠ ' ' ∧ x ≠ '/' := by
  have hlow : ∀ x ∈ e.head?, x.isAlphanum = true := fun x hx => by
    simp [Char.isAlphanum, Char.isAlpha, he.head x hx]
  have hc : ∀ x ∈ e, x.toLower = x ∧ x ≠ '_' ∧ x ≠ ' ' ∧ x ≠ '/' := fun x hx =>
    (he.chars x hx).2
  have hs : ∀ x ∈ "scram-".toList, x.toLower = x ∧ x ≠ '_' ∧ x ≠ ' ' ∧ x ≠ '/' := by decide
  have hp : ∀ x ∈ "-plus".toList, x.toLower = x ∧ x ≠ '_' ∧ x ≠ ' ' ∧ x ≠ '/' := by decide
  simp only [scramForms, List.mem_cons, List.mem_singleton, List.not_mem_nil, or_false] at hu
  rcases hu with rfl | rfl | rfl
  · exact ⟨he.ne, hlow, he.last, hc⟩
  · refine ⟨by simp, by simp, by rw [List.getLast?_append_of_ne_nil _ he.ne]; exact he.last,
      fun x hx => ?_⟩
    rcases List.mem_append.mp hx with hx | hx
    · exact hs x hx
    · exact hc x hx
  · refine ⟨by simp, by simp, by rw [List.getLast?_append_of_ne_nil _ (by decide)]; decide,
      fun x hx => ?_⟩
    rcases List.mem_append.mp hx with hx | hx
    · rcases List.mem_append.mp hx with hx | hx
      · exact hs x hx
      · exact hc x hx
    · exact hp x hx

/-- Every spelling of a name of the table or of one of its SCRAM forms, with any whitespace
around it, has the name's row as its aliases. -/
theorem getHashAliases_scramForm {R : List Str} (hR : R ∈ knownHashNames) {e : Str} (he : e ∈ R)
    {u : Str} (hu : u ∈ scramForms e) {t w₁ w₂ : Str} (ht : Spells u t)
    (h₁ : ∀ x ∈ w₁, U.isSpace x = true) (h₂ : ∀ x ∈ w₂, U.isSpace x = true) :
    getHashAliases U (w₁ ++ t ++ w₂) = R := by
  have hte := TableName.of_mem hR he
  obtain ⟨hu0, hh, hl, hc⟩ := scramForms_chars hte hu
  have ht0 : t ≠ [] := by
    rintro rfl
    exact hu0 (List.length_eq_zero.mp (by simpa using ht.length_eq))
  have hstrip : strip U (w₁ ++ t ++ w₂) = t :=
    strip_surround h₁ h₂ ht0 (fun y hy => by
      obtain ⟨x, hx⟩ := Option.ne_none_iff_exists'.mp (by simpa using hu0 : u.head? ≠ none)
      exact (ht.head x hx y hy).not_space (hh x hx))
      (fun y hy => by
      obtain ⟨x, hx⟩ := Option.ne_none_iff_exists'.mp (by simpa using hu0 : u.getLast? ≠ none)
      exact (ht.last x hx y hy).not_space (hl x hx))
  rw [getHashAliases, cleanHashName]
  dsimp only
  rw [hstrip, U.lower_ascii t ht.ascii, subSeparators_spells ht hc, scramForms_clean hte hu,
    aliasesOfClean, checkTable_of_mem hR he]

end

/-! ## 4. Spellings of the groups of the name pattern -/

section
variable {U : PyUnicode} {α : Type}

theorem optHyphen_hyphen {k : Str → Option α} {t : Str} {g : α} (hk : k t = some g) :
    optHyphen k ('-' :: t) = some g := by
  simp [optHyphen, hk]

theorem optHyphen_of_head {k : Str → Option α} {t : Str} (ht : ∀ c ∈ t.head?, c ≠ '-') :
    optHyphen k t = k t := by
  unfold optHyphen
  rw [if_neg (show ¬t.head? = some '-' from fun h => ht '-' h rfl)]

/-- An optional hyphen before a text that does not begin with one. -/
theorem optHyphen_append {k : Str → Option α} {h t : Str} (hh : h = [] ∨ h = ['-'])
    (ht : ∀ c ∈ t.head?, c ≠ '-') {g : α} (hk : k t = some g) : optHyphen k (h ++ t) = some g := by
  rcases hh with rfl | rfl
  · rw [List.nil_append, optHyphen_of_head ht, hk]
  · exact optHyphen_hyphen hk

theorem optDigit_digit {k : Option Char → Str → Option α} {d : Char} {t : Str} {g : α}
    (hd : U.isDigit d = true) (hk : k (some d) t = some g) : optDigit U k (d :: t) = some g := by
  simp [optDigit, hd, hk]

theorem optDigit_of_none {k : Option Char → Str → Option α} {d : Char} {t : Str}
    (hk : k (some d) t = none) : optDigit U k (d :: t) = k none (d :: t) := by
  simp only [optDigit, hk, ite_self, Option.none_orElse]

theorem optDigit_hyphen {k : Option Char → Str → Option α} {t : Str} :
    optDigit U k ('-' :: t) = k none ('-' :: t) := by
  simp [optDigit]

/-- `(?P<size>\d{3,4})?$` on no size, or on three or four digits. -/
theorem optSize_groups {name : Str} {rev : Option Char} {z : Str}
    (hz : z = [] ∨ (z.length = 3 ∨ z.length = 4) ∧ ∀ x ∈ z, U.isDigit x = true) :
    optSize U (fun size rest => if reEnd rest then some (name, rev, size) else none) z =
      some (name, rev, if z = [] then none else some z) := by
  rcases hz with rfl | ⟨hz, hd⟩
  · rfl
  · have hz0 : z ≠ [] := by rintro rfl; simp at hz
    rcases hz with h3 | h4
    · obtain ⟨z₁, z₂, z₃, rfl⟩ := List.length_eq_three.mp h3
      simp only [List.mem_cons, List.mem_singleton, List.not_mem_nil, or_false, forall_eq_or_imp,
        forall_eq] at hd
      simp [optSize, reEnd, hd]
    · obtain ⟨z₁, z₂, z₃, z₄, rfl⟩ := exists_of_length_four h4
      simp only [List.mem_cons, List.mem_singleton, List.not_mem_nil, or_false, forall_eq_or_imp,
        forall_eq] at hd
      simp [optSize, reEnd, hd]

/-- `-?(?P<rev>\d)?-?(?P<size>\d{3,4})?$` on the groups of a spelling, its separators made
hyphens: a size of four digits follows a revision digit. -/
theorem afterName_spelling {b h₁ h₂ : Str} (hh₁ : h₁ = [] ∨ h₁ = ['-']) (hh₂ : h₂ = [] ∨ h₂ = ['-'])
    {r : Option Char} (hr : ∀ d ∈ r, U.isDigit d = true) {z : Str}
    (hz : z = [] ∨ (z.length = 3 ∨ z.length = 4 ∧ r.isSome) ∧ ∀ x ∈ z, U.isDigit x = true) :
    afterName U b (h₁ ++ r.toList ++ h₂ ++ z) = some (b, r, if z = [] then none else some z) := by
  have hsize := @optSize_groups U b r z (hz.imp_right fun h => ⟨h.1.imp_right And.left, h.2⟩)
  have hzh : ∀ c ∈ z.head?, c ≠ '-' := fun c hc => by
    rcases hz with rfl | ⟨-, hd⟩
    · cases hc
    · exact (U.ne_of_isDigit (hd c (List.mem_of_mem_head? hc))).2.2.2
  rw [afterName]
  rcases r with _ | d
  · -- no revision digit: the first digit of a size is tried as one, and given back
    have hz3 : z = [] ∨ z.length = 3 ∧ ∀ x ∈ z, U.isDigit x = true := by
      rcases hz with h | ⟨h | ⟨-, h⟩, hd⟩
      · exact .inl h
      · exact .inr ⟨h, hd⟩
      · cases h
    have hP : optDigit U (fun rev => optHyphen (optSize U fun size rest =>
        if reEnd rest then some (b, rev, size) else none)) z =
        some (b, none, if z = [] then none else some z) := by
      rcases hz3 with rfl | ⟨h3, hd⟩
      · exact hsize
      · obtain ⟨z₁, z₂, z₃, rfl⟩ := List.length_eq_three.mp h3
        have n₂ := (U.ne_of_isDigit (hd z₂ (by simp))).2.2.2
        rw [optDigit_of_none (by simp [optHyphen, optSize, reEnd, n₂]),
          optHyphen_of_head hzh, hsize]
    have hQ : optDigit U (fun rev => optHyphen (optSize U fun size rest =>
        if reEnd rest then some (b, rev, size) else none)) ('-' :: z) =
        some (b, none, if z = [] then none else some z) := by
      rw [optDigit_hyphen]
      exact optHyphen_hyphen hsize
    simp only [Option.toList_none, List.append_nil]
    rcases hh₁ with rfl | rfl <;> rcases hh₂ with rfl | rfl
    · exact (optHyphen_of_head hzh).trans hP
    · exact optHyphen_hyphen hP
    · exact optHyphen_hyphen hP
    · exact optHyphen_hyphen hQ
  · have hd := hr d rfl
    rw [show h₁ ++ (some d).toList ++ h₂ ++ z = h₁ ++ d :: (h₂ ++ z) by simp]
    exact optHyphen_append hh₁ (fun c hc => by cases hc; exact (U.ne_of_isDigit hd).2.2.2)
      (optDigit_digit hd (optHyphen_append hh₂ hzh hsize))


theorem strip_append_space {l : Str} {c : Char} (hc : U.isSpace c = true) :
    strip U (l ++ [c]) = strip U l := by
  unfold strip
  rw [List.dropWhile_append]
  split
  · rename_i h
    rw [List.isEmpty_iff.mp h]
    simp [List.dropWhile, hc]
  · rw [List.reverse_append, List.reverse_singleton, List.singleton_append, List.dropWhile_cons,
      if_pos hc]

/-- Every separator is a space or has none. -/
theorem nameSeparators_space {s : Str} (hs : s ∈ nameSeparators) :
    s = [' '] ∨ ∀ x ∈ s, U.isSpace x = false := by
  simp only [nameSeparators, List.mem_cons, List.mem_singleton, List.not_mem_nil, or_false] at hs
  rcases hs with rfl | rfl | rfl | rfl | rfl
  · exact .inr nofun
  · exact .inr (by simp)
  · exact .inr (by simp)
  · exact .inl rfl
  · exact .inr fun x hx => by
      rw [List.mem_singleton.mp hx, U.isSpace_eq (by decide)]
      decide

/-- Stripping a spelling of the groups drops a space that ends it, which is a separator. -/
theorem strip_spelling {b s₁ s₂ z : Str} {r : Option Char} (hb : b ≠ [])
    (hbs : ∀ x ∈ b, U.isSpace x = false) (hr : ∀ d ∈ r, U.isSpace d = false)
    (hz : ∀ x ∈ z, U.isSpace x = false) (hs₁ : s₁ ∈ nameSeparators) (hs₂ : s₂ ∈ nameSeparators) :
    ∃ s₁' ∈ nameSeparators, ∃ s₂' ∈ nameSeparators,
      strip U (b ++ s₁ ++ r.toList ++ s₂ ++ z) = b ++ s₁' ++ r.toList ++ s₂' ++ z := by
  have hself : ∀ l, (∀ x ∈ l.getLast?, U.isSpace x = false) → strip U (b ++ l) = b ++ l := by
    intro l hl
    refine strip_eq_self (fun x hx => ?_) fun x hx => ?_
    · rw [List.head?_append_of_ne_nil _ hb] at hx
      exact hbs x (List.mem_of_mem_head? hx)
    · by_cases hl0 : l = []
      · subst hl0
        exact hbs x (List.mem_of_getLast?_eq_some (by simpa using hx))
      · exact hl x (by rwa [List.getLast?_append_of_ne_nil _ hl0] at hx)
  have hspace : U.isSpace ' ' = true := by rw [U.isSpace_eq (by decide)]; decide
  have hnil : ([] : Str) ∈ nameSeparators := by simp [nameSeparators]
  -- without a size and a second separator, only a space for the first one can end the text
  have key : ∃ s₁' ∈ nameSeparators, strip U (b ++ s₁ ++ r.toList) = b ++ s₁' ++ r.toList := by
    rcases r with _ | d
    · rcases nameSeparators_space hs₁ with rfl | h
      · exact ⟨[], hnil, by simpa [strip_append_space hspace] using hself [] nofun⟩
      · exact ⟨s₁, hs₁, by simpa using hself s₁ fun x hx => h x (List.mem_of_getLast?_eq_some hx)⟩
    · exact ⟨s₁, hs₁, by simpa using hself (s₁ ++ [d]) (by simpa using hr d rfl)⟩
  rcases z with _ | ⟨x, z⟩
  · rcases nameSeparators_space hs₂ with rfl | h
    · obtain ⟨s₁', hs₁', he⟩ := key
      refine ⟨s₁', hs₁', [], hnil, ?_⟩
      rw [List.append_nil, strip_append_space hspace, he, List.append_nil, List.append_nil]
    · by_cases hs₂0 : s₂ = []
      · subst hs₂0
        obtain ⟨s₁', hs₁', he⟩ := key
        exact ⟨s₁', hs₁', [], hnil, by simpa using he⟩
      · refine ⟨s₁, hs₁, s₂, hs₂, ?_⟩
        simpa using hself (s₁ ++ r.toList ++ s₂) fun y hy => h y (mem_of_getLast?_append hs₂0 hy)
  · refine ⟨s₁, hs₁, s₂, hs₂, ?_⟩
    simpa using hself (s₁ ++ r.toList ++ s₂ ++ x :: z) fun y hy =>
      hz y (mem_of_getLast?_append (List.cons_ne_nil x z) hy)

end

/-! ## 5. Spellings of the groups of the name pattern -/

section
variable {U : PyUnicode}

theorem isLower_of_isDigit {c : Char} (h : c.isDigit = true) : c.isLower = false := by
  have := toNat_of_isDigit h
  refine Bool.eq_false_iff.mpr fun hl => ?_
  have h97 : (97 : UInt32) ≤ c.val := of_decide_eq_true (Bool.and_eq_true _ _ ▸ hl).1
  have : 97 ≤ c.toNat := h97
  omega

theorem subSeparators_append (a b : Str) :
    subSeparators (a ++ b) = subSeparators a ++ subSeparators b :=
  List.map_append _ _ _

/-- A separator is ASCII and its own lowercase, and it becomes nothing or a hyphen. -/
theorem nameSeparators_clean {s : Str} (hs : s ∈ nameSeparators) :
    (∀ x ∈ s, x.toNat < 128 ∧ x.toLower = x) ∧
      (subSeparators s = [] ∨ subSeparators s = ['-']) := by
  simp only [nameSeparators, List.mem_cons, List.mem_singleton, List.not_mem_nil, or_false] at hs
  rcases hs with rfl | rfl | rfl | rfl | rfl <;> decide

/-- A text of letters without hyphens, then hyphens and digits, begins with `scram-` only when the
letters are `scram`. -/
theorem eq_scram_of_prefix {b m : Str} (hb : '-' ∉ b) (hm : ∀ x ∈ m, x = '-' ∨ U.isDigit x = true)
    (h : "scram-".toList.isPrefixOf (b ++ m) = true) : b = "scram".toList := by
  obtain ⟨v, hv⟩ := List.isPrefixOf_iff_prefix.mp h
  have htw := congrArg (List.takeWhile (· != '-')) hv
  rw [List.takeWhile_append_of_pos fun x hx => bne_iff_ne.mpr (ne_of_mem_of_not_mem hx hb)]
    at htw
  have hsc : ("scram-".toList ++ v).takeWhile (· != '-') = "scram".toList := rfl
  rw [hsc] at htw
  -- what follows the letters before the first hyphen is digits, and `scram` ends in a letter
  suffices hq : m.takeWhile (· != '-') = [] by rw [htw, hq, List.append_nil]
  refine List.eq_nil_iff_forall_not_mem.mpr fun x hx => ?_
  by_contra
  obtain ⟨y, hy⟩ : ∃ y, (m.takeWhile (· != '-')).getLast? = some y :=
    Option.ne_none_iff_exists'.mp (mt List.getLast?_eq_none_iff.mp (List.ne_nil_of_mem hx))
  have hlast : "scram".toList.getLast? = some y := by
    rw [htw, List.getLast?_append_of_ne_nil _ (List.ne_nil_of_mem hx), hy]
  have hym : y = 'm' := (Option.some.inj hlast).symm
  have hmem := List.mem_takeWhile_imp (List.mem_of_getLast?_eq_some hy)
  rcases hm y (List.takeWhile_subset _ (List.mem_of_getLast?_eq_some hy)) with h | h
  · rw [h] at hmem
    exact absurd hmem (by decide)
  · rw [hym, U.isDigit_eq (by decide)] at h
    exact absurd h (by decide)

/-- The standardized form of a table name is not a hyphen and four characters from its end. -/
theorem reverse_getElem?_four {b z : Str} (hz : z.length = 4) :
    (b ++ '-' :: z).reverse[4]? = some '-' := by
  rw [List.reverse_append, List.reverse_cons, List.append_assoc,
    List.getElem?_append_right (by simp [hz])]
  simp [hz]

theorem checkTable_some {n : Str} {R : List Str} (h : checkTable n = some R) :
    R ∈ knownHashNames ∧ n ∈ R :=
  ⟨List.mem_of_find?_eq_some h, by simpa using List.find?_some h⟩

/-- The groups of a spelling whose standardized form is a name of the table, with what cleaning
and the pattern read of them: ASCII letters, then digits, that `lower` and the separator
replacement fix, no four-digit size without a revision digit, and not the letters `scram`. -/
structure GroupParts (U : PyUnicode) (b : Str) (r : Option Char) (z : Str) : Prop where
  ne : b ≠ []
  letters : ∀ x ∈ b, U.isLetter x = true
  rev : ∀ d ∈ r, U.isDigit d = true
  size : z = [] ∨ (z.length = 3 ∨ z.length = 4 ∧ r.isSome) ∧ ∀ x ∈ z, U.isDigit x = true
  chars : ∀ x ∈ b ++ r.toList ++ z, x.toNat < 128 ∧ x.toLower = x ∧ x ≠ '_' ∧ x ≠ ' ' ∧ x ≠ '/'
  not_scram : b ≠ "scram".toList

theorem standardName_eq (b : Str) (r : Option Char) (z : Str) :
    standardName b r z = b ++ (r.toList ++ if z = [] then [] else '-' :: z) := by
  unfold standardName; split_ifs <;> simp

/-- The groups are characters of the standardized form. -/
theorem subset_standardName (b : Str) (r : Option Char) (z : Str) :
    b ++ r.toList ++ z ⊆ standardName b r z := by
  unfold standardName
  split_ifs with h0
  · simp [h0]
  · intro x hx
    simp only [List.mem_append, List.mem_cons] at hx ⊢
    tauto

theorem GroupParts.of_standardName {R : List Str} (hR : R ∈ knownHashNames) {b : Str}
    {r : Option Char} {z : Str} (hbl : ∀ x ∈ b, x.isAlpha = true) (hr : ∀ d ∈ r, d.isDigit = true)
    (hz : z = [] ∨ (z.length = 3 ∨ z.length = 4) ∧ ∀ x ∈ z, x.isDigit = true)
    (hstd : standardName b r z ∈ R) : GroupParts U b r z := by
  have hte := TableName.of_mem hR hstd
  have hchars := fun x hx => hte.chars x (subset_standardName b r z hx)
  have hzd : ∀ x ∈ z, x.isDigit = true := fun x hx => by
    rcases hz with rfl | ⟨-, h⟩
    · cases hx
    · exact h x hx
  have hzU : ∀ x ∈ z, U.isDigit x = true := fun x hx => by
    rw [U.isDigit_eq (hchars x (List.subset_append_right _ _ hx)).1]; exact hzd x hx
  refine ⟨?_, fun x hx => ?_, fun d hd => ?_, ?_, hchars, ?_⟩
  · -- a name of the table begins with a lowercase letter
    rintro rfl
    have hh := hte.head
    rw [standardName_eq, List.nil_append] at hh
    rcases r with _ | d
    · split_ifs at hh with h0
      · exact hte.ne (by rw [standardName_eq]; simp [h0])
      · exact absurd (hh '-' rfl) (by decide)
    · exact absurd (hh d (by simp)) (by rw [isLower_of_isDigit (hr d rfl)]; decide)
  · rw [U.isLetter_eq (hchars x (List.mem_append_left _ (List.mem_append_left _ hx))).1]
    exact hbl x hx
  · rw [U.isDigit_eq (hchars d (List.mem_append_left _ (List.mem_append_right _
      (Option.mem_toList.mpr hd)))).1]
    exact hr d hd
  · -- a name of the table has no hyphen four characters from its end
    rcases hz with h | ⟨h | h, -⟩
    · exact .inl h
    · exact .inr ⟨.inl h, hzU⟩
    · refine .inr ⟨.inr ⟨h, ?_⟩, hzU⟩
      rcases r with _ | d
      · have := hte.not_four
        rw [standardName_eq, if_neg (by rintro rfl; simp at h)] at this
        exact absurd (reverse_getElem?_four h) (by simpa using this)
      · rfl
  · -- a name of the table does not begin with `scram`
    intro hb
    have := hte.not_scram
    rw [standardName_eq, hb, List.isPrefixOf_iff_prefix.mpr (List.prefix_append _ _)] at this
    cases this

namespace GroupParts
variable {b z : Str} {r : Option Char} (hg : GroupParts U b r z)
include hg

theorem digits : ∀ x ∈ z, U.isDigit x = true := fun x hx => by
  rcases hg.size with rfl | ⟨-, h⟩
  · cases hx
  · exact h x hx

theorem not_hyphen : ∀ x ∈ b ++ r.toList ++ z, x ≠ '-' := fun x hx => by
  simp only [List.mem_append] at hx
  rcases hx with (hx | hx) | hx
  · exact (U.ne_of_isLetter (hg.letters x hx)).2.2.2
  · exact (U.ne_of_isDigit (hg.rev x (Option.mem_toList.mp hx))).2.2.2
  · exact (U.ne_of_isDigit (hg.digits x hx)).2.2.2

/-- After the letters, a cleaned spelling has only hyphens and digits. -/
theorem tail {h₁ h₂ : Str} (hh₁ : h₁ = [] ∨ h₁ = ['-']) (hh₂ : h₂ = [] ∨ h₂ = ['-']) :
    ∀ x ∈ h₁ ++ r.toList ++ h₂ ++ z, x = '-' ∨ U.isDigit x = true := by
  have hh : ∀ h : Str, (h = [] ∨ h = ['-']) → ∀ x ∈ h, x = '-' := by
    rintro h (rfl | rfl) x hx <;> simp_all
  intro x hx
  simp only [List.mem_append] at hx
  rcases hx with ((hx | hx) | hx) | hx
  · exact .inl (hh _ hh₁ x hx)
  · exact .inr (hg.rev x (Option.mem_toList.mp hx))
  · exact .inl (hh _ hh₂ x hx)
  · exact .inr (hg.digits x hx)

/-- Cleaning a spelling of the groups leaves the groups and makes each separator nothing or a
hyphen. -/
theorem cleanHashName_eq {s₁ s₂ : Str} (hs₁ : s₁ ∈ nameSeparators) (hs₂ : s₂ ∈ nameSeparators) :
    ∃ h₁ h₂ : Str, (h₁ = [] ∨ h₁ = ['-']) ∧ (h₂ = [] ∨ h₂ = ['-']) ∧
      cleanHashName U (b ++ s₁ ++ r.toList ++ s₂ ++ z) = b ++ (h₁ ++ r.toList ++ h₂ ++ z) := by
  have hsb : b ⊆ b ++ r.toList ++ z :=
    List.subset_append_of_subset_left _ (List.subset_append_left _ _)
  have hsr : r.toList ⊆ b ++ r.toList ++ z :=
    List.subset_append_of_subset_left _ (List.subset_append_right _ _)
  have hsz : z ⊆ b ++ r.toList ++ z := List.subset_append_right _ _
  obtain ⟨s₁', hs₁', s₂', hs₂', hstrip⟩ := strip_spelling hg.ne
    (fun x hx => U.not_space_of_letter x (hg.letters x hx))
    (fun d hd => U.not_space_of_digit d (hg.rev d hd))
    (fun x hx => U.not_space_of_digit x (hg.digits x hx)) hs₁ hs₂
  obtain ⟨hc₁, hh₁⟩ := nameSeparators_clean hs₁'
  obtain ⟨hc₂, hh₂⟩ := nameSeparators_clean hs₂'
  have hfix : ∀ c ∈ b ++ r.toList ++ z, c.toNat < 128 ∧ c.toLower = c := fun c hc =>
    ⟨(hg.chars c hc).1, (hg.chars c hc).2.1⟩
  have hlow : U.lower (b ++ s₁' ++ r.toList ++ s₂' ++ z) = b ++ s₁' ++ r.toList ++ s₂' ++ z := by
    refine U.lower_eq_self _ fun c hc => ?_
    have hc' : c.toNat < 128 ∧ c.toLower = c := by
      simp only [List.mem_append] at hc
      rcases hc with (((hc | hc) | hc) | hc) | hc
      · exact hfix c (hsb hc)
      · exact hc₁ c hc
      · exact hfix c (hsr hc)
      · exact hc₂ c hc
      · exact hfix c (hsz hc)
    rw [U.lower_single hc'.1, hc'.2]
  have hsep : ∀ l ⊆ b ++ r.toList ++ z, subSeparators l = l := fun l hl =>
    subSeparators_eq_self fun x hx => (hg.chars x (hl hx)).2.2
  have hsub : subSeparators (b ++ s₁' ++ r.toList ++ s₂' ++ z) =
      b ++ (subSeparators s₁' ++ r.toList ++ subSeparators s₂' ++ z) := by
    simp only [subSeparators_append, List.append_assoc]
    rw [hsep b hsb, hsep r.toList hsr, hsep z hsz]
  -- no `scram-` prefix: the letters would be `scram`
  have hscram : "scram-".toList.isPrefixOf
      (b ++ (subSeparators s₁' ++ r.toList ++ subSeparators s₂' ++ z)) = false :=
    Bool.eq_false_iff.mpr fun h => hg.not_scram <| eq_scram_of_prefix
      (fun h => (U.ne_of_isLetter (hg.letters _ h)).2.2.2 rfl) (hg.tail hh₁ hh₂) h
  refine ⟨_, _, hh₁, hh₂, ?_⟩
  rw [cleanHashName]
  dsimp only
  rw [hstrip, hlow, hsub, if_neg (by rw [hscram]; decide)]

/-- The cleaned spelling is in the row of the standardized form, or matches the pattern with the
same groups, whose standardized form is then looked up. -/
theorem aliasesOfClean_eq {R : List Str} (hR : R ∈ knownHashNames) (hstd : standardName b r z ∈ R)
    {h₁ h₂ : Str} (hh₁ : h₁ = [] ∨ h₁ = ['-']) (hh₂ : h₂ = [] ∨ h₂ = ['-']) :
    aliasesOfClean U (b ++ (h₁ ++ r.toList ++ h₂ ++ z)) = R := by
  rw [aliasesOfClean]
  cases hct : checkTable (b ++ (h₁ ++ r.toList ++ h₂ ++ z)) with
  | some R' =>
    -- a name of the table in the same row up to hyphens
    obtain ⟨hR', hn⟩ := checkTable_some hct
    refine (row_eq_of_filter hR hR' hstd hn ?_).symm
    have hf : ∀ l ⊆ b ++ r.toList ++ z, l.filter (· != '-') = l := fun l hl =>
      List.filter_eq_self.mpr fun x hx => bne_iff_ne.mpr (hg.not_hyphen x (hl hx))
    have hfh : ∀ h : Str, (h = [] ∨ h = ['-']) → h.filter (· != '-') = [] := by
      rintro h (rfl | rfl) <;> rfl
    have hfz : (if z = [] then [] else '-' :: z).filter (· != '-') = z := by
      split_ifs with h0
      · rw [h0]; rfl
      · rw [List.filter_cons_of_neg (by simp), hf z (List.subset_append_right _ _)]
    rw [standardName_eq]
    simp only [List.filter_append, hfh _ hh₁, hfh _ hh₂, hfz,
      hf b (List.subset_append_of_subset_left _ (List.subset_append_left _ _)),
      hf r.toList (List.subset_append_of_subset_left _ (List.subset_append_right _ _)),
      hf z (List.subset_append_right _ _), List.nil_append, List.append_nil]
  | none =>
    have hhead : ∀ x ∈ (h₁ ++ r.toList ++ h₂ ++ z).head?, U.isLetter x = false := fun x hx => by
      rcases hg.tail hh₁ hh₂ x (List.mem_of_mem_head? hx) with rfl | h
      · exact U.isLetter_hyphen
      · exact U.isLetter_of_isDigit h
    have hmatch := letters_append hg.ne hg.letters hhead (afterName_spelling hh₁ hh₂ hg.rev hg.size)
    rw [← hashNameMatch] at hmatch
    rw [standardName] at hstd
    by_cases h0 : z = []
    · rw [if_pos h0] at hmatch hstd
      simp only [hmatch, checkTable_of_mem hR hstd, Option.getD_some]
    · rw [if_neg h0] at hmatch hstd
      simp only [hmatch, checkTable_of_mem hR hstd, Option.getD_some]

end GroupParts

/-- A spelling `name sep rev sep size` whose standardized form is a name of the table has that
name's row as its aliases. -/
theorem getHashAliases_groups {R : List Str} (hR : R ∈ knownHashNames) {b : Str} {r : Option Char}
    {z s₁ s₂ : Str} (hbl : ∀ x ∈ b, x.isAlpha = true) (hr : ∀ d ∈ r, d.isDigit = true)
    (hz : z = [] ∨ (z.length = 3 ∨ z.length = 4) ∧ ∀ x ∈ z, x.isDigit = true)
    (hs₁ : s₁ ∈ nameSeparators) (hs₂ : s₂ ∈ nameSeparators) (hstd : standardName b r z ∈ R) :
    getHashAliases U (b ++ s₁ ++ r.toList ++ s₂ ++ z) = R := by
  have hg : GroupParts U b r z := .of_standardName hR hbl hr hz hstd
  obtain ⟨h₁, h₂, hh₁, hh₂, hclean⟩ := hg.cleanHashName_eq hs₁ hs₂
  rw [getHashAliases, hclean, hg.aliasesOfClean_eq hR hstd hh₁ hh₂]

end

/-! ## 6. Spellings that resolve to a row -/

/-- Every spelling of a name of the table or of one of its SCRAM forms, with whitespace around the
whole, and every spelling `name sep rev sep size` whose standardized form is a name of the table,
has the name's row as its aliases. -/
theorem getHashAliases_spellings (U : PyUnicode) :
    (∀ R ∈ knownHashNames, ∀ e ∈ R, ∀ u ∈ scramForms e, ∀ t w₁ w₂ : Str, Spells u t →
      (∀ x ∈ w₁, U.isSpace x = true) → (∀ x ∈ w₂, U.isSpace x = true) →
        getHashAliases U (w₁ ++ t ++ w₂) = R) ∧
    (∀ R ∈ knownHashNames, ∀ (b : Str) (r : Option Char) (z s₁ s₂ : Str),
      (∀ x ∈ b, x.isAlpha = true) → (∀ d ∈ r, d.isDigit = true) →
      (z = [] ∨ (z.length = 3 ∨ z.length = 4) ∧ ∀ x ∈ z, x.isDigit = true) →
      s₁ ∈ nameSeparators → s₂ ∈ nameSeparators → standardName b r z ∈ R →
        getHashAliases U (b ++ s₁ ++ r.toList ++ s₂ ++ z) = R) :=
  ⟨fun _ hR _ he _ hu _ _ _ ht h₁ h₂ => getHashAliases_scramForm hR he hu ht h₁ h₂,
    fun _ hR _ _ _ _ _ hbl hr hz hs₁ hs₂ hstd => getHashAliases_groups hR hbl hr hz hs₁ hs₂ hstd⟩

/-- Whitespace is stripped before the SCRAM prefix and suffix are removed, and only one prefix is
removed: whitespace inside the wrapper, or a second wrapper, leaves a name outside the row of
`sha1`. -/
theorem getHashAliases_scram_whitespace :
    ["sha1".toList, "sha-1".toList] ∈ knownHashNames ∧
      getHashAliases PyUnicode.ascii "scram- sha1".toList = ["_sha1".toList, "-sha1".toList] ∧
      getHashAliases PyUnicode.ascii "scram-sha1\t-plus".toList =
        ["sha1\t".toList, "sha1\t".toList] ∧
      getHashAliases PyUnicode.ascii "scram-scram-sha1".toList =
        ["scram_sha1".toList, "scram-sha1".toList] := by
  decide

end Passlib
