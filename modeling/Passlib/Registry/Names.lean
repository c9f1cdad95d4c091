import Passlib.Registry.Lookup

/-! # Which names `_validate_handler_name` accepts

The documentation of the registry states a grammar for handler names (`HandlerNameGrammar`). The
validator checks it with `_name_re`, whose `$` also matches before a final newline, so it accepts
a name of the grammar followed by one newline, and compares that longer name, not its grammatical
part, with `_forbidden_names` (`validateHandlerName_accepts`). Every key the registry functions
store passes the validator, so it is of that form; and every name of the documented shape
followed by a newline is accepted, forbidden or not (`validateHandlerName_trailing_newline`). -/

namespace Passlib

/-! ## The documented grammar -/

/-- `a-z`, `0-9` or `_`. -/
def IsNameChar (c : Char) : Prop := (('a' ≤ c ∧ c ≤ 'z') ∨ ('0' ≤ c ∧ c ≤ '9')) ∨ c = '_'

instance : DecidablePred IsNameChar := fun _ => inferInstanceAs (Decidable ((_ ∨ _) ∨ _))

/-- The shape the documentation gives handler names: only `a-z`, `0-9` and `_`, at least three
characters, a letter first, no `_` last, and no `__`. -/
def HandlerNameShape (name : Str) : Prop :=
  (∀ c ∈ name, IsNameChar c) ∧ 3 ≤ name.length ∧ (∀ c ∈ name.head?, 'a' ≤ c ∧ c ≤ 'z') ∧
    name.getLast? ≠ some '_' ∧ ¬['_', '_'] <:+: name

instance : DecidablePred HandlerNameShape :=
  fun _ => inferInstanceAs (Decidable (_ ∧ _ ∧ _ ∧ _ ∧ _))

/-- The documented grammar: the shape, and not a name of `_forbidden_names`. -/
def HandlerNameGrammar (name : Str) : Prop := HandlerNameShape name ∧ name ∉ forbiddenNames

instance : DecidablePred HandlerNameGrammar := fun _ => inferInstanceAs (Decidable (_ ∧ _))

/-- What the validator accepts: a name of the documented shape, or one followed by the newline
`$` lets through, and in either case not itself a name of `_forbidden_names`. -/
def AcceptedHandlerName (name : Str) : Prop :=
  (HandlerNameShape name ∨ (name.getLast? = some '\n' ∧ HandlerNameShape name.dropLast)) ∧
    name ∉ forbiddenNames

instance : DecidablePred AcceptedHandlerName := fun _ => inferInstanceAs (Decidable (_ ∧ _))

/-! ## The pieces of the validator -/

theorem char_le_iff {a b : Char} : a ≤ b ↔ a.toNat ≤ b.toNat := by
  simp [Char.le_def, UInt32.le_def, BitVec.le_def, Char.toNat, UInt32.toNat]

theorem isNameChar_iff {c : Char} : IsNameChar c ↔
    ((97 ≤ c.toNat ∧ c.toNat ≤ 122) ∨ (48 ≤ c.toNat ∧ c.toNat ≤ 57)) ∨ c = '_' := by
  simp only [IsNameChar, char_le_iff]
  rfl

/-- `_name_re` without the final newline: a letter, then name characters, then a letter or
digit, three characters at least. -/
theorem nameReBody_iff {s : Str} :
    nameReBody s = true ↔ (∀ c ∈ s, IsNameChar c) ∧ 3 ≤ s.length ∧
      (∀ c ∈ s.head?, 'a' ≤ c ∧ c ≤ 'z') ∧ s.getLast? ≠ some '_' := by
  rcases s with _ | ⟨c, rest⟩
  · simp [nameReBody]
  rcases List.eq_nil_or_concat rest with rfl | ⟨init, l, rfl⟩
  · simp [nameReBody]
  have hlast : (c :: (init ++ [l])).getLast? = some l := by
    rw [← List.cons_append, List.getLast?_concat]
  have hl : ('a' ≤ l ∧ l ≤ 'z') ∨ ('0' ≤ l ∧ l ≤ '9') ↔ IsNameChar l ∧ l ≠ '_' := by
    simp only [IsNameChar, char_le_iff]
    constructor
    · rintro (h | h) <;> refine ⟨by omega, ?_⟩ <;> rintro rfl <;> simp at h
    · rintro ⟨(h | h) | rfl, hne⟩ <;> first | exact .inl h | exact .inr h | exact absurd rfl hne
  simp only [nameReBody, List.concat_eq_append, List.dropLast_concat, List.getLast?_concat,
    hlast, Option.all_some, List.length_cons, List.length_append, List.length_singleton,
    List.mem_cons, List.mem_append, List.mem_singleton, forall_eq_or_imp, or_imp, forall_and,
    forall_eq, List.head?_cons, Option.mem_def, Option.some.injEq, ne_eq, Bool.and_eq_true,
    decide_eq_true_eq, List.all_eq_true, Bool.or_eq_true, beq_iff_eq, hl, List.length_nil,
    List.not_mem_nil, false_implies, implies_true, and_true, forall_eq']
  constructor
  · rintro ⟨⟨⟨hc, h1⟩, hinit⟩, hpl, hnl⟩
    exact ⟨⟨.inl (.inl hc), hinit, hpl⟩, by omega, hc, hnl⟩
  · rintro ⟨⟨-, hinit, hpl⟩, h1, hc, hnl⟩
    exact ⟨⟨⟨hc, by omega⟩, hinit⟩, hpl, hnl⟩

theorem hasDoubleUnderscore_iff (s : Str) : hasDoubleUnderscore s = true ↔ ['_', '_'] <:+: s := by
  induction s using hasDoubleUnderscore.induct with
  | case1 t => simpa [hasDoubleUnderscore] using (List.prefix_append ['_', '_'] t).isInfix
  | case2 c rest hne ih =>
    rw [hasDoubleUnderscore, List.infix_cons_iff, ih]
    · refine ⟨.inr, fun h => h.elim (fun ⟨t, ht⟩ => ?_) id⟩
      simp only [List.cons_append, List.nil_append, List.cons.injEq] at ht
      exact (hne t ht.1.symm ht.2.symm).elim
    · exact hne
  | case3 => simp [hasDoubleUnderscore]

theorem doubleUnderscore_append_newline (l : Str) :
    ['_', '_'] <:+: l ++ ['\n'] ↔ ['_', '_'] <:+: l := by
  rw [List.infix_concat_iff, List.suffix_concat_iff]
  refine ⟨fun h => h.resolve_left fun h => ?_, .inr⟩
  rcases h with h | ⟨t, ht, -⟩
  · cases h
  · have := congrArg List.getLast? ht
    simp at this

/-- The characters `_name_re` lets through: name characters and the newline `$` allows last. -/
theorem mem_of_nameReMatch {s : Str} (h : nameReMatch s = true) :
    ∀ c ∈ s, IsNameChar c ∨ c = '\n' := by
  intro c hc
  rcases Bool.or_eq_true_iff.mp h with h | h
  · exact .inl ((nameReBody_iff.mp h).1 c hc)
  · obtain ⟨hl, hb⟩ := Bool.and_eq_true_iff.mp h
    rw [← @List.dropLast_append_getLast? _ s '\n' (by simpa using hl)] at hc
    rcases List.mem_append.mp hc with hc | hc
    · exact .inl ((nameReBody_iff.mp hb).1 c hc)
    · exact .inr (List.mem_singleton.mp hc)

/-- A name `_name_re` matches is ASCII with no capital, so the lower-case check passes it. -/
theorem lower_of_nameReMatch (U : PyUnicode) {s : Str} (h : nameReMatch s = true) :
    U.lower s = s := by
  have hascii : ∀ c ∈ s, c.toNat < 128 ∧ c.toLower = c := fun c hm => by
    have hc := mem_of_nameReMatch h c hm
    rw [isNameChar_iff] at hc
    have hn : c.toNat < 128 ∧ (c.toNat < 65 ∨ 90 < c.toNat) := by
      rcases hc with ((hc | hc) | rfl) | rfl <;> first | omega | decide
    exact ⟨hn.1, by unfold Char.toLower; rw [if_neg (by omega)]⟩
  rw [U.lower_ascii s fun c hm => (hascii c hm).1]
  conv_rhs => rw [← List.map_id s]
  exact List.map_congr_left fun c hm => (hascii c hm).2

/-- The validator passes a name exactly when `_name_re` matches it, it has no `__` and it is not
forbidden: the empty and lower-case checks reject only names the pattern rejects too. -/
theorem validateHandlerName_eq_ok_iff {U : PyUnicode} {name : Str} :
    validateHandlerName U name = .ok () ↔
      nameReMatch name = true ∧ hasDoubleUnderscore name = false ∧ name ∉ forbiddenNames := by
  refine ⟨fun h => (validateHandlerName_ok h).2.2, fun ⟨hm, hd, hf⟩ => ?_⟩
  have he : name.isEmpty = false := by
    cases name
    · cases hm
    · rfl
  unfold validateHandlerName
  rw [if_neg (by rw [he]; decide), if_neg (not_not.mpr (lower_of_nameReMatch U hm)),
    if_neg (by rw [hm]; decide), if_neg (by rw [hd]; decide), if_neg hf]

/-- A check that raises `ValueError`, before code whose every refusal is one. -/
theorem ite_valueError {c : Prop} {_ : Decidable c} {m : String} {x : Except PyError Unit}
    (hx : x ≠ .ok () → ∃ msg, x = .error (.valueError msg)) :
    (if c then .error (.valueError m) else x) ≠ .ok () →
      ∃ msg, (if c then .error (.valueError m) else x) = .error (.valueError msg) := by
  by_cases hc : c
  · exact fun _ => ⟨m, if_pos hc⟩
  · rw [if_neg hc]
    exact hx

theorem validateHandlerName_valueError {U : PyUnicode} {name : Str}
    (h : validateHandlerName U name ≠ .ok ()) :
    ∃ msg, validateHandlerName U name = .error (.valueError msg) := by
  unfold validateHandlerName at h ⊢
  exact ite_valueError (ite_valueError (ite_valueError (ite_valueError
    (ite_valueError fun h => absurd rfl h)))) h

theorem nameReMatch_iff {name : Str} :
    nameReMatch name = true ∧ hasDoubleUnderscore name = false ↔
      HandlerNameShape name ∨ (name.getLast? = some '\n' ∧ HandlerNameShape name.dropLast) := by
  have hd : ∀ s, hasDoubleUnderscore s = false ↔ ¬['_', '_'] <:+: s := fun s => by
    rw [← hasDoubleUnderscore_iff]; simp
  simp only [nameReMatch, Bool.or_eq_true, Bool.and_eq_true, beq_iff_eq, hd, HandlerNameShape,
    nameReBody_iff]
  by_cases hn : name.getLast? = some '\n'
  · -- the name ends with the newline `$` lets through; its `__` are those before the newline
    have hnot : ¬∀ c ∈ name, IsNameChar c := fun h => by
      have := h '\n' (List.mem_of_getLast?_eq_some hn)
      revert this
      decide
    have hdd : ['_', '_'] <:+: name.dropLast ↔ ['_', '_'] <:+: name := by
      rw [← doubleUnderscore_append_newline, @List.dropLast_append_getLast? _ name '\n' hn]
    simp only [hn, hnot, hdd, false_and, false_or, true_and, and_assoc]
  · simp only [hn, false_and, or_false, and_assoc]

/-! ## What the validator accepts -/

/-- `_validate_handler_name` returns exactly for a name of the documented shape, or one followed
by one newline, that is not itself forbidden; every refusal is a `ValueError`. So every key of
`_locations`, and every public key of `_handlers`, of a reachable registry is such a name. -/
theorem validateHandlerName_accepts (U : PyUnicode) :
    (∀ name, validateHandlerName U name = .ok () ↔ AcceptedHandlerName name) ∧
      (∀ name, validateHandlerName U name ≠ .ok () →
        ∃ msg, validateHandlerName U name = .error (.valueError msg)) ∧
      ∀ (info : Obj → ObjInfo) (calls : List RegistryCall),
        (∀ k path, (runCalls U info calls initialRegistry).locations k = some path →
          AcceptedHandlerName k) ∧
        ∀ k h, (runCalls U info calls initialRegistry).handlers k = some h →
          isPrivate k = false → AcceptedHandlerName k := by
  have hiff : ∀ name, validateHandlerName U name = .ok () ↔ AcceptedHandlerName name :=
    fun name => by rw [validateHandlerName_eq_ok_iff, ← and_assoc, nameReMatch_iff]; rfl
  refine ⟨hiff, fun _ => validateHandlerName_valueError, fun info calls =>
    ⟨fun k path hk => (hiff k).mp ?_, fun k h hk hp => (hiff k).mp ?_⟩⟩
  · exact registryInvariant_locWf.calls calls _ locWf_initialRegistry k path hk
  · exact (runCalls_wf calls wf_initialRegistry k h hk hp).2.2.2

/-- Every name of the documented shape followed by one newline passes the validator, forbidden or
not, although the newline is none of the characters its error message allows. -/
theorem validateHandlerName_trailing_newline (U : PyUnicode) {name : Str}
    (h : HandlerNameShape name) :
    validateHandlerName U (name ++ ['\n']) = .ok () ∧ ¬HandlerNameShape (name ++ ['\n']) := by
  have hf : ∀ f ∈ forbiddenNames, f.getLast? ≠ some '\n' := by decide
  refine ⟨?_, fun h' => absurd (h'.1 '\n' (by simp)) (by decide)⟩
  rw [validateHandlerName_eq_ok_iff, ← and_assoc, nameReMatch_iff]
  refine ⟨.inr ⟨List.getLast?_concat _, by rwa [List.dropLast_concat]⟩, fun hm => ?_⟩
  exact hf _ hm (List.getLast?_concat _)

/-- `abc` and the forbidden `onload`, each followed by a newline. -/
theorem validateHandlerName_trailing_newline_abc :
    (HandlerNameShape "abc".toList ∧
      validateHandlerName PyUnicode.ascii ("abc".toList ++ ['\n']) = .ok () ∧
        ¬HandlerNameShape ("abc".toList ++ ['\n'])) ∧
    "onload".toList ∈ forbiddenNames ∧
      (HandlerNameShape "onload".toList ∧
        validateHandlerName PyUnicode.ascii ("onload".toList ++ ['\n']) = .ok () ∧
          ¬HandlerNameShape ("onload".toList ++ ['\n'])) :=
  ⟨⟨by decide, validateHandlerName_trailing_newline PyUnicode.ascii (by decide)⟩, by decide,
    ⟨by decide, validateHandlerName_trailing_newline PyUnicode.ascii (by decide)⟩⟩

end Passlib
