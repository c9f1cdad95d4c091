import Passlib.Resolver.Lookup

/-! # Termination of `lookup_hash` on names

`lookup_hash(name)` calls itself on `_get_hash_aliases(name)[0]` until that is the name itself.
Following the hashlib name from any name reaches a fixed point (`exists_canonicalName`), with the
length of the cleaned name as the measure. A row of the table and the names built from the groups
of a match are fixed points, or one step from one; a name the pattern does not match goes to the
name with underscores for hyphens, which cleans to the same name cleaned once more: shorter, or a
fixed point. So `lookup_hash` on a name nests one call per step of the chain, whatever the flag
and the cache (`lookupHash_terminates`). -/

namespace Passlib

section
variable {U : PyUnicode}

/-- A cleaned name has no separator left to replace. -/
theorem sep_not_mem_cleanHashName {s : Str} {x : Char} (hx : x ∈ cleanHashName U s) :
    x ≠ '_' ∧ x ≠ ' ' ∧ x ≠ '/' := by
  obtain ⟨y, -, rfl⟩ := List.mem_map.mp (mem_subSeparators_of_mem_cleanHashName hx)
  split_ifs with h
  · decide
  · simpa [not_or] using h

theorem strip_sublist (s : Str) : List.Sublist (strip U s) s := by
  have h := (List.dropWhile_sublist (p := U.isSpace) (l := (s.dropWhile U.isSpace).reverse)).reverse
  rw [List.reverse_reverse] at h
  exact h.trans (List.dropWhile_sublist _)

/-- Cleaning a cleaned name again leaves it, or shortens it: the strip and the SCRAM prefix are
the only steps left that do anything. -/
theorem cleanHashName_clean (s : Str) :
    cleanHashName U (cleanHashName U s) = cleanHashName U s ∨
      (cleanHashName U (cleanHashName U s)).length < (cleanHashName U s).length := by
  have hlow : ∀ x ∈ cleanHashName U s, U.lower [x] = [x] := fun x hx =>
    lower_of_mem_cleanHashName hx
  have hsep : ∀ x ∈ cleanHashName U s, x ≠ '_' ∧ x ≠ ' ' ∧ x ≠ '/' := fun x hx =>
    sep_not_mem_cleanHashName hx
  generalize cleanHashName U s = n at hlow hsep
  have hm : subSeparators (U.lower (strip U n)) = strip U n := by
    rw [U.lower_eq_self _ fun x hx => hlow x (mem_of_mem_strip hx),
      subSeparators_eq_self fun x hx => hsep x (mem_of_mem_strip hx)]
  have hsub := strip_sublist (U := U) n
  have hle := hsub.length_le
  rw [cleanHashName]
  dsimp only
  rw [hm]
  split_ifs with hpre
  · have := (List.isPrefixOf_iff_prefix.mp hpre).sublist.length_le
    exact .inr (by simp at this ⊢; omega)
  · have := (List.isPrefixOf_iff_prefix.mp hpre).sublist.length_le
    exact .inr (by simp at this ⊢; omega)
  · by_cases heq : (strip U n).length = n.length
    · exact .inl (hsub.eq_of_length heq)
    · exact .inr (by omega)

/-! ## Names built from the groups of a match -/

theorem hyphensToUnderscores_eq_self {s : Str} (h : '-' ∉ s) : hyphensToUnderscores s = s := by
  conv_rhs => rw [← List.map_id s]
  exact List.map_congr_left fun c hc => if_neg fun (e : c = '-') => h (e ▸ hc)

/-- A name of letters and digits that `lower` fixes is its own cleaned name. -/
theorem cleanHashName_of_alnum {s : Str}
    (h : ∀ x ∈ s, (U.isLetter x = true ∨ U.isDigit x = true) ∧ U.lower [x] = [x]) :
    cleanHashName U s = s := by
  have hsp : ∀ x ∈ s, U.isSpace x = false := fun x hx =>
    (h x hx).1.elim (U.not_space_of_letter x) (U.not_space_of_digit x)
  have hne : ∀ x ∈ s, x ≠ '_' ∧ x ≠ ' ' ∧ x ≠ '/' ∧ x ≠ '-' := fun x hx =>
    (h x hx).1.elim U.ne_of_isLetter U.ne_of_isDigit
  refine cleanHashName_eq_self (fun x hx => hsp x (List.mem_of_mem_head? hx))
    (fun x hx => hsp x (List.mem_of_getLast?_eq_some hx)) (fun x hx => (h x hx).2)
    (fun x hx => ⟨(hne x hx).1, (hne x hx).2.1, (hne x hx).2.2.1⟩)
    (Bool.eq_false_iff.mpr fun hpre => ?_)
  have := (List.isPrefixOf_iff_prefix.mp hpre).subset (by decide : '-' ∈ "scram-".toList)
  exact (hne '-' this).2.2.2 rfl

namespace MatchParts
variable {b z : Str} {d : Char} (hp : MatchParts U b (some d) z)
include hp

/-- The hashlib name built from the groups with a revision digit is cleaned to the IANA name. -/
theorem cleanHashName_underscore :
    cleanHashName U (b ++ d :: '_' :: z) = b ++ d :: '-' :: z := by
  have hw : hyphensToUnderscores (b ++ d :: '-' :: z) = b ++ d :: '_' :: z := by
    have hb := hyphensToUnderscores_eq_self fun h => hp.hyphen_not_mem (List.mem_append_left _
      (List.mem_append_left _ h))
    have hz := hyphensToUnderscores_eq_self fun h => hp.hyphen_not_mem (List.mem_append_right _ h)
    have hd : d ≠ '-' := fun h => hp.hyphen_not_mem (by simp [h])
    simp only [hyphensToUnderscores, List.map_append, List.map_cons, if_neg hd, if_pos rfl,
      ite_true] at hb hz ⊢
    rw [hb, hz]
  have hlow : ∀ x ∈ b ++ d :: '-' :: z, U.lower [x] = [x] := by
    intro x hx
    rcases List.mem_append.mp hx with hx | hx
    · exact hp.lower x (by simp [hx])
    · rcases List.mem_cons.mp hx with rfl | hx
      · exact hp.lower x (by simp)
      · rcases List.mem_cons.mp hx with rfl | hx
        · exact U.lower_hyphen
        · exact hp.lower x (by simp [hx])
  rw [← hw, cleanHashName_hyphensToUnderscores hlow]
  refine cleanHashName_of_word (by simpa using hp.head (d :: '-' :: z))
    (by simpa using hp.last (b ++ [d, '-'])) (fun x hx => ?_) hp.not_scram
  rcases List.mem_append.mp hx with hx | hx
  · exact .inr (hp.word x (by simp [hx]))
  · rcases List.mem_cons.mp hx with rfl | hx
    · exact .inr (hp.word x (by simp))
    · rcases List.mem_cons.mp hx with rfl | hx
      · exact .inl rfl
      · exact .inr (hp.word x (by simp [hx]))

/-- The hashlib name built from the groups with a revision digit is a fixed point. -/
theorem hashlibName_underscore (hi : checkTable (b ++ d :: '-' :: z) = none) :
    hashlibName U (b ++ d :: '_' :: z) = b ++ d :: '_' :: z := by
  have hm : hashNameMatch U (b ++ d :: '-' :: z) = some (b, some d, some z) :=
    letters_append hp.ne hp.letters (by simpa using U.isLetter_of_isDigit (hp.rev d rfl))
      (afterName_rev (hp.rev d rfl) hp.size hp.digits)
  have hi' : checkTable (b ++ [d] ++ '-' :: z) = none := by simpa using hi
  rw [hashlibName, getHashAliases, hp.cleanHashName_underscore]
  simp [aliasesOfClean, hi, hm, hi']

end MatchParts

section
variable {b : Str}

theorem afterName_nil : afterName U b [] = some (b, none, none) := by
  simp [afterName, optHyphen, optDigit, optSize, reEnd]

theorem afterName_digit {d : Char} (hd : U.isDigit d = true) :
    afterName U b [d] = some (b, some d, none) := by
  have n := (U.ne_of_isDigit hd).2.2.2
  simp [afterName, optHyphen, optDigit, optSize, reEnd, hd, n]

theorem afterName_three {z₁ z₂ z₃ : Char} (h₁ : U.isDigit z₁ = true) (h₂ : U.isDigit z₂ = true)
    (h₃ : U.isDigit z₃ = true) :
    afterName U b [z₁, z₂, z₃] = some (b, none, some [z₁, z₂, z₃]) := by
  have n₁ := (U.ne_of_isDigit h₁).2.2.2
  have n₂ := (U.ne_of_isDigit h₂).2.2.2
  simp [afterName, optHyphen, optDigit, optSize, reEnd, h₁, h₂, h₃, n₁, n₂]

end

/-- The name built from the groups of a match without a size is a fixed point, when the table
does not hold it. -/
theorem hashlibName_base {s b : Str} {r : Option Char}
    (hm : hashNameMatch U (cleanHashName U s) = some (b, r, none))
    (hi : checkTable (b ++ r.toList) = none) : hashlibName U (b ++ r.toList) = b ++ r.toList := by
  obtain ⟨hb, hbl, hrd, -⟩ := hashNameMatch_some hm
  have hclean : cleanHashName U (b ++ r.toList) = b ++ r.toList := by
    refine cleanHashName_of_alnum fun x hx => ?_
    simp only [List.mem_append, Option.mem_toList] at hx
    rcases hx with hx | hx
    · exact ⟨.inl (hbl x hx).1, lower_of_mem_cleanHashName (hbl x hx).2⟩
    · exact ⟨.inr (hrd x hx).1, lower_of_mem_cleanHashName (hrd x hx).2⟩
  have hmatch : hashNameMatch U (b ++ r.toList) = some (b, r, none) := by
    rcases r with _ | d
    · exact letters_append hb (fun x hx => (hbl x hx).1) (by simp) afterName_nil
    · exact letters_append hb (fun x hx => (hbl x hx).1)
        (by simpa using U.isLetter_of_isDigit (hrd d rfl).1) (afterName_digit (hrd d rfl).1)
  simp [hashlibName, getHashAliases, hclean, aliasesOfClean, hi, hmatch]

/-! ## Every name has a canonical name -/

theorem canonical_of_hashlibName {s : Str} (h : ∃ c, CanonicalName U (hashlibName U s) c) :
    ∃ c, CanonicalName U s c := by
  obtain ⟨c, hc⟩ := h
  by_cases hs : hashlibName U s = s
  · exact ⟨s, .fixed hs⟩
  · exact ⟨c, .step hs hc⟩

/-- The first name of a row of the table is a fixed point. -/
theorem canonical_of_row {x : Str} {row : List Str} (h : checkTable x = some row) :
    ∃ c, CanonicalName U (row.headD []) c := by
  rcases row with _ | ⟨y, t⟩
  · exact absurd (two_le_length_of_checkTable h) (by simp)
  · exact ⟨y, .fixed (hashlibName_of_mem_row h (List.mem_cons_self y t))⟩

theorem canonical_getD {x : Str} {d : List Str}
    (hd : checkTable x = none → ∃ c, CanonicalName U (d.headD []) c) :
    ∃ c, CanonicalName U (((checkTable x).getD d).headD []) c := by
  cases h : checkTable x with
  | some row => exact canonical_of_row h
  | none => exact hd h

/-- The names built from a match with a size and no revision digit reach a fixed point: `b ++ z`
itself, or, for four digits, the name with the first digit read as the revision digit. -/
theorem canonical_of_size {b z : Str} (hp : MatchParts U b none z)
    (hi : checkTable (b ++ '-' :: z) = none) : ∃ c, CanonicalName U (b ++ z) c := by
  have hclean : cleanHashName U (b ++ z) = b ++ z :=
    cleanHashName_of_alnum fun x hx => hp.word x (by simpa using hx)
  refine canonical_of_hashlibName ?_
  rw [hashlibName, getHashAliases, hclean, aliasesOfClean]
  cases ht : checkTable (b ++ z) with
  | some row => exact canonical_of_row ht
  | none =>
    have hd := hp.digits
    rcases hp.size with h3 | h4
    · obtain ⟨z₁, z₂, z₃, rfl⟩ := List.length_eq_three.mp h3
      simp only [List.mem_cons, List.mem_singleton, List.not_mem_nil, or_false, forall_eq_or_imp,
        forall_eq] at hd
      have hm : hashNameMatch U (b ++ [z₁, z₂, z₃]) = some (b, none, some [z₁, z₂, z₃]) :=
        letters_append hp.ne hp.letters (by simpa using U.isLetter_of_isDigit hd.1)
          (afterName_three hd.1 hd.2.1 hd.2.2)
      have hfix : hashlibName U (b ++ [z₁, z₂, z₃]) = b ++ [z₁, z₂, z₃] := by
        simp [hashlibName, getHashAliases, hclean, aliasesOfClean, ht, hm, hi]
      simp only [hm]
      simpa [hi] using (⟨_, .fixed hfix⟩ : ∃ c, CanonicalName U (b ++ [z₁, z₂, z₃]) c)
    · obtain ⟨z₁, z₂, z₃, z₄, rfl⟩ := exists_of_length_four h4
      simp only [List.mem_cons, List.mem_singleton, List.not_mem_nil, or_false, forall_eq_or_imp,
        forall_eq] at hd
      have hm : hashNameMatch U (b ++ [z₁, z₂, z₃, z₄]) = some (b, some z₁, some [z₂, z₃, z₄]) :=
        letters_append hp.ne hp.letters (by simpa using U.isLetter_of_isDigit hd.1)
          (afterName_four hd.1 hd.2.1 hd.2.2.1 hd.2.2.2)
      have hp' : MatchParts U b (some z₁) [z₂, z₃, z₄] :=
        ⟨hp.ne, hp.letters, by simpa using hd.1, .inl rfl, by simpa using hd.2,
          fun x hx => hp.lower x (by simpa using hx)⟩
      simp only [hm]
      refine canonical_getD fun hi' => ⟨_, .fixed ?_⟩
      simpa using hp'.hashlibName_underscore (by simpa using hi')

/-- Following the hashlib name from any name reaches a fixed point. Every step but one lands on a
row of the table or on a name built from groups of the match, which are fixed points or one step
from one; the remaining step, on a name the pattern does not match, gives a name whose cleaned
form is shorter, or a fixed point. -/
theorem exists_canonicalName (s : Str) : ∃ c, CanonicalName U s c := by
  generalize hn : (cleanHashName U s).length = n
  induction n using Nat.strong_induction_on generalizing s with
  | _ n ih =>
  refine canonical_of_hashlibName ?_
  rw [hashlibName, getHashAliases, aliasesOfClean]
  cases ht : checkTable (cleanHashName U s) with
  | some row => exact canonical_of_row ht
  | none =>
    cases hr : hashNameMatch U (cleanHashName U s) with
    | none =>
      simp only [hr, List.headD_cons]
      have hcl : cleanHashName U (hyphensToUnderscores (cleanHashName U s)) =
          cleanHashName U (cleanHashName U s) :=
        cleanHashName_hyphensToUnderscores fun x hx => lower_of_mem_cleanHashName hx
      rcases cleanHashName_clean (U := U) s with heq | hlt
      · refine ⟨_, .fixed ?_⟩
        rw [hashlibName, getHashAliases, hcl, heq, aliasesOfClean, ht]
        simp [hr]
      · exact ih _ (hn ▸ hcl ▸ hlt) _ rfl
    | some g =>
      obtain ⟨b, r, _ | z⟩ := g
      · simp only [hr]
        exact canonical_getD fun hi => ⟨_, .fixed (hashlibName_base hr hi)⟩
      · have hp := MatchParts.of_clean hr
        simp only [hr]
        refine canonical_getD fun hi => ?_
        rcases r with _ | d
        · simpa using canonical_of_size hp (by simpa using hi)
        · exact ⟨_, .fixed (by simpa using hp.hashlibName_underscore (by simpa using hi))⟩

/-- Four digits after the letters are read first as a size, then as a revision digit and a
size. -/
example : hashlibName PyUnicode.ascii "foo--1234".toList = "foo1234".toList ∧
    hashlibName PyUnicode.ascii "foo1234".toList = "foo1_234".toList ∧
    hashlibName PyUnicode.ascii "foo1_234".toList = "foo1_234".toList := by decide

/-- The chain of hashlib names from a name reaches its canonical name. -/
theorem CanonicalName.iterate {s c : Str} (h : CanonicalName U s c) :
    ∃ k, (hashlibName U)^[k] s = c := by
  induction h with
  | fixed _ => exact ⟨0, rfl⟩
  | step _ _ ih =>
    obtain ⟨k, hk⟩ := ih
    exact ⟨k + 1, hk⟩

end

/-! ## The recursion of `lookup_hash` -/

section
variable (E : HashEnv) (U : PyUnicode)

/-- `lookup_hash(name, return_unknown)` with `n` frames left, where `bottom` is what a call with
no frame left does. With the recursion error for `bottom` it is `lookupHash`
(`lookupHash_eq_frames`); a call whose result does not depend on `bottom` never reaches the
frame limit. -/
def lookupNameFrames (returnUnknown : Bool)
    (bottom : Str → Resolver → Resolver × Except PyError Nat) :
    Nat → Str → Resolver → Resolver × Except PyError Nat
  | 0 => bottom
  | n + 1 => fun name => lookupStep E U (lookupNameFrames returnUnknown bottom n) (.str name)
      returnUnknown

end

section
variable {E : HashEnv} {U : PyUnicode}

theorem lookupHash_eq_frames (returnUnknown : Bool) (fuel : Nat) (name : Str) (s : Resolver) :
    lookupHash E U fuel (.str name) returnUnknown s =
      lookupNameFrames E U returnUnknown
        (fun _ s => (s, .error (.recursionError "maximum recursion depth exceeded"))) fuel name
        s := by
  induction fuel generalizing name s with
  | zero => rfl
  | succ fuel ih =>
    simp only [lookupHash, lookupNameFrames]
    congr 1
    funext n s
    exact ih n s

/-- Frames added below a call are a different `bottom`. -/
theorem lookupNameFrames_add (returnUnknown : Bool)
    (bottom : Str → Resolver → Resolver × Except PyError Nat) (k n : Nat) :
    lookupNameFrames E U returnUnknown bottom (k + n) =
      lookupNameFrames E U returnUnknown (lookupNameFrames E U returnUnknown bottom k) n := by
  induction n with
  | zero => rfl
  | succ n ih =>
    exact funext fun name => congrArg (fun r => lookupStep E U r (.str name) returnUnknown) ih

/-- A frame of `lookup_hash` on a name calls `recurse` only on the hashlib name, and only when that
differs from the name. -/
theorem lookupStep_str_congr {recurse recurse' : Str → Resolver → Resolver × Except PyError Nat}
    {name : Str}
    (h : hashlibName U name ≠ name → recurse (hashlibName U name) = recurse' (hashlibName U name))
    (returnUnknown : Bool) (s : Resolver) :
    lookupStep E U recurse (.str name) returnUnknown s =
      lookupStep E U recurse' (.str name) returnUnknown s := by
  simp only [lookupStep, lookupName]
  split
  · rfl
  · have hn : (getHashAliases U name).headD [] = hashlibName U name := rfl
    simp only [hn]
    split_ifs with h1 h2
    · rfl
    · have : hashlibName U name ≠ name := by simpa using h2
      rw [h this]
    · rfl

/-- A name whose chain of hashlib names reaches its canonical name in `k` steps is resolved by
`k + 1` frames whatever a call without frames does. -/
theorem lookupNameFrames_canonical {name c : Str} (h : CanonicalName U name c) :
    ∃ n, ∀ returnUnknown bottom bottom', lookupNameFrames E U returnUnknown bottom n name =
      lookupNameFrames E U returnUnknown bottom' n name := by
  induction h with
  | fixed hc =>
    exact ⟨1, fun ru _ _ => funext fun s => lookupStep_str_congr (fun h => absurd hc h) ru s⟩
  | step _ _ ih =>
    obtain ⟨n, hn⟩ := ih
    exact ⟨n + 1, fun ru b b' => funext fun s =>
      lookupStep_str_congr (fun _ => hn ru b b') ru s⟩

end

/-- Following `_get_hash_aliases(name)[0]` from any name reaches a fixed point. Hence, whatever
the flag and the cache, `lookup_hash` on a name nests a bounded number of calls: with `n` frames
its result does not depend on what a call with no frame left would do, and more frames change
nothing. -/
theorem lookupHash_terminates (E : HashEnv) (U : PyUnicode) (name : Str) :
    (∃ k, (hashlibName U)^[k + 1] name = (hashlibName U)^[k] name) ∧
      ∃ n, ∀ (returnUnknown : Bool) (s : Resolver)
        (bottom : Str → Resolver → Resolver × Except PyError Nat),
        lookupNameFrames E U returnUnknown bottom n name s =
            lookupHash E U n (.str name) returnUnknown s ∧
          ∀ fuel, n ≤ fuel →
            lookupHash E U fuel (.str name) returnUnknown s =
              lookupHash E U n (.str name) returnUnknown s := by
  obtain ⟨c, hc⟩ := exists_canonicalName (U := U) name
  obtain ⟨k, hk⟩ := hc.iterate
  obtain ⟨n, hn⟩ := lookupNameFrames_canonical (E := E) hc
  refine ⟨⟨k, by rw [Function.iterate_succ_apply', hk, hc.eq_of_fixed]⟩, n,
    fun ru s bottom => ⟨?_, fun fuel hf => ?_⟩⟩
  · rw [lookupHash_eq_frames, hn ru bottom]
  · obtain ⟨j, rfl⟩ := Nat.exists_eq_add_of_le' hf
    rw [lookupHash_eq_frames, lookupHash_eq_frames, lookupNameFrames_add]
    exact congrFun (hn ru _ _) s

end Passlib
