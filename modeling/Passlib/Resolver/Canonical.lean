import Passlib.Resolver.Cache

/-! # One record per canonical name

`lookup_hash` promises that "multiple calls resolving to the same hash should always return the
same `HashInfo` instance". On `str` names it keeps the promise through an invariant of the cache
(`Resolver.NameInv`): a name key holds a record with a constructor named by the key's canonical
name, and a record with a constructor is cached under its own name, which is canonical. When a
lookup makes the record of a canonical name, every alias of that name is therefore absent from the
cache, so the assertion that guards the cache holds; and two lookups whose names share a canonical
name return one record (`lookupHash_canonical_unique`). The exception is a platform with a
constructor named `scram` and three digits, whose IANA alias resolves elsewhere
(`lookupHash_scram_split`). A constructor passed in by the caller is cached under the name it
reports, and a second constructor reporting the same name trips the assertion
(`lookupHash_const_clash`). -/

namespace Passlib

/-! ## 1. The invariant -/

/-- What lookups of names keep: every name key holds a record with a constructor whose name is the
key's canonical name, and every record with a constructor is cached under its name, which is
canonical. -/
structure Resolver.NameInv (U : PyUnicode) (s : Resolver) : Prop where
  named : ∀ n v, s.cache (.str n) = some v →
    ∃ info, s.infos[v]? = some info ∧ info.const.isSome ∧ CanonicalName U n info.name
  cached : ∀ v info, s.infos[v]? = some info → info.const.isSome →
    s.cache (.str info.name) = some v ∧ hashlibName U info.name = info.name

/-- A lookup of `n` that returns, returns a record, which, if it has a constructor, is named by
`n`'s canonical name. -/
def NamedResult (U : PyUnicode) (n : Str) (p : Resolver × Except PyError Nat) : Prop :=
  ∀ j, p.2 = .ok j → ∃ info, p.1.infos[j]? = some info ∧
    (info.const.isSome → CanonicalName U n info.name)

theorem namedResult_error {U : PyUnicode} {n : Str} {s : Resolver} {e : PyError} :
    NamedResult U n (s, .error e) :=
  fun _ h => nomatch h

theorem getElem?_concat_eq_some {l : List HashInfo} {a b : HashInfo} {j : Nat}
    (h : (l ++ [a])[j]? = some b) : l[j]? = some b ∨ (j = l.length ∧ b = a) := by
  rcases Nat.lt_or_ge j l.length with hj | hj
  · exact .inl (by rwa [List.getElem?_append_left hj] at h)
  · rw [List.getElem?_append_right hj] at h
    rcases hk : j - l.length with _ | k
    · rw [hk] at h
      exact .inr ⟨by omega, (Option.some.inj h).symm⟩
    · rw [hk] at h
      simp at h

theorem mem_getHashAliases_of_fixed {U : PyUnicode} {x : Str} (hx : hashlibName U x = x)
    (hx0 : x ≠ []) : x ∈ getHashAliases U x := by
  unfold hashlibName at hx
  cases h : getHashAliases U x with
  | nil => rw [h] at hx; exact absurd hx.symm hx0
  | cons a t =>
    rw [h, List.headD_cons] at hx
    rw [hx]
    exact List.mem_cons_self _ _

section
variable {E : HashEnv} {U : PyUnicode} {s : Resolver}

/-- A name `hashlib` has neither as an attribute nor through `new`, other than `md4`, has no
constructor. -/
theorem getHashConst_none {name : Str} (ha : E.hasAttr name = false) (hn : E.newOk name = false)
    (hm : name ≠ "md4".toList) (s : Resolver) : getHashConst E name s = (s, none) := by
  simpa [getHashConst, ha, hn] using hm

theorem ne_md4_of_scram {x : Str} (h : IsScramDigits U x) : x ≠ "md4".toList := by
  obtain ⟨z, rfl, -⟩ := h
  intro h
  have := congrArg List.head? h
  simp at this

theorem nameInv_empty : Resolver.empty.NameInv U :=
  ⟨fun _ _ h => (nomatch h), fun _ _ h => by simp [Resolver.empty] at h⟩

/-- The invariant reads only the name keys and the records. -/
theorem Resolver.NameInv.congr (hs : s.NameInv U) {s' : Resolver}
    (hc : ∀ n, s'.cache (.str n) = s.cache (.str n)) (hi : s'.infos = s.infos) : s'.NameInv U where
  named n v hv := by rw [hi]; exact hs.named n v (by rwa [hc] at hv)
  cached v info hv hcv := by rw [hc]; exact hs.cached v info (by rwa [hi] at hv) hcv

/-- Setting a name key that is free, or already holds the record, to a record with a constructor
named by the key's canonical name keeps the invariant. -/
theorem Resolver.NameInv.setStr (hs : s.NameInv U) {n : Str} {v : Nat}
    (hfree : s.cache (.str n) = none ∨ s.cache (.str n) = some v) {info : HashInfo}
    (hv : s.infos[v]? = some info) (hc : info.const.isSome) (hn : CanonicalName U n info.name) :
    (s.set (.str n) v).NameInv U where
  named m w hm := by
    simp only [Resolver.set] at hm
    split at hm
    · rename_i h
      cases h; cases hm
      exact ⟨info, hv, hc, hn⟩
    · exact hs.named m w hm
  cached w inf hw hcw := by
    obtain ⟨h1, h2⟩ := hs.cached w inf hw hcw
    refine ⟨?_, h2⟩
    simp only [Resolver.set]
    split
    · rename_i h
      cases h
      rcases hfree with h | h <;> rw [h] at h1
      · cases h1
      · exact h1.symm ▸ rfl
    · exact h1

theorem Resolver.NameInv.setConst (hs : s.NameInv U) (c : Const) (i : Nat) :
    (s.set (.const c) i).NameInv U :=
  hs.congr (fun n => by simp [Resolver.set]) rfl

theorem Resolver.NameInv.getHashConst (hs : s.NameInv U) (name : Str) :
    (getHashConst E name s).1.NameInv U :=
  hs.congr (fun n => by rw [getHashConst_cache]) (getHashConst_infos name s)

/-- A record without a constructor, the dummy of a tolerant lookup, keeps the invariant. -/
theorem Resolver.NameInv.allocDummy (hs : s.NameInv U) {info : HashInfo} (h : info.const = none) :
    (s.alloc info).1.NameInv U where
  named n v hv := by
    obtain ⟨inf, h1, h2, h3⟩ := hs.named n v hv
    exact ⟨inf, getElem?_of_extension (List.prefix_append _ _) h1, h2, h3⟩
  cached v inf hv hc := by
    rcases getElem?_concat_eq_some hv with hv | ⟨-, rfl⟩
    · exact hs.cached v inf hv hc
    · simp [h] at hc

theorem Resolver.NameInv.eq_of_name (hs : s.NameInv U) {a b : Nat} {ia ib : HashInfo}
    (ha : s.infos[a]? = some ia) (hb : s.infos[b]? = some ib) (hca : ia.const.isSome)
    (hcb : ib.const.isSome) (hn : ia.name = ib.name) : a = b := by
  have h := (hs.cached a ia ha hca).1
  rw [hn, (hs.cached b ib hb hcb).1] at h
  exact (Option.some.inj h).symm

/-- When the lookup of a canonical name misses it in the cache, it misses every alias of it: a
cached alias would hold a record named by the canonical name, which is cached under it. -/
theorem Resolver.NameInv.fresh (hs : s.NameInv U) {x : Str} (hx : hashlibName U x = x)
    (hsc : ¬IsScramDigits U x) (hmiss : s.cache (.str x) = none) {n : Str}
    (hn : n ∈ getHashAliases U x) : s.cache (.str n) = none := by
  cases h : s.cache (.str n) with
  | none => rfl
  | some v =>
    obtain ⟨info, hv, hc, hcan⟩ := hs.named n v h
    have hname : info.name = x :=
      hcan.unique (.of_hashlibName (hashlibName_of_alias hx hsc hn) hx)
    have := (hs.cached v info hv hc).1
    rw [hname, hmiss] at this
    cases this

/-- A new record with a constructor and a canonical name, cached under names that were free and
have its name as their canonical name, keeps the invariant. -/
theorem Resolver.NameInv.addRecord (hs : s.NameInv U) {info : HashInfo} (hc : info.const.isSome)
    (hx : hashlibName U info.name = info.name) (hx0 : info.name ≠ []) {ns : List Str}
    (hmem : info.name ∈ ns) (hcan : ∀ n ∈ ns, CanonicalName U n info.name)
    (hfree : ∀ n ∈ ns, s.cache (.str n) = none) {s' : Resolver}
    (hinfos : s'.infos = s.infos ++ [info])
    (hcache : ∀ n, s'.cache (.str n) =
      if n ∈ ns ∧ n ≠ [] then some s.infos.length else s.cache (.str n)) :
    s'.NameInv U where
  named n v hv := by
    rw [hcache] at hv
    split_ifs at hv with hn
    · cases hv
      exact ⟨info, by simp [hinfos], hc, hcan n hn.1⟩
    · obtain ⟨inf, h1, h2, h3⟩ := hs.named n v hv
      exact ⟨inf, by rw [hinfos]; exact getElem?_of_extension (List.prefix_append _ _) h1, h2, h3⟩
  cached v inf hv hcv := by
    rw [hinfos] at hv
    rcases getElem?_concat_eq_some hv with hv | ⟨rfl, rfl⟩
    · obtain ⟨h1, h2⟩ := hs.cached v inf hv hcv
      rw [hcache, if_neg fun hn => by rw [hfree _ hn.1] at h1; cases h1]
      exact ⟨h1, h2⟩
    · rw [hcache, if_pos ⟨hmem, hx0⟩]
      exact ⟨rfl, hx⟩

end

/-! ## 2. The name loop -/

/-- When every name is free or already holds the new record, the loop that ends `lookup_hash`
passes its assertion, caches the record under every non-empty name, and returns it. -/
theorem cacheNames_fresh {i : Nat} {info : HashInfo} : ∀ {ns : List Str} {s : Resolver},
    s.infos[i]? = some info → (∀ n ∈ ns, s.cache (.str n) = none ∨ s.cache (.str n) = some i) →
    (cacheNames U i info ns s).2 = .ok i ∧ (cacheNames U i info ns s).1.infos = s.infos ∧
      (∀ c, (cacheNames U i info ns s).1.cache (.const c) = s.cache (.const c)) ∧
      ∀ n, (cacheNames U i info ns s).1.cache (.str n) =
        if n ∈ ns ∧ n ≠ [] then some i else s.cache (.str n)
  | [], s, _, _ => ⟨rfl, rfl, fun _ => rfl, fun n => by simp [cacheNames]⟩
  | m :: ns, s, hi, hfree => by
    rw [cacheNames]
    by_cases h0 : m.isEmpty
    · rw [if_pos h0]
      obtain ⟨h1, h2, h3, h4⟩ := cacheNames_fresh hi fun n hn => hfree n (List.mem_cons_of_mem _ hn)
      obtain rfl := List.isEmpty_iff.mp h0
      refine ⟨h1, h2, h3, fun n => ?_⟩
      by_cases hn : n = [] <;> simp [h4, hn]
    · have hm : (s.cache (.str m)).all
          (fun j => s.infos[j]?.map HashInfo.asTuple = some info.asTuple) = true := by
        rcases hfree m (List.mem_cons_self _ _) with h | h <;> simp [h, hi]
      rw [if_neg h0, if_pos hm]
      obtain ⟨h1, h2, h3, h4⟩ := cacheNames_fresh (s := s.set (.str m) i) hi fun n hn => by
        simp only [Resolver.set]
        split_ifs
        · exact .inr rfl
        · exact hfree n (List.mem_cons_of_mem _ hn)
      refine ⟨h1, h2, fun c => by rw [h3]; simp [Resolver.set], fun n => ?_⟩
      have hm0 : m ≠ [] := fun h => h0 (List.isEmpty_iff.mpr h)
      rw [h4]
      by_cases hnm : n = m
      · subst hnm
        simp [Resolver.set, hm0]
      · simp [Resolver.set, hnm]

/-! ## 3. Lookups of names -/

section
variable {E : HashEnv} {U : PyUnicode} {s : Resolver}

/-- Making the record of a canonical name, missed in the cache, keeps the invariant; the record
returned is named by that name. -/
theorem populate_named (hs : s.NameInv U) {x : Str} (hx : hashlibName U x = x)
    (hx0 : x ≠ []) (hsc : ¬IsScramDigits U x) (hmiss : s.cache (.str x) = none) (c : Const) :
    (populate E U c (getHashAliases U x) true s).1.NameInv U ∧
      NamedResult U x (populate E U c (getHashAliases U x) true s) ∧
      s.infos <+: (populate E U c (getHashAliases U x) true s).1.infos := by
  unfold populate
  split
  · exact ⟨hs, namedResult_error, List.prefix_refl _⟩
  · rename_i info hinfo
    have hname : info.name = x := (mkHashInfo_name hinfo).trans hx
    have hc : info.const.isSome := by rw [mkHashInfo_const hinfo]; rfl
    subst hname
    have hi : ((s.alloc info).1.set (.const c) (s.alloc info).2).infos[(s.alloc info).2]? =
        some info := by simp [Resolver.alloc]
    obtain ⟨h1, h2, -, h4⟩ := @cacheNames_fresh _ _ info (getHashAliases U info.name) _ hi
      fun n hn => .inl (by simpa [Resolver.set, Resolver.alloc] using hs.fresh hx hsc hmiss hn)
    dsimp only
    rw [if_pos rfl]
    refine ⟨hs.addRecord hc hx hx0 (mem_getHashAliases_of_fixed hx hx0)
      (fun n hn => .of_hashlibName (hashlibName_of_alias hx hsc hn) hx)
      (fun n hn => hs.fresh hx hsc hmiss hn) (by rw [h2]; rfl)
      (fun n => by rw [h4]; simp [Resolver.set, Resolver.alloc]),
      fun j hj => ⟨info, ?_, fun _ => .fixed hx⟩, by rw [h2]; exact List.prefix_append _ _⟩
    rw [h1] at hj
    cases hj
    rw [h2]
    exact hi

/-- Caching, under a name, the record the lookup of its hashlib name returned keeps the invariant:
the name is free, or already holds that record. -/
theorem cacheAlias_named {x : Str} (hx : hashlibName U x ≠ x) (returnUnknown : Bool)
    {p : Resolver × Except PyError Nat} (hp : p.1.NameInv U)
    (hres : NamedResult U (hashlibName U x) p) :
    (cacheAlias (.str x) returnUnknown p).1.NameInv U ∧
      NamedResult U x (cacheAlias (.str x) returnUnknown p) ∧
      p.1.infos = (cacheAlias (.str x) returnUnknown p).1.infos := by
  obtain ⟨s, _ | i⟩ := p
  · exact ⟨hp, namedResult_error, rfl⟩
  obtain ⟨inf, hinf, hcan⟩ := hres i rfl
  simp only [cacheAlias]
  split_ifs with hn
  · exact ⟨hp, fun j hj => by cases hj; exact ⟨inf, hinf, fun h => .step hx (hcan h)⟩, rfl⟩
  · exact ⟨hp, namedResult_error, rfl⟩
  · have hc : inf.const.isSome :=
      Option.ne_none_iff_isSome.mp (by simpa [Resolver.constOf, hinf] using hn)
    have hcx : CanonicalName U x inf.name := .step hx (hcan hc)
    have hfree : s.cache (.str x) = none ∨ s.cache (.str x) = some i := by
      cases h : s.cache (.str x) with
      | none => exact .inl rfl
      | some v =>
        obtain ⟨inf', hv, hc', hcan'⟩ := hp.named x v h
        exact .inr (congrArg some (hp.eq_of_name hv hinf hc' hc (hcan'.unique hcx)))
    exact ⟨hp.setStr hfree hinf hc hcx,
      fun j hj => by cases hj; exact ⟨inf, hinf, fun _ => hcx⟩, rfl⟩

/-- The hypothesis on the recursive call of a lookup of names. -/
def NamedLookup (U : PyUnicode) (recurse : Str → Resolver → Resolver × Except PyError Nat) :
    Prop :=
  ∀ n s, s.NameInv U → (recurse n s).1.NameInv U ∧ NamedResult U n (recurse n s) ∧
    s.infos <+: (recurse n s).1.infos

end

section
variable {E : HashEnv} {U : PyUnicode} {s : Resolver}
  (hE : ∀ x, IsScramDigits U x → E.hasAttr x = false ∧ E.newOk x = false)
include hE

/-- The lookup of a canonical name missed in the cache keeps the invariant and returns a record
named by that name, or the dummy. -/
theorem lookupConstByName_named (hs : s.NameInv U) {x : Str} (hx : hashlibName U x = x)
    (hx0 : x ≠ [])
    (hmiss : s.cache (.str x) = none) (returnUnknown : Bool) :
    (lookupConstByName E U (getHashAliases U x) returnUnknown s).1.NameInv U ∧
      NamedResult U x (lookupConstByName E U (getHashAliases U x) returnUnknown s) ∧
      s.infos <+: (lookupConstByName E U (getHashAliases U x) returnUnknown s).1.infos := by
  have hg := hs.getHashConst (E := E) x
  have hgi : (getHashConst E x s).1.infos = s.infos := getHashConst_infos x s
  have hx' : (getHashAliases U x).headD [] = x := hx
  unfold lookupConstByName
  dsimp only
  rw [hx']
  split
  · cases returnUnknown with
    | false => exact ⟨hg, namedResult_error, by simp [hgi]⟩
    | true =>
      rw [if_pos rfl]
      split
      · exact ⟨hg, namedResult_error, by simp [hgi]⟩
      · rename_i info hinfo
        refine ⟨hg.allocDummy (mkHashInfo_none hinfo), fun j hj => ?_,
          by rw [Resolver.alloc_infos, hgi]; exact List.prefix_append _ _⟩
        cases hj
        exact ⟨info, by simp [Resolver.alloc], fun h => by simp [mkHashInfo_none hinfo] at h⟩
  · rename_i c hc
    have hsc : ¬IsScramDigits U x := fun h => by
      rw [getHashConst_none (hE x h).1 (hE x h).2 (ne_md4_of_scram h)] at hc
      cases hc
    obtain ⟨h1, h2, h3⟩ := populate_named hg hx hx0 hsc (by rwa [getHashConst_cache]) c
    exact ⟨h1, h2, hgi ▸ h3⟩

theorem lookupName_named {recurse : Str → Resolver → Resolver × Except PyError Nat}
    (hrec : NamedLookup U recurse)
    (x : Str) (returnUnknown : Bool) (hs : s.NameInv U) (hmiss : s.cache (.str x) = none) :
    (lookupName E U recurse (.str x) true x returnUnknown s).1.NameInv U ∧
      NamedResult U x (lookupName E U recurse (.str x) true x returnUnknown s) ∧
      s.infos <+: (lookupName E U recurse (.str x) true x returnUnknown s).1.infos := by
  unfold lookupName
  dsimp only
  split_ifs with h0 h1
  · exact ⟨hs, namedResult_error, List.prefix_refl _⟩
  · have hx : hashlibName U x ≠ x := by simpa [hashlibName] using h1
    obtain ⟨r1, r2, r3⟩ := hrec (hashlibName U x) s hs
    obtain ⟨c1, c2, c3⟩ := cacheAlias_named hx returnUnknown r1 r2
    exact ⟨c1, c2, c3 ▸ r3⟩
  · have hx : hashlibName U x = x := by simpa [hashlibName] using h1
    exact lookupConstByName_named hE hs hx
      (fun h => h0 (by rw [hashlibName] at hx; rw [hx, h]; rfl)) hmiss returnUnknown

theorem lookupStep_named {recurse : Str → Resolver → Resolver × Except PyError Nat}
    (hrec : NamedLookup U recurse)
    (x : Str) (returnUnknown : Bool) (hs : s.NameInv U) :
    (lookupStep E U recurse (.str x) returnUnknown s).1.NameInv U ∧
      NamedResult U x (lookupStep E U recurse (.str x) returnUnknown s) ∧
      s.infos <+: (lookupStep E U recurse (.str x) returnUnknown s).1.infos := by
  simp only [lookupStep, HashArg.cacheKey, Option.some_bind]
  split
  · rename_i i hi
    obtain ⟨inf, h1, -, h3⟩ := hs.named x i hi
    exact ⟨hs, fun j hj => by cases hj; exact ⟨inf, h1, fun _ => h3⟩, List.prefix_refl _⟩
  · exact lookupName_named hE hrec x returnUnknown hs ‹_›

theorem lookupHash_named (fuel : Nat) (returnUnknown : Bool) :
    NamedLookup U fun x => lookupHash E U fuel (.str x) returnUnknown := by
  induction fuel with
  | zero => exact fun _ _ hs => ⟨hs, namedResult_error, List.prefix_refl _⟩
  | succ fuel ih => exact fun x _ hs => lookupStep_named hE ih x returnUnknown hs

/-- Every call of a run of lookups of names that returns a record with a constructor returns one
named by the canonical name of the call's name; the records stay in the final state. -/
theorem nameRun_named (fuel : Nat) :
    ∀ (calls : List (Str × Bool)) {s : Resolver}, s.NameInv U →
      (nameRun E U fuel calls s).1.NameInv U ∧ s.infos <+: (nameRun E U fuel calls s).1.infos ∧
      ∀ (k : Nat) (n : Str) (returnUnknown : Bool) (j : Nat),
        calls[k]? = some (n, returnUnknown) → (nameRun E U fuel calls s).2[k]? = some (.ok j) →
        ∃ info : HashInfo, (nameRun E U fuel calls s).1.infos[j]? = some info ∧
          (info.const.isSome → CanonicalName U n info.name)
  | [], s, hs => ⟨hs, List.prefix_refl _, fun k n r j h => by simp at h⟩
  | (n, returnUnknown) :: calls, s, hs => by
    obtain ⟨h1, hres, hpre⟩ := lookupHash_named hE fuel returnUnknown n s hs
    obtain ⟨q1, q2, q3⟩ := nameRun_named fuel calls h1
    refine ⟨q1, hpre.trans q2, fun k m r j hk hj => ?_⟩
    cases k with
    | zero =>
      simp only [List.getElem?_cons_zero, Option.some.injEq, Prod.mk.injEq] at hk
      obtain ⟨rfl, -⟩ := hk
      obtain ⟨info, hi, hc⟩ := hres j (by simpa [nameRun] using hj)
      exact ⟨info, getElem?_of_extension q2 hi, hc⟩
    | succ k => exact q3 k m r j (by simpa using hk) (by simpa [nameRun] using hj)

end

/-! ## 4. One record per canonical name -/

/-- In a run of `lookup_hash` calls on `str` names from the imported module, on a platform with no
constructor named `scram` and three digits: two calls whose names have one canonical name and that
return records with a constructor return the same record; and at most one record with a
constructor is ever made per canonical name. -/
theorem lookupHash_canonical_unique (E : HashEnv) (U : PyUnicode) (fuel : Nat)
    (calls : List (Str × Bool))
    (hE : ∀ x, IsScramDigits U x → E.hasAttr x = false ∧ E.newOk x = false) :
    (∀ (k₁ k₂ : Nat) (n₁ n₂ : Str) (ru₁ ru₂ : Bool) (a b : Nat) (c : Str),
      calls[k₁]? = some (n₁, ru₁) → calls[k₂]? = some (n₂, ru₂) →
      (nameRun E U fuel calls Resolver.empty).2[k₁]? = some (.ok a) →
      (nameRun E U fuel calls Resolver.empty).2[k₂]? = some (.ok b) →
      ((nameRun E U fuel calls Resolver.empty).1.constOf a).isSome →
      ((nameRun E U fuel calls Resolver.empty).1.constOf b).isSome →
      CanonicalName U n₁ c → CanonicalName U n₂ c → a = b) ∧
    ∀ (a b : Nat) (ia ib : HashInfo) (c : Str),
      (nameRun E U fuel calls Resolver.empty).1.infos[a]? = some ia →
      (nameRun E U fuel calls Resolver.empty).1.infos[b]? = some ib →
      ia.const.isSome → ib.const.isSome →
      CanonicalName U ia.name c → CanonicalName U ib.name c → a = b := by
  obtain ⟨hinv, -, hres⟩ := nameRun_named hE fuel calls nameInv_empty
  refine ⟨fun k₁ k₂ n₁ n₂ ru₁ ru₂ a b c h₁ h₂ ha hb hca hcb hc₁ hc₂ => ?_,
    fun a b ia ib c ha hb hca hcb hc₁ hc₂ => ?_⟩
  · obtain ⟨ia, hia, hna⟩ := hres k₁ n₁ ru₁ a h₁ ha
    obtain ⟨ib, hib, hnb⟩ := hres k₂ n₂ ru₂ b h₂ hb
    have hca' : ia.const.isSome := by simpa [Resolver.constOf, hia] using hca
    have hcb' : ib.const.isSome := by simpa [Resolver.constOf, hib] using hcb
    exact hinv.eq_of_name hia hib hca' hcb'
      (((hna hca').unique hc₁).trans ((hnb hcb').unique hc₂).symm)
  · have e₁ := hc₁.unique (.fixed (hinv.cached a ia ha hca).2)
    have e₂ := hc₂.unique (.fixed (hinv.cached b ib hb hcb).2)
    exact hinv.eq_of_name ha hb hca hcb (e₁.symm.trans e₂)

/-- A platform with no constructor whose name is `scram` and three digits. -/
theorem sha1Env_noScram :
    ∀ x, IsScramDigits PyUnicode.ascii x → sha1Env.hasAttr x = false ∧ sha1Env.newOk x = false := by
  rintro x ⟨z, rfl, -⟩
  exact ⟨by simp [sha1Env], rfl⟩

/-- `SHA-1` and `sha1` have the canonical name `sha1`, and their lookups return one record. -/
theorem lookupHash_canonical_unique_sha1 :
    ∃ a b, (nameRun sha1Env PyUnicode.ascii 2 [("SHA-1".toList, false), ("sha1".toList, true)]
      Resolver.empty).2 = [.ok a, .ok b] ∧
      CanonicalName PyUnicode.ascii "SHA-1".toList "sha1".toList ∧ a = b :=
  ⟨0, 0, rfl, .of_hashlibName (by decide) (by decide),
    (lookupHash_canonical_unique sha1Env PyUnicode.ascii 2
      [("SHA-1".toList, false), ("sha1".toList, true)] sha1Env_noScram).1 0 1 "SHA-1".toList
      "sha1".toList false true 0 0 "sha1".toList rfl rfl rfl rfl rfl rfl
      (.of_hashlibName (by decide) (by decide)) (.fixed (by decide))⟩

/-- A platform whose `hashlib` has constructors named `scram256` and `256`. -/
def scramEnv : HashEnv where
  hasAttr n := n == "scram256".toList || n == "256".toList
  newOk _ := false
  call c := .ok ⟨match c with | .attr n => n | _ => [], 32, 64, 32⟩
  decode b := .ok (b.map fun x => Char.ofNat x.toNat)

/-- `scram256` is canonical and caches its record under its IANA alias `scram-256`, whose own
canonical name is `256`: the lookups of `256` and `scram-256` return two records with a
constructor. -/
theorem lookupHash_scram_split :
    (nameRun scramEnv PyUnicode.ascii 2 [("scram256".toList, false), ("256".toList, false),
      ("scram-256".toList, false)] Resolver.empty).2 = [.ok 0, .ok 1, .ok 0] ∧
    ((nameRun scramEnv PyUnicode.ascii 2 [("scram256".toList, false), ("256".toList, false),
      ("scram-256".toList, false)] Resolver.empty).1.constOf 0).isSome ∧
    ((nameRun scramEnv PyUnicode.ascii 2 [("scram256".toList, false), ("256".toList, false),
      ("scram-256".toList, false)] Resolver.empty).1.constOf 1).isSome ∧
    CanonicalName PyUnicode.ascii "256".toList "256".toList ∧
    CanonicalName PyUnicode.ascii "scram-256".toList "256".toList :=
  ⟨rfl, rfl, rfl, .fixed (by decide), .of_hashlibName (by decide) (by decide)⟩

/-! ## 5. Constructors passed in -/

section
variable {E : HashEnv} {U : PyUnicode}

/-- The lookup of a constructor that is not cached, whose hashlib name has no constructor of its
own, makes its record and caches it by name. -/
theorem lookupHash_const_unowned {c : Const} {h : HashObj} {n : Str} (hc : E.call c = .ok h)
    (hn : h.name = n) {s : Resolver} (hmiss : s.cache (.const c) = none)
    (hg : getHashConst E (hashlibName U n) s = (s, none)) (fuel : Nat) (returnUnknown : Bool) :
    lookupHash E U (fuel + 1) (.const c) returnUnknown s =
      populate E U c (getHashAliases U n) true s := by
  subst hn
  have hg' : getHashConst E ((getHashAliases U h.name).headD []) s = (s, none) := hg
  simp only [lookupHash, lookupStep, HashArg.cacheKey, Option.some_bind, hmiss, lookupConst, hc,
    hg']

theorem populate_ok {c : Const} {names : List Str} {info : HashInfo}
    (h : mkHashInfo E U (some c) names = .ok info) (s : Resolver) :
    populate E U c names true s =
      cacheNames U s.infos.length info names ((s.alloc info).1.set (.const c) s.infos.length) := by
  simp only [populate, h]
  rfl

end

/-- Two constructors, each reporting the name of a hash `hashlib` has no constructor for: the
lookup of the first caches its record under that name, and the lookup of the second fails the
assertion `cache.get(name) in [None, info]`, since the two records differ in `const`. -/
theorem lookupHash_const_clash (E : HashEnv) (U : PyUnicode) (fuel : Nat) {c₁ c₂ : Const}
    {h₁ h₂ : HashObj} (hne : c₁ ≠ c₂) (hc₁ : E.call c₁ = .ok h₁) (hc₂ : E.call c₂ = .ok h₂)
    (hname : h₂.name = h₁.name) (hd₁ : h₁.digestLength = h₁.digestSize)
    (hd₂ : h₂.digestLength = h₂.digestSize) (hattr : E.hasAttr (hashlibName U h₁.name) = false)
    (hnew : E.newOk (hashlibName U h₁.name) = false) (hmd4 : hashlibName U h₁.name ≠ "md4".toList)
    (h0 : hashlibName U h₁.name ≠ []) :
    (lookupHash E U (fuel + 1) (.const c₂) false
      (lookupHash E U (fuel + 1) (.const c₁) false Resolver.empty).1).2 =
      .error (.assertionError (pyRepr U (hashlibName U h₁.name) ++ " already in cache")) := by
  have hg := getHashConst_none hattr hnew hmd4
  obtain ⟨y, rest, hA⟩ := getHashAliases_eq_cons (U := U) h₁.name
  have hmk : ∀ c h, E.call c = .ok h → h.digestLength = h.digestSize →
      mkHashInfo E U (some c) (getHashAliases U h₁.name) = .ok
        ⟨hashlibName U h₁.name, y, rest, some c, some h.digestSize, some h.blockSize⟩ := by
    intro c h hc hd
    simp [hA, mkHashInfo, hc, hd]
  set info₁ : HashInfo :=
    ⟨hashlibName U h₁.name, y, rest, some c₁, some h₁.digestSize, some h₁.blockSize⟩ with hinfo₁
  rw [lookupHash_const_unowned hc₁ rfl rfl (hg _), populate_ok (hmk c₁ h₁ hc₁ hd₁)]
  -- the first record is cached under every alias; the second constructor is not cached
  obtain ⟨-, hi₁, hk₁, hs₁⟩ := @cacheNames_fresh U Resolver.empty.infos.length info₁
    (getHashAliases U h₁.name)
    ((Resolver.empty.alloc info₁).1.set (.const c₁) Resolver.empty.infos.length) rfl
    fun n _ => .inl (by simp [Resolver.set, Resolver.alloc, Resolver.empty])
  generalize cacheNames U _ info₁ _ _ = p at hi₁ hk₁ hs₁ ⊢
  have hmiss : p.1.cache (.const c₂) = none := by
    simp [hk₁, Resolver.set, Resolver.alloc, Resolver.empty, Ne.symm hne]
  have hx : p.1.cache (.str (hashlibName U h₁.name)) = some 0 := by
    simp [hs₁, hA, h0, Resolver.empty]
  rw [lookupHash_const_unowned hc₂ hname hmiss (hg _), populate_ok (hmk c₂ h₂ hc₂ hd₂), hA,
    cacheNames, if_neg (by simpa using h0), if_neg]
  simp [Resolver.set, Resolver.alloc, Resolver.empty, hx, hi₁, hinfo₁, HashInfo.asTuple, hne]

/-- A platform whose `hashlib` has no constructor, and whose callables all report `foo`. -/
def fooEnv : HashEnv where
  hasAttr _ := false
  newOk _ := false
  call _ := .ok ⟨"foo".toList, 20, 64, 20⟩
  decode b := .ok (b.map fun x => Char.ofNat x.toNat)

/-- Two callables that report `foo`: the second lookup raises `AssertionError`. -/
theorem lookupHash_const_clash_foo :
    (lookupHash fooEnv PyUnicode.ascii 2 (.const (.user 1)) false
      (lookupHash fooEnv PyUnicode.ascii 2 (.const (.user 0)) false Resolver.empty).1).2 =
      .error (.assertionError "'foo' already in cache") :=
  lookupHash_const_clash fooEnv PyUnicode.ascii 1 (by decide) rfl rfl rfl rfl rfl rfl rfl
    (by decide) (by decide)

end Passlib
