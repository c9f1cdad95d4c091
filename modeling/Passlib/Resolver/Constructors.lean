import Passlib.Resolver.Canonical

/-! # Constructors and names resolve to one record

`lookup_hash` also takes a constructor such as `hashlib.sha256`. It reads the constructor's name
from a hash object, makes a record, and caches it under the constructor and, when
`_get_hash_const` of that name gives the same constructor back, under the names too. Records keep
a second invariant beside `Resolver.NameInv` (`Resolver.ConstInv`): every record with a
constructor is cached under it, and its constructor is one `_get_hash_const` makes for the
record's name. Together they extend the promise that "multiple calls resolving to the same hash
should always return the same `HashInfo` instance" from names to runs that also look up
`hashlib`'s own constructors (`lookupHash_constructor_unique`). -/

namespace Passlib

/-! ## 1. Which constructor a name has -/

/-- `_get_hash_const(name)` returns `getattr(hashlib, name)`. -/
def HashlibAttr (E : HashEnv) (name : Str) : Prop :=
  name.head? ≠ some '_' ∧ name ∉ ["new".toList, "algorithms".toList] ∧ E.hasAttr name = true

instance (E : HashEnv) (name : Str) : Decidable (HashlibAttr E name) :=
  inferInstanceAs (Decidable (_ ∧ _ ∧ _))

/-- `c` is a constructor `_get_hash_const(name)` makes, up to which closure around `hashlib.new`
it is. -/
def ConstFor (E : HashEnv) (name : Str) : Const → Prop
  | .attr n => n = name ∧ HashlibAttr E name
  | .wrapper n _ => n = name ∧ ¬HashlibAttr E name
  | .md4 => name = "md4".toList ∧ ¬HashlibAttr E name
  | .user _ => False

section
variable {E : HashEnv}

theorem ConstFor.name_eq {x y : Str} : ∀ {c : Const}, ConstFor E x c → ConstFor E y c → x = y
  | .attr _, ⟨h1, _⟩, ⟨h2, _⟩ => h1.symm.trans h2
  | .wrapper _ _, ⟨h1, _⟩, ⟨h2, _⟩ => h1.symm.trans h2
  | .md4, ⟨h1, _⟩, ⟨h2, _⟩ => h1.trans h2.symm
  | .user _, h, _ => h.elim

theorem ConstFor.eq_attr {x : Str} (hx : HashlibAttr E x) : ∀ {c : Const}, ConstFor E x c → c = .attr x
  | .attr _, ⟨h, _⟩ => h ▸ rfl
  | .wrapper _ _, ⟨_, h⟩ => absurd hx h
  | .md4, ⟨_, h⟩ => absurd hx h
  | .user _, h => h.elim

theorem getHashConst_constFor {x : Str} {s : Resolver} {c : Const}
    (h : (getHashConst E x s).2 = some c) : ConstFor E x c := by
  unfold getHashConst at h
  by_cases h1 : x.head? ≠ some '_' ∧ x ∉ ["new".toList, "algorithms".toList] ∧ E.hasAttr x = true
  · rw [if_pos h1] at h
    cases h
    exact ⟨rfl, h1⟩
  · rw [if_neg h1] at h
    split_ifs at h with h2 h3
    · cases h; exact ⟨rfl, h1⟩
    · cases h; exact ⟨h3, h1⟩

theorem getHashConst_attr {x : Str} (hx : HashlibAttr E x) (s : Resolver) :
    getHashConst E x s = (s, some (.attr x)) := by
  unfold getHashConst
  exact if_pos hx

end

/-! ## 2. The invariant of constructor keys -/

/-- What lookups keep of the constructor keys: a constructor key holds a record with that
constructor, every record with a constructor is cached under it, and that constructor is one
`_get_hash_const` makes for the record's name. -/
structure Resolver.ConstInv (E : HashEnv) (s : Resolver) : Prop where
  keyed : ∀ (c : Const) (v : Nat), s.cache (.const c) = some v →
    ∃ info : HashInfo, s.infos[v]? = some info ∧ info.const = some c
  cached : ∀ (v : Nat) (info : HashInfo) (c : Const), s.infos[v]? = some info → info.const = some c →
    s.cache (.const c) = some v
  made : ∀ (v : Nat) (info : HashInfo) (c : Const), s.infos[v]? = some info → info.const = some c →
    ConstFor E info.name c

section
variable {E : HashEnv} {U : PyUnicode} {s : Resolver}

theorem constInv_empty : Resolver.empty.ConstInv E :=
  ⟨fun _ _ h => (nomatch h), fun _ _ _ h => by simp [Resolver.empty] at h,
    fun _ _ _ h => by simp [Resolver.empty] at h⟩

/-- The invariant reads only the constructor keys and the records. -/
theorem Resolver.ConstInv.congr (hs : s.ConstInv E) {s' : Resolver}
    (hc : ∀ c, s'.cache (.const c) = s.cache (.const c)) (hi : s'.infos = s.infos) :
    s'.ConstInv E where
  keyed c v hv := by rw [hi]; exact hs.keyed c v (by rwa [hc] at hv)
  cached v info c hv hcv := by rw [hc]; exact hs.cached v info c (by rwa [hi] at hv) hcv
  made v info c hv := hs.made v info c (by rwa [hi] at hv)

theorem Resolver.ConstInv.setStr (hs : s.ConstInv E) (n : Str) (v : Nat) :
    (s.set (.str n) v).ConstInv E :=
  hs.congr (fun c => by simp [Resolver.set]) rfl

theorem Resolver.ConstInv.getHashConst (hs : s.ConstInv E) (name : Str) :
    (getHashConst E name s).1.ConstInv E :=
  hs.congr (fun c => by rw [getHashConst_cache]) (getHashConst_infos name s)

theorem Resolver.ConstInv.allocDummy (hs : s.ConstInv E) {info : HashInfo} (h : info.const = none) :
    (s.alloc info).1.ConstInv E where
  keyed c v hv := by
    obtain ⟨inf, h1, h2⟩ := hs.keyed c v hv
    exact ⟨inf, getElem?_of_extension (List.prefix_append _ _) h1, h2⟩
  cached v inf c hv hc := by
    rcases getElem?_concat_eq_some hv with hv | ⟨-, rfl⟩
    · exact hs.cached v inf c hv hc
    · rw [h] at hc; cases hc
  made v inf c hv hc := by
    rcases getElem?_concat_eq_some hv with hv | ⟨-, rfl⟩
    · exact hs.made v inf c hv hc
    · rw [h] at hc; cases hc

/-- A new record cached under the constructor `_get_hash_const` makes for its name keeps the
invariant: an older record with that constructor would have the same name and be cached. -/
theorem Resolver.ConstInv.addRecord (hs : s.ConstInv E) (hn : s.NameInv U) {info : HashInfo}
    {c : Const} (hc : info.const = some c) (hfor : ConstFor E info.name c)
    (hmiss : s.cache (.str info.name) = none) :
    ((s.alloc info).1.set (.const c) (s.alloc info).2).ConstInv E where
  keyed c' v hv := by
    simp only [Resolver.set, Resolver.alloc] at hv
    split at hv
    · rename_i h
      cases h; cases hv
      exact ⟨info, by simp [Resolver.alloc], hc⟩
    · obtain ⟨inf, h1, h2⟩ := hs.keyed c' v hv
      exact ⟨inf, getElem?_of_extension (List.prefix_append _ _) h1, h2⟩
  cached v inf c' hv hcv := by
    simp only [Resolver.set, Resolver.alloc, Resolver.infos_set] at hv ⊢
    rcases getElem?_concat_eq_some hv with hv | ⟨rfl, rfl⟩
    · have hne : c' ≠ c := by
        rintro rfl
        have hname := (hs.made v inf c' hv hcv).name_eq hfor
        have := (hn.cached v inf hv (by rw [hcv]; rfl)).1
        rw [hname, hmiss] at this
        cases this
      rw [if_neg (by simpa using hne)]
      exact hs.cached v inf c' hv hcv
    · rw [hc] at hcv
      cases hcv
      rw [if_pos rfl]
  made v inf c' hv hcv := by
    rcases getElem?_concat_eq_some hv with hv | ⟨-, rfl⟩
    · exact hs.made v inf c' hv hcv
    · rw [hc] at hcv
      cases hcv
      exact hfor

end

/-! ## 3. Lookups keep it -/

/-- The name loop writes only name keys. -/
theorem cacheNames_frame (i : Nat) (info : HashInfo) :
    ∀ (ns : List Str) (s : Resolver), (cacheNames U i info ns s).1.infos = s.infos ∧
      ∀ c, (cacheNames U i info ns s).1.cache (.const c) = s.cache (.const c)
  | [], _ => ⟨rfl, fun _ => rfl⟩
  | m :: ns, s => by
    rw [cacheNames]
    split_ifs
    · exact cacheNames_frame i info ns s
    · obtain ⟨h1, h2⟩ := cacheNames_frame i info ns (s.set (.str m) i)
      exact ⟨h1, fun c => by rw [h2]; simp [Resolver.set]⟩
    · exact ⟨rfl, fun _ => rfl⟩

section
variable {E : HashEnv} {U : PyUnicode} {s : Resolver}

/-- Making the record of a canonical name that the name keys miss, with a constructor
`_get_hash_const` makes for it, keeps the invariant. -/
theorem populate_constInv (hs : s.ConstInv E) (hn : s.NameInv U) {x : Str}
    (hx : hashlibName U x = x) (hmiss : s.cache (.str x) = none) {c : Const}
    (hfor : ConstFor E x c) (cacheByName : Bool) :
    (populate E U c (getHashAliases U x) cacheByName s).1.ConstInv E := by
  unfold populate
  split
  · exact hs
  · rename_i info hinfo
    have hname : info.name = x := (mkHashInfo_name hinfo).trans hx
    have hadd := hs.addRecord hn (mkHashInfo_const hinfo) (hname ▸ hfor) (hname ▸ hmiss)
    dsimp only
    split
    · obtain ⟨h1, h2⟩ := cacheNames_frame (s.alloc info).2 info (getHashAliases U x)
        ((s.alloc info).1.set (.const c) (s.alloc info).2)
      exact hadd.congr h2 h1
    · exact hadd

theorem cacheAlias_constInv (x : Str) (returnUnknown : Bool) {p : Resolver × Except PyError Nat}
    (hp : p.1.ConstInv E) : (cacheAlias (.str x) returnUnknown p).1.ConstInv E := by
  obtain ⟨s, _ | i⟩ := p
  · exact hp
  · simp only [cacheAlias]
    split_ifs
    · exact hp
    · exact hp
    · exact hp.setStr x i

theorem lookupConstByName_constInv (hs : s.ConstInv E) (hn : s.NameInv U) {x : Str}
    (hx : hashlibName U x = x) (hmiss : s.cache (.str x) = none) (returnUnknown : Bool) :
    (lookupConstByName E U (getHashAliases U x) returnUnknown s).1.ConstInv E := by
  have hx' : (getHashAliases U x).headD [] = x := hx
  unfold lookupConstByName
  dsimp only
  rw [hx']
  split
  · split_ifs
    · split
      · exact hs.getHashConst x
      · exact (hs.getHashConst x).allocDummy (mkHashInfo_none ‹_›)
    · exact hs.getHashConst x
  · rename_i c hc
    exact populate_constInv (hs.getHashConst x) (hn.getHashConst x) hx
      (by rwa [getHashConst_cache]) (getHashConst_constFor hc) true

/-- The hypothesis on the recursive call of a lookup of names. -/
def ConstLookup (E : HashEnv) (U : PyUnicode)
    (recurse : Str → Resolver → Resolver × Except PyError Nat) : Prop :=
  ∀ n s, s.NameInv U → s.ConstInv E → (recurse n s).1.ConstInv E

theorem lookupStep_constInv {recurse : Str → Resolver → Resolver × Except PyError Nat}
    (hrec : ConstLookup E U recurse) (x : Str) (returnUnknown : Bool) (hs : s.ConstInv E)
    (hn : s.NameInv U) : (lookupStep E U recurse (.str x) returnUnknown s).1.ConstInv E := by
  simp only [lookupStep, HashArg.cacheKey, Option.some_bind]
  split
  · exact hs
  rename_i hmiss
  unfold lookupName
  dsimp only
  split_ifs with h0 h1
  · exact hs
  · exact cacheAlias_constInv x returnUnknown (hrec _ s hn hs)
  · have hx : hashlibName U x = x := by simpa [hashlibName] using h1
    exact lookupConstByName_constInv hs hn hx hmiss returnUnknown

theorem lookupHash_constInv (fuel : Nat) (returnUnknown : Bool) :
    ConstLookup E U fun x => lookupHash E U fuel (.str x) returnUnknown := by
  induction fuel with
  | zero => exact fun _ _ _ hs => hs
  | succ fuel ih => exact fun x _ hn hs => lookupStep_constInv ih x returnUnknown hs hn

end

/-! ## 4. Lookups of `hashlib`'s constructors -/

/-- While `getattr(hashlib, n)` is not a key, no name key holds the record of a canonical `n`:
that record would have the constructor, and be cached under it. -/
theorem Resolver.ConstInv.str_miss {E : HashEnv} {U : PyUnicode} {s : Resolver}
    (hs : s.ConstInv E) (hn : s.NameInv U) {n : Str} (hattr : HashlibAttr E n)
    (hx : hashlibName U n = n) (hmiss : s.cache (.const (.attr n)) = none) :
    s.cache (.str n) = none := by
  cases h : s.cache (.str n) with
  | none => rfl
  | some v =>
    obtain ⟨info, hi, hic, hcan⟩ := hn.named n v h
    have hname : info.name = n := ((CanonicalName.fixed hx).unique hcan).symm
    obtain ⟨c, hcc⟩ := Option.isSome_iff_exists.mp hic
    have hfor : ConstFor E n c := hname ▸ hs.made v info c hi hcc
    rw [hfor.eq_attr hattr] at hcc
    rw [hs.cached v info _ hi hcc] at hmiss
    cases hmiss

/-- `getattr(hashlib, n)` for a non-empty `n` that is its own hashlib name, whose hash objects
report the name `n`. -/
def HashlibConstructor (E : HashEnv) (U : PyUnicode) (n : Str) : Prop :=
  n ≠ [] ∧ HashlibAttr E n ∧ hashlibName U n = n ∧ ∀ h, E.call (.attr n) = .ok h → h.name = n

/-- A lookup of a name, or of a constructor of `hashlib`, with the name it stands for. -/
inductive NameOrConstructor (E : HashEnv) (U : PyUnicode) : HashArg → Str → Prop
  | str (n : Str) : NameOrConstructor E U (.str n) n
  | attr {n : Str} : HashlibConstructor E U n → NameOrConstructor E U (.const (.attr n)) n

section
variable {E : HashEnv} {U : PyUnicode} {s : Resolver}
  (hE : ∀ x, IsScramDigits U x → E.hasAttr x = false ∧ E.newOk x = false)
include hE

/-- One frame of the lookup of a `hashlib` constructor keeps both invariants and returns the
record named by the constructor's name, from the cache or made and cached anew. -/
theorem lookupStep_attr {n : Str} (hc : HashlibConstructor E U n)
    (recurse : Str → Resolver → Resolver × Except PyError Nat) (returnUnknown : Bool)
    (hn : s.NameInv U) (hs : s.ConstInv E) :
    (lookupStep E U recurse (.const (.attr n)) returnUnknown s).1.NameInv U ∧
      (lookupStep E U recurse (.const (.attr n)) returnUnknown s).1.ConstInv E ∧
      NamedResult U n (lookupStep E U recurse (.const (.attr n)) returnUnknown s) ∧
      s.infos <+: (lookupStep E U recurse (.const (.attr n)) returnUnknown s).1.infos := by
  obtain ⟨h0, hattr, hx, hcall⟩ := hc
  simp only [lookupStep, HashArg.cacheKey, Option.some_bind]
  split
  · rename_i v hv
    obtain ⟨info, hi, hic⟩ := hs.keyed _ v hv
    obtain ⟨hname, -⟩ := hs.made v info _ hi hic
    refine ⟨hn, hs, fun j hj => ?_, List.prefix_refl _⟩
    cases hj
    exact ⟨info, hi, fun _ => hname ▸ .fixed hx⟩
  rename_i hmissc
  have hmiss := hs.str_miss hn hattr hx hmissc
  have hsc : ¬IsScramDigits U n := fun h => by
    have := (hE n h).1
    rw [hattr.2.2] at this
    cases this
  unfold lookupConst
  split
  · exact ⟨hn, hs, namedResult_error, List.prefix_refl _⟩
  rename_i h hh
  rw [hcall h hh]
  dsimp only
  rw [show (getHashAliases U n).headD [] = n from hx, getHashConst_attr hattr]
  dsimp only
  rw [decide_eq_true (rfl : Const.attr n = .attr n)]
  obtain ⟨p1, p2, p3⟩ := populate_named hn hx h0 hsc hmiss (.attr n)
  exact ⟨p1, populate_constInv hs hn hx hmiss
    (show ConstFor E n (.attr n) from ⟨rfl, hattr⟩) true, p2, p3⟩

/-- A lookup of a name or of a `hashlib` constructor keeps both invariants and returns a record
named by the canonical name of what it stands for, or the dummy. -/
theorem lookupHash_nameOrConstructor (fuel : Nat) {d : HashArg} {n : Str}
    (hd : NameOrConstructor E U d n) (returnUnknown : Bool) (hn : s.NameInv U)
    (hs : s.ConstInv E) :
    (lookupHash E U fuel d returnUnknown s).1.NameInv U ∧
      (lookupHash E U fuel d returnUnknown s).1.ConstInv E ∧
      NamedResult U n (lookupHash E U fuel d returnUnknown s) ∧
      s.infos <+: (lookupHash E U fuel d returnUnknown s).1.infos := by
  cases hd with
  | str n =>
    obtain ⟨h1, h2, h3⟩ := lookupHash_named hE fuel returnUnknown n s hn
    exact ⟨h1, lookupHash_constInv fuel returnUnknown n s hn hs, h2, h3⟩
  | attr hc =>
    cases fuel with
    | zero => exact ⟨hn, hs, namedResult_error, List.prefix_refl _⟩
    | succ fuel => exact lookupStep_attr hE hc _ returnUnknown hn hs

end

/-! ## 5. Runs -/

/-- A run of `lookup_hash(digest, return_unknown)` calls, with what each returns. -/
def lookupRun (E : HashEnv) (U : PyUnicode) (fuel : Nat) :
    List (HashArg × Bool) → Resolver → Resolver × List (Except PyError Nat)
  | [], s => (s, [])
  | (digest, returnUnknown) :: calls, s =>
    let p := lookupHash E U fuel digest returnUnknown s
    let q := lookupRun E U fuel calls p.1
    (q.1, p.2 :: q.2)

section
variable {E : HashEnv} {U : PyUnicode}
  (hE : ∀ x, IsScramDigits U x → E.hasAttr x = false ∧ E.newOk x = false)
include hE

/-- Every call of a run of lookups of names and `hashlib` constructors that returns a record
with a constructor returns one named by the canonical name of what the call stands for. -/
theorem lookupRun_named (fuel : Nat) :
    ∀ (calls : List (HashArg × Bool)), (∀ p ∈ calls, ∃ n, NameOrConstructor E U p.1 n) →
      ∀ {s : Resolver}, s.NameInv U → s.ConstInv E →
      (lookupRun E U fuel calls s).1.NameInv U ∧ s.infos <+: (lookupRun E U fuel calls s).1.infos ∧
      ∀ (k : Nat) (d : HashArg) (n : Str) (returnUnknown : Bool) (j : Nat),
        calls[k]? = some (d, returnUnknown) → NameOrConstructor E U d n →
        (lookupRun E U fuel calls s).2[k]? = some (.ok j) →
        ∃ info : HashInfo, (lookupRun E U fuel calls s).1.infos[j]? = some info ∧
          (info.const.isSome → CanonicalName U n info.name)
  | [], _, s, hn, _ => ⟨hn, List.prefix_refl _, fun k d n r j h => by simp at h⟩
  | (d, returnUnknown) :: calls, hcalls, s, hn, hs => by
    obtain ⟨n, hd⟩ := hcalls _ (List.mem_cons_self _ _)
    obtain ⟨h1, h2, -, hpre⟩ := lookupHash_nameOrConstructor hE fuel hd returnUnknown hn hs
    obtain ⟨q1, q2, q3⟩ := lookupRun_named fuel calls
      (fun p hp => hcalls p (List.mem_cons_of_mem _ hp)) h1 h2
    refine ⟨q1, hpre.trans q2, fun k d' m r j hk hd' hj => ?_⟩
    cases k with
    | zero =>
      simp only [List.getElem?_cons_zero, Option.some.injEq, Prod.mk.injEq] at hk
      obtain ⟨rfl, rfl⟩ := hk
      obtain ⟨info, hi, hcan⟩ :=
        (lookupHash_nameOrConstructor hE fuel hd' returnUnknown hn hs).2.2.1 j
          (by simpa [lookupRun] using hj)
      exact ⟨info, getElem?_of_extension q2 hi, hcan⟩
    | succ k => exact q3 k d' m r j (by simpa using hk) hd' (by simpa [lookupRun] using hj)

end

/-- In a run of `lookup_hash` calls from the imported module on names and on `hashlib`'s own
constructors (each a non-empty attribute name that is its own hashlib name, whose hash objects
report it), on a platform with no constructor named `scram` and three digits: two calls that
return records with a constructor and stand for names with one canonical name return the same
record. So `lookup_hash(hashlib.sha1)` and `lookup_hash("SHA-1")` return one `HashInfo`, in either
order. -/
theorem lookupHash_constructor_unique (E : HashEnv) (U : PyUnicode) (fuel : Nat)
    (calls : List (HashArg × Bool))
    (hE : ∀ x, IsScramDigits U x → E.hasAttr x = false ∧ E.newOk x = false)
    (hcalls : ∀ p ∈ calls, ∃ n, NameOrConstructor E U p.1 n) :
    ∀ (k₁ k₂ : Nat) (d₁ d₂ : HashArg) (n₁ n₂ : Str) (ru₁ ru₂ : Bool) (a b : Nat) (c : Str),
      calls[k₁]? = some (d₁, ru₁) → calls[k₂]? = some (d₂, ru₂) →
      NameOrConstructor E U d₁ n₁ → NameOrConstructor E U d₂ n₂ →
      (lookupRun E U fuel calls Resolver.empty).2[k₁]? = some (.ok a) →
      (lookupRun E U fuel calls Resolver.empty).2[k₂]? = some (.ok b) →
      ((lookupRun E U fuel calls Resolver.empty).1.constOf a).isSome →
      ((lookupRun E U fuel calls Resolver.empty).1.constOf b).isSome →
      CanonicalName U n₁ c → CanonicalName U n₂ c → a = b := by
  obtain ⟨hinv, -, hres⟩ := lookupRun_named hE fuel calls hcalls nameInv_empty constInv_empty
  intro k₁ k₂ d₁ d₂ n₁ n₂ ru₁ ru₂ a b c h₁ h₂ hd₁ hd₂ ha hb hca hcb hc₁ hc₂
  obtain ⟨ia, hia, hna⟩ := hres k₁ d₁ n₁ ru₁ a h₁ hd₁ ha
  obtain ⟨ib, hib, hnb⟩ := hres k₂ d₂ n₂ ru₂ b h₂ hd₂ hb
  have hca' : ia.const.isSome := by simpa [Resolver.constOf, hia] using hca
  have hcb' : ib.const.isSome := by simpa [Resolver.constOf, hib] using hcb
  exact hinv.eq_of_name hia hib hca' hcb'
    (((hna hca').unique hc₁).trans ((hnb hcb').unique hc₂).symm)

/-- `hashlib.sha1`, then `SHA-1`: one record. -/
theorem lookupHash_constructor_unique_sha1 :
    ∃ a b, (lookupRun sha1Env PyUnicode.ascii 2
        [(.const (.attr "sha1".toList), false), (.str "SHA-1".toList, false)] Resolver.empty).2 =
        [.ok a, .ok b] ∧ a = b :=
  have hsha1 : NameOrConstructor sha1Env PyUnicode.ascii (.const (.attr "sha1".toList)) "sha1".toList :=
    .attr ⟨by decide, by decide, by decide, fun _ h => by cases h; rfl⟩
  ⟨0, 0, rfl, lookupHash_constructor_unique sha1Env PyUnicode.ascii 2
    [(.const (.attr "sha1".toList), false), (.str "SHA-1".toList, false)] sha1Env_noScram
    (fun p hp => by
      simp only [List.mem_cons, List.mem_singleton, List.not_mem_nil, or_false] at hp
      rcases hp with rfl | rfl
      exacts [⟨_, hsha1⟩, ⟨_, .str _⟩])
    0 1 _ _ "sha1".toList "SHA-1".toList false false 0 0 "sha1".toList rfl rfl hsha1 (.str _)
    rfl rfl rfl rfl (.fixed (by decide)) (.of_hashlibName (by decide) (by decide))⟩

end Passlib
