import Passlib.Resolver.Lookup

/-! # What `_hash_info_cache` holds

Every value `lookup_hash` stores in `_hash_info_cache` is a record with a constructor
(`Resolver.CacheOk`): a dummy record, made only for `return_unknown=True`, is returned and never
stored. So a lookup with `return_unknown=False` of a name or a constructor returns a record with a
constructor, or raises; in particular the recursive lookup of a name never hands back a dummy
(`hashInfoCache_const`), so that lookup never reaches `assert return_unknown` (`cacheAlias_strict`). Conversely, every record with a constructor that a lookup returns is left
in the cache under the lookup's argument, so the next lookup of that argument is answered from the
cache (`lookupHash_memo`). -/

namespace Passlib

/-! ## Only records with a constructor are cached -/

/-- Every value of `_hash_info_cache` is a record with a constructor. -/
def Resolver.CacheOk (s : Resolver) : Prop := ∀ k i, s.cache k = some i → (s.constOf i).isSome

theorem getElem?_of_extension {l l' : List HashInfo} (h : l <+: l') {i : Nat} {a : HashInfo}
    (hi : l[i]? = some a) : l'[i]? = some a := by
  obtain ⟨t, rfl⟩ := h
  rw [List.getElem?_append_left]
  · exact hi
  · by_contra hl
    rw [List.getElem?_eq_none (by omega)] at hi
    cases hi

theorem Resolver.constOf_of_prefix {s s' : Resolver} (h : s.infos <+: s'.infos) {i : Nat}
    (hi : (s.constOf i).isSome) : s'.constOf i = s.constOf i := by
  unfold Resolver.constOf at hi ⊢
  cases ha : s.infos[i]? with
  | none => simp [ha] at hi
  | some a => rw [getElem?_of_extension h ha]

theorem Resolver.CacheOk.mono {s s' : Resolver} (hs : s.CacheOk) (hc : s'.cache = s.cache)
    (hp : s.infos <+: s'.infos) : s'.CacheOk := fun k i hk => by
  rw [hc] at hk
  rw [Resolver.constOf_of_prefix hp (hs k i hk)]
  exact hs k i hk

theorem Resolver.CacheOk.set {s : Resolver} (hs : s.CacheOk) {i : Nat} (hi : (s.constOf i).isSome)
    (key : CacheKey) : (s.set key i).CacheOk := fun k j hk => by
  simp only [Resolver.set] at hk
  split at hk
  · cases hk; exact hi
  · exact hs k j hk

@[simp] theorem Resolver.infos_set (s : Resolver) (key : CacheKey) (i : Nat) :
    (s.set key i).infos = s.infos := rfl

@[simp] theorem Resolver.constOf_set (s : Resolver) (key : CacheKey) (i j : Nat) :
    (s.set key i).constOf j = s.constOf j := rfl

theorem Resolver.alloc_infos (s : Resolver) (info : HashInfo) :
    (s.alloc info).1.infos = s.infos ++ [info] := rfl

theorem Resolver.constOf_alloc (s : Resolver) (info : HashInfo) :
    (s.alloc info).1.constOf (s.alloc info).2 = info.const := by
  simp [Resolver.alloc, Resolver.constOf]

theorem Resolver.CacheOk.alloc {s : Resolver} (hs : s.CacheOk) (info : HashInfo) :
    (s.alloc info).1.CacheOk :=
  hs.mono rfl (List.prefix_append _ _)

section
variable {E : HashEnv} {U : PyUnicode}

@[simp] theorem getHashConst_cache (name : Str) (s : Resolver) :
    (getHashConst E name s).1.cache = s.cache := by
  unfold getHashConst; split_ifs <;> rfl

@[simp] theorem getHashConst_infos (name : Str) (s : Resolver) :
    (getHashConst E name s).1.infos = s.infos := by
  unfold getHashConst; split_ifs <;> rfl

theorem mkHashInfo_const {c : Const} {names : List Str} {info : HashInfo}
    (h : mkHashInfo E U (some c) names = .ok info) : info.const = some c := by
  rcases names with _ | ⟨n, _ | ⟨i, rest⟩⟩
  · cases h
  · cases h
  · simp only [mkHashInfo] at h
    split at h
    · cases h
    · split_ifs at h
      cases h; rfl

theorem mkHashInfo_name {const : Option Const} {names : List Str} {info : HashInfo}
    (h : mkHashInfo E U const names = .ok info) : info.name = names.headD [] := by
  rcases names with _ | ⟨n, _ | ⟨i, rest⟩⟩
  · cases h
  · cases h
  · simp only [mkHashInfo] at h
    split at h
    · cases h; rfl
    · split at h
      · cases h
      · split_ifs at h
        cases h; rfl

theorem mkHashInfo_none {names : List Str} {info : HashInfo}
    (h : mkHashInfo E U none names = .ok info) : info.const = none := by
  rcases names with _ | ⟨n, _ | ⟨i, rest⟩⟩
  · cases h
  · cases h
  · cases h; rfl

theorem cacheNames_sound {s : Resolver} (hs : s.CacheOk) {i : Nat} (hi : (s.constOf i).isSome)
    (info : HashInfo) (names : List Str) :
    (cacheNames U i info names s).1.CacheOk ∧ (cacheNames U i info names s).1.infos = s.infos ∧
      ∀ j, (cacheNames U i info names s).2 = .ok j → j = i := by
  induction names generalizing s with
  | nil => exact ⟨hs, rfl, fun j h => by cases h; rfl⟩
  | cons n ns ih =>
    unfold cacheNames
    split_ifs
    · exact ih hs hi
    · obtain ⟨h1, h2, h3⟩ := ih (hs.set hi (.str n)) hi
      exact ⟨h1, h2, h3⟩
    · exact ⟨hs, rfl, fun j h => by cases h⟩

theorem populate_sound {s : Resolver} (hs : s.CacheOk) (c : Const) (names : List Str)
    (cacheByName : Bool) :
    (populate E U c names cacheByName s).1.CacheOk ∧
      s.infos <+: (populate E U c names cacheByName s).1.infos ∧
      ∀ j, (populate E U c names cacheByName s).2 = .ok j →
        ((populate E U c names cacheByName s).1.constOf j).isSome := by
  unfold populate
  split
  · exact ⟨hs, List.prefix_refl _, fun j h => by cases h⟩
  · rename_i info hinfo
    have hi : ((s.alloc info).1.constOf (s.alloc info).2).isSome := by
      rw [Resolver.constOf_alloc, mkHashInfo_const hinfo]; rfl
    have hset := (hs.alloc info).set hi (.const c)
    split
    · obtain ⟨h1, h2, h3⟩ := cacheNames_sound hset hi info names
      refine ⟨h1, by rw [h2]; exact List.prefix_append _ _, fun j hj => ?_⟩
      rw [h3 j hj, Resolver.constOf_of_prefix (by rw [h2]; exact List.prefix_refl _) hi]
      exact hi
    · exact ⟨hset, List.prefix_append _ _, fun j hj => by cases hj; exact hi⟩

theorem lookupConst_sound {s : Resolver} (hs : s.CacheOk) (c : Const) :
    (lookupConst E U c s).1.CacheOk ∧ s.infos <+: (lookupConst E U c s).1.infos ∧
      ∀ j, (lookupConst E U c s).2 = .ok j → ((lookupConst E U c s).1.constOf j).isSome := by
  unfold lookupConst
  split
  · exact ⟨hs, List.prefix_refl _, fun j h => by cases h⟩
  · rename_i h _
    obtain ⟨h1, h2, h3⟩ := populate_sound (E := E)
      (hs.mono (getHashConst_cache (E := E) ((getHashAliases U h.name).headD []) s)
        (by rw [getHashConst_infos])) c (getHashAliases U h.name)
      (match (getHashConst E ((getHashAliases U h.name).headD []) s).2 with
        | none => true | some o => o = c)
    exact ⟨h1, by simpa using h2, h3⟩

/-- Caching the record the recursive lookup returned keeps the invariant; without
`return_unknown` only a record with a constructor comes back. -/
theorem cacheAlias_sound (key : CacheKey) (returnUnknown : Bool) {p : Resolver × Except PyError Nat}
    (hp : p.1.CacheOk) :
    (cacheAlias key returnUnknown p).1.CacheOk ∧
      p.1.infos = (cacheAlias key returnUnknown p).1.infos ∧
      (returnUnknown = false → ∀ j, (cacheAlias key returnUnknown p).2 = .ok j →
        ((cacheAlias key returnUnknown p).1.constOf j).isSome) := by
  obtain ⟨s, _ | i⟩ := p
  · exact ⟨hp, rfl, fun _ j h => by cases h⟩
  · simp only [cacheAlias]
    split_ifs with h3 h4
    · exact ⟨hp, rfl, fun hru => absurd hru (by simp [h4])⟩
    · exact ⟨hp, rfl, fun _ j h => by cases h⟩
    · have hi : (s.constOf i).isSome := by cases h : s.constOf i <;> simp_all
      exact ⟨hp.set hi key, rfl, fun _ j h => by cases h; simpa using hi⟩

theorem lookupConstByName_sound (names : List Str) (returnUnknown : Bool) {s : Resolver}
    (hs : s.CacheOk) :
    (lookupConstByName E U names returnUnknown s).1.CacheOk ∧
      s.infos <+: (lookupConstByName E U names returnUnknown s).1.infos ∧
      (returnUnknown = false → ∀ j, (lookupConstByName E U names returnUnknown s).2 = .ok j →
        ((lookupConstByName E U names returnUnknown s).1.constOf j).isSome) := by
  have hg : (getHashConst E (names.headD []) s).1.CacheOk :=
    hs.mono (getHashConst_cache _ s) (by rw [getHashConst_infos])
  have hi := getHashConst_infos (E := E) (names.headD []) s
  unfold lookupConstByName
  dsimp only
  split
  · cases returnUnknown with
    | false =>
      simp only [Bool.false_eq_true, if_false]
      exact ⟨hg, by rw [hi], fun _ j h => by cases h⟩
    | true =>
      simp only [if_true]
      split
      · exact ⟨hg, by rw [hi], fun h => by cases h⟩
      · rename_i info _
        exact ⟨hg.alloc info, by rw [Resolver.alloc_infos, hi]; exact List.prefix_append _ _,
          fun h => by cases h⟩
  · rename_i c _
    obtain ⟨p1, p2, p3⟩ := populate_sound (E := E) hg c names true
    exact ⟨p1, hi ▸ p2, fun _ => p3⟩

theorem lookupName_sound {recurse : Str → Resolver → Resolver × Except PyError Nat}
    (hrec : ∀ n s, s.CacheOk → (recurse n s).1.CacheOk ∧ s.infos <+: (recurse n s).1.infos)
    (key : CacheKey) (isStr : Bool) (digest : Str) (returnUnknown : Bool) {s : Resolver}
    (hs : s.CacheOk) :
    (lookupName E U recurse key isStr digest returnUnknown s).1.CacheOk ∧
      s.infos <+: (lookupName E U recurse key isStr digest returnUnknown s).1.infos ∧
      (returnUnknown = false → ∀ j, (lookupName E U recurse key isStr digest returnUnknown s).2 =
        .ok j →
        ((lookupName E U recurse key isStr digest returnUnknown s).1.constOf j).isSome) := by
  unfold lookupName
  dsimp only
  split_ifs
  · exact ⟨hs, List.prefix_refl _, fun _ j h => by cases h⟩
  · obtain ⟨hr1, hr2⟩ := hrec ((getHashAliases U digest).headD []) s hs
    obtain ⟨h1, h2, h3⟩ := cacheAlias_sound key returnUnknown hr1
    exact ⟨h1, h2 ▸ hr2, h3⟩
  · exact lookupConstByName_sound _ returnUnknown hs

theorem lookupStep_sound {recurse : Str → Resolver → Resolver × Except PyError Nat}
    (hrec : ∀ n s, s.CacheOk → (recurse n s).1.CacheOk ∧ s.infos <+: (recurse n s).1.infos)
    (digest : HashArg) (returnUnknown : Bool) {s : Resolver} (hs : s.CacheOk) :
    (lookupStep E U recurse digest returnUnknown s).1.CacheOk ∧
      s.infos <+: (lookupStep E U recurse digest returnUnknown s).1.infos ∧
      (returnUnknown = false → digest.cacheKey.isSome → ∀ j,
        (lookupStep E U recurse digest returnUnknown s).2 = .ok j →
        ((lookupStep E U recurse digest returnUnknown s).1.constOf j).isSome) := by
  unfold lookupStep
  split
  · rename_i i hi
    refine ⟨hs, List.prefix_refl _, fun _ _ j h => ?_⟩
    cases h
    obtain ⟨k, -, hk⟩ := Option.bind_eq_some.mp hi
    exact hs k i hk
  · split
    · obtain ⟨h1, h2, h3⟩ := lookupName_sound (E := E) (U := U) hrec _ true _ returnUnknown hs
      exact ⟨h1, h2, fun hru _ => h3 hru⟩
    · split
      · exact ⟨hs, List.prefix_refl _, fun _ _ j h => by cases h⟩
      · obtain ⟨h1, h2, h3⟩ := lookupName_sound (E := E) (U := U) hrec _ false _ returnUnknown hs
        exact ⟨h1, h2, fun hru _ => h3 hru⟩
    · exact ⟨hs, List.prefix_refl _, fun _ h => by cases h⟩
    · obtain ⟨h1, h2, h3⟩ := lookupConst_sound (E := E) (U := U) hs _
      exact ⟨h1, h2, fun _ _ => h3⟩
    · exact ⟨hs, List.prefix_refl _, fun _ h => by cases h⟩

/-- Every lookup keeps the invariant and the records made so far; without `return_unknown`, a
lookup of a name or a constructor returns only records with a constructor. -/
theorem lookupHash_sound (fuel : Nat) (digest : HashArg) (returnUnknown : Bool) {s : Resolver}
    (hs : s.CacheOk) :
    (lookupHash E U fuel digest returnUnknown s).1.CacheOk ∧
      s.infos <+: (lookupHash E U fuel digest returnUnknown s).1.infos ∧
      (returnUnknown = false → digest.cacheKey.isSome → ∀ j,
        (lookupHash E U fuel digest returnUnknown s).2 = .ok j →
        ((lookupHash E U fuel digest returnUnknown s).1.constOf j).isSome) := by
  induction fuel generalizing digest s with
  | zero => exact ⟨hs, List.prefix_refl _, fun _ _ j h => by cases h⟩
  | succ fuel ih =>
    exact lookupStep_sound (fun n _ hs => ⟨(ih (.str n) hs).1, (ih (.str n) hs).2.1⟩)
      digest returnUnknown hs

/-- `norm_hash_name` changes the state only through its lookup. -/
theorem normHashName_fst (fuel : Nat) (name : HashArg) (format : Str) (s : Resolver) :
    (normHashName E U (fuel + 1) name format s).1 = (lookupHash E U fuel name true s).1 := by
  rw [normHashName]
  split
  · rfl
  · split
    · rfl
    · split_ifs <;> rfl

theorem normHashName_cacheOk (fuel : Nat) (name : HashArg) (format : Str) {s : Resolver}
    (hs : s.CacheOk) : (normHashName E U fuel name format s).1.CacheOk := by
  cases fuel with
  | zero => exact hs
  | succ fuel => rw [normHashName_fst]; exact (lookupHash_sound fuel name true hs).1

theorem hashRun_cacheOk (fuel : Nat) :
    ∀ (calls : List HashCall) {s : Resolver}, s.CacheOk → (hashRun E U fuel calls s).CacheOk
  | [], _, hs => hs
  | .lookup d r :: cs, _, hs => hashRun_cacheOk fuel cs (lookupHash_sound fuel d r hs).1
  | .norm n f :: cs, _, hs => hashRun_cacheOk fuel cs (normHashName_cacheOk fuel n f hs)

end

/-- After any run of `lookup_hash` and `norm_hash_name` calls from the imported module, every
value of `_hash_info_cache` is a record with a constructor; and from any such state, a lookup
with `return_unknown=False` of a name or a constructor (an argument with a cache key) returns a
record with a constructor, or raises. -/
theorem hashInfoCache_const (E : HashEnv) (U : PyUnicode) (fuel : Nat) (calls : List HashCall) :
    (hashRun E U fuel calls Resolver.empty).CacheOk ∧
      ∀ s : Resolver, s.CacheOk → ∀ (fuel' : Nat) (digest : HashArg) (j : Nat),
        digest.cacheKey.isSome →
        (lookupHash E U fuel' digest false s).2 = .ok j →
        ((lookupHash E U fuel' digest false s).1.constOf j).isSome :=
  ⟨hashRun_cacheOk fuel calls (fun _ _ h => nomatch h),
    fun _ hs fuel' digest j hk hj => (lookupHash_sound fuel' digest false hs).2.2 rfl hk j hj⟩

/-- A platform whose `hashlib` offers only `sha1`. -/
def sha1Env : HashEnv where
  hasAttr n := n == "sha1".toList
  newOk _ := false
  call _ := .ok ⟨"sha1".toList, 20, 64, 20⟩
  decode b := .ok (b.map fun x => Char.ofNat x.toNat)

/-- After a tolerant `norm_hash_name("sha1", "iana")`, the strict lookup of `SHA-1` returns the
record of `sha1`, which has a constructor. -/
theorem hashInfoCache_const_sha1 :
    (lookupHash sha1Env PyUnicode.ascii 2 (.str "SHA-1".toList) false
      (hashRun sha1Env PyUnicode.ascii 2 [.norm (.str "sha1".toList) "iana".toList]
        Resolver.empty)).2 = .ok 0 ∧
    ((lookupHash sha1Env PyUnicode.ascii 2 (.str "SHA-1".toList) false
      (hashRun sha1Env PyUnicode.ascii 2 [.norm (.str "sha1".toList) "iana".toList]
        Resolver.empty)).1.constOf 0).isSome :=
  have h := hashInfoCache_const sha1Env PyUnicode.ascii 2 [.norm (.str "sha1".toList) "iana".toList]
  ⟨rfl, h.2 _ h.1 2 (.str "SHA-1".toList) 0 rfl rfl⟩

/-- Without `return_unknown`, from a state whose cache holds only records with a constructor, the
name branch never reaches `assert return_unknown`: the recursive lookup of the hashlib name
returns a record with a constructor, which is cached under the digest, or raises. -/
theorem cacheAlias_strict (E : HashEnv) (U : PyUnicode) (fuel : Nat) (name : Str) (key : CacheKey)
    {s : Resolver} (hs : s.CacheOk) :
    cacheAlias key false (lookupHash E U fuel (.str name) false s) =
      match lookupHash E U fuel (.str name) false s with
      | (s', .ok i) => (s'.set key i, .ok i)
      | (s', .error e) => (s', .error e) := by
  have hc := (lookupHash_sound (E := E) (U := U) fuel (.str name) false hs).2.2 rfl rfl
  generalize lookupHash E U fuel (.str name) false s = p at hc ⊢
  obtain ⟨s', _ | i⟩ := p
  · rfl
  · have hi : (s'.constOf i).isNone = false := by simpa using hc i rfl
    simp only [cacheAlias, hi, Bool.false_eq_true, if_false]

/-- The strict lookup of `sha1`, cached under `SHA-1`. -/
theorem cacheAlias_strict_sha1 :
    Resolver.empty.CacheOk ∧
      cacheAlias (.str "SHA-1".toList) false
          (lookupHash sha1Env PyUnicode.ascii 2 (.str "sha1".toList) false Resolver.empty) =
        match lookupHash sha1Env PyUnicode.ascii 2 (.str "sha1".toList) false Resolver.empty with
        | (s', .ok i) => (s'.set (.str "SHA-1".toList) i, .ok i)
        | (s', .error e) => (s', .error e) :=
  ⟨(fun _ _ h => nomatch h),
    cacheAlias_strict sha1Env PyUnicode.ascii 2 "sha1".toList _ fun _ _ h => nomatch h⟩

/-! ## Memoisation -/

/-- A lookup whose argument has the cache key `k` and which returns a record with a constructor has
cached it under `k`. -/
def Caches (k : CacheKey) (p : Resolver × Except PyError Nat) : Prop :=
  ∀ j, p.2 = .ok j → (p.1.constOf j).isSome → p.1.cache k = some j

theorem caches_error {k : CacheKey} {s : Resolver} {e : PyError} : Caches k (s, .error e) :=
  fun _ h => nomatch h

/-- The name loop writes only the new record. -/
theorem cacheNames_write (i : Nat) (info : HashInfo) :
    ∀ (ns : List Str) (s : Resolver) (k : CacheKey),
      (cacheNames U i info ns s).1.cache k = s.cache k ∨ (cacheNames U i info ns s).1.cache k = some i
  | [], _, _ => .inl rfl
  | m :: ns, s, k => by
    rw [cacheNames]
    split_ifs
    · exact cacheNames_write i info ns s k
    · rcases cacheNames_write i info ns (s.set (.str m) i) k with h | h
      · rw [h]
        simp only [Resolver.set]
        split_ifs
        · exact .inr rfl
        · exact .inl rfl
      · exact .inr h
    · exact .inl rfl

/-- When the name loop returns, it has cached the new record under every non-empty name. -/
theorem cacheNames_ok {i j : Nat} {info : HashInfo} : ∀ {ns : List Str} {s : Resolver},
    (cacheNames U i info ns s).2 = .ok j →
      j = i ∧ ∀ n ∈ ns, n ≠ [] → (cacheNames U i info ns s).1.cache (.str n) = some i
  | [], _, h => ⟨by cases h; rfl, fun _ h => nomatch h⟩
  | m :: ns, s, h => by
    rw [cacheNames] at h ⊢
    split_ifs at h ⊢ with h0
    · obtain ⟨hj, hn⟩ := cacheNames_ok h
      refine ⟨hj, fun n hn' hn0 => ?_⟩
      rcases List.mem_cons.mp hn' with rfl | hn'
      · exact absurd (List.isEmpty_iff.mp h0) hn0
      · exact hn n hn' hn0
    · obtain ⟨hj, hn⟩ := cacheNames_ok h
      refine ⟨hj, fun n hn' hn0 => ?_⟩
      rcases List.mem_cons.mp hn' with rfl | hn'
      · rcases cacheNames_write i info ns (s.set (.str n) i) (.str n) with h' | h' <;> rw [h']
        simp [Resolver.set]
      · exact hn n hn' hn0

section
variable {E : HashEnv} {U : PyUnicode}

/-- A record made for a constructor is cached under it, and under its names when it is cached by
name. -/
theorem populate_caches (c : Const) (names : List Str) (cacheByName : Bool) (s : Resolver) :
    Caches (.const c) (populate E U c names cacheByName s) ∧
      (cacheByName = true → ∀ n ∈ names, n ≠ [] →
        Caches (.str n) (populate E U c names cacheByName s)) := by
  unfold populate
  split
  · exact ⟨caches_error, fun _ _ _ _ => caches_error⟩
  · rename_i info _
    dsimp only
    split_ifs with hb
    · have hc : Caches (.const c) (cacheNames U (s.alloc info).2 info names
          ((s.alloc info).1.set (.const c) (s.alloc info).2)) := fun j hj _ => by
        obtain ⟨rfl, -⟩ := cacheNames_ok hj
        rcases cacheNames_write _ info names _ (.const c) with h | h <;> rw [h]
        simp [Resolver.set]
      exact ⟨hc, fun _ n hn hn0 j hj _ => by
        obtain ⟨rfl, h⟩ := cacheNames_ok hj
        exact h n hn hn0⟩
    · exact ⟨fun j hj _ => by cases hj; simp [Resolver.set], fun h => absurd h hb⟩

theorem cacheAlias_caches (key : CacheKey) (returnUnknown : Bool)
    (p : Resolver × Except PyError Nat) : Caches key (cacheAlias key returnUnknown p) := by
  obtain ⟨s, _ | i⟩ := p
  · exact caches_error
  · simp only [cacheAlias]
    split_ifs with hn
    · intro j hj hc
      cases hj
      rw [Option.isNone_iff_eq_none.mp hn] at hc
      cases hc
    · exact caches_error
    · intro j hj _
      cases hj
      simp [Resolver.set]

theorem lookupConstByName_caches {names : List Str} (h0 : names.headD [] ≠ [])
    (returnUnknown : Bool) (s : Resolver) :
    Caches (.str (names.headD [])) (lookupConstByName E U names returnUnknown s) := by
  have hmem : names.headD [] ∈ names := by
    cases names with
    | nil => exact absurd rfl h0
    | cons a t => exact List.mem_cons_self _ _
  unfold lookupConstByName
  dsimp only
  split
  · split_ifs
    · split
      · exact caches_error
      · rename_i info hinfo
        intro j hj hc
        cases hj
        rw [Resolver.constOf_alloc, mkHashInfo_none hinfo] at hc
        cases hc
    · exact caches_error
  · exact (populate_caches _ _ _ _).2 rfl _ hmem h0

theorem lookupConst_caches (c : Const) (s : Resolver) :
    Caches (.const c) (lookupConst E U c s) := by
  unfold lookupConst
  split
  · exact caches_error
  · exact (populate_caches _ _ _ _).1

theorem lookupName_caches (recurse : Str → Resolver → Resolver × Except PyError Nat)
    (key : CacheKey) (isStr : Bool) (digest : Str) (returnUnknown : Bool) (s : Resolver)
    (hkey : isStr = true → key = .str digest) :
    Caches key (lookupName E U recurse key isStr digest returnUnknown s) := by
  unfold lookupName
  dsimp only
  split_ifs with h0 h1
  · exact caches_error
  · exact cacheAlias_caches key returnUnknown _
  · simp only [Bool.or_eq_true, Bool.not_eq_true', decide_eq_true_eq, not_or, Bool.not_eq_false,
      not_not] at h1
    have h := lookupConstByName_caches (E := E) (U := U) (by simpa using h0) returnUnknown s
    rw [hkey h1.1]
    rwa [h1.2] at h

theorem lookupStep_caches (recurse : Str → Resolver → Resolver × Except PyError Nat)
    {digest : HashArg} {k : CacheKey} (hk : digest.cacheKey = some k) (returnUnknown : Bool)
    (s : Resolver) : Caches k (lookupStep E U recurse digest returnUnknown s) := by
  unfold lookupStep
  split
  · rename_i i hi
    rw [hk, Option.some_bind] at hi
    intro j hj _
    cases hj
    exact hi
  · split
    · cases hk
      exact lookupName_caches _ _ _ _ _ _ fun _ => rfl
    · split
      · exact caches_error
      · cases hk
        exact lookupName_caches _ _ _ _ _ _ fun h => nomatch h
    · cases hk
    · cases hk
      exact lookupConst_caches _ _
    · cases hk

theorem lookupHash_caches (fuel : Nat) {digest : HashArg} {k : CacheKey}
    (hk : digest.cacheKey = some k) (returnUnknown : Bool) (s : Resolver) :
    Caches k (lookupHash E U fuel digest returnUnknown s) := by
  cases fuel with
  | zero => exact caches_error
  | succ fuel => exact lookupStep_caches _ hk returnUnknown s

end

/-- A lookup of a name, a `bytes` name or a constructor that returns a record with a constructor is
memoised: looking the same argument up again, with either flag, returns that record from the cache
and leaves the state as it is. -/
theorem lookupHash_memo (E : HashEnv) (U : PyUnicode) (fuel fuel' : Nat) (digest : HashArg)
    (returnUnknown returnUnknown' : Bool) (s : Resolver) {k : CacheKey} {j : Nat}
    (hk : digest.cacheKey = some k) (hj : (lookupHash E U fuel digest returnUnknown s).2 = .ok j)
    (hc : ((lookupHash E U fuel digest returnUnknown s).1.constOf j).isSome) :
    lookupHash E U (fuel' + 1) digest returnUnknown' (lookupHash E U fuel digest returnUnknown s).1 =
      ((lookupHash E U fuel digest returnUnknown s).1, .ok j) := by
  have h := lookupHash_caches fuel hk returnUnknown s j hj hc
  simp only [lookupHash, lookupStep, hk, Option.some_bind, h]

/-- `SHA-1` is looked up through `sha1`, and then found in the cache. -/
theorem lookupHash_memo_sha1 :
    (HashArg.str "SHA-1".toList).cacheKey = some (.str "SHA-1".toList) ∧
    (lookupHash sha1Env PyUnicode.ascii 2 (.str "SHA-1".toList) false Resolver.empty).2 = .ok 0 ∧
    ((lookupHash sha1Env PyUnicode.ascii 2 (.str "SHA-1".toList) false
      Resolver.empty).1.constOf 0).isSome ∧
    lookupHash sha1Env PyUnicode.ascii 1 (.str "SHA-1".toList) true
      (lookupHash sha1Env PyUnicode.ascii 2 (.str "SHA-1".toList) false Resolver.empty).1 =
      ((lookupHash sha1Env PyUnicode.ascii 2 (.str "SHA-1".toList) false Resolver.empty).1, .ok 0) :=
  ⟨rfl, rfl, rfl, lookupHash_memo sha1Env PyUnicode.ascii 2 0 _ false true _ rfl rfl rfl⟩

end Passlib
