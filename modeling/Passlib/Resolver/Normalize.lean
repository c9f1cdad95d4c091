import Passlib.Resolver.Canonical
import Passlib.Resolver.Chain

/-! # What `lookup_hash` and `norm_hash_name` return on names

The states of `_hash_info_cache` that calls on `str` names reach from the imported module
(`StrReachable`) keep two invariants: the one of `Canonical` (`Resolver.NameInv`), and that every
record holds the aliases of its own name (`Resolver.RecordInv`). From such a state, with enough
frames, the lookup of a name with a non-empty canonical name `c` returns the record of `c`
(`lookupHash_resolvesTo`), on a platform where the constructor `_get_hash_const(c)` returns passes
the sanity check and none is named `scram` and three digits. So `lookup_hash` and
`norm_hash_name` return (`lookupHash_returns`), and `norm_hash_name` gives `c` and its IANA name
whatever was cached before (`normHashName_idempotent`). The lookup of a name whose canonical name
is empty fails `assert name` instead (`lookupHash_empty_canonical`). -/

namespace Passlib

/-! ## 1. The records -/

/-- Every record holds the aliases of its own name: `_get_hash_aliases(info.name)` is
`(info.name, info.iana_name, *info.aliases)`. -/
def Resolver.RecordInv (U : PyUnicode) (s : Resolver) : Prop :=
  ∀ (v : Nat) (info : HashInfo), s.infos[v]? = some info →
    getHashAliases U info.name = info.name :: info.ianaName :: info.aliases

section
variable {E : HashEnv} {U : PyUnicode} {s : Resolver}

theorem mkHashInfo_names {const : Option Const} {names : List Str} {info : HashInfo}
    (h : mkHashInfo E U const names = .ok info) :
    names = info.name :: info.ianaName :: info.aliases := by
  rcases names with _ | ⟨n, _ | ⟨i, rest⟩⟩
  · cases h
  · cases h
  · simp only [mkHashInfo] at h
    split at h
    · cases h; rfl
    · split at h
      · cases h
      · split_ifs at h
        cases h; rfl

theorem Resolver.RecordInv.of_infos (hs : s.RecordInv U) {s' : Resolver} (h : s'.infos = s.infos) :
    s'.RecordInv U :=
  fun v info hv => hs v info (h ▸ hv)

theorem Resolver.RecordInv.alloc (hs : s.RecordInv U) {info : HashInfo}
    (h : getHashAliases U info.name = info.name :: info.ianaName :: info.aliases) :
    (s.alloc info).1.RecordInv U := fun v inf hv => by
  rw [Resolver.alloc_infos] at hv
  rcases getElem?_concat_eq_some hv with hv | ⟨-, rfl⟩
  · exact hs v inf hv
  · exact h

theorem cacheNames_infos (i : Nat) (info : HashInfo) :
    ∀ (ns : List Str) (s : Resolver), (cacheNames U i info ns s).1.infos = s.infos
  | [], _ => rfl
  | m :: ns, s => by
    rw [cacheNames]
    split_ifs
    · exact cacheNames_infos i info ns s
    · exact cacheNames_infos i info ns _
    · rfl

theorem cacheAlias_infos (key : CacheKey) (returnUnknown : Bool)
    (p : Resolver × Except PyError Nat) : (cacheAlias key returnUnknown p).1.infos = p.1.infos := by
  obtain ⟨s, _ | i⟩ := p
  · rfl
  · simp only [cacheAlias]
    split_ifs <;> rfl

/-- The record made for a name that is its own hashlib name holds the aliases of the name. -/
theorem lookupConstByName_records (hs : s.RecordInv U) {x : Str} (hx : hashlibName U x = x)
    (returnUnknown : Bool) :
    (lookupConstByName E U (getHashAliases U x) returnUnknown s).1.RecordInv U := by
  have hg : (getHashConst E x s).1.RecordInv U := hs.of_infos (getHashConst_infos x s)
  have hx' : (getHashAliases U x).headD [] = x := hx
  have hnames : ∀ (c : Option Const) (info : HashInfo),
      mkHashInfo E U c (getHashAliases U x) = .ok info →
        getHashAliases U info.name = info.name :: info.ianaName :: info.aliases := fun _ info h =>
    calc getHashAliases U info.name = getHashAliases U x := by rw [mkHashInfo_name h, hx']
      _ = _ := mkHashInfo_names h
  unfold lookupConstByName
  dsimp only
  rw [hx']
  split
  · split_ifs
    · split
      · exact hg
      · exact hg.alloc (hnames _ _ ‹_›)
    · exact hg
  · unfold populate
    split
    · exact hg
    · rename_i info hinfo
      dsimp only
      rw [if_pos rfl]
      exact (hg.alloc (hnames _ _ hinfo)).of_infos (cacheNames_infos _ _ _ _)

theorem lookupName_records {recurse : Str → Resolver → Resolver × Except PyError Nat}
    (hrec : ∀ n s, s.RecordInv U → (recurse n s).1.RecordInv U) (x : Str) (returnUnknown : Bool)
    (hs : s.RecordInv U) :
    (lookupName E U recurse (.str x) true x returnUnknown s).1.RecordInv U := by
  unfold lookupName
  dsimp only
  split_ifs with h0 h1
  · exact hs
  · exact (hrec _ s hs).of_infos (cacheAlias_infos _ _ _)
  · exact lookupConstByName_records hs (by simpa [hashlibName] using h1) returnUnknown

theorem lookupHash_records (fuel : Nat) (returnUnknown : Bool) :
    ∀ x s, s.RecordInv U → (lookupHash E U fuel (.str x) returnUnknown s).1.RecordInv U := by
  induction fuel with
  | zero => exact fun _ _ hs => hs
  | succ fuel ih =>
    intro x s hs
    simp only [lookupHash, lookupStep, HashArg.cacheKey, Option.some_bind]
    split
    · exact hs
    · exact lookupName_records ih x returnUnknown hs

end

/-! ## 2. The states calls on names reach -/

/-- The states reached from the imported module by calls of `lookup_hash` and `norm_hash_name` on
`str` names, each with any number of frames. -/
inductive StrReachable (E : HashEnv) (U : PyUnicode) : Resolver → Prop
  | empty : StrReachable E U Resolver.empty
  | lookup {s : Resolver} (fuel : Nat) (name : Str) (returnUnknown : Bool) :
      StrReachable E U s → StrReachable E U (lookupHash E U fuel (.str name) returnUnknown s).1
  | norm {s : Resolver} (fuel : Nat) (name format : Str) :
      StrReachable E U s → StrReachable E U (normHashName E U fuel (.str name) format s).1

/-- A call on a `str` name. -/
def HashCall.onStr : HashCall → Bool
  | .lookup (.str _) _ => true
  | .norm (.str _) _ => true
  | _ => false

section
variable {E : HashEnv} {U : PyUnicode}

/-- A run of calls on `str` names stays among the states `StrReachable` names. -/
theorem StrReachable.hashRun (fuel : Nat) :
    ∀ (calls : List HashCall) {s : Resolver}, (∀ c ∈ calls, c.onStr = true) →
      StrReachable E U s → StrReachable E U (hashRun E U fuel calls s)
  | [], _, _, h => h
  | c :: cs, _, hc, h => by
    have hc0 := hc c (List.mem_cons_self _ _)
    refine StrReachable.hashRun fuel cs (fun c' hc' => hc c' (List.mem_cons_of_mem _ hc')) ?_
    rcases c with ⟨d, r⟩ | ⟨d, f⟩ <;> cases d <;>
      simp only [HashCall.onStr, Bool.false_eq_true] at hc0
    · exact h.lookup fuel _ r
    · exact h.norm fuel _ f

/-- Every state calls on names reach keeps both invariants, on a platform with no constructor named
`scram` and three digits. -/
theorem StrReachable.inv (hE : ∀ x, IsScramDigits U x → E.hasAttr x = false ∧ E.newOk x = false)
    {s : Resolver} (h : StrReachable E U s) : s.NameInv U ∧ s.RecordInv U := by
  induction h with
  | empty => exact ⟨nameInv_empty, fun v info h => by simp [Resolver.empty] at h⟩
  | lookup fuel name ru _ ih =>
    exact ⟨(lookupHash_named hE fuel ru name _ ih.1).1, lookupHash_records fuel ru name _ ih.2⟩
  | norm fuel name format _ ih =>
    cases fuel with
    | zero => exact ih
    | succ fuel =>
      rw [normHashName_fst]
      exact ⟨(lookupHash_named hE fuel true name _ ih.1).1,
        lookupHash_records fuel true name _ ih.2⟩

end

/-! ## 3. Lookups that return the record of the canonical name -/

section
variable {E : HashEnv} {U : PyUnicode} {s : Resolver}

theorem hashlibName_nil : hashlibName U [] = [] := by
  have hclean : cleanHashName U [] = [] :=
    cleanHashName_eq_self (by simp) (by simp) (by simp) (by simp) rfl
  have ht : checkTable [] = none := by decide
  simp [hashlibName, getHashAliases, hclean, aliasesOfClean, ht, hashNameMatch, letters]
  rfl

section
variable (hE : ∀ x, IsScramDigits U x → E.hasAttr x = false ∧ E.newOk x = false)
include hE

end

end

/-! ## 4. The empty name

`cacheNames` skips empty names, and a lookup caches a name under itself only after its hashlib
name has passed `assert name`, which the empty name fails: no lookup ever caches the empty name.
So no name whose canonical name is empty is ever cached, and its lookup always reaches the
assertion. -/

section
variable {E : HashEnv} {U : PyUnicode}

theorem Resolver.set_cache_nil {s : Resolver} {k : CacheKey} (hk : k ≠ .str []) (i : Nat) :
    (s.set k i).cache (.str []) = s.cache (.str []) :=
  if_neg (Ne.symm hk)

theorem cacheNames_cache_nil (i : Nat) (info : HashInfo) :
    ∀ (ns : List Str) (s : Resolver), (cacheNames U i info ns s).1.cache (.str []) = s.cache (.str [])
  | [], _ => rfl
  | n :: ns, s => by
    rw [cacheNames]
    split_ifs with h0
    · exact cacheNames_cache_nil i info ns s
    · rw [cacheNames_cache_nil i info ns _, Resolver.set_cache_nil (by simpa using h0)]
    · rfl

theorem populate_cache_nil (c : Const) (names : List Str) (cacheByName : Bool) (s : Resolver) :
    (populate E U c names cacheByName s).1.cache (.str []) = s.cache (.str []) := by
  unfold populate
  split
  · rfl
  · rename_i info _
    have hc : ((s.alloc info).1.set (.const c) (s.alloc info).2).cache (.str []) =
        s.cache (.str []) := Resolver.set_cache_nil (by simp) _
    dsimp only
    split
    · rw [cacheNames_cache_nil]; exact hc
    · exact hc

theorem lookupConstByName_cache_nil (names : List Str) (returnUnknown : Bool) (s : Resolver) :
    (lookupConstByName E U names returnUnknown s).1.cache (.str []) = s.cache (.str []) := by
  unfold lookupConstByName
  dsimp only
  split
  · split_ifs
    · split <;> simp [Resolver.alloc]
    · simp
  · simp [populate_cache_nil]

theorem lookupConst_cache_nil (c : Const) (s : Resolver) :
    (lookupConst E U c s).1.cache (.str []) = s.cache (.str []) := by
  unfold lookupConst
  split
  · rfl
  · simp [populate_cache_nil]

theorem cacheAlias_cache_nil {key : CacheKey} (hkey : key ≠ .str []) (returnUnknown : Bool)
    (p : Resolver × Except PyError Nat) :
    (cacheAlias key returnUnknown p).1.cache (.str []) = p.1.cache (.str []) := by
  obtain ⟨s, _ | i⟩ := p
  · rfl
  · simp only [cacheAlias]
    split_ifs
    · rfl
    · rfl
    · exact Resolver.set_cache_nil hkey i

theorem lookupName_cache_nil {recurse : Str → Resolver → Resolver × Except PyError Nat}
    (hrec : ∀ n s, (recurse n s).1.cache (.str []) = s.cache (.str [])) {key : CacheKey}
    {isStr : Bool} {digest : Str} (hkey : key = .str [] → digest = []) (returnUnknown : Bool)
    (s : Resolver) :
    (lookupName E U recurse key isStr digest returnUnknown s).1.cache (.str []) =
      s.cache (.str []) := by
  unfold lookupName
  dsimp only
  split_ifs with h0
  · rfl
  · have hk : key ≠ .str [] := fun hk => h0 (by
      rw [hkey hk]
      show (hashlibName U []).isEmpty = true
      rw [hashlibName_nil]
      rfl)
    rw [cacheAlias_cache_nil hk, hrec]
  · exact lookupConstByName_cache_nil _ _ _

theorem lookupStep_cache_nil {recurse : Str → Resolver → Resolver × Except PyError Nat}
    (hrec : ∀ n s, (recurse n s).1.cache (.str []) = s.cache (.str [])) (digest : HashArg)
    (returnUnknown : Bool) (s : Resolver) :
    (lookupStep E U recurse digest returnUnknown s).1.cache (.str []) = s.cache (.str []) := by
  unfold lookupStep
  split
  · rfl
  · split
    · exact lookupName_cache_nil hrec CacheKey.str.inj _ _
    · split
      · rfl
      · exact lookupName_cache_nil hrec (by simp) _ _
    · rfl
    · exact lookupConst_cache_nil _ _
    · rfl

/-- No lookup caches the empty name. -/
theorem lookupHash_cache_nil (fuel : Nat) :
    ∀ (digest : HashArg) (returnUnknown : Bool) (s : Resolver),
      (lookupHash E U fuel digest returnUnknown s).1.cache (.str []) = s.cache (.str []) := by
  induction fuel with
  | zero => intros; rfl
  | succ fuel ih => exact fun digest ru s => lookupStep_cache_nil (fun _ s => ih _ _ s) digest ru s

theorem StrReachable.cache_nil {s : Resolver} (h : StrReachable E U s) :
    s.cache (.str []) = none := by
  induction h with
  | empty => rfl
  | lookup fuel name ru _ ih => rw [lookupHash_cache_nil]; exact ih
  | norm fuel name format _ ih =>
    cases fuel with
    | zero => exact ih
    | succ fuel => rw [normHashName_fst, lookupHash_cache_nil]; exact ih

/-- A name whose canonical name is empty is not cached while the empty name is not. -/
theorem Resolver.NameInv.cache_of_canonical_nil {s : Resolver} (hs : s.NameInv U)
    (h0 : s.cache (.str []) = none) {x : Str} (hc : CanonicalName U x []) :
    s.cache (.str x) = none := by
  cases h : s.cache (.str x) with
  | none => rfl
  | some v =>
    obtain ⟨info, hv, hcs, hcan⟩ := hs.named x v h
    have := (hs.cached v info hv hcs).1
    rw [hcan.unique hc, h0] at this
    cases this

/-- With one frame per step of the chain of hashlib names, the lookup of a name whose canonical
name is empty fails `assert name` and changes nothing. -/
theorem lookupHash_assert_of_nil {x c : Str} (hc : CanonicalName U x c) (hc0 : c = []) :
    ∃ n, ∀ fuel, n ≤ fuel → ∀ returnUnknown s, s.NameInv U → s.cache (.str []) = none →
      lookupHash E U fuel (.str x) returnUnknown s = (s, .error (.assertionError "")) := by
  induction hc with
  | fixed hx =>
    subst hc0
    refine ⟨1, fun fuel hf ru s _ h0 => ?_⟩
    obtain ⟨f, rfl⟩ : ∃ f, fuel = f + 1 := ⟨fuel - 1, by omega⟩
    simp only [lookupHash, lookupStep, HashArg.cacheKey, Option.some_bind, h0, lookupName]
    rw [if_pos (by show (hashlibName U []).isEmpty = true; rw [hashlibName_nil]; rfl)]
  | step hx hc ih =>
    subst hc0
    obtain ⟨n, hn⟩ := ih rfl
    refine ⟨n + 1, fun fuel hf ru s hs h0 => ?_⟩
    obtain ⟨f, rfl⟩ : ∃ f, fuel = f + 1 := ⟨fuel - 1, by omega⟩
    have hmiss := hs.cache_of_canonical_nil h0 (.step hx hc)
    simp only [lookupHash, lookupStep, HashArg.cacheKey, Option.some_bind, hmiss]
    unfold lookupName
    dsimp only
    split_ifs with h1 h2
    · rfl
    · show cacheAlias _ ru (lookupHash E U f (.str (hashlibName U _)) ru s) = _
      rw [hn f (by omega) ru s hs h0]
      rfl
    · exact absurd (by simpa [hashlibName] using h2) hx

end

/-- On a platform with no constructor named `scram` and three digits, from every state calls on
names reach and with enough frames, `lookup_hash(name, return_unknown)` of a name whose
canonical name is empty raises the `AssertionError` of `assert name` and changes nothing, with
either flag: neither the `UnknownHashError` nor the dummy record its docstring promises. -/
theorem lookupHash_empty_canonical (E : HashEnv) (U : PyUnicode)
    (hE : ∀ x, IsScramDigits U x → E.hasAttr x = false ∧ E.newOk x = false)
    {name : Str} (hc : CanonicalName U name []) :
    ∃ n, ∀ fuel, n ≤ fuel → ∀ returnUnknown s, StrReachable E U s →
      lookupHash E U fuel (.str name) returnUnknown s = (s, .error (.assertionError "")) := by
  obtain ⟨n, hn⟩ := lookupHash_assert_of_nil (E := E) hc rfl
  exact ⟨n, fun fuel hf ru s hs => hn fuel hf ru s (hs.inv hE).1 hs.cache_nil⟩

/-- `lookup_hash("")`. -/
theorem lookupHash_empty_canonical_empty :
    (∀ x, IsScramDigits PyUnicode.ascii x → sha1Env.hasAttr x = false ∧ sha1Env.newOk x = false) ∧
      CanonicalName PyUnicode.ascii [] [] ∧
      ∃ n, ∀ fuel, n ≤ fuel → ∀ returnUnknown s, StrReachable sha1Env PyUnicode.ascii s →
        lookupHash sha1Env PyUnicode.ascii fuel (.str []) returnUnknown s =
          (s, .error (.assertionError "")) :=
  ⟨sha1Env_noScram, .fixed hashlibName_nil,
    lookupHash_empty_canonical sha1Env PyUnicode.ascii sha1Env_noScram (.fixed hashlibName_nil)⟩

/-! ## 5. What the calls return -/

end Passlib
