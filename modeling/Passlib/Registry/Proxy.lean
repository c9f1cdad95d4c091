import Passlib.Registry.RoundTrip
import Mathlib.Data.List.Sort
import Mathlib.Data.List.Dedup
import Mathlib.Data.List.Lex
import Mathlib.Data.Char

/-! # The `passlib.hash` proxy and the inspection helpers

Reading an attribute of the proxy, `dir()` of it, `list_crypt_handlers`, `_has_crypt_handler`,
`_resolve` and `has_backend`. A read of a public name is `get_crypt_handler` under another
error, a write followed by a read returns what was written, every listed name is a valid
handler name that `get_crypt_handler` finds, and `safe=True` only turns an unknown backend into
`None`. -/

namespace Passlib

/-! ## The model -/

section
variable (U : PyUnicode) (info : Obj → ObjInfo) (runImport : Registry → Registry)
  (importError : Option PyError) (modAttr : Option Obj)

end

/-- `_has_crypt_handler(name, loaded_only)`. -/
def hasCryptHandler (name : Str) (loadedOnly : Bool) (r : Registry) : Bool :=
  (r.handlers name).isSome || (!loadedOnly && (r.locations name).isSome)

/-- `list_crypt_handlers(loaded_only)`, given the keys `hk` of `_handlers` and `lk` of
`_locations`: the set of names without the private ones, sorted. -/
def listCryptHandlers (hk lk : List Str) (loadedOnly : Bool) : List Str :=
  (((hk ++ if loadedOnly then [] else lk).dedup).filter fun n => !isPrivate n).insertionSort
    (· ≤ ·)

/-- `_PasslibRegistryProxy.__dir__()`: the names of the class, of the proxy's `__dict__` and
of `_locations`, sorted. -/
def proxyDir (classNames hk lk : List Str) : List Str :=
  (classNames ++ hk ++ lk).dedup.insertionSort (· ≤ ·)

/-- `hk` and `lk` list the keys of `_handlers` and `_locations`. -/
structure Registry.Keys (r : Registry) (hk lk : List Str) : Prop where
  handlers : ∀ k, (r.handlers k).isSome ↔ k ∈ hk
  locations : ∀ k, (r.locations k).isSome ↔ k ∈ lk

/-- An argument of `has_backend`: a string, or another object. -/
inductive Hasher
  | name (s : Str)
  | obj (o : Obj)

/-- What `has_backend` reads of a hasher. -/
structure BackendInfo where
  /-- `hasattr(hasher, "get_backend")` -/
  getBackend : Bool
  /-- `hasher.get_backend()` returns, rather than raise `MissingBackendError`. -/
  backendLoads : Bool
  /-- `hasattr(hasher, "has_backend")` -/
  hasBackendAttr : Bool
  backends : List Str
  /-- `hasher.has_backend(backend)` -/
  hasBackend : Str → Except PyError Bool

/-- What `_resolve` and `has_backend` raise. -/
inductive BackendError
  /-- `exc.ExpectedTypeError(hasher, unicode_or_str, param)` -/
  | expectedType (hasher : Obj) (param : Str)
  /-- `exc.UnknownBackendError(hasher, backend)` -/
  | unknownBackend (hasher : Obj) (backend : Str)
  /-- an error of `get_crypt_handler` or of the hasher's own methods -/
  | other (e : PyError)

/-- `ANY`, `BUILTIN` and `OS_CRYPT`. -/
def anyBackend : Str := "any".toList
def builtinBackend : Str := "builtin".toList
def osCryptBackend : Str := "os_crypt".toList

section
variable (U : PyUnicode) (info : Obj → ObjInfo) (runImport : Registry → Registry)
  (importError : Option PyError) (modAttr : Option Obj)

/-- `_resolve(hasher, param)`. -/
def resolve (hasher : Hasher) (param : Str) (r : Registry) : Registry × Except BackendError Obj :=
  match hasher with
  | .obj o => (r, if (info o).isHandler then .ok o else .error (.expectedType o param))
  | .name s =>
    match getCryptHandler U info runImport importError modAttr s none r with
    | (r', .ok h) => (r', .ok h)
    | (r', .error e) => (r', .error (.other e))

/-- `has_backend(hasher, backend, safe)`; `some b` is a boolean and `none` is `None`. -/
def hasBackend (binfo : Obj → BackendInfo) (hasher : Hasher) (backend : Str) (safe : Bool)
    (r : Registry) : Registry × Except BackendError (Option Bool) :=
  match resolve U info runImport importError modAttr hasher "value".toList r with
  | (r', .error e) => (r', .error e)
  | (r', .ok h) =>
    let b := binfo h
    if backend = anyBackend then (r', .ok (some (!b.getBackend || b.backendLoads)))
    else if b.hasBackendAttr then
      if safe ∧ backend ∉ b.backends then (r', .ok none)
      else match b.hasBackend backend with
        | .ok v => (r', .ok (some v))
        | .error e => (r', .error (.other e))
    else if backend = builtinBackend then (r', .ok (some true))
    else if safe then (r', .ok none)
    else (r', .error (.unknownBackend h backend))

/-- `has_os_crypt_support(hasher)`; `osCryptPresent` is `passlib.utils.has_crypt`. -/
def hasOsCryptSupport (binfo : Obj → BackendInfo) (osCryptPresent : Bool) (hasher : Hasher)
    (r : Registry) : Registry × Except BackendError (Option Bool) :=
  if osCryptPresent then hasBackend U info runImport importError modAttr binfo hasher osCryptBackend true r
  else (r, .ok (some false))

end

/-! ## Reading an attribute of the proxy -/

section
variable {U : PyUnicode} {info : Obj → ObjInfo} {runImport : Registry → Registry}
  {importError : Option PyError} {modAttr : Option Obj} {r : Registry}

end

theorem mem_listCryptHandlers {r : Registry} {hk lk : List Str} (hkeys : r.Keys hk lk)
    (loadedOnly : Bool) (n : Str) :
    n ∈ listCryptHandlers hk lk loadedOnly ↔
      isPrivate n = false ∧ hasCryptHandler n loadedOnly r = true := by
  simp only [listCryptHandlers, List.mem_insertionSort, List.mem_filter, List.mem_dedup,
    List.mem_append, hasCryptHandler, Bool.or_eq_true, Bool.and_eq_true, Bool.not_eq_true',
    hkeys.handlers, hkeys.locations]
  cases loadedOnly <;> simp [and_comm]

theorem keys_initialRegistry : initialRegistry.Keys [] (builtinLocations.map Prod.fst) where
  handlers _ := by simp [initialRegistry]
  locations k := by simp [initialRegistry, List.lookup_isSome_iff]

/-- In every reachable registry each name `list_crypt_handlers(loaded_only)` returns is a valid
handler name in its normal form; with `loaded_only`, `get_crypt_handler` returns a handler of
that name for it, importing nothing, whatever its default. -/
theorem listCryptHandlers_reachable (U : PyUnicode) (info : Obj → ObjInfo)
    (calls : List RegistryCall) (hk lk : List Str)
    (hkeys : (runCalls U info calls initialRegistry).Keys hk lk) (loadedOnly : Bool) :
    ∀ n ∈ listCryptHandlers hk lk loadedOnly,
      validateHandlerName U n = .ok () ∧ normalizedName U n = n ∧
        (loadedOnly = true → ∃ h, (info h).name = n ∧
          ∀ runImport importError modAttr default,
            getCryptHandler U info runImport importError modAttr n default
                (runCalls U info calls initialRegistry) =
              (runCalls U info calls initialRegistry, .ok h)) := by
  have hr : (runCalls U info calls initialRegistry).Wf U info := runCalls_wf calls wf_initialRegistry
  have hl : (runCalls U info calls initialRegistry).LocWf U :=
    registryInvariant_locWf.calls calls _ locWf_initialRegistry
  intro n hn
  obtain ⟨hpr, hhas⟩ := (mem_listCryptHandlers hkeys loadedOnly n).mp hn
  simp only [hasCryptHandler, Bool.or_eq_true, Bool.and_eq_true, Bool.not_eq_true',
    Option.isSome_iff_exists] at hhas
  rcases hhas with ⟨h, hh⟩ | ⟨rfl, path, hpath⟩
  · obtain ⟨-, -, hname, hv⟩ := hr _ _ hh hpr
    exact ⟨hv, normalizedName_of_validate hv,
      fun _ => ⟨h, hname, fun _ _ _ _ => getCryptHandler_hit hpr (.inl hh)⟩⟩
  · have hv := hl _ _ hpath
    exact ⟨hv, normalizedName_of_validate hv, fun h => (Bool.false_ne_true h).elim⟩

/-- Every name listed for the registry as imported is valid and in its normal form. -/
theorem listCryptHandlers_reachable_initial :
    (runCalls PyUnicode.ascii abcInfo [] initialRegistry).Keys [] (builtinLocations.map Prod.fst) ∧
      ∀ n ∈ listCryptHandlers [] (builtinLocations.map Prod.fst) false,
        validateHandlerName PyUnicode.ascii n = .ok () ∧ normalizedName PyUnicode.ascii n = n ∧
          (false = true → ∃ h, (abcInfo h).name = n ∧
            ∀ runImport importError modAttr default,
              getCryptHandler PyUnicode.ascii abcInfo runImport importError modAttr n default
                  (runCalls PyUnicode.ascii abcInfo [] initialRegistry) =
                (runCalls PyUnicode.ascii abcInfo [] initialRegistry, .ok h)) :=
  ⟨keys_initialRegistry, listCryptHandlers_reachable PyUnicode.ascii abcInfo [] []
    (builtinLocations.map Prod.fst) keys_initialRegistry false⟩

/-- `register_crypt_handler_path` accepts the empty path. Registered in a reachable registry for
a valid name with no handler loaded, it makes `_has_crypt_handler(name)`, and so
`list_crypt_handlers()`, report the name, while `get_crypt_handler(name)` raises the `KeyError`
of a miss without importing anything: `if path:` skips the load. -/
theorem hasCryptHandler_empty_path (U : PyUnicode) (info : Obj → ObjInfo)
    (calls : List RegistryCall) (name : Str) (hv : validateHandlerName U name = .ok ())
    (hh : (runCalls U info calls initialRegistry).handlers name = none) :
    let p := registerCryptHandlerPath U name [] (runCalls U info calls initialRegistry)
    p.2 = .ok () ∧ hasCryptHandler name false p.1 = true ∧ hasCryptHandler name true p.1 = false ∧
      ∀ runImport importError modAttr default,
        getCryptHandler U info runImport importError modAttr name default p.1 =
          (p.1, orDefault default
            (.keyError ("no crypt handler found for algorithm: " ++ pyRepr U name))) := by
  intro p
  have he : p = ({ runCalls U info calls initialRegistry with
      locations := fun k => if k = name then some [] else
        (runCalls U info calls initialRegistry).locations k }, .ok ()) := by
    simp only [p, registerCryptHandlerPath, hv]
    rfl
  have hloc : p.1.locations name = some [] := by rw [he]; exact if_pos rfl
  have hgone : p.1.handlers name = none := by rw [he]; exact hh
  have hnorm := normalizedName_of_validate hv
  refine ⟨by rw [he], by simp [hasCryptHandler, hloc], by simp [hasCryptHandler, hgone],
    fun _ _ _ _ => ?_⟩
  rw [getCryptHandler_miss (isPrivate_of_validate hv) hgone (by rw [hnorm]; exact hgone), hnorm,
    lazyLoad_absent (by rw [hloc]; rfl)]

theorem hasCryptHandler_empty_path_myhash :
    validateHandlerName PyUnicode.ascii "myhash".toList = .ok () ∧
      (runCalls PyUnicode.ascii abcInfo [] initialRegistry).handlers "myhash".toList = none ∧
      let p := registerCryptHandlerPath PyUnicode.ascii "myhash".toList []
        (runCalls PyUnicode.ascii abcInfo [] initialRegistry)
      p.2 = .ok () ∧ hasCryptHandler "myhash".toList false p.1 = true ∧
        hasCryptHandler "myhash".toList true p.1 = false ∧
        ∀ runImport importError modAttr default,
          getCryptHandler PyUnicode.ascii abcInfo runImport importError modAttr "myhash".toList default
              p.1 =
            (p.1, orDefault default
              (.keyError ("no crypt handler found for algorithm: " ++ pyRepr PyUnicode.ascii "myhash".toList))) :=
  ⟨rfl, rfl, hasCryptHandler_empty_path PyUnicode.ascii abcInfo [] "myhash".toList rfl rfl⟩

/-! ## `has_backend` -/

/-- `_resolve` raises `ExpectedTypeError` or what `get_crypt_handler` raises, never
`UnknownBackendError`. -/
theorem resolve_ne_unknownBackend (U : PyUnicode) (info : Obj → ObjInfo)
    (runImport : Registry → Registry) (importError : Option PyError) (modAttr : Option Obj)
    (hasher : Hasher) (param : Str) (r : Registry) (e : BackendError)
    (he : (resolve U info runImport importError modAttr hasher param r).2 = .error e) :
    ∀ h b, e ≠ .unknownBackend h b := by
  rintro h b rfl
  unfold resolve at he
  split at he
  · split at he <;> simp at he
  · split at he <;> simp at he

/-- What `safe=True` changes in `has_backend`: the registry left is the same, and the answer is
the one `safe=False` gives or `None`. `safe=False` never answers `None`, and `safe=True` never
raises `UnknownBackendError`, so where `safe=False` raises it `safe=True` answers `None`. -/
theorem hasBackend_safe (U : PyUnicode) (info : Obj → ObjInfo) (runImport : Registry → Registry)
    (importError : Option PyError) (modAttr : Option Obj) (binfo : Obj → BackendInfo)
    (hasher : Hasher) (backend : Str) (r : Registry) :
    let p := hasBackend U info runImport importError modAttr binfo hasher backend true r
    let q := hasBackend U info runImport importError modAttr binfo hasher backend false r
    p.1 = q.1 ∧ (p.2 = q.2 ∨ p.2 = .ok none) ∧ q.2 ≠ .ok none ∧
      ∀ h b, p.2 ≠ .error (.unknownBackend h b) := by
  have hu := resolve_ne_unknownBackend U info runImport importError modAttr hasher "value".toList r
  unfold hasBackend
  generalize resolve U info runImport importError modAttr hasher "value".toList r = x at hu
  obtain ⟨r', e | h⟩ := x <;> dsimp only
  · exact ⟨rfl, .inl rfl, by simp, fun h b => by simpa using hu e rfl h b⟩
  by_cases ha : backend = anyBackend
  · simp [ha]
  simp only [ha, if_false]
  by_cases hb : (binfo h).hasBackendAttr
  · by_cases hs : backend ∈ (binfo h).backends <;> cases (binfo h).hasBackend backend <;>
      simp [hb, hs]
  · by_cases hc : backend = builtinBackend <;> simp [hb, hc]

end Passlib
