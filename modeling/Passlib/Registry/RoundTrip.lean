import Passlib.Registry.Lookup

/-! # Writes and the lookups that follow them

How the registry's calls compose. A path that `register_crypt_handler_path` stored always
unpacks into a module and an attribute, so the lazy load never meets the unpacking error. A
registration is found by every spelling of its name and can be repeated. An unload makes every
spelling of the name go to the lazy load, which misses at once when the path went too. -/

namespace Passlib

/-! ## Lazy-load paths -/

/-- The path checks of `register_crypt_handler_path`. -/
def PathOk (path : Str) : Prop :=
  path.head? ≠ some '.' ∧ ¬(':' ∈ path ∧ 1 < path.count ':') ∧
    ¬(':' ∈ path ∧ '.' ∈ path.dropWhile (· ≠ ':'))

/-- Every path of `_locations` passed the path checks. -/
def Registry.PathsOk (r : Registry) : Prop := ∀ k path, r.locations k = some path → PathOk path

/-- No path of the built-in table starts with `.` or has a `:`. -/
theorem builtinLocations_paths : ∀ e ∈ builtinLocations, e.2.head? ≠ some '.' ∧ ':' ∉ e.2 := by
  decide

theorem pathsOk_initialRegistry : initialRegistry.PathsOk := by
  intro k p hk
  obtain ⟨l₁, l₂, hl, -⟩ := List.lookup_eq_some_iff.mp hk
  have := builtinLocations_paths (k, p) (by rw [hl]; simp)
  exact ⟨this.1, fun h => this.2 h.1, fun h => this.2 h.1⟩

section
variable {U : PyUnicode} {info : Obj → ObjInfo}

/-- A path registration raises and leaves the registry as it was, or stores a path that passed
the checks under a valid name. -/
theorem registerCryptHandlerPath_cases (name path : Str) (r : Registry) :
    (∃ e, registerCryptHandlerPath U name path r = (r, .error e)) ∨
      (validateHandlerName U name = .ok () ∧ PathOk path ∧ registerCryptHandlerPath U name path r =
        ({ r with locations := fun k => if k = name then some path else r.locations k }, .ok ())) := by
  unfold registerCryptHandlerPath
  split
  · exact .inl ⟨_, rfl⟩
  rename_i hv
  by_cases h1 : path.head? = some '.'
  · exact .inl ⟨_, by rw [if_pos h1]⟩
  rw [if_neg h1]
  by_cases h2 : ':' ∈ path ∧ 1 < path.count ':'
  · exact .inl ⟨_, by rw [if_pos h2]⟩
  rw [if_neg h2]
  by_cases h3 : ':' ∈ path ∧ '.' ∈ path.dropWhile (· ≠ ':')
  · exact .inl ⟨_, by rw [if_pos h3]⟩
  rw [if_neg h3]
  exact .inr ⟨hv, ⟨h1, h2, h3⟩, rfl⟩

theorem Registry.PathsOk.registerPath {r : Registry} (hr : r.PathsOk) (name path : Str) :
    (registerCryptHandlerPath U name path r).1.PathsOk := by
  rcases registerCryptHandlerPath_cases name path r with ⟨e, h⟩ | ⟨-, hp, h⟩ <;> rw [h]
  · exact hr
  · intro k p hk
    dsimp only at hk
    split at hk
    · cases hk; exact hp
    · exact hr k p hk

theorem registryInvariant_pathsOk : RegistryInvariant U info Registry.PathsOk where
  register r h force attr hr k p hk := by
    rw [locations_registerCryptHandler] at hk; exact hr k p hk
  registerPath _ name path hr := hr.registerPath name path
  storePrivate _ _ _ _ hr := hr
  unload r name locations hr k p hk := by
    simp only [unloadHandlerName] at hk
    split at hk
    · cases hk
    · exact hr k p hk

end

theorem splitOn_colon_of_not_mem {s : Str} (h : ':' ∉ s) : s.splitOn ':' = [s] :=
  List.splitOnP_eq_single _ _ fun _ hx hc => h (beq_iff_eq.mp hc ▸ hx)

/-- A path that passed the checks is a module name, or a module name and an attribute around
its only `:`, the attribute without `.`. -/
theorem splitPath_of_pathOk {path : Str} (hp : PathOk path) (name : Str) :
    (':' ∉ path ∧ splitPath path name = .ok (path, name)) ∨
      ∃ modname modattr, path = modname ++ ':' :: modattr ∧ ':' ∉ modname ∧ ':' ∉ modattr ∧
        '.' ∉ modattr ∧ splitPath path name = .ok (modname, modattr) := by
  by_cases hc : ':' ∈ path
  · obtain ⟨a, b, rfl⟩ := List.append_of_mem hc
    have hcount : (a ++ ':' :: b).count ':' ≤ 1 := not_lt.mp fun h => hp.2.1 ⟨hc, h⟩
    simp only [List.count_append, List.count_cons_self] at hcount
    have ha : ':' ∉ a := List.count_eq_zero.mp (by omega)
    have hb : ':' ∉ b := List.count_eq_zero.mp (by omega)
    have hdrop : (a ++ ':' :: b).dropWhile (· ≠ ':') = ':' :: b := by
      rw [List.dropWhile_append_of_pos fun x hx => decide_eq_true (ne_of_mem_of_not_mem hx ha)]
      simp
    have hsplit : (a ++ ':' :: b).splitOn ':' = [a, b] := by
      rw [List.splitOn, List.splitOnP_first (· == ':') a
        (fun _ hx hx' => ha (beq_iff_eq.mp hx' ▸ hx)) ':' (beq_self_eq_true ':')]
      exact congrArg _ (splitOn_colon_of_not_mem hb)
    refine .inr ⟨a, b, rfl, ha, hb, fun hd => hp.2.2 ⟨hc, ?_⟩, by rw [splitPath, hsplit]⟩
    rw [hdrop]
    exact List.mem_cons_of_mem _ hd
  · exact .inl ⟨hc, by rw [splitPath, splitOn_colon_of_not_mem hc]⟩

/-- In every reachable registry each lazy-load path unpacks: into itself and the handler name
when it has no `:`, else into the module name and the attribute around its only `:`, the
attribute without `.`. The unpacking error of `get_crypt_handler` is never raised. -/
theorem splitPath_reachable (U : PyUnicode) (info : Obj → ObjInfo) (calls : List RegistryCall)
    {name path : Str} (hl : (runCalls U info calls initialRegistry).locations name = some path) :
    (':' ∉ path ∧ splitPath path name = .ok (path, name)) ∨
      ∃ modname modattr, path = modname ++ ':' :: modattr ∧ ':' ∉ modname ∧ ':' ∉ modattr ∧
        '.' ∉ modattr ∧ splitPath path name = .ok (modname, modattr) :=
  splitPath_of_pathOk (registryInvariant_pathsOk.calls calls _ pathsOk_initialRegistry name path hl)
    name

/-- The docstring's `register_crypt_handler_path("myhash", "myapp.helpers:MyHash")`. -/
theorem splitPath_reachable_myhash :
    (runCalls PyUnicode.ascii abcInfo [.registerPath "myhash".toList "myapp.helpers:MyHash".toList]
        initialRegistry).locations "myhash".toList = some "myapp.helpers:MyHash".toList ∧
      ((':' ∉ "myapp.helpers:MyHash".toList ∧
          splitPath "myapp.helpers:MyHash".toList "myhash".toList =
            .ok ("myapp.helpers:MyHash".toList, "myhash".toList)) ∨
        ∃ modname modattr, "myapp.helpers:MyHash".toList = modname ++ ':' :: modattr ∧
          ':' ∉ modname ∧ ':' ∉ modattr ∧ '.' ∉ modattr ∧
          splitPath "myapp.helpers:MyHash".toList "myhash".toList = .ok (modname, modattr)) :=
  ⟨by decide, splitPath_reachable PyUnicode.ascii abcInfo
    [.registerPath "myhash".toList "myapp.helpers:MyHash".toList] (by decide)⟩

/-! ## Register, then look up -/

section
variable {U : PyUnicode} {info : Obj → ObjInfo} {r : Registry} {h : Obj}

/-- A registration that returned can be repeated: the second returns at once and changes
nothing, whatever its `force`. -/
theorem registerCryptHandler_repeat {force : Bool} {attr : Option Str}
    (hok : (registerCryptHandler U info h force attr r).2 = .ok ()) (force' : Bool) :
    registerCryptHandler U info h force' attr (registerCryptHandler U info h force attr r).1 =
      ((registerCryptHandler U info h force attr r).1, .ok ()) := by
  unfold registerCryptHandler at hok ⊢
  cases hc : registerChecks U info h attr with
  | error e => simp only [hc] at hok; cases hok
  | ok n =>
    simp only [hc] at hok ⊢
    obtain ⟨rfl, -, ht, -⟩ := registerChecks_ok hc
    have hs := registerStore_stored hok
    generalize (registerStore U info h force (info h).name r).1 = r' at hs ⊢
    simp [registerStore, hs, ht]

end

/-- After `register_crypt_handler(handler, force)` returns in a reachable registry,
`get_crypt_handler` finds the handler under every public spelling whose normal form is its name,
without importing, and registering it again returns at once and changes nothing. -/
theorem getCryptHandler_after_register (U : PyUnicode) (info : Obj → ObjInfo)
    (calls : List RegistryCall) (h : Obj) (force : Bool)
    (hok : (registerCryptHandler U info h force none (runCalls U info calls initialRegistry)).2 =
      .ok ())
    (name : Str) (hpr : isPrivate name = false) (hn : normalizedName U name = (info h).name)
    (runImport : Registry → Registry) (importError : Option PyError) (modAttr : Option Obj)
    (default : Option Obj) (force' : Bool) :
    let r := (registerCryptHandler U info h force none (runCalls U info calls initialRegistry)).1
    getCryptHandler U info runImport importError modAttr name default r = (r, .ok h) ∧
      registerCryptHandler U info h force' none r = (r, .ok ()) := by
  intro r
  have hr : r.Wf U info := registerCryptHandler_wf (runCalls_wf calls wf_initialRegistry) h force none
  have hs : r.handlers (info h).name = some h := registerCryptHandler_stored hok
  refine ⟨getCryptHandler_hit hpr ?_, registerCryptHandler_repeat hok force'⟩
  by_cases he : name = (info h).name
  · exact .inl (he ▸ hs)
  · exact .inr ⟨hr.handlers_eq_none hpr fun e => he (e.symm.trans hn), hn ▸ hs⟩

/-- `ABC` finds the handler named `abc` registered in the registry as imported. -/
theorem getCryptHandler_after_register_upper :
    (registerCryptHandler PyUnicode.ascii abcInfo 1 false none
        (runCalls PyUnicode.ascii abcInfo [] initialRegistry)).2 = .ok () ∧
      isPrivate "ABC".toList = false ∧
      normalizedName PyUnicode.ascii "ABC".toList = (abcInfo 1).name ∧
      let r := (registerCryptHandler PyUnicode.ascii abcInfo 1 false none
        (runCalls PyUnicode.ascii abcInfo [] initialRegistry)).1
      getCryptHandler PyUnicode.ascii abcInfo id none none "ABC".toList none r = (r, .ok 1) ∧
        registerCryptHandler PyUnicode.ascii abcInfo 1 true none r = (r, .ok ()) :=
  ⟨rfl, by decide, by decide,
    getCryptHandler_after_register PyUnicode.ascii abcInfo [] 1 false rfl "ABC".toList
      (by decide) (by decide) id none none none true⟩

/-! ## Unload, then look up -/

/-- After `_unload_handler_name(name, locations)` in a reachable registry, every public spelling
of the name goes to the lazy load of the name; with `locations` it imports nothing and raises
the `KeyError` for the name, or answers the default. -/
theorem getCryptHandler_after_unload (U : PyUnicode) (info : Obj → ObjInfo)
    (calls : List RegistryCall) (name : Str) (locations : Bool) (s : Str)
    (hpr : isPrivate s = false) (hn : normalizedName U s = name)
    (runImport : Registry → Registry) (importError : Option PyError) (modAttr : Option Obj)
    (default : Option Obj) :
    let r := unloadHandlerName name locations (runCalls U info calls initialRegistry)
    getCryptHandler U info runImport importError modAttr s default r =
      if locations then
        (r, orDefault default (.keyError ("no crypt handler found for algorithm: " ++ pyRepr U name)))
      else getCryptHandler.lazyLoad U info runImport importError modAttr default r name := by
  intro r
  have hr : r.Wf U info := (runCalls_wf calls wf_initialRegistry).unload name locations
  have hgone : r.handlers name = none := if_pos rfl
  have hs : r.handlers s = none := by
    by_cases he : s = name
    · exact he ▸ hgone
    · exact hr.handlers_eq_none hpr (hn.trans_ne (Ne.symm he))
  rw [getCryptHandler_miss hpr hs (hn ▸ hgone), hn]
  cases locations
  · rfl
  · exact lazyLoad_absent (by simp [r, unloadHandlerName])

/-- With the paths gone, `ABC` misses after `abc` is unloaded, without importing. -/
theorem getCryptHandler_after_unload_upper :
    isPrivate "ABC".toList = false ∧ normalizedName PyUnicode.ascii "ABC".toList = "abc".toList ∧
      let r := unloadHandlerName "abc".toList true
        (runCalls PyUnicode.ascii abcInfo [.register 1 false] initialRegistry)
      getCryptHandler PyUnicode.ascii abcInfo id none none "ABC".toList none r =
        if true then
          (r, orDefault none (.keyError ("no crypt handler found for algorithm: " ++
            pyRepr PyUnicode.ascii "abc".toList)))
        else getCryptHandler.lazyLoad PyUnicode.ascii abcInfo id none none none r "abc".toList :=
  ⟨by decide, by decide,
    getCryptHandler_after_unload PyUnicode.ascii abcInfo [.register 1 false] "abc".toList true
      "ABC".toList (by decide) (by decide) id none none none⟩

/-! ## Register a path, then look up -/

end Passlib
