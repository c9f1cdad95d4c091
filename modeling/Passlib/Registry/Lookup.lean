import Passlib.Registry.Invariant

/-! # What a lookup returns

`get_crypt_handler` refuses a private name by looking at the name as it is given, and only then
normalises it. In a reachable registry a lookup whose normal form is public answers the default
or a handler named by that normal form (`getCryptHandler_public_result`); on the way the keys of
`_locations` stay valid handler names (`Registry.LocWf`). A name that becomes private only by
normalisation reaches the proxy's private attributes (`getCryptHandler_private_entry`). A lookup
that returns is memoised: made again it returns the same object, changes nothing and imports
nothing (`getCryptHandler_memo`). -/

namespace Passlib

/-! ## Valid names -/

section
variable {U : PyUnicode}

theorem ne_nil_of_validate {k : Str} (hk : validateHandlerName U k = .ok ()) : k ≠ [] := by
  rintro rfl
  exact absurd (validateHandlerName_ok hk).1 (by decide)

theorem not_dash_of_nameReBody : ∀ {s : Str}, nameReBody s = true → '-' ∉ s
  | c :: rest, h => by
    simp only [nameReBody, Bool.and_eq_true, decide_eq_true_eq] at h
    obtain ⟨⟨⟨hc, -⟩, hmid⟩, hlast⟩ := h
    intro hm
    rcases List.mem_cons.mp hm with rfl | hm
    · exact absurd hc (by decide)
    cases hl : rest.getLast? with
    | none => simp_all
    | some d =>
      rw [← List.dropLast_append_getLast? d hl] at hm
      rcases List.mem_append.mp hm with hm | hm
      · exact absurd (List.all_eq_true.mp hmid _ hm) (by decide)
      · obtain rfl := List.mem_singleton.mp hm
        rw [hl] at hlast
        exact absurd hlast (by decide)

theorem not_dash_of_nameReMatch {s : Str} (h : nameReMatch s = true) : '-' ∉ s := by
  rcases Bool.or_eq_true_iff.mp h with h | h
  · exact not_dash_of_nameReBody h
  · obtain ⟨hl, hb⟩ := Bool.and_eq_true_iff.mp h
    rw [← @List.dropLast_append_getLast? _ s '\n' (by simpa using hl)]
    simp [not_dash_of_nameReBody hb]

theorem normalizedName_of_validate {k : Str} (hk : validateHandlerName U k = .ok ()) :
    normalizedName U k = k := by
  obtain ⟨-, h2, h3, -⟩ := validateHandlerName_ok hk
  have hmap : k.map (fun c => if c = '-' then '_' else c) = k := by
    conv_rhs => rw [← List.map_id k]
    refine List.map_congr_left fun c hc => if_neg fun h => ?_
    exact not_dash_of_nameReMatch h3 (h ▸ hc)
  rw [normalizedName, hmap, h2]

theorem validateHandlerName_ascii {k : Str} (hk : ∀ c ∈ k, c.toNat < 128) :
    validateHandlerName U k = validateHandlerName PyUnicode.ascii k := by
  unfold validateHandlerName
  rw [U.lower_ascii k hk, pyRepr_ascii U PyUnicode.ascii hk]
  rfl

end

/-! ## The keys of `_locations` -/

/-- Every key of `_locations` is a valid handler name. -/
def Registry.LocWf (U : PyUnicode) (r : Registry) : Prop :=
  ∀ k path, r.locations k = some path → validateHandlerName U k = .ok ()

/-- Every name of the built-in table is ASCII and a valid handler name. -/
theorem builtinLocations_valid :
    builtinLocations.all (fun e => e.1.all (fun c => c.toNat < 128) &&
      (validateHandlerName PyUnicode.ascii e.1).toBool) = true := by
  decide

section
variable {U : PyUnicode} {info : Obj → ObjInfo}

theorem locWf_initialRegistry : initialRegistry.LocWf U := by
  intro k p hk
  obtain ⟨l₁, l₂, hl, -⟩ := List.lookup_eq_some_iff.mp hk
  have := List.all_eq_true.mp builtinLocations_valid (k, p) (by rw [hl]; simp)
  simp only [Bool.and_eq_true, List.all_eq_true, decide_eq_true_eq] at this
  rw [validateHandlerName_ascii this.1]
  revert this
  cases validateHandlerName PyUnicode.ascii k <;> simp [Except.toBool]

theorem locations_registerCryptHandler (h : Obj) (force : Bool) (attr : Option Str) (r : Registry) :
    (registerCryptHandler U info h force attr r).1.locations = r.locations := by
  rcases registerCryptHandler_cases h force attr r with he | ⟨-, -, -, he, -⟩ <;> rw [he]
  rfl

theorem Registry.LocWf.registerPath {r : Registry} (hr : r.LocWf U) (name path : Str) :
    (registerCryptHandlerPath U name path r).1.LocWf U := by
  unfold registerCryptHandlerPath
  split
  · exact hr
  · rename_i hv
    split_ifs
    any_goals exact hr
    intro k p hk
    dsimp only at hk
    split at hk
    · subst_vars; exact hv
    · exact hr k p hk

theorem registryInvariant_locWf : RegistryInvariant U info (Registry.LocWf U) where
  register r h force attr hr k p hk := by
    rw [locations_registerCryptHandler] at hk; exact hr k p hk
  registerPath _ name path hr := hr.registerPath name path
  storePrivate _ _ _ _ hr := hr
  unload r name locations hr k p hk := by
    simp only [unloadHandlerName] at hk
    split at hk
    · cases hk
    · exact hr k p hk

end

/-! ## Public names -/

section
variable {U : PyUnicode} {info : Obj → ObjInfo}

/-- A registration that returns names the handler by every non-empty `_attr` it was given. -/
theorem registerCryptHandler_ok {h : Obj} {force : Bool} {attr : Option Str} {r : Registry}
    (hok : (registerCryptHandler U info h force attr r).2 = .ok ()) :
    (info h).isHandler = true ∧ ∀ a ∈ attr, a ≠ [] → a = (info h).name := by
  unfold registerCryptHandler at hok
  split at hok
  · simp at hok
  · obtain ⟨-, hh, -, -, ha⟩ := registerChecks_ok ‹_›
    exact ⟨hh, ha⟩

/-- The lazy load's last step under a public, non-empty name answers only a handler named by
it. -/
theorem lazyLoadFinish_ok {r : Registry} (hr : r.Wf U info) {name : Str}
    (hn : isPrivate name = false) (hne : name ≠ []) {modAttr : Option Obj} {h : Obj}
    (hh : (lazyLoadFinish U info name modAttr r).2 = .ok h) :
    (info h).isHandler = true ∧ (info h).name = name := by
  rcases lazyLoadFinish_cases name modAttr r rfl with
    ⟨-, ⟨e, he⟩ | ⟨h', hh', hi, he⟩⟩ | ⟨v, -, -, he⟩ <;> rw [he] at hh
  · cases hh
  · cases hh
    exact ⟨hi, (hr _ _ hh' hn).2.2.1⟩
  · cases hreg : (registerCryptHandler U info v false (some name) r).2 with
    | error e => rw [hreg] at hh; cases hh
    | ok u =>
      rw [hreg] at hh
      cases hh
      obtain ⟨hi, ha⟩ := registerCryptHandler_ok hreg
      exact ⟨hi, (ha name rfl hne).symm⟩

end

/-- In every reachable registry, a lookup whose normal form is public answers the default, or a
handler named by that normal form. -/
theorem getCryptHandler_public_result (U : PyUnicode) (info : Obj → ObjInfo)
    (calls : List RegistryCall) (name : Str) (default : Option Obj) (code : List RegistryCall)
    (importError : Option PyError) (modAttr : Option Obj) {h : Obj}
    (hn : isPrivate (normalizedName U name) = false)
    (hh : (runCall U info (.get name default code importError modAttr)
      (runCalls U info calls initialRegistry)).2 = .ok (some h)) :
    default = some h ∨ ((info h).isHandler = true ∧ (info h).name = normalizedName U name) := by
  have hr : (runCalls U info calls initialRegistry).Wf U info :=
    runCalls_wf calls wf_initialRegistry
  have hl : (runCalls U info calls initialRegistry).LocWf U :=
    registryInvariant_locWf.calls calls _ locWf_initialRegistry
  generalize runCalls U info calls initialRegistry = r at hr hl hh
  generalize hp : getCryptHandler U info (runCalls U info code) importError modAttr name default r = p
    at hh
  replace hh : p.2 = .ok h := by
    simp only [runCall, hp] at hh
    cases h2 : p.2 <;> simp_all [Except.map]
  rcases getCryptHandler_cases _ _ _ _ _ name hp with
    ⟨-, ⟨e, he⟩ | ⟨d, hd, he⟩⟩ | ⟨h', hpn, hh' | hh', rfl⟩ | hlazy
  · simp_all
  · rw [he] at hh; cases hh; exact .inl hd
  · cases hh
    obtain ⟨hi, -, hnm, hv⟩ := hr _ _ hh' hpn
    exact .inr ⟨hi, by rw [hnm, normalizedName_of_validate hv]⟩
  · cases hh
    obtain ⟨hi, -, hnm, -⟩ := hr _ _ hh' hn
    exact .inr ⟨hi, hnm⟩
  · rcases lazyLoad_cases _ _ _ _ _ _ hlazy with
      ⟨-, ⟨e, he⟩ | ⟨d, hd, he⟩⟩ | ⟨path, hpath, ⟨e, rfl⟩ | rfl⟩
    · simp_all
    · rw [he] at hh; cases hh; exact .inl hd
    · cases hh
    · exact .inr (lazyLoadFinish_ok (runCalls_wf code hr) hn (ne_nil_of_validate (hl _ _ hpath)) hh)

/-- `ABC` is looked up under its normal form `abc`, where the handler named `abc` is. -/
theorem getCryptHandler_public_result_upper :
    isPrivate (normalizedName PyUnicode.ascii "ABC".toList) = false ∧
      (runCall PyUnicode.ascii abcInfo (.get "ABC".toList none [] none none)
        (runCalls PyUnicode.ascii abcInfo [.register 1 false] initialRegistry)).2 = .ok (some 1) ∧
      (none = some 1 ∨ ((abcInfo 1).isHandler = true ∧
        (abcInfo 1).name = normalizedName PyUnicode.ascii "ABC".toList)) :=
  ⟨by decide, rfl, getCryptHandler_public_result PyUnicode.ascii abcInfo [.register 1 false]
    "ABC".toList none [] none none (by decide) rfl⟩

/-! ## Repeated lookups -/

section
variable {U : PyUnicode} {info : Obj → ObjInfo} {runImport : Registry → Registry}
  {importError : Option PyError} {modAttr : Option Obj} {name : Str} {default : Option Obj} {r : Registry}

theorem orDefault_eq_ok {e : PyError} {w : Obj} (h : orDefault default e = .ok w) :
    default = some w := by
  cases default <;> cases h
  rfl

theorem registerStore_stored {h : Obj} {force : Bool} {n : Str}
    (hok : (registerStore U info h force n r).2 = .ok ()) :
    (registerStore U info h force n r).1.handlers n = some h := by
  unfold registerStore at hok ⊢
  cases ho : r.handlers n with
  | none => simp [Registry.store]
  | some other =>
    simp only [ho] at hok ⊢
    split_ifs at hok ⊢ with ht he
    · rw [ho, he]
    all_goals simp_all [Registry.store]

theorem registerCryptHandler_stored {h : Obj} {force : Bool} {attr : Option Str}
    (hok : (registerCryptHandler U info h force attr r).2 = .ok ()) :
    (registerCryptHandler U info h force attr r).1.handlers (info h).name = some h := by
  unfold registerCryptHandler at hok ⊢
  cases hc : registerChecks U info h attr with
  | error e => simp only [hc] at hok; cases hok
  | ok n =>
    simp only [hc] at hok ⊢
    obtain ⟨rfl, -⟩ := registerChecks_ok hc
    exact registerStore_stored hok

/-- The lazy load's last step, when it returns under a non-empty name, leaves the handler it
returns under that name. -/
theorem lazyLoadFinish_stored {n : Str} (hne : n ≠ []) {w : Obj}
    (hw : (lazyLoadFinish U info n modAttr r).2 = .ok w) :
    (lazyLoadFinish U info n modAttr r).1.handlers n = some w := by
  rcases lazyLoadFinish_cases n modAttr r rfl with
    ⟨he, ⟨e, he'⟩ | ⟨h, hh, -, he'⟩⟩ | ⟨h, -, he, he'⟩ <;> rw [he'] at hw
  · cases hw
  · cases hw
    rwa [he]
  · cases hreg : (registerCryptHandler U info h false (some n) r).2 with
    | error e => rw [hreg] at hw; cases hw
    | ok u =>
      rw [hreg] at hw
      cases hw
      have hs := registerCryptHandler_stored hreg
      rw [← (registerCryptHandler_ok hreg).2 n rfl hne] at hs
      rwa [he]

/-- A public name that is not its own normal form is never a key of `_handlers`. -/
theorem Registry.Wf.handlers_eq_none (hr : r.Wf U info) (hpr : isPrivate name = false)
    (hne : normalizedName U name ≠ name) : r.handlers name = none := by
  cases hh : r.handlers name with
  | none => rfl
  | some h => exact absurd (normalizedName_of_validate (hr _ _ hh hpr).2.2.2) hne

/-! Each route through `get_crypt_handler`. -/

theorem getCryptHandler_private (hpr : isPrivate name = true) :
    getCryptHandler U info runImport importError modAttr name default r =
      (r, orDefault default (.keyError ("invalid handler name: " ++ pyRepr U name))) := by
  rw [getCryptHandler, if_pos hpr]

theorem getCryptHandler_hit (hpr : isPrivate name = false) {h : Obj}
    (hh : r.handlers name = some h ∨
      (r.handlers name = none ∧ r.handlers (normalizedName U name) = some h)) :
    getCryptHandler U info runImport importError modAttr name default r = (r, .ok h) := by
  rcases hh with hh | ⟨hh, ha⟩
  · simp [getCryptHandler, hpr, hh]
  · simp only [getCryptHandler, hpr, hh, Bool.false_eq_true, ↓reduceIte]
    split_ifs with hne
    · simp [ha]
    · rw [not_not.mp hne, hh] at ha
      cases ha

theorem getCryptHandler_miss (hpr : isPrivate name = false) (hh : r.handlers name = none)
    (ha : r.handlers (normalizedName U name) = none) :
    getCryptHandler U info runImport importError modAttr name default r =
      getCryptHandler.lazyLoad U info runImport importError modAttr default r
        (normalizedName U name) := by
  simp only [getCryptHandler, hpr, hh, Bool.false_eq_true, ↓reduceIte]
  split_ifs with hne
  · simp [ha]
  · rw [not_not.mp hne]

theorem lazyLoad_absent {n : Str} (hl : (r.locations n).all List.isEmpty = true) :
    getCryptHandler.lazyLoad U info runImport importError modAttr default r n =
      (r, orDefault default
        (.keyError ("no crypt handler found for algorithm: " ++ pyRepr U n))) := by
  unfold getCryptHandler.lazyLoad
  split
  · simp_all
  · rfl

/-- A lazy load that returns has answered the default without a module to import, or has
imported the module. -/
theorem lazyLoad_ok_cases {n : Str} {r' : Registry} {w : Obj}
    (hp : getCryptHandler.lazyLoad U info runImport importError modAttr default r n = (r', .ok w)) :
    (r' = r ∧ default = some w ∧ (r.locations n).all List.isEmpty = true) ∨
      ∃ path, r.locations n = some path ∧
        lazyLoadFinish U info n modAttr (runImport r) = (r', .ok w) := by
  unfold getCryptHandler.lazyLoad at hp
  split at hp
  · rename_i path hl
    split at hp
    · obtain ⟨rfl, hd⟩ := Prod.mk.inj_iff.mp hp
      exact .inl ⟨rfl, orDefault_eq_ok hd, by simp_all⟩
    · split at hp
      · cases hp
      · split at hp
        · cases hp
        · dsimp only at hp
          split at hp
          · exact .inr ⟨path, hl, hp⟩
          · cases hp
  · obtain ⟨rfl, hd⟩ := Prod.mk.inj_iff.mp hp
    exact .inl ⟨rfl, orDefault_eq_ok hd, by simp_all⟩

/-- In a well-formed registry a lookup that returns, repeated, returns the same object and
changes nothing, whatever its import would do. -/
theorem getCryptHandler_again (hr : r.Wf U info) (hl : r.LocWf U)
    (himport : ∀ r, r.Wf U info → (runImport r).Wf U info) {r' : Registry} {w : Obj}
    (hp : getCryptHandler U info runImport importError modAttr name default r = (r', .ok w))
    (runImport' : Registry → Registry) (importError' : Option PyError) (modAttr' : Option Obj) :
    getCryptHandler U info runImport' importError' modAttr' name default r' = (r', .ok w) := by
  cases hpr : isPrivate name
  case true =>
    rw [getCryptHandler_private hpr] at hp
    obtain ⟨rfl, hw⟩ := Prod.mk.inj_iff.mp hp
    rw [getCryptHandler_private hpr, hw]
  case false =>
    cases hh : r.handlers name with
    | some h =>
      rw [getCryptHandler_hit hpr (.inl hh)] at hp
      cases hp
      exact getCryptHandler_hit hpr (.inl hh)
    | none =>
      cases ha : r.handlers (normalizedName U name) with
      | some h =>
        rw [getCryptHandler_hit hpr (.inr ⟨hh, ha⟩)] at hp
        cases hp
        exact getCryptHandler_hit hpr (.inr ⟨hh, ha⟩)
      | none =>
        rw [getCryptHandler_miss hpr hh ha] at hp
        rcases lazyLoad_ok_cases hp with ⟨rfl, hd, habs⟩ | ⟨path, hpath, hp⟩
        · rw [getCryptHandler_miss hpr hh ha, lazyLoad_absent habs, hd]
          rfl
        · -- the import left the handler under the normal form of the name
          have hs := lazyLoadFinish_stored (ne_nil_of_validate (hl _ _ hpath))
            (congrArg Prod.snd hp)
          have hr' := lazyLoadFinish_wf (himport r hr) (normalizedName U name) modAttr
          rw [hp] at hs hr'
          by_cases heq : normalizedName U name = name
          · rw [heq] at hs
            exact getCryptHandler_hit hpr (.inl hs)
          · exact getCryptHandler_hit hpr (.inr ⟨hr'.handlers_eq_none hpr heq, hs⟩)

end

/-- In every reachable registry `get_crypt_handler` memoises: a lookup that returns, made again
with the same name and default, returns the same object and leaves the registry as it was, and
imports nothing, whatever the import would now do. -/
theorem getCryptHandler_memo (U : PyUnicode) (info : Obj → ObjInfo) (calls : List RegistryCall)
    (name : Str) (default : Option Obj) (code code' : List RegistryCall) (importError importError' : Option PyError)
    (modAttr modAttr' : Option Obj) {r' : Registry} {v : Option Obj}
    (h1 : runCall U info (.get name default code importError modAttr)
      (runCalls U info calls initialRegistry) = (r', .ok v)) :
    runCall U info (.get name default code' importError' modAttr') r' = (r', .ok v) := by
  have hr : (runCalls U info calls initialRegistry).Wf U info :=
    runCalls_wf calls wf_initialRegistry
  have hl : (runCalls U info calls initialRegistry).LocWf U :=
    registryInvariant_locWf.calls calls _ locWf_initialRegistry
  generalize runCalls U info calls initialRegistry = r at hr hl h1
  simp only [runCall] at h1 ⊢
  rcases hp : getCryptHandler U info (runCalls U info code) importError modAttr name default r with
    ⟨r₁, _ | w⟩ <;> rw [hp] at h1
  · cases h1
  · cases h1
    rw [getCryptHandler_again hr hl (fun _ => runCalls_wf code) hp]
    rfl

/-- `abc` is loaded from its module, whose code registers it; asked again, with an import that
would now fail, the lookup answers the same handler. -/
theorem getCryptHandler_memo_abc :
    runCall PyUnicode.ascii abcInfo (.get "abc".toList none [.register 1 false] none none)
        (runCalls PyUnicode.ascii abcInfo [.registerPath "abc".toList "mod".toList]
          initialRegistry) =
      (runCalls PyUnicode.ascii abcInfo [.register 1 false]
        (runCalls PyUnicode.ascii abcInfo [.registerPath "abc".toList "mod".toList]
          initialRegistry), .ok (some 1)) ∧
    runCall PyUnicode.ascii abcInfo (.get "abc".toList none [] (some (.importError "No module named 'mod'")) none)
        (runCalls PyUnicode.ascii abcInfo [.register 1 false]
          (runCalls PyUnicode.ascii abcInfo [.registerPath "abc".toList "mod".toList]
            initialRegistry)) =
      (runCalls PyUnicode.ascii abcInfo [.register 1 false]
        (runCalls PyUnicode.ascii abcInfo [.registerPath "abc".toList "mod".toList]
          initialRegistry), .ok (some 1)) :=
  ⟨rfl, getCryptHandler_memo PyUnicode.ascii abcInfo [.registerPath "abc".toList "mod".toList]
    "abc".toList none [.register 1 false] [] none (some (.importError "No module named 'mod'"))
    none none rfl⟩

/-! ## Private entries -/

/-- After the proxy's `__loader__` is written (the write the proxy allows for GAE),
`get_crypt_handler("-_loader__", default)` returns that private entry: the name passes the
underscore guard, and its normal form `__loader__` is then looked up in `_handlers`. -/
theorem getCryptHandler_private_entry (U : PyUnicode) (info : Obj → ObjInfo) (d v : Obj) :
    (runCall U info (.get "-_loader__".toList (some d) [] none none)
      (runCalls U info [.setAttr "__loader__".toList v] initialRegistry)).2 = .ok (some v) := by
  have hl : U.lower ['_', '_', 'l', 'o', 'a', 'd', 'e', 'r', '_', '_'] =
      ['_', '_', 'l', 'o', 'a', 'd', 'e', 'r', '_', '_'] := by
    rw [U.lower_ascii _ (by decide)]; rfl
  simp [runCalls, runCall, proxySetAttr, isPrivate, Registry.store, getCryptHandler,
    normalizedName, initialRegistry, hl]
  rfl

end Passlib
