import Passlib.Registry.Basic

/-! # Registry invariants

Every public key of `_handlers` holds a truthy handler named by that key (`Registry.Wf`), in
every reachable registry; only forced registrations and unloads replace such a handler
(`registry_public_handlers`). Each operation has one inversion lemma saying everything it can
do to the registry, and every invariant over runs is derived from those through
`RegistryInvariant`. -/

namespace Passlib

/-! ## The invariant -/

section
variable (U : PyUnicode) (info : Obj → ObjInfo)

/-- Every public key of `_handlers` holds a truthy handler named by the key, and the key is a
valid handler name. -/
def Registry.Wf (r : Registry) : Prop :=
  ∀ k h, r.handlers k = some h → isPrivate k = false →
    (info h).isHandler = true ∧ (info h).truthy = true ∧ (info h).name = k ∧
      validateHandlerName U k = .ok ()

variable {U info}

theorem head_of_nameReBody : ∀ {s : Str}, nameReBody s = true → ∃ c t, s = c :: t ∧ 'a' ≤ c
  | c :: _, h => ⟨c, _, rfl, by simp_all [nameReBody]⟩

theorem validateHandlerName_ok {k : Str} (hk : validateHandlerName U k = .ok ()) :
    k.isEmpty = false ∧ U.lower k = k ∧ nameReMatch k = true ∧ hasDoubleUnderscore k = false ∧
      k ∉ forbiddenNames := by
  unfold validateHandlerName at hk
  obtain ⟨h1, hk⟩ := ok_of_ite_error hk
  obtain ⟨h2, hk⟩ := ok_of_ite_error hk
  obtain ⟨h3, hk⟩ := ok_of_ite_error hk
  obtain ⟨h4, hk⟩ := ok_of_ite_error hk
  obtain ⟨h5, -⟩ := ok_of_ite_error hk
  exact ⟨Bool.eq_false_iff.mpr h1, not_not.mp h2, by simpa using h3, Bool.eq_false_iff.mpr h4, h5⟩

theorem isPrivate_of_validate {k : Str} (hk : validateHandlerName U k = .ok ()) :
    isPrivate k = false := by
  have hre := (validateHandlerName_ok hk).2.2.1
  have ha : ∃ c t, k = c :: t ∧ 'a' ≤ c := by
    rcases Bool.or_eq_true_iff.mp hre with h | h
    · exact head_of_nameReBody h
    · obtain ⟨c, t, ht, hc⟩ := head_of_nameReBody (Bool.and_eq_true_iff.mp h).2
      cases k with
      | nil => simp at ht
      | cons d u => cases u <;> simp_all
  obtain ⟨c, t, rfl, hc⟩ := ha
  have : c ≠ '_' := fun h => by subst h; exact absurd hc (by decide)
  simp [isPrivate, this]

theorem wf_initialRegistry : initialRegistry.Wf U info := fun _ _ h => nomatch h

theorem Registry.Wf.store_private {r : Registry} (hr : r.Wf U info) {k : Str}
    (hk : isPrivate k = true) (v : Obj) : (r.store k v).Wf U info := by
  intro k' h hk' hp
  simp only [Registry.store] at hk'
  split at hk'
  · subst_vars; simp_all
  · exact hr k' h hk' hp

theorem Registry.Wf.store_handler {r : Registry} (hr : r.Wf U info) {h : Obj}
    (hh : (info h).isHandler = true) (ht : (info h).truthy = true)
    (hv : validateHandlerName U (info h).name = .ok ()) : (r.store (info h).name h).Wf U info := by
  intro k h' hk' hp
  simp only [Registry.store] at hk'
  split at hk'
  · subst_vars; cases hk'; exact ⟨hh, ht, rfl, hv⟩
  · exact hr k h' hk' hp

/-- The checks pass only for a truthy handler with a valid name, and only when every
non-empty `_attr` is that name. -/
theorem registerChecks_ok {handler : Obj} {attr : Option Str} {name : Str}
    (h : registerChecks U info handler attr = .ok name) :
    name = (info handler).name ∧ (info handler).isHandler = true ∧ (info handler).truthy = true ∧
      validateHandlerName U (info handler).name = .ok () ∧
      ∀ a ∈ attr, a ≠ [] → a = (info handler).name := by
  unfold registerChecks at h
  obtain ⟨h1, h⟩ := ok_of_ite_error h
  obtain ⟨h2, h⟩ := ok_of_ite_error h
  dsimp only at h
  split at h
  · cases h
  · rename_i hv
    obtain ⟨h3, h⟩ := ok_of_ite_error h
    refine ⟨(Except.ok.inj h).symm, by simpa using h1, by simpa using h2, hv, fun a ha hne => ?_⟩
    cases ha
    simpa [List.isEmpty_iff, hne] using h3

/-- The store phase keeps the registry, or stores the handler, replacing a truthy entry only
when forced. -/
theorem registerStore_cases (handler : Obj) (force : Bool) (name : Str) (r : Registry) :
    (registerStore U info handler force name r).1 = r ∨
      ((registerStore U info handler force name r).1 = r.store name handler ∧
        ∀ other, r.handlers name = some other → (info other).truthy = true → force = true) := by
  unfold registerStore
  split
  · rename_i other ho
    split_ifs <;> simp_all
  · exact .inr ⟨rfl, by simp_all⟩

/-- A registration leaves the registry as it was, or stores the handler under its name after
every check passed, replacing a truthy entry only when forced. -/
theorem registerCryptHandler_cases (handler : Obj) (force : Bool) (attr : Option Str)
    (r : Registry) :
    (registerCryptHandler U info handler force attr r).1 = r ∨
      ((info handler).isHandler = true ∧ (info handler).truthy = true ∧
        validateHandlerName U (info handler).name = .ok () ∧
        (registerCryptHandler U info handler force attr r).1 = r.store (info handler).name handler ∧
        ∀ other, r.handlers (info handler).name = some other → (info other).truthy = true →
          force = true) := by
  unfold registerCryptHandler
  split
  · exact .inl rfl
  · rename_i name hc
    obtain ⟨rfl, hh, ht, hv, -⟩ := registerChecks_ok hc
    rcases registerStore_cases handler force _ r with h | ⟨h, hf⟩
    · exact .inl h
    · exact .inr ⟨hh, ht, hv, h, hf⟩

theorem registerCryptHandler_wf {r : Registry} (hr : r.Wf U info) (handler : Obj) (force : Bool)
    (attr : Option Str) : (registerCryptHandler U info handler force attr r).1.Wf U info := by
  rcases registerCryptHandler_cases handler force attr r with h | ⟨hh, ht, hv, h, -⟩
  · rw [h]; exact hr
  · rw [h]; exact hr.store_handler hh ht hv

theorem handlers_registerCryptHandlerPath (name path : Str) (r : Registry) :
    (registerCryptHandlerPath U name path r).1.handlers = r.handlers := by
  unfold registerCryptHandlerPath
  split
  · rfl
  · split_ifs <;> rfl

theorem Registry.Wf.unload {r : Registry} (hr : r.Wf U info) (name : Str) (locations : Bool) :
    (unloadHandlerName name locations r).Wf U info := by
  intro k h hk hp
  simp only [unloadHandlerName] at hk
  split at hk
  · cases hk
  · exact hr k h hk hp

/-- What the lazy load's last step can do: raise or answer the handler the import registered,
leaving the registry; or register the module's attribute under the name and answer it. -/
theorem lazyLoadFinish_cases (name : Str) (modAttr : Option Obj) (r : Registry)
    {p : Registry × Except PyError Obj} (hp : lazyLoadFinish U info name modAttr r = p) :
    (p.1 = r ∧ ((∃ e, p.2 = .error e) ∨
        ∃ h, r.handlers name = some h ∧ (info h).isHandler = true ∧ p.2 = .ok h)) ∨
      ∃ h, modAttr = some h ∧ p.1 = (registerCryptHandler U info h false (some name) r).1 ∧
        p.2 = (registerCryptHandler U info h false (some name) r).2.map fun _ => h := by
  subst hp
  unfold lazyLoadFinish lazyLoadFinish.attach
  split
  · rename_i h hh
    split
    · split
      · exact .inl ⟨rfl, .inr ⟨h, hh, ‹_›, rfl⟩⟩
      · exact .inl ⟨rfl, .inl ⟨_, rfl⟩⟩
    · split
      · exact .inl ⟨rfl, .inl ⟨_, rfl⟩⟩
      · exact .inr ⟨_, rfl, rfl, rfl⟩
  · split
    · exact .inl ⟨rfl, .inl ⟨_, rfl⟩⟩
    · exact .inr ⟨_, rfl, rfl, rfl⟩

theorem lazyLoadFinish_state (name : Str) (modAttr : Option Obj) (r : Registry) :
    (lazyLoadFinish U info name modAttr r).1 = r ∨ ∃ h, modAttr = some h ∧
      (lazyLoadFinish U info name modAttr r).1 =
        (registerCryptHandler U info h false (some name) r).1 :=
  (lazyLoadFinish_cases name modAttr r rfl).imp And.left fun ⟨h, hm, h1, _⟩ => ⟨h, hm, h1⟩

theorem lazyLoadFinish_wf {r : Registry} (hr : r.Wf U info) (name : Str) (modAttr : Option Obj) :
    (lazyLoadFinish U info name modAttr r).1.Wf U info := by
  rcases lazyLoadFinish_state name modAttr r with h | ⟨v, -, h⟩ <;> rw [h]
  · exact hr
  · exact registerCryptHandler_wf hr v false _

theorem orDefault_cases (default : Option Obj) (e : PyError) :
    (∃ e', orDefault default e = .error e') ∨
      ∃ d, default = some d ∧ orDefault default e = .ok d := by
  cases default
  · exact .inl ⟨e, rfl⟩
  · exact .inr ⟨_, rfl, rfl⟩

section
variable (runImport : Registry → Registry) (importError : Option PyError) (modAttr : Option Obj)
  (default : Option Obj) (r : Registry) {p : Registry × Except PyError Obj}

/-- What the lazy-load part of a lookup can do: raise or answer the default, leaving the
registry, or, when the name has a path, run the import and then raise or finish the load. -/
theorem lazyLoad_cases (name : Str)
    (hp : getCryptHandler.lazyLoad U info runImport importError modAttr default r name = p) :
    (p.1 = r ∧ ((∃ e, p.2 = .error e) ∨ ∃ d, default = some d ∧ p.2 = .ok d)) ∨
      ∃ path, r.locations name = some path ∧
        ((∃ e, p = (runImport r, .error e)) ∨
          p = lazyLoadFinish U info name modAttr (runImport r)) := by
  subst hp
  unfold getCryptHandler.lazyLoad
  split
  · rename_i path hl
    split
    · exact .inl ⟨rfl, orDefault_cases _ _⟩
    · split
      · exact .inl ⟨rfl, .inl ⟨_, rfl⟩⟩
      · split
        · exact .inl ⟨rfl, .inl ⟨_, rfl⟩⟩
        · dsimp only
          split
          · exact .inr ⟨path, hl, .inr rfl⟩
          · exact .inr ⟨path, hl, .inl ⟨_, rfl⟩⟩
  · exact .inl ⟨rfl, orDefault_cases _ _⟩

/-- What a lookup can do: raise or answer the default, leaving the registry; answer the public
entry under the name or under its normal form; or do the lazy load of the normal form. -/
theorem getCryptHandler_cases (name : Str)
    (hp : getCryptHandler U info runImport importError modAttr name default r = p) :
    (p.1 = r ∧ ((∃ e, p.2 = .error e) ∨ ∃ d, default = some d ∧ p.2 = .ok d)) ∨
      (∃ h, isPrivate name = false ∧
        (r.handlers name = some h ∨ r.handlers (normalizedName U name) = some h) ∧ p = (r, .ok h)) ∨
      getCryptHandler.lazyLoad U info runImport importError modAttr default r
        (normalizedName U name) = p := by
  subst hp
  unfold getCryptHandler
  by_cases hpr : isPrivate name = true
  · rw [if_pos hpr]; exact .inl ⟨rfl, orDefault_cases _ _⟩
  rw [if_neg hpr]
  simp only [Bool.not_eq_true] at hpr
  split
  · exact .inr (.inl ⟨_, hpr, .inl ‹_›, rfl⟩)
  · dsimp only
    split
    · split
      · exact .inr (.inl ⟨_, hpr, .inr ‹_›, rfl⟩)
      · exact .inr (.inr rfl)
    · rename_i hne
      rw [not_not.mp hne]
      exact .inr (.inr rfl)

/-- A lookup leaves the registry as it was, as the import left it, or as the lazy load's
registration then left it. -/
theorem getCryptHandler_state (name : Str) :
    (getCryptHandler U info runImport importError modAttr name default r).1 = r ∨
      (getCryptHandler U info runImport importError modAttr name default r).1 = runImport r ∨
      ∃ name', (getCryptHandler U info runImport importError modAttr name default r).1 =
        (lazyLoadFinish U info name' modAttr (runImport r)).1 := by
  rcases getCryptHandler_cases runImport importError modAttr default r name rfl with
    ⟨h, -⟩ | ⟨_, -, -, h⟩ | h
  · exact .inl h
  · exact .inl (by rw [h])
  · rcases lazyLoad_cases runImport importError modAttr default r _ h with
      ⟨h, -⟩ | ⟨-, -, ⟨_, h⟩ | h⟩
    · exact .inl h
    · exact .inr (.inl (by rw [h]))
    · exact .inr (.inr ⟨_, by rw [h]⟩)

end

/-! ## Invariants of every run -/

/-- A property of registries that registrations, path registrations, writes of private
attributes and unloads all keep. -/
structure RegistryInvariant (U : PyUnicode) (info : Obj → ObjInfo) (P : Registry → Prop) : Prop where
  register : ∀ r h force attr, P r → P (registerCryptHandler U info h force attr r).1
  registerPath : ∀ r name path, P r → P (registerCryptHandlerPath U name path r).1
  storePrivate : ∀ r k v, isPrivate k = true → P r → P (r.store k v)
  unload : ∀ r name locations, P r → P (unloadHandlerName name locations r)

section
variable {P : Registry → Prop} {r : Registry}

theorem RegistryInvariant.finish (hP : RegistryInvariant U info P) (hr : P r) (name : Str)
    (modAttr : Option Obj) :
    P (lazyLoadFinish U info name modAttr r).1 := by
  rcases lazyLoadFinish_state name modAttr r with h | ⟨v, -, h⟩ <;> rw [h]
  · exact hr
  · exact hP.register r v false _ hr

theorem RegistryInvariant.setAttr (hP : RegistryInvariant U info P) (hr : P r) (attr : Str)
    (v : Obj) :
    P (proxySetAttr U info attr v r).1 := by
  unfold proxySetAttr
  split
  · exact hP.storePrivate r attr v ‹_› hr
  · exact hP.register r v false _ hr

theorem RegistryInvariant.get (hP : RegistryInvariant U info P) {runImport : Registry → Registry}
    (himport : ∀ r, P r → P (runImport r)) (hr : P r) (importError : Option PyError) (modAttr : Option Obj)
    (name : Str) (default : Option Obj) :
    P (getCryptHandler U info runImport importError modAttr name default r).1 := by
  rcases getCryptHandler_state runImport importError modAttr default r name with h | h | ⟨n, h⟩ <;>
    rw [h]
  · exact hr
  · exact himport r hr
  · exact hP.finish (himport r hr) n modAttr

mutual
theorem RegistryInvariant.call (hP : RegistryInvariant U info P) :
    ∀ (c : RegistryCall) (r : Registry), P r → P (runCall U info c r).1
  | .register h force, r, hr => hP.register r h force none hr
  | .registerPath name path, r, hr => hP.registerPath r name path hr
  | .get name default code importError modAttr, _, hr =>
    hP.get (fun r' hr' => hP.calls code r' hr') hr importError modAttr name default
  | .setAttr attr v, _, hr => hP.setAttr hr attr v
  | .unload name locations, r, hr => hP.unload r name locations hr

theorem RegistryInvariant.calls (hP : RegistryInvariant U info P) :
    ∀ (cs : List RegistryCall) (r : Registry), P r → P (runCalls U info cs r)
  | [], _, hr => hr
  | c :: cs, r, hr => hP.calls cs _ (hP.call c r hr)
end

end

theorem registryInvariant_wf : RegistryInvariant U info (Registry.Wf U info) where
  register _ h force attr hr := registerCryptHandler_wf hr h force attr
  registerPath r name path hr k h hk := by
    rw [handlers_registerCryptHandlerPath] at hk; exact hr k h hk
  storePrivate _ _ v hk hr := hr.store_private hk v
  unload _ name locations hr := hr.unload name locations

theorem runCalls_wf (cs : List RegistryCall) {r : Registry} (hr : r.Wf U info) :
    (runCalls U info cs r).Wf U info :=
  registryInvariant_wf.calls cs r hr

end

/-! ## Which calls replace a handler -/

mutual
/-- A call that neither force-registers nor unloads, and whose lazy load runs no module code
that does. -/
def RegistryCall.keepsHandlers : RegistryCall → Bool
  | .register _ force => !force
  | .unload _ _ => false
  | .get _ _ code _ _ => keepsHandlersAll code
  | .registerPath _ _ | .setAttr _ _ => true

/-- Every call of the list keeps the handlers. -/
def keepsHandlersAll : List RegistryCall → Bool
  | [] => true
  | c :: cs => c.keepsHandlers && keepsHandlersAll cs
end

/-- Every public entry of `r` is still in `r'`. -/
def Registry.Keeps (r r' : Registry) : Prop :=
  ∀ k h, isPrivate k = false → r.handlers k = some h → r'.handlers k = some h

theorem Registry.Keeps.refl (r : Registry) : r.Keeps r := fun _ _ _ h => h

theorem Registry.Keeps.trans {r₁ r₂ r₃ : Registry} (h₁ : r₁.Keeps r₂) (h₂ : r₂.Keeps r₃) :
    r₁.Keeps r₃ := fun k h hk hh => h₂ k h hk (h₁ k h hk hh)

theorem Registry.keeps_store_private (r : Registry) {k : Str} (hk : isPrivate k = true) (v : Obj) :
    r.Keeps (r.store k v) := by
  intro k' h hk' hh
  simp only [Registry.store]
  split
  · simp_all
  · exact hh

section
variable {U : PyUnicode} {info : Obj → ObjInfo}

/-- Without `force`, a registration never replaces a public entry: the invariant makes every
entry truthy, so the `if other:` check always sees the old handler. -/
theorem registerCryptHandler_keeps {r : Registry} (hr : r.Wf U info) (h : Obj) (attr : Option Str) :
    r.Keeps (registerCryptHandler U info h false attr r).1 := by
  rcases registerCryptHandler_cases h false attr r with he | ⟨-, -, -, he, hf⟩ <;> rw [he]
  · exact .refl r
  intro k h' hk hh
  simp only [Registry.store]
  split
  · subst_vars; exact absurd (hf h' hh (hr _ _ hh hk).2.1) Bool.false_ne_true
  · exact hh

/-- A non-forced registration of a handler whose name holds another handler raises and leaves
the registry as it was. -/
theorem registerCryptHandler_occupied {r : Registry} (hr : r.Wf U info) {h other : Obj}
    (ho : r.handlers (info h).name = some other) (hne : other ≠ h) (attr : Option Str) :
    ∃ e, registerCryptHandler U info h false attr r = (r, .error e) := by
  unfold registerCryptHandler
  split
  · exact ⟨_, rfl⟩
  · rename_i name hc
    obtain ⟨rfl, -, -, hv, -⟩ := registerChecks_ok hc
    have ht := (hr _ _ ho (isPrivate_of_validate hv)).2.1
    simp [registerStore, ho, ht, hne]

theorem proxySetAttr_keeps {r : Registry} (hr : r.Wf U info) (attr : Str) (v : Obj) :
    r.Keeps (proxySetAttr U info attr v r).1 := by
  unfold proxySetAttr
  split
  · exact r.keeps_store_private ‹_› v
  · exact registerCryptHandler_keeps hr v _

theorem lazyLoadFinish_keeps {r : Registry} (hr : r.Wf U info) (name : Str) (modAttr : Option Obj) :
    r.Keeps (lazyLoadFinish U info name modAttr r).1 := by
  rcases lazyLoadFinish_state name modAttr r with h | ⟨v, -, h⟩ <;> rw [h]
  · exact .refl r
  · exact registerCryptHandler_keeps hr v _

/-- A lazy load whose module attribute is another handler under an occupied name registers
nothing: it raises, or returns what is already stored under the name it loads. -/
theorem lazyLoadFinish_occupied {r : Registry} (hr : r.Wf U info) {h other : Obj}
    (ho : r.handlers (info h).name = some other) (hne : other ≠ h) (name : Str) :
    (∃ e, lazyLoadFinish U info name (some h) r = (r, .error e)) ∨
      ∃ v, r.handlers name = some v ∧ lazyLoadFinish U info name (some h) r = (r, .ok v) := by
  rcases lazyLoadFinish_cases name (some h) r rfl with
    ⟨h1, ⟨e, he⟩ | ⟨v, hv, -, he⟩⟩ | ⟨v, hv, h1, h2⟩
  · exact .inl ⟨e, Prod.ext h1 he⟩
  · exact .inr ⟨v, hv, Prod.ext h1 he⟩
  · cases hv
    obtain ⟨e, hre⟩ := registerCryptHandler_occupied hr ho hne (some name)
    rw [hre] at h1 h2
    exact .inl ⟨e, Prod.ext h1 h2⟩

theorem getCryptHandler_keeps {runImport : Registry → Registry}
    (hwf : ∀ r : Registry, r.Wf U info → (runImport r).Wf U info)
    (hkeep : ∀ r : Registry, r.Wf U info → r.Keeps (runImport r)) {r : Registry} (hr : r.Wf U info)
    (importError : Option PyError) (modAttr : Option Obj) (name : Str) (default : Option Obj) :
    r.Keeps (getCryptHandler U info runImport importError modAttr name default r).1 := by
  rcases getCryptHandler_state runImport importError modAttr default r name with h | h | ⟨n, h⟩ <;>
    rw [h]
  · exact .refl r
  · exact hkeep r hr
  · exact (hkeep r hr).trans (lazyLoadFinish_keeps (hwf r hr) n modAttr)

mutual
theorem runCall_keeps : ∀ (c : RegistryCall) (r : Registry), r.Wf U info →
    c.keepsHandlers = true → r.Keeps (runCall U info c r).1
  | .register h force, r, hr, hc => by
    cases force
    · exact registerCryptHandler_keeps hr h none
    · cases hc
  | .registerPath name path, r, _, _ => by
    intro k h hk hh; rw [runCall, handlers_registerCryptHandlerPath]; exact hh
  | .get name default code importError modAttr, r, hr, hc =>
    getCryptHandler_keeps (fun r' hr' => runCalls_wf code hr')
      (fun r' hr' => runCalls_keeps code r' hr' hc) hr importError modAttr name default
  | .setAttr attr v, r, hr, _ => proxySetAttr_keeps hr attr v
  | .unload _ _, _, _, hc => by cases hc

theorem runCalls_keeps : ∀ (cs : List RegistryCall) (r : Registry), r.Wf U info →
    keepsHandlersAll cs = true → r.Keeps (runCalls U info cs r)
  | [], r, _, _ => .refl r
  | c :: cs, r, hr, hc => by
    simp only [keepsHandlersAll, Bool.and_eq_true] at hc
    exact (runCall_keeps c r hr hc.1).trans
      (runCalls_keeps cs _ (registryInvariant_wf.call c r hr) hc.2)
end

end

/-- Every reachable registry keeps the invariant; a run of calls that neither force a
registration nor unload keeps every public entry; and a non-forced registration of another
handler under an occupied name, made directly or by a proxy attribute write, raises and leaves
the registry as it was. A lazy load whose module attribute is such a handler raises too, unless
the name it loads already holds an entry, which it then returns; it registers nothing. -/
theorem registry_public_handlers (U : PyUnicode) (info : Obj → ObjInfo) :
    (∀ calls, (runCalls U info calls initialRegistry).Wf U info) ∧
    (∀ calls (r : Registry), r.Wf U info → keepsHandlersAll calls = true → r.Keeps (runCalls U info calls r)) ∧
    (∀ (r : Registry) (h other : Obj), r.Wf U info → r.handlers (info h).name = some other → other ≠ h →
      (∀ attr, ∃ e, registerCryptHandler U info h false attr r = (r, .error e)) ∧
      (∀ attr, isPrivate attr = false → ∃ e, proxySetAttr U info attr h r = (r, .error e)) ∧
      ∀ name, (∃ e, lazyLoadFinish U info name (some h) r = (r, .error e)) ∨
        ∃ v, r.handlers name = some v ∧ lazyLoadFinish U info name (some h) r = (r, .ok v)) :=
  ⟨fun calls => runCalls_wf calls wf_initialRegistry,
    fun calls r hr hc => runCalls_keeps calls r hr hc,
    fun _ _ _ hr ho hne => ⟨registerCryptHandler_occupied hr ho hne,
      fun attr ha => by simpa [proxySetAttr, ha] using registerCryptHandler_occupied hr ho hne _,
      lazyLoadFinish_occupied hr ho hne⟩⟩

/-- Every object reports the name `abc`: a second one registered without `force` is refused. -/
def abcInfo : Obj → ObjInfo := fun _ => ⟨true, true, "abc".toList, "H".toList, "<class H>".toList⟩

theorem registry_public_handlers_second_abc :
    ∃ e, registerCryptHandler PyUnicode.ascii abcInfo 2 false none
        (runCalls PyUnicode.ascii abcInfo [.register 1 false] initialRegistry) =
      (runCalls PyUnicode.ascii abcInfo [.register 1 false] initialRegistry, .error e) :=
  ((registry_public_handlers PyUnicode.ascii abcInfo).2.2 _ 2 1
    ((registry_public_handlers PyUnicode.ascii abcInfo).1 _) (by decide) (by decide)).1 none

end Passlib
