import Passlib.Digest.Unpack
import Passlib.Digest.Hexlify

/-! # The PBKDF2 looper the import binds

`PASSLIB_PBKDF2_BACKEND` (unset or empty reads as "any") picks at import which pure-Python
inner loop `_get_pbkdf2_looper` hands out, and when it names the loop it picked, the import
drops the accelerated providers. Every loop agrees with the "from-bytes" one on the digests it
accepts, so along any run of `pbkdf2_hmac` calls, each call returns what the "from-bytes" model
returns with the module's providers (`pbkdf2Run_agrees`). Forcing a loop makes every result
independent of the installed providers, except for "from-bytes" on Python 2: that value binds
"unpack" and keeps the providers (`importPbkdf2_forced`). -/

namespace Passlib

/-- The pure-Python inner loop the import binds `_get_pbkdf2_looper` to. -/
inductive BuiltinBackend
  | fromBytes
  | unpack
  | hexlify
  deriving DecidableEq, Repr

/-- `_builtin_backend`. -/
def BuiltinBackend.name : BuiltinBackend → Str
  | .fromBytes => "from-bytes".toList
  | .unpack => "unpack".toList
  | .hexlify => "hexlify".toList

/-- `os.environ.get("PASSLIB_PBKDF2_BACKEND") or "any"`. -/
def forceBackend : Option Str → Str
  | some (c :: cs) => c :: cs
  | _ => "any".toList

/-- The import's `if PY3 and ...: / elif ...: / else: assert ...` that defines
`_get_pbkdf2_looper`. -/
def selectBuiltin (py3 : Bool) (force : Str) : Except PyError BuiltinBackend :=
  if py3 = true ∧ force ∈ ["any".toList, "from-bytes".toList] then .ok .fromBytes
  else if force ∈ ["any".toList, "unpack".toList, "from-bytes".toList] then .ok .unpack
  else if force ∈ ["any".toList, "hexlify".toList] then .ok .hexlify
  else .error (.assertionError "")

/-- What the import leaves for `pbkdf2_hmac`: the bound loop and the two accelerated
providers. -/
structure Pbkdf2Module where
  builtin : BuiltinBackend
  fast : Backend
  stdlib : Backend

/-- Importing `passlib.crypto.digest` with the providers found installed:
`if _force_backend == _builtin_backend: _fast_pbkdf2_hmac = _stdlib_pbkdf2_hmac = None`. -/
def importPbkdf2 (py3 : Bool) (env : Option Str) (fast stdlib : Backend) :
    Except PyError Pbkdf2Module := do
  let builtin ← selectBuiltin py3 (forceBackend env)
  if forceBackend env = builtin.name then pure ⟨builtin, Backend.absent, Backend.absent⟩
  else pure ⟨builtin, fast, stdlib⟩

/-- `calc_block(keyed_hmac, digest, rounds)`. -/
abbrev CalcBlock := (Bytes → Bytes) → Bytes → Nat → Except PyError Bytes

/-- `_get_pbkdf2_looper(digest_size)` under each binding; only "unpack" reads and writes
`_looper_cache`. -/
def getLooper (have64 little : Bool) (cache : LooperCache) (digestSize : Nat) :
    BuiltinBackend → Except PyError CalcBlock × LooperCache
  | .fromBytes => (.ok (pbkdf2Looper digestSize), cache)
  | .unpack =>
    let p := getPbkdf2Looper have64 cache digestSize
    (p.1.map (unpackHelper little), p.2)
  | .hexlify => (.ok hexlifyLooper, cache)

/-- The blocks `join_bytes` joins:
`calc_block(keyed_hmac, keyed_hmac(salt + _pack_uint32(i)), rounds)` for `i` in `1..block_count`. -/
def calcBlocks (calcBlock : CalcBlock) (keyedHmac : Bytes → Bytes) (salt : Bytes)
    (rounds blockCount : Nat) : Except PyError (List Bytes) :=
  (List.range' 1 blockCount).mapM fun i => do
    let packed ← packUInt32 i
    calcBlock keyedHmac (keyedHmac (salt ++ packed)) rounds

/-- `pbkdf2_hmac(digest, secret, salt, rounds, keylen)` in an imported module, from the looper
cache before the call to the one after it. -/
def pbkdf2HmacIn (m : Pbkdf2Module) (have64 little : Bool) (D : Digest) (secret salt : Bytes)
    (rounds : Int) (keylen : Option Int) (cache : LooperCache) :
    Except PyError Bytes × LooperCache :=
  match pbkdf2Params D.digestSize rounds keylen with
  | .error e => (.error e, cache)
  | .ok (rounds, keylen, blockCount) =>
    if m.fast.supports D.name then (m.fast.run D.name secret salt rounds keylen, cache)
    else if m.stdlib.supports D.name then (m.stdlib.run D.name secret salt rounds keylen, cache)
    else
      match compileHmac D secret with
      | .error e => (.error e, cache)
      | .ok keyedHmac =>
        let p := getLooper have64 little cache D.digestSize m.builtin
        (do
          let calcBlock ← p.1
          let blocks ← calcBlocks calcBlock keyedHmac salt rounds blockCount
          pure (blocks.flatten.take keylen), p.2)

/-- The arguments of one `pbkdf2_hmac` call, with the digest `lookup_hash` resolved. -/
structure Pbkdf2Call where
  digest : Digest
  secret : Bytes
  salt : Bytes
  rounds : Int
  keylen : Option Int

/-- What each call of a run returns, `_looper_cache` carried from call to call. -/
def pbkdf2Run (m : Pbkdf2Module) (have64 little : Bool) :
    List Pbkdf2Call → LooperCache → List (Except PyError Bytes)
  | [], _ => []
  | c :: cs, cache =>
    let p := pbkdf2HmacIn m have64 little c.digest c.secret c.salt c.rounds c.keylen cache
    p.1 :: pbkdf2Run m have64 little cs p.2

/-! ## The import -/

theorem selectBuiltin_cases (py3 : Bool) (force : Str) :
    (force = "any".toList ∧ selectBuiltin py3 force = .ok (if py3 then .fromBytes else .unpack)) ∨
    (force = "from-bytes".toList ∧
      selectBuiltin py3 force = .ok (if py3 then .fromBytes else .unpack)) ∨
    (force = "unpack".toList ∧ selectBuiltin py3 force = .ok .unpack) ∨
    (force = "hexlify".toList ∧ selectBuiltin py3 force = .ok .hexlify) ∨
    (force ∉ ["any".toList, "from-bytes".toList, "unpack".toList, "hexlify".toList] ∧
      selectBuiltin py3 force = .error (.assertionError "")) := by
  by_cases ha : force = "any".toList
  · subst ha; cases py3 <;> exact .inl ⟨rfl, rfl⟩
  by_cases hf : force = "from-bytes".toList
  · subst hf; cases py3 <;> exact .inr (.inl ⟨rfl, rfl⟩)
  by_cases hu : force = "unpack".toList
  · subst hu; cases py3 <;> exact .inr (.inr (.inl ⟨rfl, rfl⟩))
  by_cases hh : force = "hexlify".toList
  · subst hh; cases py3 <;> exact .inr (.inr (.inr (.inl ⟨rfl, rfl⟩)))
  refine .inr (.inr (.inr (.inr ⟨?_, ?_⟩)))
  · simp only [List.mem_cons, List.not_mem_nil, ha, hf, hu, hh, or_self, not_false_eq_true]
  · simp only [selectBuiltin, List.mem_cons, List.not_mem_nil, ha, hf, hu, hh, or_self, and_false,
      if_false]

/-- The loop bound carries the variable's name exactly when the variable is set to a loop's
name, "from-bytes" on Python 2 apart. -/
theorem selectBuiltin_name {py3 : Bool} {force : Str} {b : BuiltinBackend}
    (h : selectBuiltin py3 force = .ok b) :
    force = b.name ↔ force ≠ "any".toList ∧ (py3 = true ∨ force ≠ "from-bytes".toList) := by
  rcases selectBuiltin_cases py3 force with ⟨rfl, h'⟩ | ⟨rfl, h'⟩ | ⟨rfl, h'⟩ | ⟨rfl, h'⟩ | ⟨-, h'⟩
  all_goals rw [h'] at h; cases h
  all_goals cases py3 <;> decide

theorem importPbkdf2_eq (py3 : Bool) (env : Option Str) (fast stdlib : Backend) :
    importPbkdf2 py3 env fast stdlib = (selectBuiltin py3 (forceBackend env)).map fun b =>
      if forceBackend env = b.name then ⟨b, Backend.absent, Backend.absent⟩ else ⟨b, fast, stdlib⟩ := by
  unfold importPbkdf2
  cases selectBuiltin py3 (forceBackend env) with
  | error e => rfl
  | ok b => exact (apply_ite Except.ok _ _ _).symm

/-! ## One call -/

/-- Blocks computed by a loop that agrees with the from-bytes one on digests of size `d` are
the from-bytes blocks. -/
theorem calcBlocks_agree {d : Nat} {P : Bytes → Bytes} (hP : ∀ x, (P x).length = d)
    {calcBlock : CalcBlock}
    (hc : ∀ u r, u.length = d → 1 ≤ r → calcBlock P u r = pbkdf2Looper d P u r)
    (salt : Bytes) {rounds : Nat} (hr : 1 ≤ rounds) (l : Nat) :
    calcBlocks calcBlock P salt rounds l = pbkdf2Blocks d P salt rounds l := by
  unfold calcBlocks pbkdf2Blocks
  congr 1
  funext i
  cases packUInt32 i with
  | error e => rfl
  | ok packed => exact hc _ _ (hP _) hr

theorem getLooper_sound {have64 : Bool} (little : Bool) {cache : LooperCache}
    (hc : cache.Sound have64) (d : Nat) (b : BuiltinBackend) :
    (getLooper have64 little cache d b).2.Sound have64 := by
  cases b
  · exact hc
  · exact (getPbkdf2Looper_sound hc d).2
  · exact hc

/-- From a sound cache, every binding hands out a loop that agrees with the from-bytes one on
the digest size asked for; "unpack" needs that size to be a multiple of 4 of more than one
lane. -/
theorem getLooper_agrees {have64 : Bool} (little : Bool) {cache : LooperCache}
    (hc : cache.Sound have64) {d : Nat} (hd : 0 < d) {b : BuiltinBackend}
    (h4 : (d % 4 = 0 ∧ ¬(d = 4 ∨ (have64 = true ∧ d = 8))) ∨ b ≠ .unpack) :
    ∃ calcBlock, (getLooper have64 little cache d b).1 = .ok calcBlock ∧
      ∀ P u r, (∀ x, (P x).length = d) → u.length = d → 1 ≤ r →
        calcBlock P u r = pbkdf2Looper d P u r := by
  cases b with
  | fromBytes => exact ⟨_, rfl, fun _ _ _ _ _ _ => rfl⟩
  | hexlify => exact ⟨_, rfl, fun _ _ _ hP hu hr => hexlifyLooper_eq hP hd hu hr⟩
  | unpack =>
    obtain ⟨h4, hmulti⟩ := h4.resolve_right (not_not.mpr rfl)
    obtain ⟨lanes, hgen, hsum, hone⟩ := generateLooper_ok have64 hd h4
    refine ⟨unpackHelper little lanes, ?_, fun P u r hP hu hr => ?_⟩
    · show (getPbkdf2Looper have64 cache d).1.map _ = _
      rw [(getPbkdf2Looper_sound hc d).1, hgen]
      rfl
    · rw [unpackHelper_eq little hsum (mt hone.mp hmulti) (fun x _ => hP x) hu hr,
        referenceHelper_eq P u hr,
        pbkdf2Looper_eq hP hu hr]

theorem pbkdf2Params_pos {d : Nat} {rounds : Int} {keylen : Option Int} {r k l : Nat}
    (h : pbkdf2Params d rounds keylen = .ok (r, k, l)) : 1 ≤ r ∧ 0 < d := by
  unfold pbkdf2Params at h
  obtain ⟨hr, h⟩ := ok_of_ite_error h
  cases keylen with
  | none =>
    obtain ⟨hd, h⟩ := ok_of_ite_error h
    obtain ⟨-, h⟩ := ok_of_ite_error h
    cases h
    omega
  | some k =>
    obtain ⟨-, h⟩ := ok_of_ite_error h
    obtain ⟨hd, h⟩ := ok_of_ite_error h
    obtain ⟨-, h⟩ := ok_of_ite_error h
    cases h
    omega

theorem compileHmac_length {D : Digest} {key : Bytes} {P : Bytes → Bytes}
    (h : compileHmac D key = .ok P) (x : Bytes) : (P x).length = D.digestSize := by
  obtain ⟨-, h⟩ := ok_of_ite_error h
  cases h
  exact length_hmacWith D _ key rfl x

/-- From a sound looper cache, a call computes what the from-bytes model computes with the
module's providers. -/
theorem pbkdf2HmacIn_eq (m : Pbkdf2Module) {have64 : Bool} (little : Bool) {cache : LooperCache}
    (hc : cache.Sound have64) (D : Digest)
    (h4 : (D.digestSize % 4 = 0 ∧ ¬(D.digestSize = 4 ∨ (have64 = true ∧ D.digestSize = 8))) ∨
      m.builtin ≠ .unpack)
    (secret salt : Bytes) (rounds : Int) (keylen : Option Int) :
    (pbkdf2HmacIn m have64 little D secret salt rounds keylen cache).1 =
      pbkdf2Hmac m.fast m.stdlib D secret salt rounds keylen := by
  unfold pbkdf2HmacIn pbkdf2Hmac
  cases hp : pbkdf2Params D.digestSize rounds keylen with
  | error e => rfl
  | ok v =>
    obtain ⟨r, k, l⟩ := v
    obtain ⟨hr, hd⟩ := pbkdf2Params_pos hp
    dsimp only [ok_bind]
    by_cases hf : m.fast.supports D.name = true
    · rw [if_pos hf, if_pos hf]
    rw [if_neg hf, if_neg hf]
    by_cases hs : m.stdlib.supports D.name = true
    · rw [if_pos hs, if_pos hs]
    rw [if_neg hs, if_neg hs]
    cases hk : compileHmac D secret with
    | error e => rfl
    | ok P =>
      obtain ⟨calcBlock, hcb, hagree⟩ := getLooper_agrees little hc hd h4
      dsimp only [ok_bind]
      rw [hcb, ok_bind, calcBlocks_agree (compileHmac_length hk)
        (fun u r' hu hr' => hagree P u r' (compileHmac_length hk) hu hr') salt hr]

theorem pbkdf2HmacIn_sound (m : Pbkdf2Module) {have64 : Bool} (little : Bool)
    {cache : LooperCache} (hc : cache.Sound have64) (D : Digest) (secret salt : Bytes)
    (rounds : Int) (keylen : Option Int) :
    (pbkdf2HmacIn m have64 little D secret salt rounds keylen cache).2.Sound have64 := by
  unfold pbkdf2HmacIn
  cases pbkdf2Params D.digestSize rounds keylen with
  | error e => exact hc
  | ok v =>
    dsimp only
    split
    · exact hc
    split
    · exact hc
    cases compileHmac D secret with
    | error e => exact hc
    | ok P => exact getLooper_sound little hc _ _

/-! ## Runs -/

theorem pbkdf2Run_agrees_from (m : Pbkdf2Module) {have64 : Bool} (little : Bool)
    (calls : List Pbkdf2Call) :
    ∀ cache : LooperCache, cache.Sound have64 → ∀ (k : Nat) (c : Pbkdf2Call),
      calls[k]? = some c → (c.digest.digestSize % 4 = 0 ∧
        ¬(c.digest.digestSize = 4 ∨ (have64 = true ∧ c.digest.digestSize = 8)) ∨ m.builtin ≠ .unpack) →
      (pbkdf2Run m have64 little calls cache)[k]? =
        some (pbkdf2Hmac m.fast m.stdlib c.digest c.secret c.salt c.rounds c.keylen) := by
  induction calls with
  | nil => intro _ _ _ _ h; nomatch h
  | cons c cs ih =>
    intro cache hc k c' h h4
    cases k with
    | zero =>
      obtain rfl : c = c' := Option.some.inj ((List.getElem?_cons_zero).symm.trans h)
      rw [pbkdf2Run, List.getElem?_cons_zero]
      exact congrArg some (pbkdf2HmacIn_eq m little hc _ h4 _ _ _ _)
    | succ k =>
      rw [List.getElem?_cons_succ] at h
      rw [pbkdf2Run, List.getElem?_cons_succ]
      exact ih _ (pbkdf2HmacIn_sound m little hc _ _ _ _ _) k c' h h4

/-- Under every binding of the loop, with any providers, along every run of `pbkdf2_hmac`
calls from the import's empty `_looper_cache`, each call returns what the "from-bytes" model
returns with those providers: the error of each check, the provider's result, or the blocks of
RFC 2898. "unpack" needs digest sizes that are multiples of 4 cut into more than one lane. -/
theorem pbkdf2Run_agrees (m : Pbkdf2Module) (have64 little : Bool) (calls : List Pbkdf2Call) :
    ∀ (k : Nat) (c : Pbkdf2Call), calls[k]? = some c → (c.digest.digestSize % 4 = 0 ∧
      ¬(c.digest.digestSize = 4 ∨ (have64 = true ∧ c.digest.digestSize = 8)) ∨ m.builtin ≠ .unpack) →
      (pbkdf2Run m have64 little calls fun _ => none)[k]? =
        some (pbkdf2Hmac m.fast m.stdlib c.digest c.secret c.salt c.rounds c.keylen) :=
  pbkdf2Run_agrees_from m little calls _ fun _ _ h => nomatch h

/-- The unpack loop on a 64-bit little-endian host, second of two calls. -/
theorem pbkdf2Run_agrees_unpack :
    let calls : List Pbkdf2Call := [⟨Digest.sample, [1], [2], 2, none⟩, ⟨Digest.sample, [3], [4], 3, some 30⟩]
    calls[1]? = some ⟨Digest.sample, [3], [4], 3, some 30⟩ ∧
      (Digest.sample.digestSize % 4 = 0 ∧
        ¬(Digest.sample.digestSize = 4 ∨ (true = true ∧ Digest.sample.digestSize = 8)) ∨
        BuiltinBackend.unpack ≠ .unpack) ∧
      (pbkdf2Run ⟨.unpack, Backend.absent, Backend.absent⟩ true true calls fun _ => none)[1]? =
        some (pbkdf2Hmac Backend.absent Backend.absent Digest.sample [3] [4] 3 (some 30)) :=
  ⟨rfl, .inl (by decide), pbkdf2Run_agrees ⟨.unpack, Backend.absent, Backend.absent⟩ true true
    [⟨Digest.sample, [1], [2], 2, none⟩, ⟨Digest.sample, [3], [4], 3, some 30⟩] 1
    ⟨Digest.sample, [3], [4], 3, some 30⟩ rfl (.inl (by decide))⟩

/-- The import fails, with `AssertionError`, exactly when the variable holds something other
than "any", "from-bytes", "unpack" or "hexlify". Every call's result (and `_looper_cache`)
is then the same whatever accelerated providers are installed exactly when the variable is
set to a loop's name, except "from-bytes" on Python 2. -/
theorem importPbkdf2_forced (py3 : Bool) (env : Option Str) :
    (∀ fast stdlib : Backend, (∃ m, importPbkdf2 py3 env fast stdlib = .ok m) ↔
      forceBackend env ∈ ["any".toList, "from-bytes".toList, "unpack".toList, "hexlify".toList]) ∧
    ((∀ (fast stdlib fast' stdlib' : Backend) (m m' : Pbkdf2Module),
        importPbkdf2 py3 env fast stdlib = .ok m → importPbkdf2 py3 env fast' stdlib' = .ok m' →
        ∀ have64 little D secret salt rounds keylen cache,
          pbkdf2HmacIn m have64 little D secret salt rounds keylen cache =
            pbkdf2HmacIn m' have64 little D secret salt rounds keylen cache) ↔
      forceBackend env ≠ "any".toList ∧ (py3 = true ∨ forceBackend env ≠ "from-bytes".toList)) := by
  have hok : (∃ b, selectBuiltin py3 (forceBackend env) = .ok b) ↔
      forceBackend env ∈ ["any".toList, "from-bytes".toList, "unpack".toList, "hexlify".toList] := by
    rcases selectBuiltin_cases py3 (forceBackend env) with
      ⟨he, h⟩ | ⟨he, h⟩ | ⟨he, h⟩ | ⟨he, h⟩ | ⟨hn, h⟩ <;> rw [h]
    any_goals exact iff_of_true ⟨_, rfl⟩ (by rw [he]; decide)
    exact iff_of_false (fun ⟨_, h⟩ => nomatch h) hn
  refine ⟨fun fast stdlib => ?_, ⟨fun h => ?_, fun h fast stdlib fast' stdlib' m m' hm hm' => ?_⟩⟩
  · rw [importPbkdf2_eq, ← hok]
    cases selectBuiltin py3 (forceBackend env) with
    | error e => exact iff_of_false (fun ⟨_, h⟩ => nomatch h) fun ⟨_, h⟩ => nomatch h
    | ok b => exact iff_of_true ⟨_, rfl⟩ ⟨b, rfl⟩
  · by_contra hn
    obtain ⟨b, hb⟩ := hok.mpr (by
      simp only [not_and_or, not_not, not_or, Bool.not_eq_true] at hn
      rcases hn with hn | ⟨-, hn⟩ <;> rw [hn] <;> decide)
    have hname : forceBackend env ≠ b.name := fun he => hn ((selectBuiltin_name hb).mp he)
    have h₁ := importPbkdf2_eq py3 env ⟨fun _ => true, fun _ _ _ _ _ => .ok []⟩ Backend.absent
    have h₂ := importPbkdf2_eq py3 env Backend.absent Backend.absent
    rw [hb] at h₁ h₂
    have he := congrArg Prod.fst (h _ _ _ _ _ _ (h₁.trans (congrArg _ (if_neg hname)))
      (h₂.trans (congrArg _ (if_neg hname))) false false smallBlockDigest [] [] 1 (some 20)
      fun _ => none)
    cases he
  · rw [importPbkdf2_eq] at hm hm'
    cases hb : selectBuiltin py3 (forceBackend env) with
    | error e => rw [hb] at hm; cases hm
    | ok b =>
      have hname := (selectBuiltin_name hb).mpr h
      rw [hb] at hm hm'
      simp only [Except.map, if_pos hname, Except.ok.injEq] at hm hm'
      subst hm hm'
      intros
      rfl

/-- On Python 2, `PASSLIB_PBKDF2_BACKEND=from-bytes` binds "unpack", so the providers stay. -/
theorem importPbkdf2_forced_py2 :
    ¬∀ (fast stdlib fast' stdlib' : Backend) (m m' : Pbkdf2Module),
      importPbkdf2 false (some "from-bytes".toList) fast stdlib = .ok m →
      importPbkdf2 false (some "from-bytes".toList) fast' stdlib' = .ok m' →
      ∀ have64 little D secret salt rounds keylen cache,
        pbkdf2HmacIn m have64 little D secret salt rounds keylen cache =
          pbkdf2HmacIn m' have64 little D secret salt rounds keylen cache := fun h =>
  ((importPbkdf2_forced false (some "from-bytes".toList)).2.mp h).2.elim (fun h => nomatch h)
    fun h => h rfl

end Passlib
