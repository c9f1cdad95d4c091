import Passlib.Resolver.Aliases

/-! # `lookup_hash` and `norm_hash_name`

`lookup_hash` resolves a hash name or constructor to a `HashInfo` record and keeps every
record it makes in `_hash_info_cache`, under the constructor and under the names of the record.
The model keeps the cache, every record made so far (a record's identity is its index) and the
number of closures `_get_hash_const` has made around `hashlib.new`, each a new object. What the
platform offers (`hashlib`'s attributes, the digests `hashlib.new` knows, what a constructor's
hash object reports) is the parameter `HashEnv`. A call runs with a number of frames left before
Python's recursion limit. -/

namespace Passlib

/-! ## 1. Objects -/

/-- A hash constructor, by identity. -/
inductive Const
  /-- `getattr(hashlib, name)`. -/
  | attr (name : Str)
  /-- The closure `const` around `hashlib.new(name)` made by one call of `_get_hash_const`. -/
  | wrapper (name : Str) (id : Nat)
  /-- `passlib.crypto._md4.md4`. -/
  | md4
  /-- Any other callable. -/
  | user (id : Nat)
  deriving DecidableEq, Repr

/-- What the hash object `const()` reports: `name`, `digest_size`, `block_size`, and the length
of its `digest()`. -/
structure HashObj where
  name : Str
  digestSize : Nat
  blockSize : Nat
  digestLength : Nat
  deriving DecidableEq, Repr

/-- The platform: `getattr(hashlib, name)` succeeds, `hashlib.new(name, b"")` raises no
`ValueError`, calling a constructor, and `to_native_str(name, "utf-8")` of a `bytes` name. -/
structure HashEnv where
  hasAttr : Str → Bool
  newOk : Str → Bool
  call : Const → Except PyError HashObj
  decode : Bytes → Except PyError Str

/-- A `HashInfo` record. -/
structure HashInfo where
  name : Str
  ianaName : Str
  aliases : List Str
  const : Option Const
  digestSize : Option Nat
  blockSize : Option Nat
  deriving DecidableEq, Repr

/-- `HashInfo._as_tuple()`, what two records compare by. -/
def HashInfo.asTuple (info : HashInfo) : Option Const × Option Nat × Option Nat :=
  (info.const, info.digestSize, info.blockSize)

/-- What `lookup_hash` is given: a name, a `bytes` name, a constructor, a `HashInfo` (by
identity), or another object (by the name of its type). -/
inductive HashArg
  | str (name : Str)
  | bytes (name : Bytes)
  | const (c : Const)
  | info (id : Nat)
  | other (typeName : Str)

/-- A key of `_hash_info_cache`. -/
inductive CacheKey
  | str (name : Str)
  | bytes (name : Bytes)
  | const (c : Const)
  deriving DecidableEq

/-- The key `cache[digest]` looks up; a `HashInfo` is unhashable. -/
def HashArg.cacheKey : HashArg → Option CacheKey
  | .str name => some (.str name)
  | .bytes name => some (.bytes name)
  | .const c => some (.const c)
  | .info _ | .other _ => none

/-- `_hash_info_cache`, every record made so far, and how many closures `_get_hash_const` has
made. -/
structure Resolver where
  cache : CacheKey → Option Nat
  infos : List HashInfo
  wrappers : Nat

/-- The module as imported: `_hash_info_cache = {}`. -/
def Resolver.empty : Resolver := ⟨fun _ => none, [], 0⟩

/-- `cache[key] = info`. -/
def Resolver.set (s : Resolver) (key : CacheKey) (i : Nat) : Resolver :=
  { s with cache := fun k => if k = key then some i else s.cache k }

/-- A new record, and its identity. -/
def Resolver.alloc (s : Resolver) (info : HashInfo) : Resolver × Nat :=
  ({ s with infos := s.infos ++ [info] }, s.infos.length)

/-- `info.const` of the record `i`. -/
def Resolver.constOf (s : Resolver) (i : Nat) : Option Const := s.infos[i]?.bind HashInfo.const

/-! ## 2. The source -/

section
variable (E : HashEnv) (U : PyUnicode)

/-- `_get_hash_const(name)`. -/
def getHashConst (name : Str) (s : Resolver) : Resolver × Option Const :=
  if name.head? ≠ some '_' ∧ name ∉ ["new".toList, "algorithms".toList] ∧ E.hasAttr name then
    (s, some (.attr name))
  else if E.newOk name then ({ s with wrappers := s.wrappers + 1 }, some (.wrapper name s.wrappers))
  else if name = "md4".toList then (s, some .md4)
  else (s, none)

/-- `HashInfo(const, names)`: the names split up and, for a constructor, the sizes of the hash
object it makes, whose digest must have `digest_size` bytes. -/
def mkHashInfo (const : Option Const) (names : List Str) : Except PyError HashInfo :=
  match names with
  | name :: iana :: aliases =>
    match const with
    | none => .ok ⟨name, iana, aliases, none, none, none⟩
    | some c =>
      match E.call c with
      | .error e => .error e
      | .ok h =>
        if h.digestLength ≠ h.digestSize then
          .error (.runtimeError (pyRepr U name ++ " constructor failed sanity check"))
        else .ok ⟨name, iana, aliases, some c, some h.digestSize, some h.blockSize⟩
  | _ => .error (.indexError "tuple index out of range")

/-- The loop that ends `lookup_hash`: every non-empty name is cached under the new record `i`,
after `assert cache.get(name) in [None, info]`. -/
def cacheNames (i : Nat) (info : HashInfo) : List Str → Resolver → Resolver × Except PyError Nat
  | [], s => (s, .ok i)
  | n :: ns, s =>
    if n.isEmpty then cacheNames i info ns s
    else if (s.cache (.str n)).all fun j => s.infos[j]?.map HashInfo.asTuple = some info.asTuple
    then cacheNames i info ns (s.set (.str n) i)
    else (s, .error (.assertionError (pyRepr U n ++ " already in cache")))

/-- `info = HashInfo(const, name_list)`, cached under the constructor and, with
`cache_by_name`, under the names. -/
def populate (c : Const) (names : List Str) (cacheByName : Bool) (s : Resolver) :
    Resolver × Except PyError Nat :=
  match mkHashInfo E U (some c) names with
  | .error e => (s, .error e)
  | .ok info =>
    let p := s.alloc info
    if cacheByName then cacheNames U p.2 info names (p.1.set (.const c) p.2)
    else (p.1.set (.const c) p.2, .ok p.2)

/-- What the name branch does once the lookup of the hashlib name has returned: a record
without a constructor is passed through (`assert return_unknown`), any other is cached under the
digest. -/
def cacheAlias (key : CacheKey) (returnUnknown : Bool) :
    Resolver × Except PyError Nat → Resolver × Except PyError Nat
  | (s, .error e) => (s, .error e)
  | (s, .ok i) =>
    if (s.constOf i).isNone then
      if returnUnknown then (s, .ok i) else (s, .error (.assertionError ""))
    else (s.set key i, .ok i)

/-- The name branch for a name that is its own hashlib name: its constructor's record, else a
dummy record (`return_unknown`) or `UnknownHashError`. -/
def lookupConstByName (names : List Str) (returnUnknown : Bool) (s : Resolver) :
    Resolver × Except PyError Nat :=
  let p := getHashConst E (names.headD []) s
  match p.2 with
  | none =>
    if returnUnknown then
      match mkHashInfo E U none names with
      | .error e => (p.1, .error e)
      | .ok info => let q := p.1.alloc info; (q.1, .ok q.2)
    else (p.1, .error (.unknownHashError (String.mk (names.headD []))))
  | some c => populate E U c names true p.1

/-- The branch of `lookup_hash` for a name: `key` is the digest's cache key, `isStr` whether
the digest is a `str` (a `bytes` digest never equals its name), and `recurse` the lookup of
the hashlib name. -/
def lookupName (recurse : Str → Resolver → Resolver × Except PyError Nat) (key : CacheKey)
    (isStr : Bool) (digest : Str) (returnUnknown : Bool) (s : Resolver) :
    Resolver × Except PyError Nat :=
  let names := getHashAliases U digest
  let name := names.headD []
  if name.isEmpty then (s, .error (.assertionError ""))
  else if !isStr || name ≠ digest then cacheAlias key returnUnknown (recurse name s)
  else lookupConstByName E U names returnUnknown s

/-- The branch of `lookup_hash` for a constructor: it is cached by name only if the name has no
constructor of its own or has this one. -/
def lookupConst (c : Const) (s : Resolver) : Resolver × Except PyError Nat :=
  match E.call c with
  | .error e => (s, .error e)
  | .ok h =>
    let names := getHashAliases U h.name
    let p := getHashConst E (names.headD []) s
    populate E U c names (match p.2 with | none => true | some o => o = c) p.1

/-- One frame of `lookup_hash(digest, return_unknown)`: `recurse` is the call it makes for the
hashlib name of a name. -/
def lookupStep (recurse : Str → Resolver → Resolver × Except PyError Nat) (digest : HashArg)
    (returnUnknown : Bool) (s : Resolver) : Resolver × Except PyError Nat :=
  match digest.cacheKey.bind s.cache with
  | some i => (s, .ok i)
  | none =>
    match digest with
    | .str name => lookupName E U recurse (.str name) true name returnUnknown s
    | .bytes raw =>
      match E.decode raw with
      | .error e => (s, .error e)
      | .ok name => lookupName E U recurse (.bytes raw) false name returnUnknown s
    | .info i => (s, .ok i)
    | .const c => lookupConst E U c s
    | .other t =>
      (s, .error (.typeError ("digest must be digest name or constructor, not " ++ String.mk t)))

/-- `lookup_hash(digest, return_unknown)` with `fuel` frames left. -/
def lookupHash : Nat → HashArg → Bool → Resolver → Resolver × Except PyError Nat
  | 0, _, _, s => (s, .error (.recursionError "maximum recursion depth exceeded"))
  | fuel + 1, digest, returnUnknown, s =>
    lookupStep E U (fun n => lookupHash fuel (.str n) returnUnknown) digest returnUnknown s

/-- `norm_hash_name(name, format)` with `fuel` frames left. -/
def normHashName : Nat → HashArg → Str → Resolver → Resolver × Except PyError Str
  | 0, _, _, s => (s, .error (.recursionError "maximum recursion depth exceeded"))
  | fuel + 1, name, format, s =>
    let p := lookupHash E U fuel name true s
    match p.2 with
    | .error e => (p.1, .error e)
    | .ok i =>
      match p.1.infos[i]? with
      | none => (p.1, .error (.typeError "not a HashInfo"))
      | some info =>
        if format = "hashlib".toList then (p.1, .ok info.name)
        else if format = "iana".toList then (p.1, .ok info.ianaName)
        else (p.1, .error (.valueError ("unknown format: " ++ pyRepr U format)))

end

/-- A call of the module's API. -/
inductive HashCall
  | lookup (digest : HashArg) (returnUnknown : Bool)
  | norm (name : HashArg) (format : Str)

/-- One call from the top level: the state after it, and what it returns (a record or a name). -/
def hashCall (E : HashEnv) (U : PyUnicode) (fuel : Nat) :
    HashCall → Resolver → Resolver × Except PyError (Nat ⊕ Str)
  | .lookup digest returnUnknown, s =>
    let p := lookupHash E U fuel digest returnUnknown s
    (p.1, p.2.map .inl)
  | .norm name format, s =>
    let p := normHashName E U fuel name format s
    (p.1, p.2.map .inr)

/-- A run of calls; a call that raises still leaves its effects. -/
def hashRun (E : HashEnv) (U : PyUnicode) (fuel : Nat) : List HashCall → Resolver → Resolver
  | [], s => s
  | c :: cs, s => hashRun E U fuel cs (hashCall E U fuel c s).1

/-- A run of `lookup_hash(name, return_unknown)` calls on `str` names: the state after it, and
what each call returned. -/
def nameRun (E : HashEnv) (U : PyUnicode) (fuel : Nat) :
    List (Str × Bool) → Resolver → Resolver × List (Except PyError Nat)
  | [], s => (s, [])
  | (name, returnUnknown) :: calls, s =>
    let p := lookupHash E U fuel (.str name) returnUnknown s
    let q := nameRun E U fuel calls p.1
    (q.1, p.2 :: q.2)

end Passlib
