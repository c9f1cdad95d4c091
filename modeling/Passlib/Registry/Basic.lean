import Passlib.Text

/-! # `passlib.registry`

The registry is the `__dict__` of the `passlib.hash` proxy (`_handlers`) and the table of
lazy-load paths (`_locations`). A run is any sequence of registrations, path registrations,
lookups, proxy attribute writes and unloads (`runCalls`); a lookup that lazy-loads runs the
registry calls of the module it imports before it continues. -/

namespace Passlib

/-- A Python object, by identity. -/
abbrev Obj := Nat

/-- What the registry reads of an object: `is_crypt_handler(obj)`, `bool(obj)`, `obj.name`,
`type(obj).__name__` and `repr(obj)`. -/
structure ObjInfo where
  isHandler : Bool
  truthy : Bool
  name : Str
  typeName : Str
  repr : Str

/-- `_handlers` (the proxy's `__dict__`) and `_locations`. -/
structure Registry where
  handlers : Str → Option Obj
  locations : Str → Option Str

/-- `_name_re = re.compile("^[a-z][a-z0-9_]+[a-z0-9]$")` matched in full, up to `$`. -/
def nameReBody : Str → Bool
  | c :: rest =>
    ('a' ≤ c && c ≤ 'z') && 2 ≤ rest.length &&
      rest.dropLast.all (fun d => ('a' ≤ d && d ≤ 'z') || ('0' ≤ d && d ≤ '9') || d == '_') &&
      rest.getLast?.all fun d => ('a' ≤ d && d ≤ 'z') || ('0' ≤ d && d ≤ '9')
  | [] => false

/-- `_name_re.match(name)`: `$` matches at the end or before a final newline. -/
def nameReMatch (name : Str) : Bool :=
  nameReBody name || (name.getLast? == some '\n' && nameReBody name.dropLast)

/-- `_forbidden_names`. -/
def forbiddenNames : List Str :=
  ["onload", "policy", "context", "all", "default", "none", "auto"].map String.toList

/-- `'__' in name`. -/
def hasDoubleUnderscore : Str → Bool
  | '_' :: '_' :: _ => true
  | _ :: rest => hasDoubleUnderscore rest
  | [] => false

/-- `_validate_handler_name(name)`. -/
def validateHandlerName (U : PyUnicode) (name : Str) : Except PyError Unit :=
  if name.isEmpty then .error (.valueError ("handler name cannot be empty: " ++ pyRepr U name))
  else if U.lower name ≠ name then .error (.valueError ("name must be lower-case: " ++ pyRepr U name))
  else if !nameReMatch name then .error (.valueError ("invalid name (must be 3+ characters, " ++
    " begin with a-z, and contain only underscore, a-z, 0-9): " ++ pyRepr U name))
  else if hasDoubleUnderscore name then
    .error (.valueError ("name may not contain double-underscores: " ++ pyRepr U name))
  else if name ∈ forbiddenNames then
    .error (.valueError ("that name is not allowed: " ++ pyRepr U name))
  else .ok ()

/-- A key of `_handlers` that starts with `_`: a private attribute of the proxy. -/
def isPrivate (name : Str) : Bool := name.head? == some '_'

section
variable (U : PyUnicode) (info : Obj → ObjInfo)

/-- `_handlers[name] = handler`. -/
def Registry.store (r : Registry) (name : Str) (v : Obj) : Registry :=
  { r with handlers := fun k => if k = name then some v else r.handlers k }

/-- The checks `register_crypt_handler(handler, force, _attr)` makes before it reads
`_handlers`; they yield the name to register under. -/
def registerChecks (handler : Obj) (attr : Option Str) : Except PyError Str :=
  if !(info handler).isHandler then
    .error (.typeError ("handler must be password hash handler, not " ++
      String.mk (info handler).typeName))
  else if !(info handler).truthy then .error (.assertionError "``bool(handler)`` must be True")
  else
    let name := (info handler).name
    match validateHandlerName U name with
    | .error e => .error e
    | .ok () =>
      if attr.any (fun a => !a.isEmpty && a ≠ name) then
        .error (.valueError ("handlers must be stored only under their own name (" ++
          pyRepr U (attr.getD []) ++ " != " ++ pyRepr U name ++ ")"))
      else .ok name

/-- The rest of `register_crypt_handler`: a truthy entry under the name is kept if it is the
same handler, replaced if `force`, and refused otherwise. -/
def registerStore (handler : Obj) (force : Bool) (name : Str) (r : Registry) :
    Registry × Except PyError Unit :=
  match r.handlers name with
  | some other =>
    if (info other).truthy then
      if other = handler then (r, .ok ())
      else if force then (r.store name handler, .ok ())
      else (r, .error (.keyError ("another " ++ pyRepr U name ++
        " handler has already been registered: " ++ String.mk (info other).repr)))
    else (r.store name handler, .ok ())
  | none => (r.store name handler, .ok ())

/-- `register_crypt_handler(handler, force, _attr)`. -/
def registerCryptHandler (handler : Obj) (force : Bool) (attr : Option Str) (r : Registry) :
    Registry × Except PyError Unit :=
  match registerChecks U info handler attr with
  | .error e => (r, .error e)
  | .ok name => registerStore U info handler force name r

/-- `register_crypt_handler_path(name, path)`. -/
def registerCryptHandlerPath (name path : Str) (r : Registry) : Registry × Except PyError Unit :=
  match validateHandlerName U name with
  | .error e => (r, .error e)
  | .ok () =>
    if path.head? = some '.' then (r, .error (.valueError "path cannot start with '.'"))
    else if ':' ∈ path ∧ 1 < path.count ':' then
      (r, .error (.valueError "path cannot have more than one ':'"))
    else if ':' ∈ path ∧ '.' ∈ path.dropWhile (· ≠ ':') then
      (r, .error (.valueError "path cannot have '.' to right of ':'"))
    else ({ r with locations := fun k => if k = name then some path else r.locations k }, .ok ())

/-- `_PasslibRegistryProxy.__setattr__(attr, value)`. -/
def proxySetAttr (attr : Str) (value : Obj) (r : Registry) : Registry × Except PyError Unit :=
  if isPrivate attr then (r.store attr value, .ok ())
  else registerCryptHandler U info value false (some attr) r

/-- `_unload_handler_name(name, locations)`. -/
def unloadHandlerName (name : Str) (locations : Bool) (r : Registry) : Registry :=
  { handlers := fun k => if k = name then none else r.handlers k
    locations := fun k => if locations ∧ k = name then none else r.locations k }

/-- `modname, modattr` of a lazy-load path. -/
def splitPath (path name : Str) : Except PyError (Str × Str) :=
  match path.splitOn ':' with
  | [modname] => .ok (modname, name)
  | [modname, modattr] => .ok (modname, modattr)
  | _ => .error (.valueError "too many values to unpack (expected 2)")

/-- What `get_crypt_handler` does once `__import__` has returned: the handler the import
registered, or the module's attribute, registered under `name`. -/
def lazyLoadFinish (name : Str) (modAttr : Option Obj) (r : Registry) : Registry × Except PyError Obj :=
  match r.handlers name with
  | some h =>
    if (info h).truthy then
      if (info h).isHandler then (r, .ok h)
      else (r, .error (.assertionError ("unexpected object: name=" ++ pyRepr U name ++
        " object=" ++ String.mk (info h).repr)))
    else attach
  | none => attach
where
  attach : Registry × Except PyError Obj :=
    match modAttr with
    | none => (r, .error (.attributeError "module has no such attribute"))
    | some h =>
      let (r', res) := registerCryptHandler U info h false (some name) r
      (r', res.map fun _ => h)

/-- `name.replace("-", "_").lower()`. -/
def normalizedName (U : PyUnicode) (name : Str) : Str :=
  U.lower (name.map fun c => if c = '-' then '_' else c)

/-- `default` if one was given, else raise `e`. -/
def orDefault (default : Option Obj) (e : PyError) : Except PyError Obj :=
  match default with
  | some d => .ok d
  | none => .error e

/-- `get_crypt_handler(name, default)`, `none` standing for `_UNSET`. `runImport` is what
importing the lazy-load module does to the registry, `importError` what the import raises, if
anything (a missing package, or an error of the module's own code), and `modAttr` the module's
attribute `modattr`. -/
def getCryptHandler (runImport : Registry → Registry) (importError : Option PyError)
    (modAttr : Option Obj) (name : Str) (default : Option Obj) (r : Registry) :
    Registry × Except PyError Obj :=
  if isPrivate name then
    (r, orDefault default (.keyError ("invalid handler name: " ++ pyRepr U name)))
  else match r.handlers name with
  | some h => (r, .ok h)
  | none =>
    let alt := normalizedName U name
    if alt ≠ name then
      match r.handlers alt with
      | some h => (r, .ok h)
      | none => lazyLoad alt
    else lazyLoad name
where
  /-- The rest of the lookup, from `path = _locations.get(name)` on. -/
  lazyLoad (name : Str) : Registry × Except PyError Obj :=
    match r.locations name with
    | some path =>
      if path.isEmpty then
        (r, orDefault default (.keyError ("no crypt handler found for algorithm: " ++ pyRepr U name)))
      else match splitPath path name with
        | .error e => (r, .error e)
        | .ok (modname, _) =>
          -- `__import__` refuses an empty module name before it runs any code
          if modname.isEmpty then (r, .error (.valueError "Empty module name"))
          else
            let r := runImport r
            match importError with
            | none => lazyLoadFinish U info name modAttr r
            | some e => (r, .error e)
    | none =>
      (r, orDefault default (.keyError ("no crypt handler found for algorithm: " ++ pyRepr U name)))

/-- A call on the registry. A lookup carries what importing its lazy-load module would do:
the registry calls of the module's code, what the import raises, and the module's
attribute. -/
inductive RegistryCall
  | register (handler : Obj) (force : Bool)
  | registerPath (name path : Str)
  | get (name : Str) (default : Option Obj) (moduleCode : List RegistryCall)
      (importError : Option PyError) (modAttr : Option Obj)
  | setAttr (attr : Str) (value : Obj)
  | unload (name : Str) (locations : Bool)

mutual
/-- One call: the registry after it, and what it returns. -/
def runCall : RegistryCall → Registry → Registry × Except PyError (Option Obj)
  | .register h force, r =>
    let p := registerCryptHandler U info h force none r
    (p.1, p.2.map fun _ => none)
  | .registerPath name path, r =>
    let p := registerCryptHandlerPath U name path r
    (p.1, p.2.map fun _ => none)
  | .get name default code importError modAttr, r =>
    let p := getCryptHandler U info (runCalls code) importError modAttr name default r
    (p.1, p.2.map some)
  | .setAttr attr v, r =>
    let p := proxySetAttr U info attr v r
    (p.1, p.2.map fun _ => none)
  | .unload name locations, r => (unloadHandlerName name locations r, .ok none)

/-- A sequence of calls; a call that raises still leaves its effects. -/
def runCalls : List RegistryCall → Registry → Registry
  | [], r => r
  | c :: cs, r => runCalls cs (runCall c r).1
end

end

/-- `_locations` as the module defines it. -/
def builtinLocations : List (Str × Str) :=
  ([("apr_md5_crypt", "passlib.handlers.md5_crypt"), ("argon2", "passlib.handlers.argon2"),
    ("atlassian_pbkdf2_sha1", "passlib.handlers.pbkdf2"), ("bcrypt", "passlib.handlers.bcrypt"),
    ("bcrypt_sha256", "passlib.handlers.bcrypt"), ("bigcrypt", "passlib.handlers.des_crypt"),
    ("bsd_nthash", "passlib.handlers.windows"), ("bsdi_crypt", "passlib.handlers.des_crypt"),
    ("cisco_pix", "passlib.handlers.cisco"), ("cisco_asa", "passlib.handlers.cisco"),
    ("cisco_type7", "passlib.handlers.cisco"), ("cta_pbkdf2_sha1", "passlib.handlers.pbkdf2"),
    ("crypt16", "passlib.handlers.des_crypt"), ("des_crypt", "passlib.handlers.des_crypt"),
    ("django_argon2", "passlib.handlers.django"), ("django_bcrypt", "passlib.handlers.django"),
    ("django_bcrypt_sha256", "passlib.handlers.django"),
    ("django_pbkdf2_sha256", "passlib.handlers.django"),
    ("django_pbkdf2_sha1", "passlib.handlers.django"),
    ("django_salted_sha1", "passlib.handlers.django"),
    ("django_salted_md5", "passlib.handlers.django"), ("django_des_crypt", "passlib.handlers.django"),
    ("django_disabled", "passlib.handlers.django"), ("dlitz_pbkdf2_sha1", "passlib.handlers.pbkdf2"),
    ("fshp", "passlib.handlers.fshp"), ("grub_pbkdf2_sha512", "passlib.handlers.pbkdf2"),
    ("hex_md4", "passlib.handlers.digests"), ("hex_md5", "passlib.handlers.digests"),
    ("hex_sha1", "passlib.handlers.digests"), ("hex_sha256", "passlib.handlers.digests"),
    ("hex_sha512", "passlib.handlers.digests"), ("htdigest", "passlib.handlers.digests"),
    ("ldap_plaintext", "passlib.handlers.ldap_digests"), ("ldap_md5", "passlib.handlers.ldap_digests"),
    ("ldap_sha1", "passlib.handlers.ldap_digests"), ("ldap_hex_md5", "passlib.handlers.roundup"),
    ("ldap_hex_sha1", "passlib.handlers.roundup"),
    ("ldap_salted_md5", "passlib.handlers.ldap_digests"),
    ("ldap_salted_sha1", "passlib.handlers.ldap_digests"),
    ("ldap_des_crypt", "passlib.handlers.ldap_digests"),
    ("ldap_bsdi_crypt", "passlib.handlers.ldap_digests"),
    ("ldap_md5_crypt", "passlib.handlers.ldap_digests"),
    ("ldap_bcrypt", "passlib.handlers.ldap_digests"),
    ("ldap_sha1_crypt", "passlib.handlers.ldap_digests"),
    ("ldap_sha256_crypt", "passlib.handlers.ldap_digests"),
    ("ldap_sha512_crypt", "passlib.handlers.ldap_digests"),
    ("ldap_pbkdf2_sha1", "passlib.handlers.pbkdf2"), ("ldap_pbkdf2_sha256", "passlib.handlers.pbkdf2"),
    ("ldap_pbkdf2_sha512", "passlib.handlers.pbkdf2"), ("lmhash", "passlib.handlers.windows"),
    ("md5_crypt", "passlib.handlers.md5_crypt"), ("msdcc", "passlib.handlers.windows"),
    ("msdcc2", "passlib.handlers.windows"), ("mssql2000", "passlib.handlers.mssql"),
    ("mssql2005", "passlib.handlers.mssql"), ("mysql323", "passlib.handlers.mysql"),
    ("mysql41", "passlib.handlers.mysql"), ("nthash", "passlib.handlers.windows"),
    ("oracle10", "passlib.handlers.oracle"), ("oracle11", "passlib.handlers.oracle"),
    ("pbkdf2_sha1", "passlib.handlers.pbkdf2"), ("pbkdf2_sha256", "passlib.handlers.pbkdf2"),
    ("pbkdf2_sha512", "passlib.handlers.pbkdf2"), ("phpass", "passlib.handlers.phpass"),
    ("plaintext", "passlib.handlers.misc"), ("postgres_md5", "passlib.handlers.postgres"),
    ("roundup_plaintext", "passlib.handlers.roundup"), ("scram", "passlib.handlers.scram"),
    ("scrypt", "passlib.handlers.scrypt"), ("sha1_crypt", "passlib.handlers.sha1_crypt"),
    ("sha256_crypt", "passlib.handlers.sha2_crypt"), ("sha512_crypt", "passlib.handlers.sha2_crypt"),
    ("sun_md5_crypt", "passlib.handlers.sun_md5_crypt"), ("unix_disabled", "passlib.handlers.misc"),
    ("unix_fallback", "passlib.handlers.misc")] : List (String × String)).map
    fun p => (p.1.toList, p.2.toList)

/-- The registry when the module has been imported: the proxy's `__dict__` is empty. -/
def initialRegistry : Registry := ⟨fun _ => none, fun k => builtinLocations.lookup k⟩

end Passlib
