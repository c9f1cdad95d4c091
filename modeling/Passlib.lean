import Passlib.Basic
import Passlib.Text
import Passlib.Digest.Hmac
import Passlib.Digest.HmacSession
import Passlib.Digest.Pbkdf1
import Passlib.Digest.Pbkdf2
import Passlib.Digest.Hexlify
import Passlib.Digest.Unpack
import Passlib.Digest.Backends
import Passlib.Registry.Basic
import Passlib.Registry.Invariant
import Passlib.Registry.Lookup
import Passlib.Registry.Names
import Passlib.Registry.RoundTrip
import Passlib.Registry.Proxy
import Passlib.Resolver.Aliases
import Passlib.Resolver.Lookup
import Passlib.Resolver.Cache
import Passlib.Resolver.Canonical
import Passlib.Resolver.Constructors
import Passlib.Resolver.Chain
import Passlib.Resolver.Normalize
import Passlib.Resolver.Spellings
