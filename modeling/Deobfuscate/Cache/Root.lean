import Deobfuscate.Cache.Error

/-!
# Where the cache stands

The root of the cache is set by the environment or the settings; otherwise it
lies in the home directory.
-/

namespace Deobfuscate.Cache

/-- The variables of the environment that say where the cache stands. -/
structure Environment where
  cacheDirectory : Option String := none
  home : Option String := none
  userProfile : Option String := none
  deriving DecidableEq, Repr

/-- The root that the environment sets; an empty value sets none. -/
def Environment.root (environment : Environment) : Option Path :=
  (environment.cacheDirectory.filter (· ≠ "")).map Path.mk

def Environment.defaultRoot (environment : Environment) :
    Except CacheError Path :=
  match environment.home <|> environment.userProfile with
  | some home => .ok (((Path.mk home).child ".retro").child "cache")
  | none => .error .missingHome

def resolveRoot (environment : Environment) (chosen : Option Path) :
    Except CacheError Path :=
  match environment.root <|> chosen with
  | some root => .ok root
  | none => environment.defaultRoot

end Deobfuscate.Cache
