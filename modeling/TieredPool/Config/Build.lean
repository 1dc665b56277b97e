import TieredPool.Config.Error
import TieredPool.Machine

/-!
# Build — a pool from a configuration

* `Endpoint` — the name and the base URL that a configured server carries.
* `Endpoint.urlFor` — the base URL with a path.
* `PoolConfig.build` — registers the servers in order, up to the first that cannot be.
-/

namespace TieredPool

structure Endpoint where
  name : String
  /-- The address in its normal form, without slashes at the end. -/
  baseUrl : String
  deriving DecidableEq, Repr

def dropSlashes (cs : List Char) : List Char := cs.dropWhile (· == '/')

def dropTrailingSlashes (cs : List Char) : List Char := (dropSlashes cs.reverse).reverse

/-- The base URL, one slash, and the path without the slashes in front. -/
def Endpoint.urlFor (e : Endpoint) (path : String) : String :=
  e.baseUrl ++ "/" ++ String.ofList (dropSlashes path.toList)

def ServerConfig.endpoint (urls : UrlParser) (c : ServerConfig) : Except Url.UrlError Endpoint := do
  let url ← urls.parse c.address
  return { name := c.name, baseUrl := String.ofList (dropTrailingSlashes url.chars) }

/-- Registers the servers from position `index` on. -/
def registerAll (urls : UrlParser) (index : Nat) :
    List ServerConfig → Run Endpoint (Except ConfigError Unit)
  | [] => return .ok ()
  | c :: rest => do
      match c.endpoint urls with
      | .error e => return .error (.invalid [.badAddress index e])
      | .ok endpoint =>
          match ← Run.add c.options endpoint with
          | .error source => return .error (.rejected c.name source)
          | .ok _ => registerAll urls (index + 1) rest

def PoolConfig.build (urls : UrlParser) (c : PoolConfig) : Run Endpoint (Except ConfigError Unit) := do
  match ← registerAll urls 0 c.servers with
  | .error e => return .error e
  | .ok () =>
      let pool ← Run.getPool
      Run.log (.poolBuilt pool.size pool.primaryOnline)
      return .ok ()

end TieredPool
