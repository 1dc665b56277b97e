import TieredPool.Url.Host

/-!
# Basic — URLs as records

* `Url` — scheme, authority, path, query and fragment, each as it is written.
* `Url.text` — the written form.
* `UrlParser` — the way from texts to URLs, which a pool is configured with.
-/

namespace TieredPool

namespace Url

/-- How a scheme treats slashes, hosts and ports. -/
inductive SchemeKind where
  | special
  | file
  | other
  deriving DecidableEq, Repr

def schemeKind (scheme : List Char) : SchemeKind :=
  let s := String.ofList scheme
  if s = "http" ∨ s = "https" ∨ s = "ws" ∨ s = "wss" ∨ s = "ftp" then .special
  else if s = "file" then .file
  else .other

/-- The port that need not be written. -/
def defaultPort? (scheme : List Char) : Option Nat :=
  let s := String.ofList scheme
  if s = "http" ∨ s = "ws" then some 80
  else if s = "https" ∨ s = "wss" then some 443
  else if s = "ftp" then some 21
  else none

/-- Who is to answer, and where. User name and password are empty if there are none. -/
structure Authority where
  username : List Char := []
  password : List Char := []
  host : Host
  port : Option Nat := none
  deriving DecidableEq, Repr

/-- A path of segments, or, in a scheme that is not special, any other text. -/
inductive Path where
  | plain (text : List Char)
  | segments (parts : List (List Char))
  deriving DecidableEq, Repr

end Url

structure Url where
  scheme : List Char
  authority : Option Url.Authority := none
  path : Url.Path
  query : Option (List Char) := none
  fragment : Option (List Char) := none
  deriving DecidableEq, Repr

namespace Url

/-! ## Written form -/

def Authority.hasCredentials (a : Authority) : Bool := !a.username.isEmpty || !a.password.isEmpty

def Authority.credentials (a : Authority) : List Char :=
  if a.hasCredentials then
    a.username ++ (if a.password.isEmpty then [] else ':' :: a.password) ++ ['@']
  else []

def Authority.text (a : Authority) : List Char :=
  a.credentials ++ a.host.text ++
    match a.port with
    | some p => ':' :: (toString p).toList
    | none => []

def Path.text : Path → List Char
  | .plain cs => cs
  | .segments parts => parts.flatMap ('/' :: ·)

/-- What stands between the colon and the path. A path that begins with two slashes is set off, or
it would read as an authority. -/
def lead (authority : Option Authority) (path : Path) : List Char :=
  match authority, path with
  | some a, _ => '/' :: '/' :: a.text
  | none, .segments ([] :: _ :: _) => ['/', '.']
  | none, _ => []

/-- A part with its mark in front, if it is there. -/
def marked (mark : Char) : Option (List Char) → List Char
  | some cs => mark :: cs
  | none => []

def chars (u : Url) : List Char :=
  u.scheme ++ ':' :: lead u.authority u.path ++ u.path.text ++ marked '?' u.query
    ++ marked '#' u.fragment

def text (u : Url) : String := String.ofList u.chars

/-- Whether the URL names a host; an empty one is none. -/
def hasHost (u : Url) : Bool := u.authority.any fun a => !a.host.isEmpty

end Url

/-- How texts are read as URLs: the URL that a text is, or why it is none. -/
structure UrlParser where
  parse : String → Except Url.UrlError Url

end TieredPool
