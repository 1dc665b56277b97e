import TieredPool.Text.Digits
import TieredPool.Url.Basic

/-!
# Parse — absolute URLs from text

The text is cut at its terminators first: the scheme at the colon, the body at `?` or `#`, the
authority at the next slash. Each part is then read on its own.

* `Url.parse` — a URL, or the first thing that is wrong with it; `UrlParser.standard` — as a parser.
* `Trail` — the segments of a path, with `.` and `..` carried out.
* `parseAuthority` — credentials, host and port.
-/

namespace TieredPool
namespace Url

/-! ## Cutting -/

/-- Controls and blanks around a URL do not belong to it. -/
def trim (cs : List Char) : List Char :=
  let outer (c : Char) : Bool := c.toNat ≤ 0x20
  ((cs.dropWhile outer).reverse.dropWhile outer).reverse

/-- Tabs and line breaks belong to no part of a URL. -/
def isBreak (c : Char) : Bool := c == '\t' || c == '\n' || c == '\r'

def dropBreaks (cs : List Char) : List Char := cs.filter (!isBreak ·)

def isSchemeChar (c : Char) : Bool := c.isAlphanum || c == '+' || c == '-' || c == '.'

/-- The scheme in lower case, and what follows the colon. -/
def splitScheme? (cs : List Char) : Option (List Char × List Char) :=
  match cs.takeWhile isSchemeChar, cs.dropWhile isSchemeChar with
  | first :: name, ':' :: rest =>
      if first.isAlpha then some ((first :: name).map Char.toLower, rest) else none
  | _, _ => none

/-- A text in front of its query and its fragment. -/
structure Cut where
  body : List Char
  query : Option (List Char)
  fragment : Option (List Char)

def isTail (c : Char) : Bool := c == '?' || c == '#'

def cut (cs : List Char) : Cut :=
  let body := cs.takeWhile (!isTail ·)
  match cs.dropWhile (!isTail ·) with
  | '?' :: rest =>
      { body, query := some (rest.takeWhile (· != '#')),
        fragment := match rest.dropWhile (· != '#') with
          | _ :: fragment => some fragment
          | [] => none }
  | '#' :: fragment => { body, query := none, fragment := some fragment }
  | _ => { body, query := none, fragment := none }

/-- Whether a character separates path segments. -/
def isSlash (kind : SchemeKind) (c : Char) : Bool :=
  c == '/' || (kind != .other && c == '\\')

/-! ## Paths -/

/-- The segments that stay in place. -/
def isSingleDot (s : List Char) : Bool :=
  let t := s.map Char.toLower
  t == ['.'] || t == "%2e".toList

/-- The segments that go one up. -/
def isDoubleDot (s : List Char) : Bool :=
  let t := s.map Char.toLower
  ["..", ".%2e", "%2e.", "%2e%2e"].any (·.toList == t)

/-- A letter with a colon or a bar names a drive. -/
def isDriveLetter : List Char → Bool
  | [letter, mark] => letter.isAlpha && (mark == ':' || mark == '|')
  | _ => false

/-- Whether a segment is a drive, or begins with one in front of a backslash. -/
def startsWithDrive (s : List Char) : Bool :=
  isDriveLetter (s.take 2) && (s.length == 2 || s[2]? == some '\\')

/-- A drive and the text after it, if a tab or a line break stands between them. -/
def cutDrive? (cs : List Char) : Option (List Char × List Char) :=
  match cs.dropWhile isBreak with
  | [] => none
  | letter :: rest =>
      match rest.dropWhile isBreak with
      | ':' :: c :: rest =>
          let after := dropBreaks rest
          if letter.isAlpha && isBreak c && !after.isEmpty then some ([letter, ':'], after)
          else none
      | _ => none

/-- The segments of a path so far, last first, and whether it begins with the drive of a file. -/
structure Trail where
  done : List (List Char) := []
  drive : Bool := false
  deriving DecidableEq, Repr

/-- One up from the segments so far, last first. A drive is never left. -/
def goUp : List (List Char) → List (List Char)
  | [] => []
  | s :: rest => if startsWithDrive s then s :: rest else rest

namespace Trail

/-- Goes to `done`; a path that ends there has an empty segment more. -/
def moveTo (done : List (List Char)) (last : Bool) (t : Trail) : Trail :=
  { t with done := if last then [] :: done else done }

/-- Adds a segment that is no step. The drive at the start of a file path takes a colon. -/
def place (kind : SchemeKind) (s : List Char) (t : Trail) : Trail :=
  if kind = .file ∧ t.done = [] ∧ isDriveLetter s then
    { done := [s.take 1 ++ [':']], drive := true }
  else { t with done := encode pathSet s :: t.done }

/-- Follows one piece of a path; `last` says that none comes after it. At the start of a file path
a drive that a tab or a line break cuts off is a segment of its own, and what follows it is
another, whose dots are no steps. -/
def follow (kind : SchemeKind) (last : Bool) (cs : List Char) (t : Trail) : Trail :=
  match if kind = .file ∧ t.done = [] then cutDrive? cs else none with
  | some (drive, after) => { t with done := [encode pathSet after, drive] }
  | none =>
      if isDoubleDot (dropBreaks cs) then t.moveTo (goUp t.done) last
      else if isSingleDot (dropBreaks cs) then t.moveTo t.done last
      else t.place kind (dropBreaks cs)

/-- Follows the pieces between the slashes. -/
def followAll (kind : SchemeKind) (t : Trail) : List (List Char) → Trail
  | [] => t
  | [cs] => t.follow kind true cs
  | cs :: rest => (t.follow kind false cs).followAll kind rest

def segments (t : Trail) : List (List Char) := t.done.reverse

end Trail

/-- The path after its first slash. -/
def parsePath (kind : SchemeKind) (cs : List Char) : Trail :=
  ({} : Trail).followAll kind (Text.pieces (isSlash kind) cs)

/-- What follows a slash, which may have tabs and line breaks in front. -/
def afterSlash? (kind : SchemeKind) (cs : List Char) : Option (List Char) :=
  match cs.dropWhile isBreak with
  | c :: rest => if isSlash kind c then some rest else none
  | [] => none

/-- A text without the slash in front. -/
def dropSlash (kind : SchemeKind) (cs : List Char) : List Char := (afterSlash? kind cs).getD cs

/-! ## Authorities -/

/-- The text before the last `@` and the text after it. -/
def splitLastAt (cs : List Char) : Option (List Char × List Char) :=
  if cs.contains '@' then
    let r := cs.reverse
    some ((r.dropWhile (· != '@')).tail.reverse, (r.takeWhile (· != '@')).reverse)
  else none

/-- The host up to the first colon outside square brackets. -/
def splitHost (bracketed : Bool) : List Char → List Char × List Char
  | [] => ([], [])
  | c :: rest =>
      if c = ':' ∧ bracketed = false then ([], c :: rest)
      else
        let bracketed := if c = '[' then true else if c = ']' then false else bracketed
        let (host, after) := splitHost bracketed rest
        (c :: host, after)

/-- The port after the host's colon, and the path that begins right after it: a backslash ends the
port also where it is no slash. -/
def parsePort (scheme : List Char) (cs : List Char) :
    Except UrlError (Option Nat × List Char) :=
  let digits := cs.takeWhile Char.isDigit
  let rest := cs.dropWhile Char.isDigit
  let value := Text.digitsValue digits
  if 65535 < value then .error .invalidPort
  else if rest.isEmpty || rest.head? = some '\\' then
    .ok (if digits.isEmpty ∨ defaultPort? scheme = some value then none else some value, rest)
  else .error .invalidPort

/-- User name and password in front of a host. -/
def parseCredentials (cs : List Char) : List Char × List Char :=
  (encode userinfoSet (cs.takeWhile (· != ':')),
    encode userinfoSet (cs.dropWhile (· != ':')).tail)

/-- Reads an authority. `last` says that nothing follows it. Also gives what belongs to the path. -/
def parseAuthority (domains : DomainToAscii) (scheme : List Char) (last : Bool) (cs : List Char) :
    Except UrlError (Authority × List Char) := do
  let special := schemeKind scheme = .special
  let (credentials, hostPort) := (splitLastAt cs).getD ([], cs)
  if cs.head? = some '@' ∧ credentials = [] ∧ hostPort = [] ∧ (special ∨ last = false) then
    throw .emptyHost
  let (username, password) := parseCredentials credentials
  let (hostText, portText) := splitHost false hostPort
  if special ∧ hostText = [] then throw .emptyHost
  let host ← if special then Host.parseSpecial domains hostText else Host.parseOther hostText
  if host.isEmpty ∧ portText ≠ [] then throw .emptyHost
  let (port, rest) ←
    match portText with
    | _ :: digits => parsePort scheme digits
    | [] => pure (none, [])
  let authority : Authority := { username, password, host, port }
  if host.isEmpty ∧ authority.hasCredentials then throw .emptyHost
  return (authority, rest)

/-! ## The kinds of schemes -/

/-- A special scheme: any number of slashes, an authority and a path, which is never empty. -/
def parseSpecialBody (domains : DomainToAscii) (scheme : List Char) (last : Bool) (body : List Char) :
    Except UrlError (Authority × Path) := do
  let rest := body.dropWhile (isSlash .special)
  let authorityText := rest.takeWhile (!isSlash .special ·)
  let pathText := rest.dropWhile (!isSlash .special ·)
  let (authority, _) ← parseAuthority domains scheme (last && pathText.isEmpty) authorityText
  return (authority, .segments (parsePath .special (dropSlash .special pathText)).segments)

/-- Another scheme: an authority only after two slashes, and segments only after a slash. -/
def parseOtherBody (domains : DomainToAscii) (scheme : List Char) (last : Bool) (body : List Char) :
    Except UrlError (Option Authority × Path) :=
  match body with
  | '/' :: '/' :: rest => do
      let authorityText := rest.takeWhile (· != '/')
      let pathText := rest.dropWhile (· != '/')
      let (authority, extra) ←
        parseAuthority domains scheme (last && pathText.isEmpty) authorityText
      let pathText := extra ++ pathText
      let path :=
        if pathText.isEmpty then [] else (parsePath .other (dropSlash .other pathText)).segments
      return (some authority, .segments path)
  | '/' :: rest => .ok (none, .segments (parsePath .other rest).segments)
  | _ => .ok (none, .plain (encode controlSet body))

/-- A file path after its first slash, without the empty segments in front, and whether it begins
with a drive. -/
def parseFilePath (cs : List Char) : List (List Char) × Bool :=
  let trail := parsePath .file cs
  match trail.segments.dropWhile List.isEmpty with
  | [] => ([[]], trail.drive)
  | parts => (parts, trail.drive)

/-- What follows the two slashes of a file URL: a host unless it is a drive, and a path. The local
host is no host, and none is kept in front of a drive. -/
def parseFileHost (domains : DomainToAscii) (cs : List Char) : Except UrlError (Authority × Path) :=
  let here : Authority := { host := .name [] }
  let hostText := dropBreaks (cs.takeWhile (!isSlash .file ·))
  let pathText := cs.dropWhile (!isSlash .file ·)
  if isDriveLetter hostText then .ok (here, .segments (parseFilePath cs).1)
  else do
    let host ←
      if hostText.isEmpty then pure (Host.name []) else Host.parseSpecial domains hostText
    if host.isEmpty ∨ host = .name "localhost".toList then
      return (here, .segments (parseFilePath pathText).1)
    else
      let (parts, drive) := parseFilePath (dropSlash .file pathText)
      return (if drive then here else { host }, .segments parts)

/-- The file scheme: a host only after two slashes. Tabs and line breaks are still in `body`. -/
def parseFileBody (domains : DomainToAscii) (body : List Char) : Except UrlError (Authority × Path) :=
  let here : Authority := { host := .name [] }
  match afterSlash? .file body with
  | none => .ok (here, .segments (parseFilePath body).1)
  | some rest =>
      match afterSlash? .file rest with
      | none => .ok (here, .segments (parseFilePath rest).1)
      | some rest => parseFileHost domains rest

/-- What stands between the scheme and the query or the fragment, tabs and line breaks included. -/
def uncleanedBody (cs : List Char) : List Char :=
  (cs.dropWhile (· != ':')).tail.takeWhile (!isTail ·)

/-- Reads an absolute URL. -/
def parseChars (domains : DomainToAscii) (cs : List Char) : Except UrlError Url := do
  let cs := trim cs
  match splitScheme? (dropBreaks cs) with
  | none => throw .relative
  | some (scheme, rest) =>
      let c := cut rest
      let last := c.query.isNone && c.fragment.isNone
      let (authority, path) ←
        match schemeKind scheme with
        | .special => do
            let (authority, path) ← parseSpecialBody domains scheme last c.body
            pure (some authority, path)
        | .file => do
            let (authority, path) ← parseFileBody domains (uncleanedBody cs)
            pure (some authority, path)
        | .other => parseOtherBody domains scheme last c.body
      let querySet := if schemeKind scheme = .other then querySet else specialQuerySet
      return {
        scheme, authority, path
        query := c.query.map (encode querySet)
        fragment := c.fragment.map (encode fragmentSet) }

def parse (domains : DomainToAscii) (s : String) : Except UrlError Url := parseChars domains s.toList

end Url

namespace UrlParser

/-- The parser of the URL standard, given the conversion of names. -/
def standard (domains : Url.DomainToAscii) : UrlParser where
  parse := Url.parse domains

/-- The standard's parser of URLs whose hosts are in ASCII. -/
def ascii : UrlParser := standard .ascii

end UrlParser

end TieredPool
