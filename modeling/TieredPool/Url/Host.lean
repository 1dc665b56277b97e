import TieredPool.Url.Ipv6

/-!
# Host — where a URL points

* `UrlError` — why a text is no URL, with its `message`.
* `DomainToAscii` — how names come to their form in ASCII; `DomainToAscii.ascii` — for those that are in
  ASCII as they stand.
* `Host` — a name, or an address of either kind.
* `Host.parseSpecial`, `Host.parseOther` — the hosts of special and of other schemes.
-/

namespace TieredPool
namespace Url

inductive UrlError where
  | relative
  | emptyHost
  | invalidPort
  | invalidIpv4
  | invalidIpv6
  | invalidDomain
  | invalidHostCharacter
  deriving DecidableEq, Repr

def UrlError.message : UrlError → String
  | .relative => "relative URL without a base"
  | .emptyHost => "empty host"
  | .invalidPort => "invalid port number"
  | .invalidIpv4 => "invalid IPv4 address"
  | .invalidIpv6 => "invalid IPv6 address"
  | .invalidDomain => "invalid international domain name"
  | .invalidHostCharacter => "invalid domain character"

/-! ## Names in ASCII -/

/-- The conversion of the names of special schemes to ASCII, from their bytes, if they can be converted.
Whatever tables of characters it takes are its own. -/
structure DomainToAscii where
  convert? : List UInt8 → Option (List Char)

/-- Whether a name has a label that stands for one outside ASCII. -/
def hasEncodedLabel (name : List Char) : Bool :=
  (Text.pieces (· == '.') (name.map Char.toLower)).any ("xn--".toList.isPrefixOf ·)

/-- The conversion without any tables. It lowers the letters of names in ASCII, and takes no other names
and no encoded labels. -/
def DomainToAscii.ascii : DomainToAscii where
  convert? bytes :=
    let name := bytes.map fun b => (Char.ofNat b.toNat).toLower
    if bytes.all (· < 0x80) && !hasEncodedLabel name then some name else none

/-! ## Hosts -/

/-- A host. Special schemes have names in lower case; other schemes may have an empty one. -/
inductive Host where
  | name (text : List Char)
  | ipv4 (address : Nat)
  | ipv6 (pieces : List Nat)
  deriving DecidableEq, Repr

namespace Host

def isEmpty (h : Host) : Bool := h == .name []

def text : Host → List Char
  | .name cs => cs
  | .ipv4 address => Ipv4.text address
  | .ipv6 ps => '[' :: Ipv6.text ps ++ [']']

/-- An address between square brackets, the first of which has been read. -/
def parseBracketed (cs : List Char) : Except UrlError Host :=
  if cs.getLast? = some ']' then
    match Ipv6.parse? cs.dropLast with
    | some ps => .ok (.ipv6 ps)
    | none => .error .invalidIpv6
  else .error .invalidIpv6

/-- Characters that a name in a special scheme cannot have once it is in ASCII. -/
def forbiddenInName (c : Char) : Bool :=
  c.toNat ≤ 0x20 || c.toNat == 0x7f
    || ['%', '#', '/', ':', '<', '>', '?', '@', '[', '\\', ']', '^', '|'].contains c

/-- The host of a special scheme: escapes are read, a name is converted to ASCII, and one that ends in a
number has to be an address. -/
def parseSpecial (domains : DomainToAscii) : List Char → Except UrlError Host
  | '[' :: rest => parseBracketed rest
  | cs =>
      match domains.convert? (decode cs) with
      | none => .error .invalidDomain
      | some cs =>
          if cs.any forbiddenInName then .error .invalidDomain
          else if cs.isEmpty then .error .emptyHost
          else if Ipv4.isNumeric cs then
            match Ipv4.parse? cs with
            | some address => .ok (.ipv4 address)
            | none => .error .invalidIpv4
          else .ok (.name cs)

/-- Characters that no host can have. -/
def forbiddenInHost (c : Char) : Bool :=
  ['\x00', '\t', '\n', '\r', ' ', '#', '/', ':', '<', '>', '?', '@', '[', '\\', ']', '^', '|'].contains c

/-- The host of another scheme: a name as it is written. -/
def parseOther : List Char → Except UrlError Host
  | '[' :: rest => parseBracketed rest
  | cs =>
      if cs.any forbiddenInHost then .error .invalidHostCharacter
      else .ok (.name (encode controlSet cs))

end Host

end Url
end TieredPool
