/-!
# Blank — white space

* `isBlankChar` — the characters with the Unicode property White_Space.
* `isBlank` — texts of white space alone, the empty one among them.
-/

namespace TieredPool
namespace Text

/-- First and last code point of each range of white space. -/
def blankRanges : List (Nat × Nat) :=
  [(0x9, 0xd), (0x20, 0x20), (0x85, 0x85), (0xa0, 0xa0), (0x1680, 0x1680), (0x2000, 0x200a),
    (0x2028, 0x2029), (0x202f, 0x202f), (0x205f, 0x205f), (0x3000, 0x3000)]

def isBlankChar (c : Char) : Bool :=
  blankRanges.any fun (first, last) => first ≤ c.toNat && c.toNat ≤ last

def isBlank (s : String) : Bool := s.toList.all isBlankChar

end Text
end TieredPool
