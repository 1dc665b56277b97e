/-!
# Digits — decimal numbers in text

* `digitsValue` — the number that a list of decimal digits writes.
-/

namespace TieredPool
namespace Text

def digitsValue (cs : List Char) : Nat := cs.foldl (fun n c => n * 10 + (c.toNat - 48)) 0

end Text
end TieredPool
