import TieredPool.Text.Unprintable

/-!
# Quoted — a text between double quotes, for diagnostics

* `quoted` — the quote, the backslash and unprintable characters are escaped, all else stands as
  it is.
-/

namespace TieredPool
namespace Text

/-- The lower-case hexadecimal digits of a number, without leading zeros. -/
def hexDigits (n : Nat) : List Char := Nat.toDigits 16 n

def escapeChar (c : Char) : List Char :=
  match c with
  | '"' => ['\\', '"']
  | '\\' => ['\\', '\\']
  | '\t' => ['\\', 't']
  | '\n' => ['\\', 'n']
  | '\r' => ['\\', 'r']
  | '\x00' => ['\\', '0']
  | c => if isUnprintable c then "\\u\x7b".toList ++ hexDigits c.toNat ++ ['\x7d'] else [c]

def quoted (s : String) : String := String.ofList ('"' :: s.toList.flatMap escapeChar ++ ['"'])

end Text
end TieredPool
