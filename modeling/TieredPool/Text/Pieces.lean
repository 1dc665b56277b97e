/-!
# Pieces — cutting texts at separators

* `pieces` — what stands between the separators, empty pieces included; there is always one.
* `joined` — pieces with a separator between them.
-/

namespace TieredPool
namespace Text

def pieces (isSeparator : Char → Bool) : List Char → List (List Char)
  | [] => [[]]
  | c :: cs =>
      if isSeparator c then [] :: pieces isSeparator cs
      else
        match pieces isSeparator cs with
        | [] => [[c]]
        | p :: ps => (c :: p) :: ps

def joined (separator : List Char) : List (List Char) → List Char
  | [] => []
  | [p] => p
  | p :: q :: ps => p ++ separator ++ joined separator (q :: ps)

theorem pieces_ne_nil (isSeparator : Char → Bool) (cs : List Char) :
    pieces isSeparator cs ≠ [] := by
  induction cs with
  | nil => simp [pieces]
  | cons c cs ih =>
      simp only [pieces]
      split
      · simp
      · split <;> simp

end Text
end TieredPool
