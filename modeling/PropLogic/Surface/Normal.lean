import PropLogic.Canonical.Token
import PropLogic.Text.Replace

/-!
# From requests to the canonical notation

Requests write the operators as signs, each in a Unicode and in an ASCII spelling. `normalize`
replaces the spellings one after the other by the canonical tokens, with a space on both sides.
-/

namespace PropLogic.Surface

/-- A spelling of an operator in requests and the canonical token that it stands for. -/
structure Replacement where
  spelling : List Char
  token : Token
  deriving DecidableEq, Repr

namespace Replacement

def padded (w : Replacement) : List Char := ' ' :: w.token.spelling ++ [' ']

def run (w : Replacement) (cs : List Char) : List Char := Text.replaceAll w.spelling w.padded cs

end Replacement

/-- The spellings in the order of their replacement. The biconditional `<=>` contains the
conditional `=>` and comes before it. -/
def replacements : List Replacement :=
  [⟨['<', '=', '>'], .binary .iff⟩, ⟨['=', '>'], .binary .implies⟩,
   ⟨['¬'], .not⟩, ⟨['!'], .not⟩,
   ⟨['∧'], .binary .and⟩, ⟨['&'], .binary .and⟩,
   ⟨['∨'], .binary .or⟩, ⟨['|'], .binary .or⟩,
   ⟨['→'], .binary .implies⟩, ⟨['↔'], .binary .iff⟩]

def normalizeChars (cs : List Char) : List Char := replacements.foldl (fun acc w => w.run acc) cs

/-- A request in the canonical notation. What is no operator spelling stays as it is. -/
def normalize (text : String) : String := String.ofList (normalizeChars text.toList)

end PropLogic.Surface
