import DiceScript.Text.CaseMap
import DiceScript.Text.Cased

/-!
# Capitalised words

The first character of a text is written as at the start of a word and all others in lower case. The
Greek capital sigma has two lower-case forms: the one for the end of a word stands after a cased
character when none follows.
-/

namespace DiceScript.Text

def capitalSigma : Char := Char.ofNat 0x3A3

def finalSigma : Char := Char.ofNat 0x3C2

/-- Whether the nearest character that is not passed over has a case. -/
def meetsCased (cs : List Char) : Bool :=
  ((cs.dropWhile isCaseIgnorable).head?.map isCased).getD false

/-- A character in lower case between the text before it, nearest first, and the text after it. -/
def loweredBetween (before : List Char) (c : Char) (after : List Char) : List Char :=
  if c = capitalSigma && meetsCased before && !meetsCased after then [finalSigma] else lowered c

/-- The lower case of what follows a text that is given backwards. -/
def loweredAfter (before : List Char) : List Char → List Char
  | [] => []
  | c :: rest => loweredBetween before c rest ++ loweredAfter (c :: before) rest

def capitalized (s : String) : String :=
  match s.toList with
  | [] => ""
  | c :: rest => String.ofList (titled c ++ loweredAfter [c] rest)

end DiceScript.Text
