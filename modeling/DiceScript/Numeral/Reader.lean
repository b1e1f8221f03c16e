import DiceScript.Numeral.Binary64
import DiceScript.Text.Blank
import DiceScript.Text.Digit

/-!
# Reading numbers from text

A count or a real given as text may have blanks around it, a sign, digits of any script, and single
underscores between digits. A real may also have a point, an exponent, or be one of the words for
infinity and for not-a-number in any case of letters.
-/

namespace DiceScript.Numeral

def unpadded (s : String) : List Char :=
  Text.trimmed Text.isNumberBlank s.toList

/-- A sign in front, true for minus, and the rest. -/
def splitSign : List Char → Bool × List Char
  | '-' :: rest => (true, rest)
  | '+' :: rest => (false, rest)
  | cs => (false, cs)

/-- The digits after a first one: any number, each behind at most one underscore. -/
def moreDigits : List Char → List Nat × List Char
  | '_' :: c :: rest =>
    match Text.digitValue? c with
    | some d => let (ds, rest) := moreDigits rest; (d :: ds, rest)
    | none => ([], '_' :: c :: rest)
  | c :: rest =>
    match Text.digitValue? c with
    | some d => let (ds, rest) := moreDigits rest; (d :: ds, rest)
    | none => ([], c :: rest)
  | [] => ([], [])

/-- A run of digits, empty when the text does not start with one. -/
def digitRun : List Char → List Nat × List Char
  | c :: rest =>
    match Text.digitValue? c with
    | some d => let (ds, rest) := moreDigits rest; (d :: ds, rest)
    | none => ([], c :: rest)
  | [] => ([], [])

def ofDigits (ds : List Nat) : Nat :=
  ds.foldl (fun n d => 10 * n + d) 0

def integer? (s : String) : Option Int :=
  let (negative, cs) := splitSign (unpadded s)
  match digitRun cs with
  | (d :: ds, []) =>
    let n : Int := ofDigits (d :: ds)
    some (if negative then -n else n)
  | _ => none

def exponent? : List Char → Option Int
  | [] => some 0
  | c :: rest =>
    if c = 'e' || c = 'E' then
      let (negative, cs) := splitSign rest
      match digitRun cs with
      | (d :: ds, []) =>
        let n : Int := ofDigits (d :: ds)
        some (if negative then -n else n)
      | _ => none
    else none

/-- A real without sign: digits, a point and digits, and an exponent. -/
def magnitude? (negative : Bool) (cs : List Char) : Option Binary64 :=
  let (whole, rest) := digitRun cs
  let (fraction, rest) :=
    match rest with
    | '.' :: rest => digitRun rest
    | _ => ([], rest)
  if whole.isEmpty && fraction.isEmpty then none
  else
    (exponent? rest).map fun e =>
      Binary64.ofDecimal negative (ofDigits (whole ++ fraction)) (e - fraction.length)

def real? (s : String) : Option Binary64 :=
  let (negative, cs) := splitSign (unpadded s)
  let word := cs.map Char.toLower
  if word = "inf".toList || word = "infinity".toList then some (.infinite negative)
  else if word = "nan".toList then some .nan
  else magnitude? negative cs

end DiceScript.Numeral
