import DiceScript.Token.Pieces

/-!
# Boxes of text

A text is a box: its rows are its lines, its width the length of the longest. Two boxes are set side by
side, or one above the other with their left edges, right edges or middles aligned. Each box moves as a
block: its rows are first filled up to its own width. A box of the common width is left as it is, so
blanks are added only where a row is followed by something or the box is the narrower one.
-/

namespace DiceScript

abbrev Box := List (List Char)

namespace Box

/-- The lines of a text. Even the empty text has one. -/
def ofText (s : String) : Box :=
  s.toList.splitOn '\n'

def toText (b : Box) : String :=
  String.ofList (List.intercalate ['\n'] b)

def width (b : Box) : Nat :=
  b.foldl (fun w row => max w row.length) 0

def height (b : Box) : Nat :=
  b.length

def blanks (n : Nat) : List Char :=
  List.replicate n ' '

def fill (w : Nat) (row : List Char) : List Char :=
  row ++ blanks (w - row.length)

/-- How a narrower box sits above or below a wider one. -/
inductive Alignment where
  | left | right | centre
deriving DecidableEq

/-- How many of the spare columns go to the left of the narrower box. -/
def Alignment.indent : Alignment → Nat → Nat
  | .left, _ => 0
  | .right, spare => spare
  | .centre, spare => spare / 2

/-- The box widened to a width that is at least its own. -/
def widen (a : Alignment) (target : Nat) (b : Box) : Box :=
  let own := b.width
  let spare := target - own
  let indent := a.indent spare
  b.map fun row => blanks indent ++ fill own row ++ blanks (spare - indent)

/-- The box at a common width: only a narrower box changes. -/
def widenTo (a : Alignment) (target : Nat) (b : Box) : Box :=
  if b.width < target then b.widen a target else b

def stack (a : Alignment) (top bottom : Box) : Box :=
  let common := max top.width bottom.width
  top.widenTo a common ++ bottom.widenTo a common

/-- The rows of two boxes side by side; a missing row on the left is blank, one on the right too. -/
def besideRows (leftWidth rightWidth : Nat) : Box → Box → Box
  | [], [] => []
  | [], r :: rs => (blanks leftWidth ++ r) :: besideRows leftWidth rightWidth [] rs
  | l :: ls, [] => (fill leftWidth l ++ blanks rightWidth) :: besideRows leftWidth rightWidth ls []
  | l :: ls, r :: rs => (fill leftWidth l ++ r) :: besideRows leftWidth rightWidth ls rs

def beside (left right : Box) : Box :=
  besideRows left.width right.width left right

end Box

def LayoutOp.apply (op : LayoutOp) (left right : String) : String :=
  let a := Box.ofText left
  let b := Box.ofText right
  Box.toText <|
    match op with
    | .beside => a.beside b
    | .aboveLeft => a.stack .left b
    | .aboveRight => a.stack .right b
    | .aboveCentre => a.stack .centre b

end DiceScript
