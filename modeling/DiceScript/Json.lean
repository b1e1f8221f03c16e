import DiceScript.Numeral.Shortest
import DiceScript.Table

/-!
# JSON data and its text

Objects keep their members in order, and whole numbers are told apart from reals. The text of a
document puts every item on a line of its own, two blanks deeper than what holds it; empty arrays and
objects stay closed. Only quotes, backslashes and control characters are escaped.
-/

namespace DiceScript

inductive Json where
  | null
  | bool (value : Bool)
  | integer (value : Int)
  | real (value : Binary64)
  | text (value : String)
  | array (items : List Json)
  | object (members : List (String × Json))

namespace Json

mutual

def same : Json → Json → Bool
  | .null, .null => true
  | .bool a, .bool b => a = b
  | .integer a, .integer b => a = b
  | .real a, .real b => a = b
  | .text a, .text b => a = b
  | .array xs, .array ys => sameItems xs ys
  | .object xs, .object ys => sameMembers xs ys
  | _, _ => false

def sameItems : List Json → List Json → Bool
  | [], [] => true
  | x :: xs, y :: ys => same x y && sameItems xs ys
  | _, _ => false

def sameMembers : List (String × Json) → List (String × Json) → Bool
  | [], [] => true
  | (key, x) :: xs, (key', y) :: ys => key = key' && same x y && sameMembers xs ys
  | _, _ => false

end

mutual

theorem same_iff (a b : Json) : same a b = true ↔ a = b := by
  cases a <;> cases b <;> simp [same]
  case array.array xs ys => exact sameItems_iff xs ys
  case object.object xs ys => exact sameMembers_iff xs ys

theorem sameItems_iff (xs ys : List Json) : sameItems xs ys = true ↔ xs = ys := by
  match xs, ys with
  | [], [] => simp [sameItems]
  | [], _ :: _ => simp [sameItems]
  | _ :: _, [] => simp [sameItems]
  | x :: xs, y :: ys => simp [sameItems, same_iff x y, sameItems_iff xs ys]

theorem sameMembers_iff (xs ys : List (String × Json)) : sameMembers xs ys = true ↔ xs = ys := by
  match xs, ys with
  | [], [] => simp [sameMembers]
  | [], _ :: _ => simp [sameMembers]
  | _ :: _, [] => simp [sameMembers]
  | (key, x) :: xs, (key', y) :: ys =>
    simp [sameMembers, same_iff x y, sameMembers_iff xs ys, and_assoc]

end

def isText : Json → Bool
  | .text _ => true
  | _ => false

def isCompound : Json → Bool
  | .array _ | .object _ => true
  | _ => false

instance : DecidableEq Json := fun a b => decidable_of_iff _ (same_iff a b)

def escapedChar (c : Char) : String :=
  if c = '\x22' then "\\\""
  else if c = '\\' then "\\\\"
  else if c = '\n' then "\\n"
  else if c = '\r' then "\\r"
  else if c = '\t' then "\\t"
  else if c = '\x08' then "\\b"
  else if c = '\x0c' then "\\f"
  else if c.toNat < 32 then
    let digits := String.ofList (Nat.toDigits 16 c.toNat)
    "\\u" ++ "".pushn '0' (4 - digits.length) ++ digits
  else c.toString

def stringText (s : String) : String :=
  "\"" ++ String.join (s.toList.map escapedChar) ++ "\""

def realText : Binary64 → String
  | .nan => "NaN"
  | .infinite negative => if negative then "-Infinity" else "Infinity"
  | x => x.display

/-- How the parts of an array or object are set apart at a depth: after the opening bracket, between
two parts, and before the closing bracket. -/
structure Spacing where
  opening : Nat → String
  between : Nat → String
  closing : Nat → String
  afterKey : String

/-- Everything on one line, for a host that exchanges data line by line. Documents are `indented`. -/
def compact : Spacing :=
  ⟨fun _ => "", fun _ => ",", fun _ => "", ":"⟩

/-- One part a line, two blanks deeper at each depth. -/
def indented : Spacing :=
  let line := fun depth => "\n" ++ "".pushn ' ' (2 * depth)
  ⟨fun depth => line (depth + 1), fun depth => "," ++ line (depth + 1), line, ": "⟩

def Spacing.enclose (spacing : Spacing) (depth : Nat) (left right : String) (parts : List String) :
    String :=
  if parts.isEmpty then left ++ right
  else
    left ++ spacing.opening depth ++ String.intercalate (spacing.between depth) parts ++
      spacing.closing depth ++ right

mutual

def render (spacing : Spacing) (depth : Nat) : Json → String
  | .null => "null"
  | .bool value => if value then "true" else "false"
  | .integer value => toString value
  | .real value => realText value
  | .text value => stringText value
  | .array items => spacing.enclose depth "[" "]" (renderItems spacing (depth + 1) items)
  | .object members =>
    spacing.enclose depth "\x7b" "\x7d" (renderMembers spacing (depth + 1) members)

def renderItems (spacing : Spacing) (depth : Nat) : List Json → List String
  | [] => []
  | item :: rest => render spacing depth item :: renderItems spacing depth rest

def renderMembers (spacing : Spacing) (depth : Nat) : List (String × Json) → List String
  | [] => []
  | (key, value) :: rest =>
    (stringText key ++ spacing.afterKey ++ render spacing depth value) ::
      renderMembers spacing depth rest

end

def documentText (j : Json) : String :=
  render indented 0 j

end Json

end DiceScript
