import DiceScript.Value.Box
import DiceScript.Value.Collection

/-!
# Values

An expression evaluates to a collection of whole numbers, a real, a text or a pair. A single number is a
collection of one element. Only collections have a truth value: the empty one is false, any other true;
the other shapes count as false.
-/

namespace DiceScript

inductive Value where
  | collection (items : Collection)
  | real (value : Binary64)
  | text (value : String)
  | pair (first second : Value)
deriving DecidableEq

inductive Shape where
  | singleton | collection | real | text | pair
deriving DecidableEq

def Shape.name : Shape → String
  | .singleton => "singleton"
  | .collection => "collection"
  | .real => "real"
  | .text => "text"
  | .pair => "pair"

namespace Value

def number (n : Int) : Value := .collection [n]

def shape : Value → Shape
  | .collection c => if c.scalar?.isSome then .singleton else .collection
  | .real _ => .real
  | .text _ => .text
  | .pair _ _ => .pair

def display : Value → String
  | .collection c => c.display
  | .real x => "?" ++ x.display
  | .text s => s
  | .pair a b => "[ " ++ a.display ++ ", " ++ b.display ++ " ]"

def isTruthy : Value → Bool
  | .collection c => !c.isEmpty
  | _ => false

/-- Equality of values: collections as multisets, reals as numbers, no value of one shape with one of
another. -/
def same : Value → Value → Bool
  | .collection a, .collection b => a.same b
  | .real x, .real y => x.same y
  | .text s, .text t => s == t
  | .pair a b, .pair c d => a.same c && b.same d
  | _, _ => false

/-- Which values of a list are equal, for a host that compares values: no script can. Each is equal to itself, even one
that holds a real that is not a number. -/
def equalities (vs : List Value) : List (List Bool) :=
  let indexed := vs.zipIdx
  indexed.map fun (a, i) => indexed.map fun (b, j) => i == j || a.same b

end Value

end DiceScript
