import DiceScript.Json.Order
import DiceScript.Json.Quoted
import DiceScript.Value

/-!
# Forms of values

A document, or a token made by hand, may describe a value with content of another sort: a collection of
texts, say, or a text that is a number. Such a form can be kept, shown and compared as far as its content
allows, but it is the form of no value.
-/

namespace DiceScript

inductive Form where
  | collection (items : List Json)
  | real (content : Json)
  | text (content : Json)
  | pair (first second : Form)
deriving DecidableEq

namespace Form

def number? : Json → Option Int
  | .integer n => some n
  | _ => none

def toValue? : Form → Option Value
  | .collection items => (items.mapM number?).map .collection
  | .real (.real x) => some (.real x)
  | .text (.text s) => some (.text s)
  | .pair first second => do
    let a ← first.toValue?
    let b ← second.toValue?
    some (.pair a b)
  | _ => none

def display : Form → String
  | .collection items => String.intercalate " " (((Json.sorted? items).getD items).map Json.shown)
  | .real content => "?" ++ content.shown
  | .text content => content.shown
  | .pair first second => "[ " ++ first.display ++ ", " ++ second.display ++ " ]"

/-- Whether a form can be printed: its items can be put in order, and its texts are texts. -/
def isShowable : Form → Bool
  | .collection items => (Json.sorted? items).isSome
  | .real _ => true
  | .text content => content.isText
  | .pair first second => first.isShowable && second.isShowable

def item? : Form → Option Json
  | .collection [item] => some item
  | _ => none

/-- What messages call a form. A collection that holds nothing but `null` is not a single item. -/
def shape (form : Form) : Shape :=
  match form with
  | .collection _ => if form.item?.getD .null = .null then .collection else .singleton
  | .real _ => .real
  | .text _ => .text
  | .pair _ _ => .pair

def isTruthy : Form → Bool
  | .collection items => !items.isEmpty
  | _ => false

/-- Equality of forms, if their items can be put in order. As with values, only a host compares them. -/
def same? : Form → Form → Option Bool
  | .collection xs, .collection ys => do
    let xs ← Json.sorted? xs
    let ys ← Json.sorted? ys
    some (decide (Json.plainItems xs = Json.plainItems ys))
  | .real (.real x), .real (.real y) => some (x.same y)
  | .real x, .real y => some (x.alike y)
  | .text s, .text t => some (s.alike t)
  | .pair a b, .pair c d => do
    if ← same? a c then same? b d else some false
  | _, _ => some false

/-- Which forms of a list are equal, for a host. Each but a collection is equal to itself without a look. -/
def equalities? (forms : List Form) : Option (List (List Bool)) :=
  let indexed := forms.zipIdx
  indexed.mapM fun (a, i) => indexed.mapM fun (b, j) =>
    match a with
    | .collection _ => a.same? b
    | _ => if i = j then some true else a.same? b

end Form

end DiceScript
