import DiceScript.Json

/-!
# Equality and order of JSON data

Data are alike when they say the same: a truth value counts as zero or one, a real without a fraction as
a whole number, and the order of the members of an object is of no account. Numbers are ordered by size,
texts by their characters and arrays by their items; nothing else can be put in order.
-/

namespace DiceScript

def Binary64.toInt? (x : Binary64) : Option Int :=
  match x.toRat? with
  | some q => if q.den = 1 then some q.num else none
  | none => none

namespace Json

mutual

/-- The form that alike data have in common. -/
def plain : Json → Json
  | .bool value => .integer (if value then 1 else 0)
  | .real x =>
    match x.toInt? with
    | some n => .integer n
    | none => .real x
  | .array items => .array (plainItems items)
  | .object members =>
    .object ((plainMembers members).mergeSort fun a b => decide (a.1 ≤ b.1))
  | j => j

def plainItems : List Json → List Json
  | [] => []
  | item :: rest => plain item :: plainItems rest

def plainMembers : List (String × Json) → List (String × Json)
  | [] => []
  | (key, value) :: rest => (key, plain value) :: plainMembers rest

end

def alike (a b : Json) : Bool :=
  a.plain = b.plain

/-- The size of a number: its infinite part, then its finite part. -/
def size? : Json → Option (Int × Rat)
  | .bool value => some (0, if value then 1 else 0)
  | .integer n => some (0, n)
  | .real (.infinite negative) => some (if negative then -1 else 1, 0)
  | .real x => x.toRat?.map fun q => (0, q)
  | _ => none

mutual

def before? : Json → Json → Option Bool
  | .text a, .text b => some (decide (a < b))
  | .array xs, .array ys => itemsBefore? xs ys
  | a, b =>
    match a.size?, b.size? with
    | some (i, p), some (j, q) => some (decide (i < j) || (i == j && decide (p < q)))
    | _, _ => none

/-- The first items that are not alike decide; else the shorter list comes first. -/
def itemsBefore? : List Json → List Json → Option Bool
  | _, [] => some false
  | [], _ :: _ => some true
  | x :: xs, y :: ys => if x.alike y then itemsBefore? xs ys else before? x y

end

/-- Data in increasing order, if each two of them can be put in order. -/
def sorted? (items : List Json) : Option (List Json) :=
  if items.length ≤ 1 then some items
  else if items.all fun a => items.all fun b => (before? a b).isSome then
    some (items.mergeSort fun a b => before? b a != some true)
  else none

end Json

end DiceScript
