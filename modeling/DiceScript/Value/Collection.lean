/-!
# Collections

A collection is a multiset of whole numbers, held as a list. Apart from the order in which elements are
visited, the order of the list is of no account: equality and display go through the sorted list.

Numbers and lengths are not limited. A `range` has as many elements as its bounds say, where a machine with a largest
length of its sequences refuses bounds that are too far apart, whatever its memory.
-/

namespace DiceScript

/-- The elements of a multiset, in some order. -/
abbrev Collection := List Int

namespace Collection

def sorted (c : Collection) : Collection :=
  List.mergeSort c fun a b => decide (a ≤ b)

def descending (c : Collection) : Collection :=
  List.mergeSort c fun a b => decide (b ≤ a)

/-- The number that a one-element collection stands for. -/
def scalar? : Collection → Option Int
  | [n] => some n
  | _ => none

def same (a b : Collection) : Bool :=
  a.sorted == b.sorted

def display (c : Collection) : String :=
  String.intercalate " " (c.sorted.map toString)

def range (low high : Int) : Collection :=
  (List.range (high + 1 - low).toNat).map fun (i : Nat) => low + i

/-- `right` when `left` holds anything. -/
def guarded (left right : Collection) : Collection :=
  if left.isEmpty then [] else right

/-- The elements that do not occur in the second collection. -/
def dropping (left right : Collection) : Collection :=
  left.filter fun v => !right.contains v

/-- The elements that occur in the second collection. -/
def keeping (left right : Collection) : Collection :=
  left.filter fun v => right.contains v

/-- The first collection less one occurrence for each occurrence in the second. -/
def minus (left right : Collection) : Collection :=
  right.foldl (fun rest v => rest.erase v) left

def least (n : Nat) (c : Collection) : Collection :=
  c.sorted.take n

def largest (n : Nat) (c : Collection) : Collection :=
  c.descending.take n

/-- Every value once, in increasing order. -/
def different (c : Collection) : Collection :=
  sorted c.eraseDups

def total (c : Collection) : Int :=
  c.foldl (· + ·) 0

def minimum? (c : Collection) : Option Int :=
  c.min?

def maximum? (c : Collection) : Option Int :=
  c.max?

/-- The element in the middle of the sorted list, the upper one of two. -/
def median? (c : Collection) : Option Int :=
  c.sorted[c.length / 2]?

/-- All occurrences of the least value. -/
def minimal (c : Collection) : Collection :=
  match c.minimum? with
  | some m => c.filter (· == m)
  | none => []

/-- All occurrences of the largest value. -/
def maximal (c : Collection) : Collection :=
  match c.maximum? with
  | some m => c.filter (· == m)
  | none => []

/-- One element when the collection is empty, none otherwise. -/
def negation (c : Collection) : Collection :=
  if c.isEmpty then [1] else []

theorem sorted_perm (c : Collection) : (sorted c).Perm c :=
  List.mergeSort_perm c _

theorem descending_perm (c : Collection) : (descending c).Perm c :=
  List.mergeSort_perm c _

theorem sorted_pairwise (c : Collection) : (sorted c).Pairwise (· ≤ ·) := by
  have h := @List.pairwise_mergeSort Int (fun a b => decide (a ≤ b))
    (fun a b c => by simpa using Int.le_trans) (fun a b => by simpa using Int.le_total a b) c
  simpa [sorted] using h

/-- A collection that holds anything has a least, a largest and a middle element. -/
theorem extremes_isSome {c : Collection} (nonempty : c.isEmpty = false) :
    c.minimum?.isSome ∧ c.maximum?.isSome ∧ c.median?.isSome := by
  cases c with
  | nil => cases nonempty
  | cons n rest =>
    have middle : (rest.length + 1) / 2 < (sorted (n :: rest)).length := by
      rw [(sorted_perm _).length_eq, List.length_cons]
      omega
    exact ⟨rfl, rfl, by simp [median?, middle]⟩

end Collection

end DiceScript
