import DiceScript.Script.Reader

/-!
# Scopes

All bindings are on one stack: those of a host, of bindings in scripts, of loop variables and of
parameters. The innermost binding comes first in the list. A name means its innermost binding, so an
outer binding of the same name is only hidden.
-/

namespace DiceScript

/-- The bindings in force, the innermost first. -/
abbrev Scope := List Binding

namespace Scope

def depth (s : Scope) : Nat :=
  s.length

def push (s : Scope) (b : Binding) : Scope :=
  b :: s

def pop? : Scope → Option (Binding × Scope)
  | [] => none
  | b :: rest => some (b, rest)

def truncate (s : Scope) (depth : Nat) : Scope :=
  s.drop (s.length - depth)

/-- The scope without the innermost binding of a name, and whether there was one. -/
def remove (s : Scope) (name : Name) : Bool × Scope :=
  (s.any (·.name = name), s.eraseP (·.name = name))

def clear (_ : Scope) : Scope :=
  []

def lookup? (s : Scope) (name : Name) : Option Value :=
  (s.find? (·.name = name)).map (·.value)

/-- The bindings from the outermost on. -/
def toList (s : Scope) : List Binding :=
  s.reverse

@[simp] theorem truncate_self (s : Scope) : s.truncate s.depth = s := by
  simp [truncate, depth]

@[simp] theorem truncate_push (s : Scope) (b : Binding) : (s.push b).truncate s.depth = s := by
  simp [truncate, push, depth]

theorem truncate_append (new s : Scope) : truncate (new ++ s) s.depth = s := by
  simp [truncate, depth]

@[simp] theorem lookup?_push (s : Scope) (b : Binding) (name : Name) :
    (s.push b).lookup? name = if b.name = name then some b.value else s.lookup? name := by
  by_cases h : b.name = name <;> simp [lookup?, push, h]

end Scope

end DiceScript
