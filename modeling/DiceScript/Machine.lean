import DiceScript.Dice
import DiceScript.Problem
import DiceScript.Scope

/-!
# The machine that evaluates scripts

A machine holds the bindings in force, the functions, the random source and a log. The log keeps, in
order, the problems that were reported and the events that the verbosity asks for; neither has any
influence on what is computed.

`Eval` is a computation on a machine. It ends with a value, or stops with a reported error, with a fault,
or because the bound on its depth was reached; the machine is there in every case.
-/

namespace DiceScript

inductive Event where
  | evaluating (e : Expr)
  | finished (v : Value)
  | failed (kind : RuntimeError.Kind)
  | defining (name : Name) (arity : Nat)
  | pushing (b : Binding)
  | popping (name : Name)
  | deciding (condition : Value)
  | visiting (name : Name) (n : Int)
  | testing (mode : LoopMode) (name : Name) (value : Value) (style : EndStyle) (test : Value)
  | calling (name : Name)

namespace Event

/-- The least verbosity that shows an event. -/
def level : Event → Nat
  | .evaluating _ | .finished _ | .failed _ => 1
  | .defining _ _ | .pushing _ | .popping _ => 2
  | .deciding _ | .visiting _ _ | .testing _ _ _ _ _ | .calling _ => 3

def text : Event → String
  | .evaluating e => "evaluate " ++ e.display
  | .finished v => "result " ++ v.display
  | .failed kind => "error " ++ kind.name
  | .defining name arity => "define function " ++ name.shown ++ "/" ++ toString arity
  | .pushing b => "push " ++ b.name.shown ++ " = " ++ b.value.display
  | .popping name => "pop " ++ name.shown
  | .deciding v =>
    "if condition " ++ v.display ++ " -> " ++ (if v.isTruthy then "True" else "False")
  | .visiting name n => "foreach " ++ name.shown ++ " = " ++ toString n
  | .testing mode name value style test =>
    RuntimeError.loopName mode ++ " " ++ name.shown ++ " = " ++ value.display ++ ", " ++ style.name ++
      " " ++ test.display
  | .calling name => "call " ++ name.shown

end Event

inductive Note where
  | report (p : Problem)
  | trace (e : Event)

def Note.problem? : Note → Option Problem
  | .report p => some p
  | .trace _ => none

def Note.event? : Note → Option Event
  | .report _ => none
  | .trace e => some e

structure Machine where
  scope : Scope
  functions : Table Name Expr
  dice : Dice
  verbosity : Nat
  log : Array Note

inductive Stop where
  | error (e : RuntimeError)
  | fault (f : Fault)
  | outOfFuel
deriving DecidableEq

abbrev Eval := EStateM Stop Machine

namespace Machine

def version : String := "0.5.0"

def initial (dice : Dice) (verbosity : Nat) : Machine :=
  ⟨[], [], dice, verbosity, #[]⟩

def reports (m : Machine) : List Problem :=
  m.log.toList.filterMap Note.problem?

def events (m : Machine) : List Event :=
  m.log.toList.filterMap Note.event?

def reported (m : Machine) (p : Problem) : Machine :=
  { m with log := m.log.push (.report p) }

/-- The machine after an event, which is logged if the verbosity asks for it. -/
def traced (m : Machine) (e : Event) : Machine :=
  if e.level ≤ m.verbosity then { m with log := m.log.push (.trace e) } else m

def truncated (m : Machine) (depth : Nat) : Machine :=
  { m with scope := m.scope.truncate depth }

/-- The machine without its bindings and functions, for a host that begins anew. -/
def reset (m : Machine) : Machine :=
  { m with scope := m.scope.clear, functions := [] }

def quiet (m : Machine) : Machine :=
  { m with log := #[] }

@[simp] theorem reported_scope (m : Machine) (p : Problem) : (m.reported p).scope = m.scope := rfl

@[simp] theorem reported_functions (m : Machine) (p : Problem) :
    (m.reported p).functions = m.functions := rfl

@[simp] theorem traced_scope (m : Machine) (e : Event) : (m.traced e).scope = m.scope := by
  unfold traced
  split <;> rfl

@[simp] theorem traced_functions (m : Machine) (e : Event) :
    (m.traced e).functions = m.functions := by
  unfold traced
  split <;> rfl

@[simp] theorem traced_dice (m : Machine) (e : Event) : (m.traced e).dice = m.dice := by
  unfold traced
  split <;> rfl

@[simp] theorem reports_reported (m : Machine) (p : Problem) :
    (m.reported p).reports = m.reports ++ [p] := by
  simp [reports, reported, Note.problem?]

@[simp] theorem reports_traced (m : Machine) (e : Event) : (m.traced e).reports = m.reports := by
  unfold traced
  split
  · simp [reports, Note.problem?]
  · rfl

@[simp] theorem truncated_scope (m : Machine) (depth : Nat) :
    (m.truncated depth).scope = m.scope.truncate depth := rfl

@[simp] theorem truncated_functions (m : Machine) (depth : Nat) :
    (m.truncated depth).functions = m.functions := rfl

end Machine

namespace Eval

variable {α : Type}

def report (p : Problem) : Eval Unit :=
  modify fun m => m.reported p

def trace (e : Event) : Eval Unit :=
  modify fun m => m.traced e

def fail (e : RuntimeError) : Eval α := do
  report (.runtime e)
  throw (.error e)

def fault (f : Fault) : Eval α :=
  throw (.fault f)

def push (b : Binding) : Eval Unit := do
  trace (.pushing b)
  modify fun m => { m with scope := m.scope.push b }

def pushAll : List Binding → Eval Unit
  | [] => pure ()
  | b :: rest => do
    push b
    pushAll rest

def pop : Eval Binding := do
  let m ← get
  match m.scope.pop? with
  | none => fault .emptyScope
  | some (b, rest) => do
    set { m with scope := rest }
    trace (.popping b.name)
    pure b

/-- Take the innermost binding of a name away, and tell whether there was one. -/
def remove (name : Name) : Eval Bool := do
  let m ← get
  let (found, scope) := m.scope.remove name
  set { m with scope := scope }
  pure found

/-- Run a computation and take away, however it ends, the bindings that it leaves behind. -/
def inScope (x : Eval α) : Eval α := fun m =>
  match x m with
  | .ok a after => .ok a (after.truncated m.scope.depth)
  | .error stop after => .error stop (after.truncated m.scope.depth)

/-- Let the random source decide, if there is anything to decide between. -/
def drawing (decide : Dice → Option (α × Dice)) : Eval α := do
  let m ← get
  match decide m.dice with
  | none => fault .noElement
  | some (a, dice) => do
    set { m with dice := dice }
    pure a

def function? (name : Name) : Eval (Option Expr) := do
  if name.isCompound then fault .compoundName
  else
    let m ← get
    pure (m.functions.find? name)

/-- Enter a function under a name. Tracing asks for the number of its parameters. -/
def define (name : Name) (node : Expr) : Eval Unit := do
  if name.isCompound then fault .compoundName
  let m ← get
  if 2 ≤ m.verbosity then
    match node.arity? with
    | some arity => trace (.defining name arity)
    | none => fault .notCallable
  modify fun m => { m with functions := m.functions.insert name node }

def defineAll : Table Name Expr → Eval Unit
  | [] => pure ()
  | (name, node) :: rest => do
    define name node
    defineAll rest

end Eval

end DiceScript
