import DiceScript.Machine.Eval

/-!
# Running scripts

A source text is compiled and its functions are entered before the first evaluation. A script may be run
several times on one machine; the first error ends the run.
-/

namespace DiceScript

namespace Eval

/-- A problem as a result, after it was reported. -/
def rejected {α : Type} (p : Problem) : Eval (Except Problem α) := do
  report p
  pure (.error p)

/-- The outcome of reading tokens as a result: a problem is reported, anything else is a fault. -/
def ofRead {α : Type} : Except ReadStop α → Eval (Except Problem α)
  | .ok a => pure (.ok a)
  | .error (.problem e) => rejected (.parse e)
  | .error .exhausted => fault .endOfTokens
  | .error .outOfFuel => throw .outOfFuel

def scanned (source : String) : Eval (Except Problem (List Token)) :=
  match scan source with
  | .ok tokens => pure (.ok tokens)
  | .error e => rejected (.scan e)

def compile (source : String) : Eval (Except Problem Script) := do
  match ← scanned source with
  | .error p => pure (.error p)
  | .ok tokens => ofRead (Script.ofTokens tokens)

/-- The bindings that a text `name = number ...` stands for. -/
def compileBindings (source : String) : Eval (Except Problem (List Binding)) := do
  match ← scanned source with
  | .error p => pure (.error p)
  | .ok tokens => do
    match ← ofRead (Argument.ofTokens tokens) with
    | .error p => pure (.error p)
    | .ok arguments =>
      match arguments.mapM Argument.binding? with
      | some bindings => pure (.ok bindings)
      | none => fault .valueless

/-- Evaluate an expression a number of times, up to the first error. -/
def repeatedly (fuel : Nat) (e : Expr) : Nat → Eval (Except RuntimeError (List Value))
  | 0 => pure (.ok [])
  | count + 1 => do
    match ← evaluate fuel e with
    | .error err => pure (.error err)
    | .ok v => do
      match ← repeatedly fuel e count with
      | .error err => pure (.error err)
      | .ok vs => pure (.ok (v :: vs))

/-- Compile a text, enter its functions and evaluate it a number of times. -/
def runScript (fuel : Nat) (source : String) (repetitions : Nat) :
    Eval (Except Problem (List Value)) := do
  match ← compile source with
  | .error p => pure (.error p)
  | .ok script => do
    defineAll script.functions
    match ← repeatedly fuel script.expression repetitions with
    | .error err => pure (.error (.runtime err))
    | .ok vs => pure (.ok vs)

end Eval

end DiceScript
