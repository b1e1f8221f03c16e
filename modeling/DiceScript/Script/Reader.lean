import DiceScript.Script.Ladder

/-!
# Reading scripts

A script is one expression with function definitions before and after it. The same tokens in another
arrangement, `name = number` any number of times, are the arguments given on a command line.

Expressions may be nested to any depth: the bound that `ofTokens` gives to the reader grows with the tokens and is never
reached. A reader that recurses on a stack of limited depth gives up on a script that is nested deep enough, which is
not modelled. Nor does the reader look at names except to compare them, so that `redefined` is decided for a name that
is an array or object as for any other, where a reader with a hash table of names fails.
-/

namespace DiceScript

structure Binding where
  name : Name
  value : Value
deriving DecidableEq

namespace Script

open Read Ladder

def readFunction (fuel : Nat) : Read (Name × Expr) := do
  let name ← expect .identifier (.expected .functionName)
  let _ ← expect .leftParen (.expected .functionOpening)
  let (parameters, _) ←
    enclosed (expect .identifier (.expected .parameterName)) fuel .rightParen .parametersClosing
  let _ ← expect .equal (.expected .functionEqual)
  let body ← readGoal fuel (.at .expression)
  pure (name.lexeme, .function name.lexeme (parameters.map (·.lexeme)) body)

def readFunctions (fuel : Nat) : Nat → Table Name Expr → Read (Table Name Expr)
  | 0, _ => throw .outOfFuel
  | rounds + 1, known => do
    match ← take? .wordFunction with
    | none => pure known
    | some _ => do
      let (name, definition) ← readFunction fuel
      if (known.find? name).isSome then fail (.redefined name)
      else readFunctions fuel rounds (known.insert name definition)

def readScript (fuel : Nat) : Read Script := do
  let before ← readFunctions fuel fuel []
  let expression ← readGoal fuel (.at .expression)
  let functions ← readFunctions fuel fuel before
  let t ← peek
  if t.kind = .endOfInput then pure ⟨expression, functions⟩ else fail .trailing

def enoughFuel (tokens : List Token) : Nat :=
  16 * (tokens.length + 1)

def ofTokens (tokens : List Token) : Except ReadStop Script :=
  ((readScript (enoughFuel tokens)).run tokens).map Prod.fst

end Script

structure Argument where
  name : Name
  literal : Json
deriving DecidableEq

namespace Argument

/-- Stop at a token that is not part of `name = number`. -/
def malformed {α : Type} (t : Token) : Except ReadStop α :=
  .error (.problem ⟨.malformedArgument, t.position⟩)

def ofTokens : List Token → Except ReadStop (List Argument)
  | [] => .error .exhausted
  | name :: rest =>
    if name.kind = .endOfInput then .ok []
    else if name.kind ≠ .identifier then malformed name
    else
      match rest with
      | [] => .error .exhausted
      | sign :: rest =>
        if sign.kind ≠ .equal then malformed sign
        else
          match rest with
          | [] => .error .exhausted
          | number :: rest =>
            if number.kind ≠ .integer then malformed number
            else (ofTokens rest).map (⟨name.lexeme, number.literal⟩ :: ·)

def binding? (a : Argument) : Option Binding :=
  match a.literal with
  | .integer n => some ⟨a.name, .number n⟩
  | _ => none

end Argument

end DiceScript
