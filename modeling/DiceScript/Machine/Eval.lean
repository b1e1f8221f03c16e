import DiceScript.Machine.Operators

/-!
# Evaluation

`step` evaluates one node, given the evaluation of other expressions as an argument, and `eval` ties the
knot with a bound that limits both the depth of nested evaluations and the rounds of each loop. A finished
answer does not depend on the bound.

The bound is there for the recursion to be well-founded and may be as large as one likes. It does not stand for the limit
that a machine has on the depth of its own recursion: an evaluation that needs a greater depth than such a machine
allows is broken off there, and has its answer here.
-/

namespace DiceScript

namespace Eval

section

variable (eval : Expr → Eval Value)

/-- The values of a repeated operand. Each is evaluated anew and must be a collection. -/
def repeated (op : Token) (e : Expr) : Nat → Eval (List Collection)
  | 0 => pure []
  | count + 1 => do
    match ← eval e with
    | .collection c => do
      let rest ← repeated op e count
      pure (c :: rest)
    | _ => fail (.repeatedValue op)

def stackedRight : List String → String
  | [] => ""
  | first :: rest => rest.foldl LayoutOp.aboveRight.apply first

/-- An operator that evaluates its right operand as often as its left operand says. -/
def deferred (op : Token) (lval : Value) (right : Expr) : Eval Value := do
  let count ← Operator.asSingleton op .count lval
  if count < 0 then fail (.negativeCount op)
  else
    match op.kind with
    | .sample => do
      let rows ← repeated eval op right count.toNat
      pure (.text (stackedRight (rows.map Collection.display)))
    | .hash => do
      let rows ← repeated eval op right count.toNat
      pure (.collection rows.flatten)
    | _ => Operator.foreign op BinarySchema.deferred.name

/-- The kind of the operator is looked at before its operands. -/
def binary (left : Expr) (op : Token) (schema : BinarySchema) (right : Expr) : Eval Value := do
  if op.kind.isBinary then
    let lval ← eval left
    if schema = .deferred then deferred eval op lval right
    else do
      let rval ← eval right
      Operator.binary op schema lval rval
  else fail (.notBinary op)

def unary (op : Token) (schema : UnarySchema) (operand : Expr) : Eval Value := do
  if op.kind.isUnary then
    let v ← eval operand
    Operator.unary op schema v
  else fail (.notUnary op)

/-- A variable means its innermost binding. Without one its fallback is evaluated. -/
def variableValue (name : Name) (fallback : Expr) : Eval Value := do
  let m ← get
  match m.scope.lookup? name with
  | some v => pure v
  | none =>
    match fallback with
    | .missing => fail (.unknownVariable name)
    | _ => eval fallback

def conditional (condition whenTrue whenFalse : Expr) : Eval Value := do
  let v ← eval condition
  trace (.deciding v)
  if v.isTruthy then eval whenTrue else eval whenFalse

def bound (name : Name) (definition use : Expr) : Eval Value := do
  let v ← eval definition
  inScope do
    push ⟨name, v⟩
    let result ← eval use
    let _ ← pop
    pure result

def visits (name : Name) (body : Expr) : List Int → Eval Collection
  | [] => pure []
  | n :: rest => do
    trace (.visiting name n)
    push ⟨name, .number n⟩
    let v ← eval body
    let _ ← pop
    match v with
    | .collection c => do
      let others ← visits name body rest
      pure (c ++ others)
    | v => fail (.foreachBody v.shape)

def foreach (name : Name) (source body : Expr) : Eval Value := do
  match ← eval source with
  | .collection items => do
    let c ← inScope (visits eval name body items)
    pure (.collection c)
  | v => fail (.foreachSource v.shape)

/-- The values of the rounds of a loop. The test sees the value of its round. -/
def rounds (mode : LoopMode) (name : Name) (body : Expr) (style : EndStyle) (test : Expr) :
    Nat → Eval (List Value)
  | 0 => throw .outOfFuel
  | fuel + 1 => do
    let v ← eval body
    match mode, v with
    | .accumulated, .collection _ | .last, _ => do
      push ⟨name, v⟩
      let t ← eval test
      match t with
      | .collection c => do
        trace (.testing mode name v style t)
        let _ ← pop
        if (!c.isEmpty) = decide (style = .untilTrue) then pure [v]
        else do
          let others ← rounds mode name body style test fuel
          pure (v :: others)
      | _ => fail (.loopTest mode t.shape)
    | .accumulated, _ => fail (.accumulated v.shape)

def items : Value → Collection
  | .collection c => c
  | _ => []

def loopValue : LoopMode → List Value → Value
  | .last, vs => vs.getLastD (.collection [])
  | .accumulated, vs => .collection (vs.flatMap items)

def loop (mode : LoopMode) (name : Name) (body : Expr) (style : EndStyle) (test : Expr)
    (fuel : Nat) : Eval Value := do
  let vs ← inScope (rounds eval mode name body style test fuel)
  pure (loopValue mode vs)

/-- Bind each parameter to its argument. Later arguments see the earlier parameters. -/
def bindArguments : List Name → List Expr → Eval Unit
  | parameter :: parameters, argument :: arguments => do
    let v ← eval argument
    push ⟨parameter, v⟩
    bindArguments parameters arguments
  | _, _ => pure ()

def popEach : List Name → Eval Unit
  | [] => pure ()
  | _ :: rest => do
    let _ ← pop
    popEach rest

def call (name : Name) (arguments : List Expr) : Eval Value := do
  match ← function? name with
  | none => fail (.unknownFunction name)
  | some (.function _ parameters body) =>
    if arguments.length = parameters.length then do
      trace (.calling name)
      inScope do
        bindArguments eval parameters arguments
        let result ← eval body
        popEach parameters
        pure result
    else fail (.argumentCount name parameters.length arguments.length)
  | some _ => fault .notCallable

def elements : List Expr → Eval Collection
  | [] => pure []
  | e :: rest => do
    match ← eval e with
    | .collection c => do
      let others ← elements rest
      pure (c ++ others)
    | v => fail (.element v.shape)

def step (fuel : Nat) : Expr → Eval Value
  | .missing => fault .notEvaluable
  | .literal v => pure v
  | .misfit _ => fault .valueless
  | .var name fallback => variableValue eval name fallback
  | .binary left op schema right => binary eval left op schema right
  | .unary op schema operand => unary eval op schema operand
  | .conditional condition whenTrue whenFalse => conditional eval condition whenTrue whenFalse
  | .foreach name source body => foreach eval name source body
  | .loop mode name body style test => loop eval mode name body style test fuel
  | .binding name definition use => bound eval name definition use
  | .call name arguments => call eval name arguments
  | .collection es => do
    let c ← elements eval es
    pure (.collection c)
  | .pair first second => do
    let a ← eval first
    let b ← eval second
    pure (.pair a b)
  | .group inner => eval inner
  | .function _ _ _ => fault .notEvaluable

end

/-- The value of an expression, found within a bound on depth and rounds. -/
def eval : Nat → Expr → Eval Value
  | 0, _ => throw .outOfFuel
  | fuel + 1, e => step (eval fuel) fuel e

/-- Evaluate an expression for a host: an error becomes a result, and the bindings that were there
before are there again. Tracing shows the expression first. -/
def evaluate (fuel : Nat) (e : Expr) : Eval (Except RuntimeError Value) := fun m =>
  if 1 ≤ m.verbosity && !e.isShowable then .error (.fault .unshowable) m
  else
    let start := m.traced (.evaluating e)
    match eval fuel e start with
    | .ok v after => .ok (.ok v) (after.traced (.finished v))
    | .error (.error err) after =>
      .ok (.error err) ((after.truncated m.scope.depth).traced (.failed err.kind))
    | .error stop after => .error stop after

end Eval

end DiceScript
