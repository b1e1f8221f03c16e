import DiceScript.Expr
import DiceScript.Script.Error

/-!
# The precedence ladder

Expressions are read by levels, from the loosest to the tightest:

    expression   if, foreach, repeat, accumulate, name := definition ; use
    layout       e (|> | <| | <> | ||) e             to the left
    range        e .. e                              at most once
    select       e (drop | keep | pick | --) e       to the left
    union        e (U | @ | &) e                     to the left
    sum          e (+ | -) e                         to the left
    product      e (* | / | mod) e                   to the left
    negate       - e
    apply        count e, sum e, ..., %1 e, least e e, e ' e
    compare      e (= | =/= | < | > | <= | >=) e     to the right
    dice         e (d | z | # | ~) die               to the left
    die          (d | z) die
    primary      literals, variables, calls, ( ), { }, [ ], ? real

One step of reading is `step`: it takes the reader for the goals it runs into as an argument, and
`readGoal` ties the knot with a bound on the depth. Every call of the reader either goes one level down
on the same tokens or has at least one token less, so sixteen times the number of tokens is enough.
-/

namespace DiceScript

abbrev Read := StateT (List Token) (Except ReadStop)

inductive Level where
  | expression | layout | range | select | union | sum | product | negate | apply | compare | dice
  | die | primary
deriving DecidableEq

/-- What remains to be read: an expression of a level, or the operators of a level that follow a left
operand already read. -/
inductive Goal where
  | at (level : Level)
  | more (level : Level) (left : Expr)

namespace Read

def peek : Read Token := do
  match ← get with
  | t :: _ => pure t
  | [] => throw .exhausted

def fail {α : Type} (cause : ParseError.Cause) : Read α := do
  let t ← peek
  throw (.problem ⟨cause, t.position⟩)

/-- Take the token looked at if `select` yields something for its kind. The end token is never taken. -/
def takeWhen {α : Type} (select : Kind → Option α) : Read (Option (Token × α)) := do
  match ← get with
  | [] => throw .exhausted
  | t :: rest =>
    if t.kind = .endOfInput then pure none
    else
      match select t.kind with
      | some a => do
        set rest
        pure (some (t, a))
      | none => pure none

def take? (kind : Kind) : Read (Option Token) := do
  let taken ← takeWhen fun k => if k = kind then some () else none
  pure (taken.map Prod.fst)

def expect (kind : Kind) (cause : ParseError.Cause) : Read Token := do
  match ← take? kind with
  | some t => pure t
  | none => fail cause

theorem takeWhen_cons {α : Type} (select : Kind → Option α) (t : Token) (ts : List Token) :
    takeWhen select (t :: ts) =
      if t.kind = .endOfInput then .ok (none, t :: ts)
      else
        match select t.kind with
        | some a => .ok (some (t, a), ts)
        | none => .ok (none, t :: ts) := by
  change (ite (t.kind = .endOfInput) (pure none) _ : Read (Option (Token × α))) (t :: ts) = _
  split
  · rfl
  · cases select t.kind with
    | none => rfl
    | some a => rfl

end Read

namespace Level

/-- The level of the left operand. -/
def below : Level → Level
  | .expression => .layout
  | .layout => .range
  | .range => .select
  | .select => .union
  | .union => .sum
  | .sum => .product
  | .product => .negate
  | .negate => .apply
  | .apply => .compare
  | .compare => .dice
  | .dice => .die
  | .die => .primary
  | .primary => .primary

/-- The level of the right operand: comparisons and the infix quote take another of their own level. -/
def right : Level → Level
  | .apply => .apply
  | .compare => .compare
  | level => level.below

def operator? : Level → Kind → Option BinarySchema
  | .layout, .aboveLeft | .layout, .aboveRight | .layout, .aboveCentre | .layout, .beside =>
    some .stringString
  | .range, .dotDot => some .singletonSingleton
  | .select, .pick => some .collectionSingleton
  | .select, .drop | .select, .keep | .select, .setMinus => some .collectionCollection
  | .union, .union | .union, .and => some .collectionCollection
  | .sum, .minus | .sum, .plus => some .singletonSingleton
  | .product, .divide | .product, .times | .product, .modulo => some .singletonSingleton
  | .apply, .sample => some .deferred
  | .compare, .equal | .compare, .unequal | .compare, .less | .compare, .atMost
  | .compare, .greater | .compare, .atLeast => some .singletonCollection
  | .dice, .die | .dice, .zeroDie => some .singletonSingleton
  | .dice, .hash => some .deferred
  | _, _ => none

end Level

def applyOperator? : Kind → Option UnarySchema
  | .count | .sum | .minimum | .maximum | .minimal | .maximal | .median | .choose | .different
  | .bang => some .collection
  | .sign => some .singleton
  | .sample => some .deferred
  | .first | .second => some .tuple
  | _ => none

def applyPair? : Kind → Option BinarySchema
  | .least | .largest => some .singletonCollection
  | _ => none

def dieOperator? : Kind → Option UnarySchema
  | .die | .zeroDie => some .singleton
  | _ => none

/-- The infix operators of the dice level, `none` marking the one that gives a variable a fallback. -/
def diceOperator? : Kind → Option (Option BinarySchema)
  | .tilde => some none
  | kind => (Level.operator? .dice kind).map some

def endStyle? : Kind → Option EndStyle
  | .wordUntil => some .untilTrue
  | .wordWhile => some .whileTrue
  | _ => none

inductive Statement where
  | conditional | foreach | loop (mode : LoopMode)

def statement? : Kind → Option Statement
  | .wordIf => some .conditional
  | .wordForeach => some .foreach
  | .wordRepeat => some (.loop .last)
  | .wordAccumulate => some (.loop .accumulated)
  | _ => none

inductive Opening where
  | probability | call | name | text | number | group | collection | tuple

def opening? : Kind → Option Opening
  | .question => some .probability
  | .wordCall => some .call
  | .identifier => some .name
  | .string => some .text
  | .integer => some .number
  | .leftParen => some .group
  | .leftBrace => some .collection
  | .leftBracket => some .tuple
  | _ => none

namespace Ladder

open Read

/-- Items with commas between them, at least one. -/
def items {α : Type} (item : Read α) : Nat → Read (List α)
  | 0 => throw .outOfFuel
  | fuel + 1 => do
    let first ← item
    match ← take? .comma with
    | some _ => do
      let rest ← items item fuel
      pure (first :: rest)
    | none => pure [first]

/-- Items up to a closing token, which may follow at once. -/
def enclosed {α : Type} (item : Read α) (fuel : Nat) (closing : Kind) (what : Expected) :
    Read (List α × Token) := do
  match ← take? closing with
  | some t => pure ([], t)
  | none => do
    let read ← items item fuel
    let t ← expect closing (.expected what)
    pure (read, t)

section

variable (read : Goal → Read Expr) (fuel : Nat)

def conditional : Read Expr := do
  let condition ← read (.at .expression)
  let _ ← expect .wordThen (.expected .thenBranch)
  let whenTrue ← read (.at .expression)
  let _ ← expect .wordElse (.expected .elseBranch)
  let whenFalse ← read (.at .expression)
  pure (.conditional condition whenTrue whenFalse)

def foreach : Read Expr := do
  let name ← expect .identifier (.expected .foreachName)
  let _ ← expect .wordIn (.expected .foreachIn)
  let source ← read (.at .expression)
  let _ ← expect .wordDo (.expected .foreachDo)
  let body ← read (.at .expression)
  pure (.foreach name.lexeme source body)

def loop (mode : LoopMode) : Read Expr := do
  let keyword := Expr.loopWord mode
  let name ← expect .identifier (.expected (.loopName keyword))
  let _ ← expect .assign (.expected (.loopAssign keyword))
  let body ← read (.at .expression)
  match ← takeWhen endStyle? with
  | none => fail .missingCondition
  | some (_, style) => do
    let test ← read (.at .expression)
    pure (.loop mode name.lexeme body style test)

/-- Whether a binding starts here: a name, then the assignment sign. -/
def startsBinding : Read Bool := do
  match ← get with
  | name :: sign :: _ => pure (name.kind = .identifier && sign.kind = .assign)
  | _ => pure false

def binding : Read Expr := do
  let name ← expect .identifier .noOperand
  let _ ← expect .assign .noOperand
  let definition ← read (.at .expression)
  let _ ← expect .semicolon (.expected .bindingEnd)
  let use ← read (.at .expression)
  pure (.binding name.lexeme definition use)

def expression : Read Expr := do
  match ← takeWhen statement? with
  | some (_, .conditional) => conditional read
  | some (_, .foreach) => foreach read
  | some (_, .loop mode) => loop read mode
  | none => do
    if ← startsBinding then binding read else read (.at .layout)

def chain (level : Level) : Read Expr := do
  let left ← read (.at level.below)
  read (.more level left)

def chainMore (level : Level) (left : Expr) : Read Expr := do
  match ← takeWhen level.operator? with
  | some (op, schema) => do
    let right ← read (.at level.right)
    read (.more level (.binary left op schema right))
  | none => pure left

/-- A range does not chain: a second sign is left to what follows. -/
def range : Read Expr := do
  let left ← read (.at .select)
  match ← takeWhen (Level.operator? .range) with
  | some (op, schema) => do
    let right ← read (.at .select)
    pure (.binary left op schema right)
  | none => pure left

def negate : Read Expr := do
  match ← take? .minus with
  | some op => do
    let operand ← read (.at .negate)
    pure (.unary op .singleton operand)
  | none => read (.at .apply)

def apply : Read Expr := do
  match ← takeWhen applyOperator? with
  | some (op, schema) => do
    let operand ← read (.at .apply)
    pure (.unary op schema operand)
  | none => do
    match ← takeWhen applyPair? with
    | some (op, schema) => do
      let left ← read (.at .apply)
      let right ← read (.at .apply)
      pure (.binary left op schema right)
    | none => chain read .apply

/-- The operators of the dice level. A fallback replaces one that a variable already has. -/
def diceMore (left : Expr) : Read Expr := do
  match ← takeWhen diceOperator? with
  | some (op, some schema) => do
    let right ← read (.at .die)
    read (.more .dice (.binary left op schema right))
  | some (_, none) => do
    let right ← read (.at .die)
    match left with
    | .var name _ => read (.more .dice (.var name right))
    | _ => fail .needsVariable
  | none => pure left

def die : Read Expr := do
  match ← takeWhen dieOperator? with
  | some (op, schema) => do
    let operand ← read (.at .die)
    pure (.unary op schema operand)
  | none => read (.at .primary)

def probability (op : Token) : Read Expr := do
  let t ← expect .real (.expected .probability)
  pure (.unary op .real (.ofLiteral .real t.literal))

def call : Read Expr := do
  let name ← expect .identifier (.expected .callName)
  let _ ← expect .leftParen (.expected .callOpening)
  let (arguments, _) ← enclosed (read (.at .expression)) fuel .rightParen .argumentsClosing
  pure (.call name.lexeme arguments)

def group : Read Expr := do
  let inner ← read (.at .expression)
  let _ ← expect .rightParen (.expected .groupClosing)
  pure (.group inner)

def collection : Read Expr := do
  let (elements, _) ← enclosed (read (.at .expression)) fuel .rightBrace .collectionClosing
  pure (.collection elements)

def tuple : Read Expr := do
  let (elements, closing) ← enclosed (read (.at .expression)) fuel .rightBracket .tupleClosing
  match elements with
  | [first, second] => pure (.pair first second)
  | _ => throw (.problem ⟨.tupleSize elements.length, closing.position⟩)

def primary : Read Expr := do
  match ← takeWhen opening? with
  | some (op, .probability) => probability op
  | some (_, .call) => call read fuel
  | some (t, .name) => pure (.var t.lexeme .missing)
  | some (t, .text) => pure (.ofLiteral .text t.literal)
  | some (t, .number) => pure (.ofLiteral .number t.literal)
  | some (_, .group) => group read
  | some (_, .collection) => collection read fuel
  | some (_, .tuple) => tuple read fuel
  | none => fail .noOperand

def step : Goal → Read Expr
  | .at .expression => expression read
  | .at .range => range read
  | .at .negate => negate read
  | .at .apply => apply read
  | .at .die => die read
  | .at .primary => primary read fuel
  | .at level => chain read level
  | .more .dice left => diceMore read left
  | .more level left => chainMore read level left

end

/-- Reach a goal, at most `fuel` goals deep. -/
def readGoal : Nat → Goal → Read Expr
  | 0, _ => throw .outOfFuel
  | fuel + 1, goal => step (readGoal fuel) fuel goal

end Ladder

end DiceScript
