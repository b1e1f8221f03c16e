import DiceScript.Expr
import DiceScript.Script.Error
import DiceScript.Text.Capital
import DiceScript.Token.Lexer

/-!
# Problems

What can be wrong with a script is found while scanning it, while reading it or while evaluating it. A
problem is reported once, with a message and a position; an evaluation error without an operator to
blame has no position.

A fault is not a problem of a script but of a tree that no script stands for, or of a caller.
-/

namespace DiceScript

/-- The part of a node that has to be of a certain shape. -/
inductive Operand where
  | leftCollection | rightCollection | leftSingleton | rightSingleton | count
  | leftString | rightString
  | onlyCollection | onlySingleton | onlyPair
deriving DecidableEq

def Operand.requirement : Operand → String
  | .leftCollection => "Left operand must be a collection."
  | .rightCollection => "Right operand must be a collection."
  | .leftSingleton => "Left operand must be a single integer value."
  | .rightSingleton => "Right operand must be a single integer value."
  | .count => "Left operand must be a single, non-negative integer value."
  | .leftString => "Left operand must be a string."
  | .rightString => "Right operand must be a string."
  | .onlyCollection => "Operand must be an integer collection."
  | .onlySingleton => "Operand must be a single integer."
  | .onlyPair => "Operand must be a pair."

/-- Why an evaluation stops. Those that an operator is to blame for carry its token. -/
inductive RuntimeError where
  | notBinary (op : Token)
  | notUnary (op : Token)
  | operand (op : Token) (which : Operand) (found : Shape)
  | negativeCount (op : Token)
  | negativePick (op : Token)
  | negativeSelection (op : Token)
  | negativeDice (op : Token)
  | noFaces (op : Token)
  | divisionByZero (op : Token)
  | moduloByZero (op : Token)
  | emptyChoice (op : Token)
  | emptyExtreme (op : Token)
  | improperProbability (op : Token)
  | repeatedValue (op : Token)
  | element (found : Shape)
  | foreachSource (found : Shape)
  | foreachBody (found : Shape)
  | accumulated (found : Shape)
  | loopTest (mode : LoopMode) (found : Shape)
  | unknownVariable (name : Name)
  | unknownFunction (name : Name)
  | argumentCount (name : Name) (expected received : Nat)
deriving DecidableEq

namespace RuntimeError

/-- The classes of errors that a caller can tell apart. -/
inductive Kind where
  | incorrectArgumentCount | invalidOperand | invalidBinaryOperator | invalidUnaryOperator
  | needsCollection | needsPair | needsReal | needsSingleton | needsString | nonCollection
  | unknownFunction | unknownVariable
deriving DecidableEq

def Kind.name : Kind → String
  | .incorrectArgumentCount => "INCORRECT_ARGUMENT_COUNT"
  | .invalidOperand => "INVALID_OPERAND"
  | .invalidBinaryOperator => "INVALID_BINARY_OPERATOR"
  | .invalidUnaryOperator => "INVALID_UNARY_OPERATOR"
  | .needsCollection => "NEEDS_INT_COLLECTION"
  | .needsPair => "NEEDS_PAIR"
  | .needsReal => "NEEDS_REAL"
  | .needsSingleton => "NEEDS_SINGLETON"
  | .needsString => "NEEDS_STRING"
  | .nonCollection => "NON_COLLECTION_VALUE"
  | .unknownFunction => "UNKNOWN_FUNCTION"
  | .unknownVariable => "UNKNOWN_VARIABLE"

def operandKind : Operand → Kind
  | .leftCollection | .rightCollection | .onlyCollection => .needsCollection
  | .leftSingleton | .rightSingleton | .onlySingleton | .count => .needsSingleton
  | .leftString | .rightString => .needsString
  | .onlyPair => .needsPair

def kind : RuntimeError → Kind
  | .notBinary _ => .invalidBinaryOperator
  | .notUnary _ => .invalidUnaryOperator
  | .operand _ which _ => operandKind which
  | .negativeCount _ | .negativePick _ | .negativeSelection _ | .negativeDice _ | .noFaces _
  | .divisionByZero _ | .moduloByZero _ | .emptyChoice _ | .emptyExtreme _ => .invalidOperand
  | .improperProbability _ => .needsReal
  | .repeatedValue _ | .element _ | .foreachBody _ => .nonCollection
  | .foreachSource _ | .accumulated _ | .loopTest _ _ => .needsCollection
  | .unknownVariable _ => .unknownVariable
  | .unknownFunction _ => .unknownFunction
  | .argumentCount _ _ _ => .incorrectArgumentCount

def operator? : RuntimeError → Option Token
  | .notBinary op | .notUnary op | .operand op _ _ | .negativeCount op | .negativePick op
  | .negativeSelection op | .negativeDice op | .noFaces op | .divisionByZero op | .moduloByZero op
  | .emptyChoice op | .emptyExtreme op | .improperProbability op | .repeatedValue op => some op
  | _ => none

def position (e : RuntimeError) : Mark :=
  (e.operator?.map (·.position)).getD Position.unknown.mark

def loopName : LoopMode → String
  | .last => "repeat"
  | .accumulated => "accumulate"

def received (found : Shape) : String :=
  " Received " ++ found.name ++ "."

def message : RuntimeError → String
  | .notBinary op => "'" ++ op.lexeme.shown ++ "' is not a binary operator."
  | .notUnary op => "'" ++ op.lexeme.shown ++ "' is not a unary operator."
  | .operand _ which found => which.requirement ++ received found
  | .negativeCount _ => Operand.count.requirement
  | .negativePick _ => "Number of elements to pick must be non-negative."
  | .negativeSelection _ => "Number of elements must be non-negative."
  | .negativeDice _ => "Number of dice rolled must be non-negative."
  | .noFaces _ => "Number of faces must be >0."
  | .divisionByZero _ => "Division by zero."
  | .moduloByZero _ => "Modulo by zero."
  | .emptyChoice _ => "Choose requires a non-empty collection for its operand."
  | .emptyExtreme op =>
    Text.capitalized op.lexeme.shown ++ " cannot be applied to an empty collection."
  | .improperProbability _ =>
    "Probabilistic operator requires a real number between 0 and 1 for its operand."
  | .repeatedValue _ => "Repeated expression must evaluate to a collection."
  | .element found => "Collection elements must be integers or collections." ++ received found
  | .foreachSource found => "Foreach requires a collection to iterate over." ++ received found
  | .foreachBody found => "Foreach body must produce a collection." ++ received found
  | .accumulated found => "Accumulate expression must produce a collection." ++ received found
  | .loopTest mode found =>
    "Test of " ++ loopName mode ++ " must produce a collection." ++ received found
  | .unknownVariable name => "Unknown variable '" ++ name.shown ++ "'."
  | .unknownFunction name => "Unknown function '" ++ name.shown ++ "'."
  | .argumentCount name expected received =>
    "Function '" ++ name.shown ++ "' expects " ++ toString expected ++ " argument(s), received " ++
      toString received ++ "."

end RuntimeError

inductive Problem where
  | scan (e : ScanError)
  | parse (e : ParseError)
  | runtime (e : RuntimeError)
deriving DecidableEq

namespace Problem

def message : Problem → String
  | .scan e => e.message
  | .parse e => e.message
  | .runtime e => e.message

def position : Problem → Mark
  | .scan e => e.position.mark
  | .parse e => e.position
  | .runtime e => e.position

/-- A problem as the console shows it. A line below zero is no place, and a line that is no number cannot
be told from one. -/
def consoleLine? (p : Problem) : Option String :=
  match p.position.line.before? (.integer 0) with
  | some true => some ("Error: " ++ p.message)
  | some false =>
    some ("[line " ++ p.position.line.shown ++ ", column " ++ p.position.column.shown ++
      "] Error: " ++ p.message)
  | none => none

end Problem

/-- What is wrong with a tree, a token list or a call from outside. -/
inductive Fault where
  /-- An operator under a schema that is not its own. -/
  | foreignSchema (op : Token) (schema : String)
  /-- Evaluation of something that is not an expression. -/
  | notEvaluable
  /-- A name of a function that stands for something else. -/
  | notCallable
  /-- No binding to take away. -/
  | emptyScope
  /-- An element asked of a range, a pool or a collection that has none. -/
  | noElement
  /-- A quotient by zero. -/
  | zeroDivisor
  /-- A token list without an end token. -/
  | endOfTokens
  /-- A literal that is the form of no value, where its value is needed. -/
  | valueless
  /-- Something to be shown in which a text is missing. -/
  | unshowable
  /-- Compound data where the name of a function is needed. -/
  | compoundName
  /-- An operator whose spelling is needed and is no text. -/
  | unspelt
  /-- A report at a line that is no number. -/
  | unplaced
deriving DecidableEq

def Fault.message? : Fault → Option String
  | .foreignSchema op schema =>
    some ("Trying to evaluate " ++ op.kind.name ++ " at line " ++ op.position.line.shown ++
      ", column " ++ op.position.column.shown ++ " with incorrect schema: " ++ schema)
  | _ => none

end DiceScript
