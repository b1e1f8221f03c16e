import DiceScript.Token

/-!
# Why tokens are not a script

Every cause is reported at the position of a token: the one that was looked at, except for a tuple of
the wrong size, which is reported at its closing bracket.
-/

namespace DiceScript

inductive Expected where
  | thenBranch | elseBranch
  | foreachName | foreachIn | foreachDo
  | loopName (keyword : String) | loopAssign (keyword : String)
  | bindingEnd
  | functionName | functionOpening | parameterName | parametersClosing | functionEqual
  | probability
  | callName | callOpening | argumentsClosing
  | groupClosing | collectionClosing | tupleClosing
deriving DecidableEq

def Expected.message : Expected → String
  | .thenBranch => "'then' expected after 'if' condition."
  | .elseBranch => "'else' expected after if's true branch."
  | .foreachName => "Foreach must be followed by an identifier name."
  | .foreachIn => "Foreach variable must be followed by 'in'."
  | .foreachDo => "Foreach expression must be followed by 'do'."
  | .loopName keyword => keyword ++ " must be followed by an identifier name."
  | .loopAssign keyword => keyword ++ " variable must be followed by ':='."
  | .bindingEnd => "Expected ';' after assignment."
  | .functionName => "'function' keyword must be followed by function name."
  | .functionOpening => "Function name must be followed by '('."
  | .parameterName => "Expecting parameter name."
  | .parametersClosing => "Parameters must be followed by ')'."
  | .functionEqual => "Parameter list must be followed by '='."
  | .probability => "'?' must be followed by a real number between 0 and 1."
  | .callName => "Function name must follow 'call'."
  | .callOpening => "Function name must be followed by '('."
  | .argumentsClosing => "Arguments must be followed by ')'."
  | .groupClosing => "Expect ')' after expression."
  | .collectionClosing => "Expect '\x7d' after expression collection."
  | .tupleClosing => "Expect ']' after tuple."

namespace ParseError

inductive Cause where
  | expected (what : Expected)
  | noOperand
  | tupleSize (found : Nat)
  | trailing
  | redefined (name : Name)
  | malformedArgument
  | missingCondition
  | needsVariable
deriving DecidableEq

inductive Kind where
  | redefinition | argument | condition | variableNeeded | unexpectedToken
deriving DecidableEq

def Cause.kind : Cause → Kind
  | .expected _ | .noOperand | .tupleSize _ | .trailing => .unexpectedToken
  | .redefined _ => .redefinition
  | .malformedArgument => .argument
  | .missingCondition => .condition
  | .needsVariable => .variableNeeded

def Cause.message : Cause → String
  | .expected what => what.message
  | .noOperand => "Unexpected characters when parsing literal expression."
  | .tupleSize found =>
    "A tuple must have exactly two elements, found " ++ toString found ++ "."
  | .trailing => "Unexpected token at end of script."
  | .redefined name => name.shown ++ " already defined."
  | .malformedArgument => "Arguments must be 'identifier=integer'."
  | .missingCondition => "Expected either 'while' or 'until'."
  | .needsVariable => "'~' requires a variable as its left-hand operand."

end ParseError

structure ParseError where
  cause : ParseError.Cause
  position : Mark
deriving DecidableEq

def ParseError.message (e : ParseError) : String :=
  e.cause.message

/-- How reading tokens ends early. Besides an error of the script there is a fault of the token list
itself: it stops before its end token. -/
inductive ReadStop where
  | problem (e : ParseError)
  | exhausted
  | outOfFuel
deriving DecidableEq

end DiceScript
