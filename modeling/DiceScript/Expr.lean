import DiceScript.Table
import DiceScript.Value.Form

/-!
# Expressions

An operator node keeps its token, for its kind, spelling and position, and the schema that says which
operands it takes. A tree that was read from a document may hold what no script contains: a place without
an expression, a function where an expression is expected, or an operator under a schema of another. There,
and in a tree that was read from tokens made by hand, a literal may be the form of no value and a name may
be no text. Such trees can be stored, and shown unless something that must be a text is none.

A `misfit` has no value, so it is a fault to evaluate it. An evaluator that does not look at what it was given hands the
form on, and fails only where something is done with it, or not at all if nothing is.
-/

namespace DiceScript

inductive BinarySchema where
  | collectionCollection | collectionSingleton | singletonCollection | singletonSingleton
  | stringString | deferred
deriving DecidableEq

def BinarySchema.name : BinarySchema → String
  | .collectionCollection => "collection-collection"
  | .collectionSingleton => "collection-singleton"
  | .singletonCollection => "singleton-collection"
  | .singletonSingleton => "singleton-singleton"
  | .stringString => "string-string"
  | .deferred => "deferred"

def BinarySchema.all : List BinarySchema :=
  [.collectionCollection, .collectionSingleton, .singletonCollection, .singletonSingleton,
   .stringString, .deferred]

inductive UnarySchema where
  | collection | singleton | real | tuple | deferred
deriving DecidableEq

def UnarySchema.name : UnarySchema → String
  | .collection => "collection"
  | .singleton => "singleton"
  | .real => "real"
  | .tuple => "tuple"
  | .deferred => "deferred"

def UnarySchema.all : List UnarySchema :=
  [.collection, .singleton, .real, .tuple, .deferred]

/-- What a loop yields: its last value, or all of them together. -/
inductive LoopMode where
  | last | accumulated
deriving DecidableEq

/-- Whether a true test ends a loop or keeps it going. -/
inductive EndStyle where
  | untilTrue | whileTrue
deriving DecidableEq

def EndStyle.name : EndStyle → String
  | .untilTrue => "until"
  | .whileTrue => "while"

def EndStyle.all : List EndStyle :=
  [.untilTrue, .whileTrue]

inductive LiteralKind where
  | number | real | text
deriving DecidableEq

inductive Expr where
  /-- A place that holds no expression; as a variable's fallback it means that there is none. -/
  | missing
  | literal (value : Value)
  /-- A literal that is the form of no value. -/
  | misfit (form : Form)
  | var (name : Name) (fallback : Expr)
  | binary (left : Expr) (op : Token) (schema : BinarySchema) (right : Expr)
  | unary (op : Token) (schema : UnarySchema) (operand : Expr)
  | conditional (condition whenTrue whenFalse : Expr)
  | foreach (name : Name) (source body : Expr)
  | loop (mode : LoopMode) (name : Name) (body : Expr) (style : EndStyle) (test : Expr)
  | binding (name : Name) (definition use : Expr)
  | call (name : Name) (arguments : List Expr)
  | collection (elements : List Expr)
  | pair (first second : Expr)
  | group (inner : Expr)
  | function (name : Name) (parameters : List Name) (body : Expr)

/-- A script: its main expression and its functions by name, in the order of the text. The entries of a
script's table are function nodes, but a document may name any node that has a name. -/
structure Script where
  expression : Expr
  functions : Table Name Expr

namespace Expr

def name? : Expr → Option Name
  | .var name _ | .foreach name _ _ | .loop _ name _ _ _ | .binding name _ _ | .call name _
  | .function name _ _ => some name
  | _ => none

def arity? : Expr → Option Nat
  | .function _ parameters _ => some parameters.length
  | _ => none

def ofForm (form : Form) : Expr :=
  match form.toValue? with
  | some v => .literal v
  | none => .misfit form

def ofLiteral (kind : LiteralKind) (content : Json) : Expr :=
  match kind with
  | .number => ofForm (.collection [content])
  | .real => ofForm (.real content)
  | .text => ofForm (.text content)

def parenthesized (head : String) (parts : List String) : String :=
  "(" ++ head ++ " " ++ String.intercalate " " parts ++ ")"

def loopWord : LoopMode → String
  | .last => "Repeat"
  | .accumulated => "Accumulate"

mutual

def display : Expr → String
  | .missing => "None"
  | .literal v => v.display
  | .misfit form => form.display
  | .var name .missing => name.shown
  | .var name fallback => parenthesized "~" [name.shown, fallback.display]
  | .binary left op _ right => parenthesized op.lexeme.shown [left.display, right.display]
  | .unary op _ operand => parenthesized op.lexeme.shown [operand.display]
  | .conditional c t f => parenthesized "if" [c.display, t.display, f.display]
  | .foreach name source body =>
    "<Foreach " ++ name.shown ++ " in " ++ source.display ++ " do " ++ body.display ++ ">"
  | .loop mode name body style test =>
    "<" ++ loopWord mode ++ " " ++ name.shown ++ " := " ++ body.display ++ " " ++ style.name ++ " " ++
      test.display ++ ">"
  | .binding name definition use =>
    "<Binding " ++ name.shown ++ " := " ++ definition.display ++ "; " ++ use.display ++ ">"
  | .call name arguments => parenthesized ("Call: " ++ name.shown) (displayAll arguments)
  | .collection elements => "\x7b" ++ String.intercalate ", " (displayAll elements) ++ "\x7d"
  | .pair first second => "[" ++ first.display ++ ", " ++ second.display ++ "]"
  | .group inner => parenthesized "group" [inner.display]
  | .function name parameters body =>
    "<function " ++ name.shown ++ "(" ++ String.intercalate ", " (parameters.map Json.shown) ++
      ") = " ++ body.display ++ ">"

def displayAll : List Expr → List String
  | [] => []
  | e :: rest => e.display :: displayAll rest

end

mutual

/-- Whether an expression can be shown: its literals can, and its variables and parameters are named by
texts. -/
def isShowable : Expr → Bool
  | .missing | .literal _ => true
  | .misfit form => form.isShowable
  | .var name fallback => name.isText && fallback.isShowable
  | .binary left _ _ right => left.isShowable && right.isShowable
  | .unary _ _ operand => operand.isShowable
  | .conditional c t f => c.isShowable && t.isShowable && f.isShowable
  | .foreach _ source body => source.isShowable && body.isShowable
  | .loop _ _ body _ test => body.isShowable && test.isShowable
  | .binding _ definition use => definition.isShowable && use.isShowable
  | .call _ arguments => allShowable arguments
  | .collection elements => allShowable elements
  | .pair first second => first.isShowable && second.isShowable
  | .group inner => inner.isShowable
  | .function _ parameters body => parameters.all Json.isText && body.isShowable

def allShowable : List Expr → Bool
  | [] => true
  | e :: rest => e.isShowable && allShowable rest

end

end Expr

/-- Whether a script can be shown with its functions, which compound data do not name. -/
def Script.isShowable (s : Script) : Bool :=
  s.expression.isShowable && Expr.allShowable (s.functions.map Prod.snd) &&
    s.functions.names.all (!Json.isCompound ·)

end DiceScript
