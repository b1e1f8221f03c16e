import DiceScript.Expr
import DiceScript.Json

/-!
# Scripts as documents

A script has a JSON form in which it can be kept and run again. Operator tokens keep their positions, so
that an error in a reloaded script still points into its text. Every node is an object with a `type`,
every value one with a `__value__`; a place without an expression is `null`.
-/

namespace DiceScript.Document

def ofToken (t : Token) : Json :=
  .object
    [("token_type", .text t.kind.name), ("lexeme", t.lexeme), ("literal", t.literal),
     ("line", t.position.line), ("column", t.position.column)]

def ofValue : Value → Json
  | .collection c => .object [("__value__", .text "Collection"), ("values", .array (c.map .integer))]
  | .real x => .object [("__value__", .text "Real"), ("value", .real x)]
  | .text s => .object [("__value__", .text "Text"), ("value", .text s)]
  | .pair a b => .object [("__value__", .text "Pair"), ("first", ofValue a), ("second", ofValue b)]

def ofForm : Form → Json
  | .collection items => .object [("__value__", .text "Collection"), ("values", .array items)]
  | .real content => .object [("__value__", .text "Real"), ("value", content)]
  | .text content => .object [("__value__", .text "Text"), ("value", content)]
  | .pair a b => .object [("__value__", .text "Pair"), ("first", ofForm a), ("second", ofForm b)]

mutual

def ofExpr : Expr → Json
  | .missing => .null
  | .literal v => .object [("type", .text "Literal"), ("value", ofValue v)]
  | .misfit form => .object [("type", .text "Literal"), ("value", ofForm form)]
  | .var name fallback =>
    .object [("type", .text "Variable"), ("identifier", name), ("default", ofExpr fallback)]
  | .binary left op schema right =>
    .object
      [("type", .text "Binary"), ("left", ofExpr left), ("op", ofToken op),
       ("schema", .text schema.name), ("right", ofExpr right)]
  | .unary op schema operand =>
    .object
      [("type", .text "Unary"), ("op", ofToken op), ("schema", .text schema.name),
       ("right", ofExpr operand)]
  | .conditional condition whenTrue whenFalse =>
    .object
      [("type", .text "If"), ("condition", ofExpr condition), ("then_branch", ofExpr whenTrue),
       ("else_branch", ofExpr whenFalse)]
  | .foreach name source body =>
    .object
      [("type", .text "Foreach"), ("identifier", name), ("source", ofExpr source),
       ("body", ofExpr body)]
  | .loop mode name body style test =>
    .object
      [("type", .text (Expr.loopWord mode)), ("identifier", name), ("expr", ofExpr body),
       ("end_style", .text style.name), ("test", ofExpr test)]
  | .binding name definition use =>
    .object
      [("type", .text "Binding"), ("identifier", name), ("definition", ofExpr definition),
       ("use", ofExpr use)]
  | .call name arguments =>
    .object
      [("type", .text "FunctionCall"), ("identifier", name),
       ("arguments", .array (ofExprs arguments))]
  | .collection elements =>
    .object [("type", .text "CollectionLiteral"), ("elements", .array (ofExprs elements))]
  | .pair first second =>
    .object
      [("type", .text "TupleLiteral"), ("first", ofExpr first), ("second", ofExpr second)]
  | .group inner => .object [("type", .text "Group"), ("expr", ofExpr inner)]
  | .function name parameters body =>
    .object
      [("type", .text "FunctionDefinition"), ("identifier", name),
       ("parameters", .array parameters), ("body", ofExpr body)]

def ofExprs : List Expr → List Json
  | [] => []
  | e :: rest => ofExpr e :: ofExprs rest

end

def ofScript (s : Script) : Json :=
  .object
    [("type", .text "Script"), ("expression", ofExpr s.expression),
     ("functions", .array (ofExprs (s.functions.map Prod.snd)))]

end DiceScript.Document
