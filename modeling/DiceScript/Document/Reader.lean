import DiceScript.Document
import DiceScript.Document.Error

/-!
# Reading documents

Members that a node does not need are passed over, and a token may lack its literal and its position.
Functions of the same name are one entry of the table, at the place of the first and with the content of
the last.
-/

namespace DiceScript.Document

abbrev Members := Table String Json

/-- A part that is smaller than the members it was found in. -/
abbrev Part (m : Members) := { part : Json // sizeOf part < sizeOf m }

theorem sizeOf_find? {m : Members} {key : String} {j : Json} (found : m.find? key = some j) :
    sizeOf j < sizeOf m := by
  induction m with
  | nil => simp at found
  | cons entry rest ih =>
    obtain ⟨k, content⟩ := entry
    rw [Table.find?] at found
    split at found
    · cases found
      simp
      omega
    · have := ih found
      simp
      omega

def require (m : Members) (key : String) : Except Error (Part m) :=
  match found : m.find? key with
  | some part => .ok ⟨part, sizeOf_find? found⟩
  | none => .error (.missingMember key)

def optional (m : Members) (key : String) : Option (Part m) :=
  match found : m.find? key with
  | some part => some ⟨part, sizeOf_find? found⟩
  | none => none

def member (m : Members) (key : String) (fallback : Json) : Json :=
  (Table.find? m key).getD fallback

def choice {α : Type} (family : Family) (all : List α) (name : α → String) (j : Json) :
    Except Error α :=
  match j with
  | .text s =>
    match all.find? fun a => name a = s with
    | some a => .ok a
    | none => .error (.unknownName family j)
  | _ => .error (.unknownName family j)

def tokenKind (j : Json) : Except Error Kind :=
  match j with
  | .text s =>
    match Kind.ofName? s with
    | some kind => .ok kind
    | none => .error (.unknownTokenType j)
  | .array _ | .object _ => .error (.compoundName j)
  | _ => .error (.unknownTokenType j)

def toToken (j : Json) : Except Error Token :=
  match j with
  | .object m => do
    let kind ← tokenKind (← require m "token_type").1
    let ⟨lexeme, _⟩ ← require m "lexeme"
    let mark := ⟨member m "line" (.integer 0), member m "column" (.integer 0)⟩
    pure ⟨⟨kind, lexeme, member m "literal" .null⟩, mark⟩
  | _ => .error (.notToken j)

/-- A real given as a number or as text. -/
def toReal (j : Json) : Except Error Binary64 :=
  match j with
  | .real x => .ok x
  | .integer n =>
    match Binary64.ofInt? n with
    | some x => .ok x
    | none => .error .realOverflow
  | .bool value => .ok (Binary64.ofDecimal false (if value then 1 else 0) 0)
  | .text s =>
    match Numeral.real? s with
    | some x => .ok x
    | none => .error (.unreadableReal s)
  | _ => .error (.notNumber j)

/-- What is gone through where a list is expected: the items of a list, the characters of a text, the
keys of an object. -/
def listed : Json → Except Error (List Json)
  | .array items => .ok items
  | .text s => .ok (s.toList.map fun c => .text c.toString)
  | .object members => .ok (members.map fun member => .text member.1)
  | j => .error (.notList j)

/-- The data of nodes under a key. Nothing but the items of a list can be nodes. -/
def requireNodes (m : Members) (key : String) :
    Except Error { items : List Json // ∀ item ∈ items, sizeOf item < sizeOf m } := do
  match ← require m key with
  | ⟨.array items, smaller⟩ =>
    pure ⟨items, fun item inside => by
      have := List.sizeOf_lt_of_mem inside
      simp at smaller
      omega⟩
  | ⟨part, _⟩ => do
    let items ← listed part
    if items.isEmpty then pure ⟨[], by simp⟩ else throw .notNode

/-- What an object is, if a text says so. -/
def tag? (m : Members) (key : String) : Option String :=
  match m.find? key with
  | some (.text s) => some s
  | _ => none

def toForm (j : Json) : Except Error Form :=
  match j with
  | .object m =>
    match tag? m "__value__" with
    | some "Collection" => do
      let items ← listed (← require m "values").1
      pure (.collection items)
    | some "Real" => do
      let x ← toReal (← require m "value").1
      pure (.real (.real x))
    | some "Text" => do
      let ⟨content, _⟩ ← require m "value"
      pure (.text content)
    | some "Pair" => do
      let ⟨first, _⟩ ← require m "first"
      let a ← toForm first
      let ⟨second, _⟩ ← require m "second"
      let b ← toForm second
      pure (.pair a b)
    | _ => .error (.unknownValue (member m "__value__" .null))
  | _ => .error .notObject
termination_by sizeOf j
decreasing_by all_goals (simp; omega)

/-- The value of a document, for a host that binds names to values. The literals of a tree are read as forms, since they
need not have values. -/
def toValue (j : Json) : Except Error Value := do
  let form ← toForm j
  match form.toValue? with
  | some v => pure v
  | none => throw .misfit

def loopMode? : String → Option LoopMode
  | "Repeat" => some .last
  | "Accumulate" => some .accumulated
  | _ => none

section

variable {m : Members} (node : Part m → Except Error Expr)

/-! Nodes of each kind, read from the members of an object by a reader for the nodes right below. -/

def readNode (key : String) : Except Error Expr := do
  node (← require m key)

def readNodes (key : String) : Except Error (List Expr) := do
  let ⟨parts, smaller⟩ ← requireNodes m key
  parts.attach.mapM fun part => node ⟨part.1, smaller part.1 part.2⟩

def readLiteral (m : Members) : Except Error Expr := do
  let form ← toForm (← require m "value").1
  pure (.ofForm form)

def readVariable : Except Error Expr := do
  let name ← require m "identifier"
  match optional m "default" with
  | none => pure (.var name.1 .missing)
  | some part => do
    let fallback ← node part
    pure (.var name.1 fallback)

def readBinary : Except Error Expr := do
  let left ← readNode node "left"
  let op ← toToken (← require m "op").1
  let schema ← choice .binarySchema BinarySchema.all BinarySchema.name (← require m "schema").1
  let right ← readNode node "right"
  pure (.binary left op schema right)

def readUnary : Except Error Expr := do
  let op ← toToken (← require m "op").1
  let schema ← choice .unarySchema UnarySchema.all UnarySchema.name (← require m "schema").1
  let operand ← readNode node "right"
  pure (.unary op schema operand)

def readConditional : Except Error Expr := do
  let condition ← readNode node "condition"
  let whenTrue ← readNode node "then_branch"
  let whenFalse ← readNode node "else_branch"
  pure (.conditional condition whenTrue whenFalse)

def readForeach : Except Error Expr := do
  let name ← require m "identifier"
  let source ← readNode node "source"
  let body ← readNode node "body"
  pure (.foreach name.1 source body)

def readLoop (mode : LoopMode) : Except Error Expr := do
  let name ← require m "identifier"
  let body ← readNode node "expr"
  let style ← choice .endStyle EndStyle.all EndStyle.name (← require m "end_style").1
  let test ← readNode node "test"
  pure (.loop mode name.1 body style test)

def readBinding : Except Error Expr := do
  let name ← require m "identifier"
  let definition ← readNode node "definition"
  let use ← readNode node "use"
  pure (.binding name.1 definition use)

def readCall : Except Error Expr := do
  let name ← require m "identifier"
  let arguments ← readNodes node "arguments"
  pure (.call name.1 arguments)

def readCollection : Except Error Expr := do
  let elements ← readNodes node "elements"
  pure (.collection elements)

def readPair : Except Error Expr := do
  let first ← readNode node "first"
  let second ← readNode node "second"
  pure (.pair first second)

def readGroup : Except Error Expr := do
  let inner ← readNode node "expr"
  pure (.group inner)

def readFunction : Except Error Expr := do
  let name ← require m "identifier"
  let parameters ← listed (← require m "parameters").1
  let body ← readNode node "body"
  pure (.function name.1 parameters body)

def readObject : Except Error Expr :=
  match tag? m "type" with
  | some "Literal" => readLiteral m
  | some "Variable" => readVariable node
  | some "Binary" => readBinary node
  | some "Unary" => readUnary node
  | some "If" => readConditional node
  | some "Foreach" => readForeach node
  | some "Binding" => readBinding node
  | some "FunctionCall" => readCall node
  | some "CollectionLiteral" => readCollection node
  | some "TupleLiteral" => readPair node
  | some "Group" => readGroup node
  | some "FunctionDefinition" => readFunction node
  | some tag =>
    match loopMode? tag with
    | some mode => readLoop node mode
    | none => .error (.unknownNode (.text tag))
  | none => .error (.unknownNode (member m "type" .null))

end

def toExpr (j : Json) : Except Error Expr :=
  match j with
  | .null => .ok .missing
  | .object m => readObject fun (part : Part m) => toExpr part.1
  | _ => .error .notNode
termination_by sizeOf j
decreasing_by
  have := part.2
  simp
  omega

def functionEntry (node : Expr) : Except Error (Name × Expr) :=
  match node.name? with
  | some name => if name.isCompound then .error (.compoundName name) else .ok (name, node)
  | none => .error .unnamedFunction

def toScript (j : Json) : Except Error Script :=
  match j with
  | .object m =>
    if tag? m "type" = some "Script" then do
      let parts ←
        match optional m "functions" with
        | none => pure []
        | some ⟨part, _⟩ => listed part
      let nodes ← parts.mapM toExpr
      let expression ← toExpr (← require m "expression").1
      let entries ← nodes.mapM functionEntry
      pure ⟨expression, Table.ofList entries⟩
    else .error (.unknownNode (member m "type" .null))
  | _ => .error .notObject

def parse (s : String) : Except Error Script :=
  match Json.parse s with
  | .ok j => toScript j
  | .error e => .error (.notJson e)

end DiceScript.Document
