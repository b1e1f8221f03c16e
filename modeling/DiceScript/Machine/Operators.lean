import DiceScript.Machine

/-!
# Operators on values

An operator is applied in two steps. Its schema first asks for operands of certain shapes, then its kind
selects what is done with them. A kind that does not belong to the schema is a fault, which is found only
once the operands have the right shapes.
-/

namespace DiceScript

namespace Kind

def isBinary : Kind → Bool
  | .and | .drop | .keep | .setMinus | .union | .pick | .sample | .hash | .equal | .unequal | .less
  | .greater | .atMost | .atLeast | .least | .largest | .dotDot | .die | .zeroDie | .plus | .minus
  | .times | .divide | .modulo | .beside | .aboveLeft | .aboveRight | .aboveCentre => true
  | _ => false

def isUnary : Kind → Bool
  | .count | .different | .choose | .sum | .minimum | .maximum | .median | .minimal | .maximal
  | .bang | .sample | .question | .die | .zeroDie | .minus | .sign | .first | .second => true
  | _ => false

def layout? : Kind → Option LayoutOp
  | .beside => some .beside
  | .aboveLeft => some .aboveLeft
  | .aboveRight => some .aboveRight
  | .aboveCentre => some .aboveCentre
  | _ => none

/-- The comparison of a kind, between the left operand and an element. -/
def comparison? : Kind → Option (Int → Int → Bool)
  | .equal => some fun l v => decide (l = v)
  | .unequal => some fun l v => decide (l ≠ v)
  | .less => some fun l v => decide (l < v)
  | .greater => some fun l v => decide (l > v)
  | .atMost => some fun l v => decide (l ≤ v)
  | .atLeast => some fun l v => decide (l ≥ v)
  | _ => none

end Kind

namespace Operator

open Eval

/-- An operator under a schema that is not its own. -/
def foreign {α : Type} (op : Token) (schema : String) : Eval α :=
  fault (.foreignSchema op schema)

def asCollection (op : Token) (which : Operand) : Value → Eval Collection
  | .collection c => pure c
  | v => fail (.operand op which v.shape)

def asSingleton (op : Token) (which : Operand) (v : Value) : Eval Int :=
  match v with
  | .collection [n] => pure n
  | _ => fail (.operand op which v.shape)

def asText (op : Token) (which : Operand) : Value → Eval String
  | .text s => pure s
  | v => fail (.operand op which v.shape)

def collectionCollection (op : Token) (lval rval : Value) : Eval Value := do
  let left ← asCollection op .leftCollection lval
  let right ← asCollection op .rightCollection rval
  match op.kind with
  | .and => pure (.collection (left.guarded right))
  | .drop => pure (.collection (left.dropping right))
  | .keep => pure (.collection (left.keeping right))
  | .setMinus => pure (.collection (left.minus right))
  | .union => pure (.collection (left ++ right))
  | _ => foreign op BinarySchema.collectionCollection.name

def collectionSingleton (op : Token) (lval rval : Value) : Eval Value := do
  let left ← asCollection op .leftCollection lval
  let r ← asSingleton op .rightSingleton rval
  match op.kind with
  | .pick =>
    if r < 0 then fail (.negativePick op)
    else if (left.length : Int) ≤ r then pure (.collection left)
    else do
      let picked ← drawing fun dice => dice.sample left r.toNat
      pure (.collection picked)
  | _ => foreign op BinarySchema.collectionSingleton.name

def singletonCollection (op : Token) (lval rval : Value) : Eval Value := do
  let l ← asSingleton op .leftSingleton lval
  let right ← asCollection op .rightCollection rval
  match op.kind.comparison? with
  | some holds => pure (.collection (right.filter (holds l)))
  | none =>
    match op.kind with
    | .least =>
      if l < 0 then fail (.negativeSelection op) else pure (.collection (right.least l.toNat))
    | .largest =>
      if l < 0 then fail (.negativeSelection op) else pure (.collection (right.largest l.toNat))
    | _ => foreign op BinarySchema.singletonCollection.name

def roll (op : Token) (count faces lowest : Int) : Eval Value := do
  if count < 0 then fail (.negativeDice op)
  else if faces ≤ 0 then fail (.noFaces op)
  else do
    let rolled ← drawing fun dice => dice.roll lowest faces count.toNat
    pure (.collection rolled)

/-- The quotient rounded towards zero: that of the absolute values, with a sign. -/
def truncated (l r : Int) : Int :=
  let magnitude : Int := l.natAbs / r.natAbs
  if decide (0 ≤ l) = decide (0 < r) then magnitude else -magnitude

def quotient (l r : Int) : Eval Int :=
  if r = 0 then fault .zeroDivisor else pure (truncated l r)

def singletonSingleton (op : Token) (lval rval : Value) : Eval Value := do
  let l ← asSingleton op .leftSingleton lval
  let r ← asSingleton op .rightSingleton rval
  match op.kind with
  | .dotDot => pure (.collection (Collection.range l r))
  | .die => roll op l r 1
  | .zeroDie => roll op l r 0
  | .plus => pure (.number (l + r))
  | .minus => pure (.number (l - r))
  | .times => pure (.number (l * r))
  | .divide =>
    if r = 0 then fail (.divisionByZero op)
    else do
      let q ← quotient l r
      pure (.number q)
  | .modulo =>
    if r = 0 then fail (.moduloByZero op)
    else do
      let q ← quotient l r
      pure (.number (l - r * q))
  | _ => foreign op BinarySchema.singletonSingleton.name

def stringString (op : Token) (lval rval : Value) : Eval Value := do
  let l ← asText op .leftString lval
  let r ← asText op .rightString rval
  match op.kind.layout? with
  | some layout => pure (.text (layout.apply l r))
  | none => foreign op BinarySchema.stringString.name

/-- Apply a binary operator to the values of its operands. An operator that evaluates its right operand
itself has no values to be applied to. -/
def binary (op : Token) (schema : BinarySchema) (lval rval : Value) : Eval Value :=
  match schema with
  | .collectionCollection => collectionCollection op lval rval
  | .collectionSingleton => collectionSingleton op lval rval
  | .singletonCollection => singletonCollection op lval rval
  | .singletonSingleton => singletonSingleton op lval rval
  | .stringString => stringString op lval rval
  | .deferred => foreign op schema.name

/-- The least, largest or middle element. The error for an empty collection spells the operator. -/
def extreme (op : Token) (items : Collection) (pick : Collection → Option Int) : Eval Value :=
  if items.isEmpty then
    if op.lexeme.isText then fail (.emptyExtreme op) else fault .unspelt
  else
    match pick items with
    | some n => pure (.number n)
    | none => fault .noElement

def collectionOperand (op : Token) (v : Value) : Eval Value := do
  let items ← asCollection op .onlyCollection v
  match op.kind with
  | .count => pure (.number items.length)
  | .different => pure (.collection items.different)
  | .choose =>
    if items.isEmpty then fail (.emptyChoice op)
    else do
      let chosen ← drawing fun dice => dice.choose items
      pure (.number chosen)
  | .sum => pure (.number items.total)
  | .minimum => extreme op items Collection.minimum?
  | .maximum => extreme op items Collection.maximum?
  | .median => extreme op items Collection.median?
  | .minimal => pure (.collection items.minimal)
  | .maximal => pure (.collection items.maximal)
  | .bang => pure (.collection items.negation)
  | _ => foreign op UnarySchema.collection.name

/-- A real strictly between zero and one. -/
def asProbability (op : Token) (v : Value) : Eval Binary64 :=
  match v with
  | .real x => if x.isProper then pure x else fail (.improperProbability op)
  | _ => fail (.improperProbability op)

def realOperand (op : Token) (v : Value) : Eval Value := do
  let x ← asProbability op v
  match op.kind with
  | .question => do
    let q ← drawing fun dice => some dice.fraction
    pure (.collection (if x.exceeds q then [1] else []))
  | _ => foreign op UnarySchema.real.name

def singletonOperand (op : Token) (v : Value) : Eval Value := do
  let r ← asSingleton op .onlySingleton v
  match op.kind with
  | .die => roll op 1 r 1
  | .zeroDie => roll op 1 r 0
  | .minus => pure (.number (-r))
  | .sign => pure (.number r.sign)
  | _ => foreign op UnarySchema.singleton.name

def tupleOperand (op : Token) (v : Value) : Eval Value := do
  match v with
  | .pair first second =>
    match op.kind with
    | .first => pure first
    | .second => pure second
    | _ => foreign op UnarySchema.tuple.name
  | _ => fail (.operand op .onlyPair v.shape)

def deferredOperand (op : Token) (v : Value) : Eval Value :=
  match op.kind with
  | .sample => pure (.text v.display)
  | _ => foreign op UnarySchema.deferred.name

def unary (op : Token) (schema : UnarySchema) (v : Value) : Eval Value :=
  match schema with
  | .collection => collectionOperand op v
  | .deferred => deferredOperand op v
  | .real => realOperand op v
  | .singleton => singletonOperand op v
  | .tuple => tupleOperand op v

end Operator

end DiceScript
