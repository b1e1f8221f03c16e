import DiceScript.Proofs.Evaluation.Restoration
import DiceScript.Proofs.Grammar.Derivation

/-!
# Operators under foreign schemas

The grammar gives every operator one schema. A tree that was read from a document may have an operator under
another one, and then the operator is never applied: there is no value. The schema is served first, though. It
looks at the operands that it evaluates, and if one of them is not what it asks for, this is an error as it
would be for an operator of its own. Only with operands that suit the schema is the mismatch found, and it is a
fault, which no host sees as a result.
-/

namespace DiceScript

theorem Value.shape_collection (c : Collection) :
    (Value.collection c).shape = .singleton ∨ (Value.collection c).shape = .collection := by
  change (if c.scalar?.isSome then Shape.singleton else .collection) = .singleton ∨
    (if c.scalar?.isSome then Shape.singleton else .collection) = .collection
  split
  · exact .inl rfl
  · exact .inr rfl

namespace Operand

def admits (which : Operand) (shape : Shape) : Bool :=
  match which with
  | .leftCollection | .rightCollection | .onlyCollection => shape = .collection || shape = .singleton
  | .leftSingleton | .rightSingleton | .onlySingleton | .count => shape = .singleton
  | .leftString | .rightString => shape = .text
  | .onlyPair => shape = .pair

/-- The error of the first operand that has no shape that it may have. -/
def refusal? (op : Token) : List Operand → List Value → Option RuntimeError
  | which :: rest, v :: values =>
    if which.admits v.shape then refusal? op rest values else some (.operand op which v.shape)
  | _, _ => none

end Operand

namespace BinarySchema

def operands : BinarySchema → List Operand
  | .collectionCollection => [.leftCollection, .rightCollection]
  | .collectionSingleton => [.leftCollection, .rightSingleton]
  | .singletonCollection => [.leftSingleton, .rightCollection]
  | .singletonSingleton => [.leftSingleton, .rightSingleton]
  | .stringString => [.leftString, .rightString]
  | .deferred => [.count]

/-- A right operand is not evaluated a negative number of times. -/
def misfit? (op : Token) : BinarySchema → List Value → Option RuntimeError
  | .deferred, [.collection [n]] => if n < 0 then some (.negativeCount op) else none
  | _, _ => none

end BinarySchema

namespace UnarySchema

/-- The operand of an operator, unless any value will do or its shape is not what counts. -/
def operands : UnarySchema → List Operand
  | .collection => [.onlyCollection]
  | .singleton => [.onlySingleton]
  | .tuple => [.onlyPair]
  | .real | .deferred => []

/-- A probability is a real strictly between zero and one. -/
def misfit? (op : Token) : UnarySchema → List Value → Option RuntimeError
  | .real, [.real x] => if x.isProper then none else some (.improperProbability op)
  | .real, _ => some (.improperProbability op)
  | _, _ => none

end UnarySchema

namespace Expr

/-- What the schema of a node has against the values of its operands, whatever the operator is. -/
def refusal? (e : Expr) (values : List Value) : Option RuntimeError :=
  match e with
  | .binary _ op schema _ => Operand.refusal? op schema.operands values <|> schema.misfit? op values
  | .unary op schema _ => Operand.refusal? op schema.operands values <|> schema.misfit? op values
  | _ => none

/-- A node has an operator under a schema, by its name, that the grammar does not give this operator. -/
inductive IsForeign : Expr → Token → String → Prop
  | binary {op : Token} {schema : BinarySchema} {left right : Expr} (hop : op.kind.isBinary = true)
    (hschema : op.kind.binarySchema? ≠ some schema) : IsForeign (.binary left op schema right) op schema.name
  | unary {op : Token} {schema : UnarySchema} {operand : Expr} (hop : op.kind.isUnary = true)
    (hschema : op.kind.unarySchema? ≠ some schema) : IsForeign (.unary op schema operand) op schema.name

end Expr

namespace Operator

open Eval

variable {α β : Type} {op : Token} {which : Operand} {v w : Value}

def barring (reason : Option RuntimeError) (x : Eval α) : Eval α :=
  match reason with
  | some err => fail err
  | none => x

theorem barring_orElse (reason further : Option RuntimeError) (x : Eval α) :
    barring (reason <|> further) x = barring reason (barring further x) := by
  cases reason with
  | none => rfl
  | some err => rfl

/-- A computation looks at an operand: it fails if the operand has no shape that it may have, and else it takes
something out of it. -/
def Checks (x : Eval α) (op : Token) (which : Operand) (v : Value) : Prop :=
  if which.admits v.shape then ∃ a, x = pure a else x = fail (.operand op which v.shape)

theorem checks_asCollection
    (hwhich : ∀ shape, which.admits shape = (shape = .collection || shape = .singleton)) (v : Value) :
    Checks (asCollection op which v) op which v := by
  unfold Checks
  rw [hwhich]
  cases v with
  | collection c => rcases Value.shape_collection c with h | h <;> rw [h] <;> exact ⟨c, rfl⟩
  | _ => rfl

theorem checks_asSingleton (hwhich : ∀ shape, which.admits shape = decide (shape = .singleton)) (v : Value) :
    Checks (asSingleton op which v) op which v := by
  unfold Checks
  rw [hwhich]
  cases v with
  | collection c =>
    rcases c with _ | ⟨n, _ | ⟨_, _⟩⟩
    · rfl
    · exact ⟨n, rfl⟩
    · rfl
  | _ => rfl

theorem checks_asText (hwhich : ∀ shape, which.admits shape = decide (shape = .text)) (v : Value) :
    Checks (asText op which v) op which v := by
  unfold Checks
  rw [hwhich]
  cases v with
  | text s => exact ⟨s, rfl⟩
  | collection c => rcases Value.shape_collection c with h | h <;> simp [asText, h]
  | _ => rfl

theorem Checks.bind {x : Eval α} {f : α → Eval β} {y : Eval β} {rest : List Operand} {values : List Value}
    (h : Checks x op which v) (hf : ∀ a, f a = barring (Operand.refusal? op rest values) y) :
    (x >>= f) = barring (Operand.refusal? op (which :: rest) (v :: values)) y := by
  unfold Checks at h
  unfold Operand.refusal?
  split at h
  · next hadmits =>
    obtain ⟨a, rfl⟩ := h
    rw [if_pos hadmits, pure_bind, hf]
  · next hadmits =>
    rw [if_neg hadmits, h]
    rfl

/-! Under a schema that is not its own, an operator is not applied. -/

theorem collectionCollection_foreign (h : op.kind.binarySchema? ≠ some .collectionCollection) (v w : Value) :
    collectionCollection op v w =
      barring (Operand.refusal? op [.leftCollection, .rightCollection] [v, w])
        (foreign op BinarySchema.collectionCollection.name) := by
  refine (checks_asCollection (fun _ => rfl) v).bind fun left =>
    (checks_asCollection (fun _ => rfl) w).bind fun right => ?_
  cases hk : op.kind with
  | and | drop | keep | setMinus | union =>
    rw [hk] at h
    exact absurd rfl h
  | _ => rfl

theorem collectionSingleton_foreign (h : op.kind.binarySchema? ≠ some .collectionSingleton) (v w : Value) :
    collectionSingleton op v w =
      barring (Operand.refusal? op [.leftCollection, .rightSingleton] [v, w])
        (foreign op BinarySchema.collectionSingleton.name) := by
  refine (checks_asCollection (fun _ => rfl) v).bind fun left =>
    (checks_asSingleton (fun _ => rfl) w).bind fun r => ?_
  cases hk : op.kind with
  | pick =>
    rw [hk] at h
    exact absurd rfl h
  | _ => rfl

theorem singletonCollection_foreign (h : op.kind.binarySchema? ≠ some .singletonCollection) (v w : Value) :
    singletonCollection op v w =
      barring (Operand.refusal? op [.leftSingleton, .rightCollection] [v, w])
        (foreign op BinarySchema.singletonCollection.name) := by
  refine (checks_asSingleton (fun _ => rfl) v).bind fun l =>
    (checks_asCollection (fun _ => rfl) w).bind fun right => ?_
  cases hk : op.kind with
  | equal | unequal | less | greater | atMost | atLeast | least | largest =>
    rw [hk] at h
    exact absurd rfl h
  | _ => rfl

theorem singletonSingleton_foreign (h : op.kind.binarySchema? ≠ some .singletonSingleton) (v w : Value) :
    singletonSingleton op v w =
      barring (Operand.refusal? op [.leftSingleton, .rightSingleton] [v, w])
        (foreign op BinarySchema.singletonSingleton.name) := by
  refine (checks_asSingleton (fun _ => rfl) v).bind fun l =>
    (checks_asSingleton (fun _ => rfl) w).bind fun r => ?_
  cases hk : op.kind with
  | dotDot | die | zeroDie | plus | minus | times | divide | modulo =>
    rw [hk] at h
    exact absurd rfl h
  | _ => rfl

theorem stringString_foreign (h : op.kind.binarySchema? ≠ some .stringString) (v w : Value) :
    stringString op v w =
      barring (Operand.refusal? op [.leftString, .rightString] [v, w])
        (foreign op BinarySchema.stringString.name) := by
  refine (checks_asText (fun _ => rfl) v).bind fun l => (checks_asText (fun _ => rfl) w).bind fun r => ?_
  cases hk : op.kind with
  | beside | aboveLeft | aboveRight | aboveCentre =>
    rw [hk] at h
    exact absurd rfl h
  | _ => rfl

theorem binary_foreign {schema : BinarySchema} (h : op.kind.binarySchema? ≠ some schema)
    (hschema : schema ≠ .deferred) (v w : Value) :
    binary op schema v w =
      barring (Operand.refusal? op schema.operands [v, w])
        (barring (schema.misfit? op [v, w]) (foreign op schema.name)) := by
  cases schema with
  | collectionCollection => exact collectionCollection_foreign h v w
  | collectionSingleton => exact collectionSingleton_foreign h v w
  | singletonCollection => exact singletonCollection_foreign h v w
  | singletonSingleton => exact singletonSingleton_foreign h v w
  | stringString => exact stringString_foreign h v w
  | deferred => exact absurd rfl hschema

theorem collectionOperand_foreign (h : op.kind.unarySchema? ≠ some .collection) (v : Value) :
    collectionOperand op v =
      barring (Operand.refusal? op [.onlyCollection] [v]) (foreign op UnarySchema.collection.name) := by
  refine (checks_asCollection (fun _ => rfl) v).bind fun items => ?_
  cases hk : op.kind with
  | count | different | choose | sum | minimum | maximum | median | minimal | maximal | bang =>
    rw [hk] at h
    exact absurd rfl h
  | _ => rfl

theorem singletonOperand_foreign (h : op.kind.unarySchema? ≠ some .singleton) (v : Value) :
    singletonOperand op v =
      barring (Operand.refusal? op [.onlySingleton] [v]) (foreign op UnarySchema.singleton.name) := by
  refine (checks_asSingleton (fun _ => rfl) v).bind fun r => ?_
  cases hk : op.kind with
  | die | zeroDie | minus | sign =>
    rw [hk] at h
    exact absurd rfl h
  | _ => rfl

theorem realOperand_foreign (h : op.kind.unarySchema? ≠ some .real) (v : Value) :
    realOperand op v = barring (UnarySchema.real.misfit? op [v]) (foreign op UnarySchema.real.name) := by
  have happly (x : Binary64) : realOperand op (.real x) =
      if x.isProper then foreign op UnarySchema.real.name else fail (.improperProbability op) := by
    change ((if x.isProper then pure x else fail (.improperProbability op)) >>= _) = _
    split
    · cases hk : op.kind with
      | question =>
        rw [hk] at h
        exact absurd rfl h
      | _ => rfl
    · rfl
  cases v with
  | real x =>
    rw [happly]
    change _ = barring (if x.isProper then none else some (.improperProbability op)) _
    split <;> rfl
  | _ => rfl

theorem tupleOperand_foreign (h : op.kind.unarySchema? ≠ some .tuple) (v : Value) :
    tupleOperand op v =
      barring (Operand.refusal? op [.onlyPair] [v]) (foreign op UnarySchema.tuple.name) := by
  cases v with
  | pair first second =>
    unfold tupleOperand
    cases hk : op.kind with
    | first | second =>
      rw [hk] at h
      exact absurd rfl h
    | _ => rfl
  | collection c =>
    rcases Value.shape_collection c with hc | hc <;> simp [tupleOperand, Operand.refusal?, hc] <;> rfl
  | _ => rfl

theorem deferredOperand_foreign (h : op.kind.unarySchema? ≠ some .deferred) (v : Value) :
    deferredOperand op v = foreign op UnarySchema.deferred.name := by
  unfold deferredOperand
  cases hk : op.kind with
  | sample =>
    rw [hk] at h
    exact absurd rfl h
  | _ => rfl

theorem unary_foreign {schema : UnarySchema} (h : op.kind.unarySchema? ≠ some schema) (v : Value) :
    unary op schema v =
      barring (Operand.refusal? op schema.operands [v])
        (barring (schema.misfit? op [v]) (foreign op schema.name)) := by
  cases schema with
  | collection => exact collectionOperand_foreign h v
  | singleton => exact singletonOperand_foreign h v
  | real => exact realOperand_foreign h v
  | tuple => exact tupleOperand_foreign h v
  | deferred => exact deferredOperand_foreign h v

end Operator

namespace Eval

open Operator

theorem deferred_foreign {eval : Expr → Eval Value} {op : Token} (h : op.kind.binarySchema? ≠ some .deferred)
    (v : Value) (right : Expr) :
    deferred eval op v right =
      barring (Operand.refusal? op BinarySchema.deferred.operands [v])
        (barring (BinarySchema.deferred.misfit? op [v]) (foreign op BinarySchema.deferred.name)) := by
  have happly (count : Int) : deferred eval op (.collection [count]) right =
      if count < 0 then fail (.negativeCount op) else foreign op BinarySchema.deferred.name := by
    change (if count < 0 then _ else _) = _
    split
    · rfl
    · cases hk : op.kind with
      | sample | hash =>
        rw [hk] at h
        exact absurd rfl h
      | _ => rfl
  cases v with
  | collection c =>
    rcases c with _ | ⟨count, _ | ⟨_, _⟩⟩
    · rfl
    · rw [happly]
      change _ = barring (if count < 0 then some (.negativeCount op) else none) _
      split <;> rfl
    · rfl
  | _ => rfl

/-- The values of the operands that the schema of a node evaluates, one after the other, and the machine that
this leaves. -/
inductive Operands (fuel : Nat) (m : Machine) : Expr → List Value → Machine → Prop
  | both {op : Token} {schema : BinarySchema} {left right : Expr} {v w : Value} {middle after : Machine}
    (hschema : schema ≠ .deferred) (hleft : eval fuel left m = .ok v middle)
    (hright : eval fuel right middle = .ok w after) : Operands fuel m (.binary left op schema right) [v, w] after
  | count {op : Token} {left right : Expr} {v : Value} {after : Machine}
    (hleft : eval fuel left m = .ok v after) : Operands fuel m (.binary left op .deferred right) [v] after
  | only {op : Token} {schema : UnarySchema} {operand : Expr} {v : Value} {after : Machine}
    (hoperand : eval fuel operand m = .ok v after) : Operands fuel m (.unary op schema operand) [v] after

/-- Once its operands are evaluated, a foreign operator does nothing but to check them and to stop. -/
theorem eval_foreign {fuel : Nat} {e : Expr} {op : Token} {schema : String} {m after : Machine}
    {values : List Value} (hforeign : e.IsForeign op schema) (hoperands : Operands fuel m e values after) :
    eval (fuel + 1) e m = barring (e.refusal? values) (fault (.foreignSchema op schema)) after := by
  cases hforeign with
  | binary hop hschema =>
    change binary _ _ _ _ _ m = _
    unfold binary
    rw [if_pos hop]
    simp only [Expr.refusal?, barring_orElse]
    cases hoperands with
    | both hdeferred hleft hright =>
      refine (bind_of_ok hleft).trans ?_
      rw [if_neg hdeferred]
      refine (bind_of_ok hright).trans ?_
      rw [binary_foreign hschema hdeferred]
      rfl
    | count hleft =>
      refine (bind_of_ok hleft).trans ?_
      rw [if_pos rfl, deferred_foreign hschema]
      rfl
  | unary hop hschema =>
    change unary _ _ _ _ m = _
    unfold unary
    rw [if_pos hop]
    simp only [Expr.refusal?, barring_orElse]
    cases hoperands with
    | only hoperand =>
      refine (bind_of_ok hoperand).trans ?_
      rw [unary_foreign hschema]
      rfl

/-- Let the operands that the schema of a node evaluates have values, and let the schema be foreign to its
operator. If the schema has nothing against these values, the node stops with a fault that names the operator and
the schema, and a host sees no result. If it has, the node stops with that error, which is reported, and the
host sees the error. In no case is there a value. A host that traces shows the tree first, and one that cannot be
shown is a fault there. -/
theorem evaluate_foreign {fuel : Nat} {e : Expr} {op : Token} {schema : String} {m after : Machine}
    {values : List Value} (hforeign : e.IsForeign op schema) (hoperands : Operands fuel m e values after) :
    (e.refusal? values = none → eval (fuel + 1) e m = .error (.fault (.foreignSchema op schema)) after) ∧
      (∀ err, e.refusal? values = some err →
        eval (fuel + 1) e m = .error (.error err) (after.reported (.runtime err))) ∧
      ∀ host : Machine, host.traced (.evaluating e) = m →
        ((1 ≤ host.verbosity && !e.isShowable) = true →
          evaluate (fuel + 1) e host = .error (.fault .unshowable) host) ∧
        ((1 ≤ host.verbosity && !e.isShowable) = false →
          (e.refusal? values = none →
            evaluate (fuel + 1) e host = .error (.fault (.foreignSchema op schema)) after) ∧
          ∀ err, e.refusal? values = some err → ∃ last, evaluate (fuel + 1) e host = .ok (.error err) last ∧
            last.reports = after.reports ++ [.runtime err]) := by
  have heval := eval_foreign hforeign hoperands
  have hfault (h : e.refusal? values = none) :
      eval (fuel + 1) e m = .error (.fault (.foreignSchema op schema)) after := by
    rw [heval, h]
    rfl
  have herror {err : RuntimeError} (h : e.refusal? values = some err) :
      eval (fuel + 1) e m = .error (.error err) (after.reported (.runtime err)) := by
    rw [heval, h]
    rfl
  refine ⟨hfault, fun err => herror, ?_⟩
  rintro host rfl
  unfold evaluate
  refine ⟨fun hunshown => if_pos hunshown, fun hshown => ?_⟩
  have hshow : ¬(1 ≤ host.verbosity && !e.isShowable) = true := by simp [hshown]
  rw [if_neg hshow]
  constructor
  · intro h
    simp only [hfault h]
  · intro err h
    simp only [herror h]
    exact ⟨_, rfl, (Machine.reports_traced _ _).trans (Machine.reports_reported after _)⟩

/-- An operator that compares, under a schema that repeats its right operand: with a count it is a fault. -/
theorem evaluate_foreign_comparison :
    let less : Token := Word.at ⟨.less, .text "<", .null⟩ ⟨1, 3⟩
    let e : Expr := .binary (.literal (.number 2)) less .deferred .missing
    let m : Machine := Machine.initial ⟨[], 0⟩ 0
    e.IsForeign less "deferred" ∧ Operands 1 m e [.number 2] m ∧
      evaluate 2 e m = .error (.fault (.foreignSchema less "deferred")) m := by
  intro less e m
  have hforeign : e.IsForeign less "deferred" := .binary rfl (by decide)
  have hoperands : Operands 1 m e [.number 2] m := .count rfl
  exact ⟨hforeign, hoperands, (((evaluate_foreign hforeign hoperands).2.2 m rfl).2 rfl).1 rfl⟩

/-- A sum of two texts under a schema that asks for collections is an error about the left one, and no fault. -/
theorem evaluate_foreign_texts :
    let plus : Token := Word.at ⟨.plus, .text "+", .null⟩ ⟨1, 5⟩
    let e : Expr := .binary (.literal (.text "a")) plus .collectionCollection (.literal (.text "b"))
    let m : Machine := Machine.initial ⟨[], 0⟩ 0
    e.IsForeign plus "collection-collection" ∧ Operands 1 m e [.text "a", .text "b"] m ∧
      outcome (evaluate 2 e m) = .ok (.error (.operand plus .leftCollection .text)) ∧
      ¬ ∃ f last, evaluate 2 e m = .error (.fault f) last := by
  intro plus e m
  have hrun : evaluate 2 e m =
      .ok (.error (.operand plus .leftCollection .text))
        (m.reported (.runtime (.operand plus .leftCollection .text))) := rfl
  refine ⟨.binary rfl (by decide), .both (by decide) rfl rfl, rfl, ?_⟩
  rintro ⟨f, last, h⟩
  rw [hrun] at h
  cases h

end Eval

end DiceScript
