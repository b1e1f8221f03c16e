import DiceScript.Proofs.Evaluation.Composition
import DiceScript.Proofs.Grammar.Scripts

/-!
# What operators make of collections

Most operators on collections are functions of the collections alone. `ofCollection?` and `ofCollections?` say which they
are, for operators with one operand and with two, where a number is the collection that it is. An expression with such
an operator yields what the function says, unless the operator refuses its operands.
-/

namespace DiceScript

namespace Kind

/-- What an operator makes of a collection by itself. Nothing is picked out of an empty one. -/
def ofCollection? (kind : Kind) (c : Collection) : Option Collection :=
  match kind with
  | .count => some [(c.length : Int)]
  | .different => some c.different
  | .sum => some [c.total]
  | .minimal => some c.minimal
  | .maximal => some c.maximal
  | .bang => some c.negation
  | .minimum => c.minimum?.map ([·])
  | .maximum => c.maximum?.map ([·])
  | .median => c.median?.map ([·])
  | _ => none

/-- What an operator makes of two collections by itself. Comparisons and selections take a number first. -/
def ofCollections? (kind : Kind) (left right : Collection) : Option Collection :=
  match kind.comparison? with
  | some holds => left.scalar?.map fun l => right.filter (holds l)
  | none =>
    match kind with
    | .and => some (left.guarded right)
    | .drop => some (left.dropping right)
    | .keep => some (left.keeping right)
    | .setMinus => some (left.minus right)
    | .union => some (left ++ right)
    | .least => left.scalar?.bind fun l => if l < 0 then none else some (right.least l.toNat)
    | .largest => left.scalar?.bind fun l => if l < 0 then none else some (right.largest l.toNat)
    | _ => none

theorem ofCollections?_comparison {kind : Kind} {holds : Int → Int → Bool} (h : kind.comparison? = some holds) (l : Int)
    (c : Collection) : kind.ofCollections? [l] c = some (c.filter (holds l)) := by
  unfold ofCollections?
  rw [h]
  rfl

theorem ofCollections?_least (n : Nat) (c : Collection) :
    Kind.least.ofCollections? [(n : Int)] c = some (c.least n) := by
  have hn : ¬(n : Int) < 0 := by omega
  simp [ofCollections?, comparison?, Collection.scalar?, hn]

theorem ofCollections?_largest (n : Nat) (c : Collection) :
    Kind.largest.ofCollections? [(n : Int)] c = some (c.largest n) := by
  have hn : ¬(n : Int) < 0 := by omega
  simp [ofCollections?, comparison?, Collection.scalar?, hn]

end Kind

namespace Operator

variable {op : Token} {a b c : Collection}

theorem extreme_eq_pure {pick : Collection → Option Int} (hpick : pick [] = none)
    (h : (pick a).map ([·]) = some c) : extreme op a pick = pure (.collection c) := by
  obtain ⟨n, hn, rfl⟩ := Option.map_eq_some_iff.1 h
  have ha : ¬a.isEmpty = true := by
    intro hempty
    rw [List.isEmpty_iff.1 hempty, hpick] at hn
    cases hn
  rw [extreme, if_neg ha, hn]
  rfl

/-- An operator that is a function of a collection applies this function. -/
theorem unary_eq_pure (h : op.kind.ofCollection? a = some c) :
    op.kind.unarySchema? = some .collection ∧ unary op .collection (.collection a) = pure (.collection c) := by
  change _ ∧ collectionOperand op (.collection a) = _
  unfold collectionOperand
  cases hk : op.kind with
  | count | different | sum | minimal | maximal | bang =>
    rw [hk] at h
    cases h
    exact ⟨rfl, rfl⟩
  | minimum | maximum | median =>
    rw [hk] at h
    refine ⟨rfl, ?_⟩
    change extreme op a _ = _
    refine extreme_eq_pure ?_ h
    simp [Collection.minimum?, Collection.maximum?, Collection.median?, Collection.sorted]
  | _ =>
    rw [hk] at h
    cases h

/-- An operator that is a function of two collections applies this function, under a schema of its own. -/
theorem binary_eq_pure (h : op.kind.ofCollections? a b = some c) :
    ∃ schema, op.kind.binarySchema? = some schema ∧ schema ≠ .deferred ∧
      binary op schema (.collection a) (.collection b) = pure (.collection c) := by
  cases hk : op.kind with
  | and | drop | keep | setMinus | union =>
    refine ⟨.collectionCollection, rfl, by decide, ?_⟩
    change collectionCollection op _ _ = _
    unfold collectionCollection
    rw [hk] at h ⊢
    cases h
    rfl
  | equal | unequal | less | greater | atMost | atLeast =>
    refine ⟨.singletonCollection, rfl, by decide, ?_⟩
    change singletonCollection op _ _ = _
    rw [hk] at h
    obtain ⟨l, hl, rfl⟩ := Option.map_eq_some_iff.1 h
    unfold singletonCollection
    rw [asSingleton_of_scalar?_eq_some op _ hl, hk]
    rfl
  | least | largest =>
    refine ⟨.singletonCollection, rfl, by decide, ?_⟩
    change singletonCollection op _ _ = _
    rw [hk] at h
    obtain ⟨l, hl, hc⟩ := Option.bind_eq_some_iff.1 h
    unfold singletonCollection
    rw [asSingleton_of_scalar?_eq_some op _ hl, hk]
    split at hc
    · cases hc
    · next hnegative =>
      cases hc
      exact if_neg hnegative
  | _ =>
    rw [hk] at h
    cases h

end Operator

structure Vocabulary where
  token : Kind → Token
  kind_token : ∀ kind, (token kind).kind = kind

instance : Inhabited Vocabulary :=
  ⟨⟨fun kind => Word.at ⟨kind, .text kind.name, .null⟩ ⟨1, 1⟩, fun _ => rfl⟩⟩

namespace Vocabulary

def unary (words : Vocabulary) (kind : Kind) (operand : Expr) : Expr :=
  .unary (words.token kind) (kind.unarySchema?.getD .deferred) operand

def binary (words : Vocabulary) (left : Expr) (kind : Kind) (right : Expr) : Expr :=
  .binary left (words.token kind) (kind.binarySchema?.getD .deferred) right

end Vocabulary

namespace Eval

variable (words : Vocabulary) (kind : Kind) {s : State} {x y : Expr} {a b c : Collection}

theorem yields_unary (h : kind.ofCollection? a = some c) (hx : Yields s x (.collection a)) :
    Yields s (words.unary kind x) (.collection c) := by
  rw [← words.kind_token kind] at h
  obtain ⟨hschema, happly⟩ := Operator.unary_eq_pure h
  refine Yields.unary hx (Kind.isUnary_of_unarySchema? hschema) ?_
  rw [words.kind_token] at hschema
  rw [hschema]
  exact happly

theorem yields_binary (h : kind.ofCollections? a b = some c) (hx : Yields s x (.collection a))
    (hy : Yields s y (.collection b)) : Yields s (words.binary x kind y) (.collection c) := by
  rw [← words.kind_token kind] at h
  obtain ⟨schema, hschema, hne, happly⟩ := Operator.binary_eq_pure h
  have hbinary := Kind.isBinary_of_binarySchema? hschema
  rw [words.kind_token] at hschema
  unfold Vocabulary.binary
  rw [hschema]
  exact Yields.binary hx hy hbinary hne happly

end Eval

end DiceScript
