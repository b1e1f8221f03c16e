import DiceScript.Expr

/-!
# Trees and the nodes below

What is proved about trees by going down from a node to those right below needs to know no more about the node than
which these are.
-/

namespace DiceScript.Expr

def children : Expr → List Expr
  | .missing | .literal _ | .misfit _ => []
  | .var _ fallback => [fallback]
  | .binary left _ _ right => [left, right]
  | .unary _ _ operand => [operand]
  | .conditional condition whenTrue whenFalse => [condition, whenTrue, whenFalse]
  | .foreach _ source body => [source, body]
  | .loop _ _ body _ test => [body, test]
  | .binding _ definition use => [definition, use]
  | .call _ arguments => arguments
  | .collection elements => elements
  | .pair first second => [first, second]
  | .group inner => [inner]
  | .function _ _ body => [body]

def operator? : Expr → Option Token
  | .binary _ op _ _ | .unary op _ _ => some op
  | _ => none

theorem sizeOf_lt_of_mem_children {child e : Expr} (h : child ∈ e.children) : sizeOf child < sizeOf e := by
  cases e with
  | missing => cases h
  | literal v => cases h
  | misfit form => cases h
  | call name arguments =>
    have hlt : sizeOf child < sizeOf arguments := List.sizeOf_lt_of_mem h
    rw [call.sizeOf_spec]
    omega
  | collection elements =>
    have hlt : sizeOf child < sizeOf elements := List.sizeOf_lt_of_mem h
    rw [collection.sizeOf_spec]
    omega
  | _ =>
    simp only [children, List.mem_cons, List.not_mem_nil, or_false] at h
    grind

/-- What every node has if those right below it have it, all nodes have. -/
theorem children_induction {p : Expr → Prop} (h : ∀ e : Expr, (∀ child ∈ e.children, p child) → p e) (e : Expr) :
    p e :=
  h e fun child _ => children_induction h child
termination_by sizeOf e
decreasing_by exact sizeOf_lt_of_mem_children ‹_›

inductive Occurs (node : Expr) : Expr → Prop
  | here : Occurs node node
  | inside {child e : Expr} (hchild : child ∈ e.children) (h : Occurs node child) : Occurs node e

theorem forall_occurs {p : Expr → Prop} {e : Expr} (hself : p e)
    (hchildren : ∀ child ∈ e.children, ∀ node, Occurs node child → p node) :
    ∀ node, Occurs node e → p node := by
  intro node h
  cases h with
  | here => exact hself
  | inside hchild h => exact hchildren _ hchild _ h

theorem Occurs.trans {node part e : Expr} (h : Occurs node part) (hpart : Occurs part e) : Occurs node e := by
  induction hpart with
  | here => exact h
  | inside hchild _ ih => exact .inside hchild ih

end DiceScript.Expr
