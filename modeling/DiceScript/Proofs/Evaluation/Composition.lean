import DiceScript.Proofs.Evaluation.States

/-!
# What an operator node comes to

An operator node evaluates its operands one after the other and then applies its operator. What it comes to therefore
follows from what its operands come to and from what the operator does in the state that they leave behind. An
expression that leaves the state as it was yields its value as often as it is asked, and expressions built from such
ones by operators that draw nothing are such expressions again.
-/

namespace DiceScript

def State.reported (s : State) (p : Problem) : State := { s with reports := s.reports ++ [p] }

theorem Machine.state_reported (m : Machine) (p : Problem) : (m.reported p).state = m.state.reported p := by
  unfold state
  rw [reports_reported]
  rfl

namespace Eval

variable {α β : Type} {e left right operand : Expr} {s s₁ s₂ s' : State} {o : Except Stop Value} {v w : Value}

/-! Computations on states. -/

/-- A computation takes every machine in a state to this outcome and to a machine in this other state. -/
def Takes (x : Eval α) (s : State) (o : Except Stop α) (s' : State) : Prop :=
  ∀ m : Machine, m.state = s → Leads (x m) o s'

theorem takes_pure (a : α) (s : State) : Takes (pure a) s (.ok a) s :=
  fun _ hm => ⟨rfl, hm⟩

theorem takes_fail (err : RuntimeError) (s : State) :
    Takes (fail err : Eval α) s (.error (.error err)) (s.reported (.runtime err)) := by
  intro m hm
  refine ⟨rfl, ?_⟩
  rw [← hm]
  exact m.state_reported (.runtime err)

theorem takes_drawing {decide : Dice → Option (α × Dice)} {a : α} {dice : Dice}
    (h : decide s.dice = some (a, dice)) : Takes (drawing decide) s (.ok a) { s with dice := dice } := by
  intro m hm
  have hdecide : decide m.dice = some (a, dice) := by rw [← h, ← hm]; rfl
  have hrun : drawing decide m = .ok a { m with dice := dice } := by
    unfold drawing
    rw [get_bind, hdecide]
    rfl
  rw [hrun, ← hm]
  exact ⟨rfl, rfl⟩

theorem Takes.bind {x : Eval α} {f : α → Eval β} {a : α} {o : Except Stop β} (hx : Takes x s (.ok a) s₁)
    (hf : Takes (f a) s₁ o s₂) : Takes (x >>= f) s o s₂ := by
  intro m hm
  obtain ⟨after, hrun, hafter⟩ := leads_ok_iff.1 (hx m hm)
  rw [bind_of_ok hrun]
  exact hf after hafter

/-! Nodes. -/

theorem ok_ended (v : Value) : (.ok v : Except Stop Value) ≠ .error .outOfFuel := by
  intro h
  cases h

theorem evaluates_literal (v : Value) (s : State) : Evaluates (.literal v) s (.ok v) s :=
  ⟨ok_ended v, 1, takes_pure v s⟩

/-- An expression comes to one outcome in one way. -/
theorem Evaluates.unique {o' : Except Stop Value} (h : Evaluates e s o s₁) (h' : Evaluates e s o' s₂) :
    o = o' ∧ s₁ = s₂ := by
  obtain ⟨bound, hbound⟩ := h.eventually
  obtain ⟨bound', hbound'⟩ := h'.eventually
  have hleads := hbound (max bound bound') (Nat.le_max_left _ _) s.machine s.state_machine
  have hleads' := hbound' (max bound bound') (Nat.le_max_right _ _) s.machine s.state_machine
  exact ⟨hleads.1.symm.trans hleads'.1, hleads.2.symm.trans hleads'.2⟩

theorem Evaluates.unary {op : Token} {schema : UnarySchema} (hoperand : Evaluates operand s (.ok v) s₁)
    (hop : op.kind.isUnary = true) (happly : Takes (Operator.unary op schema v) s₁ o s₂)
    (hended : o ≠ .error .outOfFuel) : Evaluates (.unary op schema operand) s o s₂ := by
  obtain ⟨bound, hbound⟩ := hoperand.eventually
  refine ⟨hended, bound + 1, ?_⟩
  change Takes (Eval.unary (eval bound) op schema operand) s o s₂
  unfold Eval.unary
  rw [if_pos hop]
  exact Takes.bind (hbound bound (Nat.le_refl _)) happly

theorem Evaluates.binary {op : Token} {schema : BinarySchema} (hleft : Evaluates left s (.ok v) s₁)
    (hright : Evaluates right s₁ (.ok w) s₂) (hop : op.kind.isBinary = true) (hschema : schema ≠ .deferred)
    (happly : Takes (Operator.binary op schema v w) s₂ o s') (hended : o ≠ .error .outOfFuel) :
    Evaluates (.binary left op schema right) s o s' := by
  obtain ⟨bound, hbound⟩ := hleft.eventually
  obtain ⟨bound', hbound'⟩ := hright.eventually
  -- Both operands are done within the larger of their bounds, and the node takes one more.
  refine ⟨hended, max bound bound' + 1, ?_⟩
  change Takes (Eval.binary (eval (max bound bound')) left op schema right) s o s'
  unfold Eval.binary
  rw [if_pos hop]
  refine Takes.bind (hbound _ (Nat.le_max_left _ _)) ?_
  rw [if_neg hschema]
  exact Takes.bind (hbound' _ (Nat.le_max_right _ _)) happly

/-- An operator that evaluates its right operand itself does so within every bound that is large enough. -/
theorem Evaluates.deferred {op : Token} (hleft : Evaluates left s (.ok v) s₁) (hop : op.kind.isBinary = true)
    (happly : ∃ bound, ∀ fuel, bound ≤ fuel → Takes (Eval.deferred (eval fuel) op v right) s₁ o s₂)
    (hended : o ≠ .error .outOfFuel) : Evaluates (.binary left op .deferred right) s o s₂ := by
  obtain ⟨bound, hbound⟩ := hleft.eventually
  obtain ⟨bound', hbound'⟩ := happly
  refine ⟨hended, max bound bound' + 1, ?_⟩
  change Takes (Eval.binary (eval (max bound bound')) left op .deferred right) s o s₂
  unfold Eval.binary
  rw [if_pos hop]
  exact Takes.bind (hbound _ (Nat.le_max_left _ _)) (hbound' _ (Nat.le_max_right _ _))

/-! Expressions that leave the state as it was. -/

/-- In a state an expression has this value, and the state stays as it is. -/
def Yields (s : State) (e : Expr) (v : Value) : Prop :=
  Evaluates e s (.ok v) s

def Agree (s : State) (e e' : Expr) : Prop :=
  ∃ v v', Yields s e v ∧ Yields s e' v' ∧ v.same v' = true

theorem Yields.unique (h : Yields s e v) (h' : Yields s e w) : v = w :=
  Except.ok.inj (Evaluates.unique h h').1

theorem yields_literal (v : Value) (s : State) : Yields s (.literal v) v :=
  evaluates_literal v s

theorem yields_var {name : Name} {fallback : Expr} (h : s.scope.lookup? name = some v) :
    Yields s (.var name fallback) v := by
  refine ⟨ok_ended v, 1, fun m hm => ?_⟩
  have hlookup : m.scope.lookup? name = some v := by rw [← h, ← hm]; rfl
  have hrun : variableValue (eval 0) name fallback m = .ok v m := by
    unfold variableValue
    rw [get_bind, hlookup]
    rfl
  change Leads (variableValue (eval 0) name fallback m) (.ok v) s
  rw [hrun]
  exact ⟨rfl, hm⟩

theorem Yields.agree_iff {e' : Expr} (h : Yields s e v) (h' : Yields s e' w) :
    Agree s e e' ↔ v.same w = true := by
  constructor
  · rintro ⟨v', w', hv', hw', hsame⟩
    rwa [h.unique hv', h'.unique hw']
  · intro hsame
    exact ⟨v, w, h, h', hsame⟩

theorem Yields.unary {op : Token} {schema : UnarySchema} (hoperand : Yields s operand v)
    (hop : op.kind.isUnary = true) (happly : Operator.unary op schema v = pure w) :
    Yields s (.unary op schema operand) w := by
  refine Evaluates.unary hoperand hop ?_ (ok_ended w)
  rw [happly]
  exact takes_pure w s

theorem Yields.binary {op : Token} {schema : BinarySchema} {u : Value} (hleft : Yields s left v)
    (hright : Yields s right w) (hop : op.kind.isBinary = true) (hschema : schema ≠ .deferred)
    (happly : Operator.binary op schema v w = pure u) : Yields s (.binary left op schema right) u := by
  refine Evaluates.binary hleft hright hop hschema ?_ (ok_ended u)
  rw [happly]
  exact takes_pure u s

end Eval

end DiceScript
