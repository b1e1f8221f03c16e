import DiceScript.Proofs.Evaluation.Nesting

/-!
# Until is while not

A loop ends when its test is true, or goes on while it is. The two styles are each other's negation: a loop that goes on
until a test comes to what the loop does that goes on while the test, with `!` before it, is true. The tests ask for a
collection in different places and words, the operator in the one loop and the loop itself in the other, but the errors
are of one kind.

The test with the operator before it lies one level deeper, so the two loops need different bounds. They are compared by
`Approximates`, once in each direction.
-/

namespace DiceScript.Eval

variable {mode : LoopMode} {name : Name} {body test test' : Expr} {style style' : EndStyle}

theorem agreeUpToReport_trace (e e' : Event) : AgreeUpToReport (trace e) (trace e') := by
  intro m m' hm
  refine .values () ?_
  rw [Machine.state_traced, Machine.state_traced, hm]

theorem agreeUpToReport_push (b : Binding) : AgreeUpToReport (push b) (push b) := by
  intro m m' hm
  rw [push_eq, push_eq]
  refine .values () ?_
  rw [Machine.state_pushed, Machine.state_pushed, hm]

theorem agreeUpToReport_pop : AgreeUpToReport pop pop := by
  intro m m' hm
  have hscope : m.scope = m'.scope := congrArg State.scope hm
  cases hrest : m'.scope with
  | nil =>
    have hfault {m : Machine} (h : m.scope = []) : pop m = .error (.fault .emptyScope) m := by
      unfold pop
      rw [get_bind, h]
      rfl
    rw [hfault (hscope.trans hrest), hfault hrest]
    exact .stops rfl (congrArg State.dice hm)
  | cons b rest =>
    rw [Likeness.pop_eq (hscope.trans hrest), Likeness.pop_eq hrest]
    refine .values b ?_
    rw [Machine.state_traced, Machine.state_traced]
    change { m.state with scope := rest } = { m'.state with scope := rest }
    rw [hm]

def lastRound (eval : Expr → Eval Value) (mode : LoopMode) (name : Name) (style : EndStyle) (test : Expr)
    (v : Value) : Eval Bool := do
  push ⟨name, v⟩
  let t ← eval test
  match t with
  | .collection c => do
    trace (.testing mode name v style t)
    let _ ← pop
    pure (decide ((!c.isEmpty) = decide (style = .untilTrue)))
  | _ => fail (.loopTest mode t.shape)

theorem testRound_eq_bind (eval : Expr → Eval Value) (others : Eval (List Value)) (v : Value) :
    testRound eval mode name style test others v =
      lastRound eval mode name style test v >>= fun last =>
        if last then pure [v] else others >>= fun vs => pure (v :: vs) := by
  unfold testRound lastRound
  simp only [bind_assoc]
  refine bind_congr fun _ => bind_congr fun t => ?_
  cases t with
  | collection c => simp only [bind_assoc, pure_bind, decide_eq_true_eq]
  | _ => rfl

theorem below_lastRound {fuel fuel' : Nat} (hfuel : fuel ≤ fuel') (v : Value) :
    Below (lastRound (eval fuel) mode name style test v) (lastRound (eval fuel') mode name style test v) :=
  (below_refl _).bind fun _ => (below_eval hfuel test).bind fun _ => below_refl _

/-- Loops whose rounds have the same value and end by like tests. The second one may go more rounds. -/
theorem approximates_rounds {fuel fuel' k k' : Nat} (hfuel : fuel ≤ fuel')
    (htest : ∀ v, Approximates (lastRound (eval fuel) mode name style test v)
      (lastRound (eval fuel') mode name style' test' v)) (hk : k ≤ k') :
    Approximates (rounds (eval fuel) mode name body style test k)
      (rounds (eval fuel') mode name body style' test' k') := by
  induction k generalizing k' with
  | zero => exact approximates_outOfFuel _
  | succ k ih =>
    obtain ⟨k', rfl⟩ : ∃ j, k' = j + 1 := ⟨k' - 1, by omega⟩
    have hround (v : Value) :
        Approximates (testRound (eval fuel) mode name style test (rounds (eval fuel) mode name body style test k) v)
          (testRound (eval fuel') mode name style' test' (rounds (eval fuel') mode name body style' test' k') v) := by
      rw [testRound_eq_bind, testRound_eq_bind]
      refine (htest v).bind fun last => ?_
      split
      · exact (agreeUpToReport_pure _).approximates
      · exact (ih (Nat.le_of_succ_le_succ hk)).bind fun _ => (agreeUpToReport_pure _).approximates
    rw [rounds_succ, rounds_succ]
    refine ((agreeUpToReport_eval fuel body).approximates.below (below_eval hfuel body)).bind fun v => ?_
    split
    · exact hround _
    · exact hround v
    · exact (agreeUpToReport_fail rfl).approximates

theorem approximates_loop {fuel fuel' : Nat} (hfuel : fuel ≤ fuel')
    (htest : ∀ v, Approximates (lastRound (eval fuel) mode name style test v)
      (lastRound (eval fuel') mode name style' test' v)) :
    Approximates (eval (fuel + 1) (.loop mode name body style test))
      (eval (fuel' + 1) (.loop mode name body style' test')) :=
  (approximates_rounds hfuel htest hfuel).inScope.bind fun _ => (agreeUpToReport_pure _).approximates

theorem eval_bang {bang : Token} (hbang : bang.kind = .bang) (fuel : Nat) (test : Expr) :
    eval (fuel + 1) (.unary bang .collection test) = eval fuel test >>= Operator.collectionOperand bang := by
  have hunary : bang.kind.isUnary = true := by rw [hbang]; rfl
  change unary (eval fuel) bang .collection test = _
  unfold unary
  rw [if_pos hunary]
  rfl

theorem collectionOperand_bang {bang : Token} (hbang : bang.kind = .bang) (c : Collection) :
    Operator.collectionOperand bang (.collection c) = pure (.collection c.negation) := by
  change (pure c >>= _) = _
  rw [pure_bind, hbang]

/-- The one test ends the loop where the other one does. -/
theorem negation_ends_iff (c : Collection) :
    (!c.isEmpty) = decide (EndStyle.untilTrue = .untilTrue) ↔
      (!c.negation.isEmpty) = decide (EndStyle.whileTrue = .untilTrue) := by
  cases c <;> simp [Collection.negation]

/-- A test that ends a loop when it is true, and its negation, which keeps it going. -/
theorem agreeUpToReport_lastRound {bang : Token} (hbang : bang.kind = .bang) (fuel : Nat) (v : Value) :
    AgreeUpToReport (lastRound (eval fuel) mode name .untilTrue test v)
      (lastRound (eval (fuel + 1)) mode name .whileTrue (.unary bang .collection test) v) := by
  unfold lastRound
  refine (agreeUpToReport_push _).bind fun _ => ?_
  rw [eval_bang hbang, bind_assoc]
  refine (agreeUpToReport_eval fuel test).bind fun t => ?_
  cases t with
  | collection c =>
    rw [collectionOperand_bang hbang, pure_bind]
    refine (agreeUpToReport_trace _ _).bind fun _ => agreeUpToReport_pop.bind fun _ => ?_
    rw [decide_eq_decide.2 (negation_ends_iff c)]
    exact agreeUpToReport_pure _
  | _ =>
    intro m m' hm
    exact .stops rfl (congrArg State.dice hm)

theorem approximates_until {bang : Token} (hbang : bang.kind = .bang) (fuel : Nat) :
    Approximates (eval (fuel + 1) (.loop mode name body .untilTrue test))
      (eval (fuel + 2) (.loop mode name body .whileTrue (.unary bang .collection test))) :=
  approximates_loop (Nat.le_succ fuel) fun v => (agreeUpToReport_lastRound hbang fuel v).approximates

theorem approximates_while {bang : Token} (hbang : bang.kind = .bang) (fuel : Nat) :
    Approximates (eval (fuel + 2) (.loop mode name body .whileTrue (.unary bang .collection test)))
      (eval (fuel + 2) (.loop mode name body .untilTrue test)) := by
  refine approximates_loop (Nat.le_refl (fuel + 1)) fun v => ?_
  exact (agreeUpToReport_lastRound hbang fuel v).symm.approximates.below (below_lastRound (Nat.le_succ fuel) v)

/-- A loop that goes on until its test is true is the loop that goes on while the negation of the test is. From every
state one of the two comes to an end if the other does, whether it yields its last value or accumulates. They then come
to the same value, or to an error of the same kind or the same fault, and leave the same random source and bindings. -/
theorem until_as_while_not (s : State) (mode : LoopMode) (name : Name) (body test : Expr) {bang : Token}
    (hbang : bang.kind = .bang) (ending : Except Stop.Kind Value) (scope : Scope) (dice : Dice) :
    ComesTo (.loop mode name body .untilTrue test) s ending scope dice ↔
      ComesTo (.loop mode name body .whileTrue (.unary bang .collection test)) s ending scope dice := by
  constructor
  · exact .of_approximates (approximates_until hbang)
  · exact .of_approximates (approximates_while hbang)

/-- A die is rolled until it shows more than five, which it does the second time. With a text for a test, both loops
fail after one roll. -/
theorem until_as_while_not_die :
    let bang : Token := Word.at ⟨.bang, .text "!", .null⟩ ⟨1, 5⟩
    let die : Token := Word.at ⟨.die, .text "d", .null⟩ ⟨1, 1⟩
    let less : Token := Word.at ⟨.less, .text "<", .null⟩ ⟨1, 3⟩
    let body : Expr := .unary die .singleton (.literal (.number 6))
    let test : Expr := .binary (.literal (.number 5)) less .singletonCollection (.var (.text "x") .missing)
    let s : State := ⟨[], [], ⟨[3, 5, 7], 0⟩, []⟩
    bang.kind = .bang ∧
      ComesTo (.loop .accumulated (.text "x") body .untilTrue test) s (.ok (.collection [4, 6])) [] ⟨[7], 0⟩ ∧
      ComesTo (.loop .accumulated (.text "x") body .whileTrue (.unary bang .collection test)) s
        (.ok (.collection [4, 6])) [] ⟨[7], 0⟩ ∧
      ComesTo (.loop .last (.text "x") body .untilTrue (.literal (.text "six"))) s
        (.error (.error .needsCollection)) [] ⟨[5, 7], 0⟩ ∧
      ComesTo (.loop .last (.text "x") body .whileTrue (.unary bang .collection (.literal (.text "six")))) s
        (.error (.error .needsCollection)) [] ⟨[5, 7], 0⟩ := by
  intro bang die less body test s
  have hvalue : ComesTo (.loop .accumulated (.text "x") body .untilTrue test) s (.ok (.collection [4, 6])) []
      ⟨[7], 0⟩ := by
    have hleads := leads_self (eval 9 (.loop .accumulated (.text "x") body .untilTrue test) s.machine)
    exact ⟨_, _, evaluates_of_leads hleads (by intro h; cases h), rfl, rfl, rfl⟩
  have herror : ComesTo (.loop .last (.text "x") body .untilTrue (.literal (.text "six"))) s
      (.error (.error .needsCollection)) [] ⟨[5, 7], 0⟩ := by
    have hleads := leads_self (eval 9 (.loop .last (.text "x") body .untilTrue (.literal (.text "six"))) s.machine)
    exact ⟨_, _, evaluates_of_leads hleads (by intro h; cases h), rfl, rfl, rfl⟩
  exact ⟨rfl, hvalue, (until_as_while_not s _ _ _ _ rfl _ _ _).1 hvalue, herror,
    (until_as_while_not s _ _ _ _ rfl _ _ _).1 herror⟩

end DiceScript.Eval
