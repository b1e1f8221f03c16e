import DiceScript.Proofs.Evaluation.Nesting

/-!
# Loops, round by round

A loop evaluates its body, then its test with the loop variable bound to the value of the round, and goes on until
the test says so. `Rounds` is what a loop that ends has gone through, without bound and trace. A loop that accumulates
and one that repeats go through the same rounds. They differ in what they make of the values, and in that the values
of the former must be collections.
-/

namespace DiceScript

def EndStyle.Met : EndStyle → Collection → Prop
  | .untilTrue, c => c ≠ []
  | .whileTrue, c => c = []

theorem EndStyle.met_iff (style : EndStyle) (c : Collection) :
    (!c.isEmpty) = decide (style = .untilTrue) ↔ style.Met c := by
  cases style <;> cases c <;> simp [Met]

namespace Eval

/-- One round of a loop. The body is evaluated among the bindings outside of the loop, and the test with the value of
the round bound on top of them. -/
inductive Round (name : Name) (body test : Expr) (s : State) (v : Value) (c : Collection) (s' : State) : Prop
  | intro (middle : State) (hvalue : Evaluates body s (.ok v) middle) (hmiddle : middle.scope = s.scope)
    (htest : Evaluates test (middle.push ⟨name, v⟩) (.ok (.collection c)) (s'.push ⟨name, v⟩))
    (hafter : s'.scope = s.scope)

/-- The rounds of a loop up to the first whose test ends it, with their values. -/
inductive Rounds (name : Name) (body : Expr) (style : EndStyle) (test : Expr) : State → List Value → State → Prop
  | last {s s' : State} {v : Value} {c : Collection} (hround : Round name body test s v c s')
    (hmet : style.Met c) : Rounds name body style test s [v] s'
  | more {s s' s'' : State} {v : Value} {vs : List Value} {c : Collection}
    (hround : Round name body test s v c s') (hmet : ¬style.Met c)
    (hothers : Rounds name body style test s' vs s'') : Rounds name body style test s (v :: vs) s''

def Suits (mode : LoopMode) (vs : List Value) : Prop :=
  mode = .accumulated → ∀ v ∈ vs, ∃ c, v = .collection c

variable {mode : LoopMode} {name : Name} {body test : Expr} {style : EndStyle} {fuel : Nat}

/-- The machine after the test of a round, without the binding of the round. -/
def afterRound (mode : LoopMode) (name : Name) (style : EndStyle) (v : Value) (c : Collection) (scope : Scope)
    (m : Machine) : Machine :=
  Machine.traced { m.traced (.testing mode name v style (.collection c)) with scope := scope } (.popping name)

theorem state_afterRound (v : Value) (c : Collection) (scope : Scope) (m : Machine) :
    (afterRound mode name style v c scope m).state = { m.state with scope := scope } := by
  unfold afterRound
  rw [Machine.state_traced]
  change { (m.traced _).state with scope := scope } = _
  rw [Machine.state_traced]

/-- What the test decides. -/
theorem testRound_eq {eval : Expr → Eval Value} {others : Eval (List Value)} {v : Value} {c : Collection}
    {m after : Machine} (htest : eval test (m.pushed ⟨name, v⟩) = .ok (.collection c) after)
    (hscope : after.scope = ⟨name, v⟩ :: m.scope) :
    testRound eval mode name style test others v m =
      (if (!c.isEmpty) = decide (style = .untilTrue) then pure [v] else others >>= fun vs => pure (v :: vs))
        (afterRound mode name style v c m.scope after) := by
  have hpop : pop (after.traced (.testing mode name v style (.collection c))) =
      .ok ⟨name, v⟩ (afterRound mode name style v c m.scope after) :=
    Likeness.pop_eq (by rw [Machine.traced_scope, hscope])
  have htrace : trace (.testing mode name v style (.collection c)) after =
    .ok () (after.traced (.testing mode name v style (.collection c))) := rfl
  unfold testRound
  rw [bind_of_ok (push_eq _ _), bind_of_ok htest]
  dsimp only
  rw [bind_of_ok htrace, bind_of_ok hpop]

/-- A value that suits the loop goes to the test. -/
theorem rounds_succ_eq {eval : Expr → Eval Value} {v : Value} {m after : Machine} (k : Nat)
    (hvalue : eval body m = .ok v after) (hsuits : Suits mode [v]) :
    rounds eval mode name body style test (k + 1) m =
      testRound eval mode name style test (rounds eval mode name body style test k) v after := by
  rw [rounds_succ, bind_of_ok hvalue]
  cases mode with
  | last => rfl
  | accumulated =>
    obtain ⟨c, rfl⟩ := hsuits rfl v List.mem_cons_self
    rfl

theorem suits_cons {v : Value} {vs : List Value} : Suits mode (v :: vs) ↔ Suits mode [v] ∧ Suits mode vs := by
  simp only [Suits, List.forall_mem_cons, List.not_mem_nil, IsEmpty.forall_iff, implies_true, and_true]
  exact forall_and

theorem Rounds.scope_eq {s s' : State} {vs : List Value} (h : Rounds name body style test s vs s') :
    s'.scope = s.scope := by
  induction h with
  | last hround hmet =>
    obtain ⟨middle, -, -, -, hafter⟩ := hround
    exact hafter
  | more hround hmet hothers ih =>
    obtain ⟨middle, -, -, -, hafter⟩ := hround
    exact ih.trans hafter

/-! A run of the loop goes through rounds. -/

theorem scope_of_test {v w : Value} {m after : Machine} (htest : eval fuel test (m.pushed ⟨name, v⟩) = .ok w after) :
    after.scope = ⟨name, v⟩ :: m.scope := by
  rw [((restores_eval fuel test (m.pushed ⟨name, v⟩)).of_ok htest).scope, List.nil_append, m.pushed_scope]

theorem round_of_run {v : Value} {c : Collection} {m middle after : Machine}
    (hvalue : eval fuel body m = .ok v middle)
    (htest : eval fuel test (middle.pushed ⟨name, v⟩) = .ok (.collection c) after) :
    Round name body test m.state v c (afterRound mode name style v c middle.scope after).state := by
  have hmiddle : middle.scope = m.scope := ((restores_eval fuel body m).of_ok hvalue).scope
  have hafter := scope_of_test htest
  have hbody : Evaluates body m.state (.ok v) middle.state :=
    evaluates_of_leads (leads_ok_iff.2 ⟨middle, hvalue, rfl⟩) (by intro h; cases h)
  have hended : Evaluates test (middle.pushed ⟨name, v⟩).state (.ok (.collection c)) after.state :=
    evaluates_of_leads (leads_ok_iff.2 ⟨after, htest, rfl⟩) (by intro h; cases h)
  rw [state_afterRound]
  refine .intro middle.state hbody hmiddle ?_ hmiddle
  have hpushed : State.push { after.state with scope := middle.scope } ⟨name, v⟩ = after.state := by
    change State.mk (⟨name, v⟩ :: middle.scope) after.functions after.dice after.reports = after.state
    rw [← hafter]
    rfl
  rwa [hpushed, ← Machine.state_pushed]

/-- What the rounds after a value are, from what the others are. -/
theorem ends_testRound {others : Eval (List Value)} {v : Value} {m middle : Machine}
    (hothers : ∀ m, Ends others m
      (fun vs after => Rounds name body style test m.state vs after.state ∧ Suits mode vs) fun _ _ => True)
    (hvalue : eval fuel body m = .ok v middle) (hsuits : Suits mode [v]) :
    Ends (testRound (eval fuel) mode name style test others v) middle
      (fun vs after => Rounds name body style test m.state vs after.state ∧ Suits mode vs) fun _ _ => True := by
  cases hrun : eval fuel test (middle.pushed ⟨name, v⟩) with
  | error stop after =>
    have htested : testRound (eval fuel) mode name style test others v middle = .error stop after := by
      unfold testRound
      rw [bind_of_ok (push_eq _ _), bind_of_error hrun]
    unfold Ends
    rw [htested]
    trivial
  | ok t after =>
    cases t with
    | collection c =>
      have hround : Round name body test m.state v c (afterRound mode name style v c middle.scope after).state :=
        round_of_run hvalue hrun
      unfold Ends
      rw [testRound_eq hrun (scope_of_test hrun)]
      change Ends _ _ _ _
      split
      case isTrue hmet =>
        rw [ends_pure]
        exact ⟨.last hround ((style.met_iff c).1 hmet), hsuits⟩
      case isFalse hmet =>
        rw [ends_bind]
        refine (hothers _).mono (fun vs last h => ?_) fun _ _ h => h
        exact ⟨.more hround (mt (style.met_iff c).2 hmet) h.1, suits_cons.2 ⟨hsuits, h.2⟩⟩
    | _ =>
      unfold Ends testRound
      rw [bind_of_ok (push_eq _ _), bind_of_ok hrun]
      trivial

theorem ends_rounds (fuel k : Nat) (m : Machine) :
    Ends (rounds (eval fuel) mode name body style test k) m
      (fun vs after => Rounds name body style test m.state vs after.state ∧ Suits mode vs) fun _ _ => True := by
  induction k generalizing m with
  | zero => exact trivial
  | succ k ih =>
    rw [rounds_succ, ends_bind]
    refine (ends_self (eval fuel body) m).mono (fun v middle hvalue => ?_) fun _ _ _ => trivial
    split
    · refine ends_testRound ih hvalue ?_
      simp [Suits]
    · refine ends_testRound ih hvalue ?_
      simp [Suits]
    · exact trivial

/-! Rounds are gone through by every run with bounds that are large enough. -/

theorem Round.eventually {v : Value} {c : Collection} {s s' : State} (h : Round name body test s v c s')
    (mode : LoopMode) (style : EndStyle) :
    ∃ bound, ∀ fuel, bound ≤ fuel → ∀ m : Machine, m.state = s → ∃ middle after,
      eval fuel body m = .ok v middle ∧ eval fuel test (middle.pushed ⟨name, v⟩) = .ok (.collection c) after ∧
        (afterRound mode name style v c middle.scope after).state = s' := by
  obtain ⟨t, hvalue, ht, htest, hs'⟩ := h
  obtain ⟨bound₁, hbound₁⟩ := hvalue.eventually
  obtain ⟨bound₂, hbound₂⟩ := htest.eventually
  refine ⟨max bound₁ bound₂, fun fuel hfuel m hm => ?_⟩
  obtain ⟨middle, hmiddle, rfl⟩ := leads_ok_iff.1 (hbound₁ fuel (by omega) m hm)
  obtain ⟨after, hafter, hstate⟩ := leads_ok_iff.1
    (hbound₂ fuel (by omega) (middle.pushed ⟨name, v⟩) (middle.state_pushed ⟨name, v⟩))
  refine ⟨middle, after, hmiddle, hafter, ?_⟩
  have hscope : middle.scope = s'.scope := ht.trans hs'.symm
  rw [state_afterRound, hstate, hscope]
  rfl

theorem Rounds.eventually {vs : List Value} {s s' : State} (h : Rounds name body style test s vs s')
    (hsuits : Suits mode vs) :
    ∃ bound, ∀ fuel k, bound ≤ fuel → bound ≤ k → ∀ m : Machine, m.state = s →
      Leads (rounds (eval fuel) mode name body style test k m) (.ok vs) s' := by
  induction h with
  | @last _ _ v c hround hmet =>
    obtain ⟨bound, hbound⟩ := hround.eventually mode style
    refine ⟨bound + 1, fun fuel k hfuel hk m hm => ?_⟩
    obtain ⟨k, rfl⟩ : ∃ k', k = k' + 1 := ⟨k - 1, by omega⟩
    obtain ⟨middle, after, hvalue, htest, hstate⟩ := hbound fuel (by omega) m hm
    rw [rounds_succ_eq k hvalue hsuits, testRound_eq htest (scope_of_test htest), if_pos ((style.met_iff c).2 hmet)]
    exact leads_ok_iff.2 ⟨_, rfl, hstate⟩
  | @more _ _ _ v vs c hround hmet hothers ih =>
    obtain ⟨hv, hvs⟩ := suits_cons.1 hsuits
    obtain ⟨bound₁, hbound₁⟩ := hround.eventually mode style
    obtain ⟨bound₂, hbound₂⟩ := ih hvs
    refine ⟨max bound₁ bound₂ + 1, fun fuel k hfuel hk m hm => ?_⟩
    obtain ⟨k, rfl⟩ : ∃ k', k = k' + 1 := ⟨k - 1, by omega⟩
    obtain ⟨middle, after, hvalue, htest, hstate⟩ := hbound₁ fuel (by omega) m hm
    obtain ⟨last, hlast, hended⟩ := leads_ok_iff.1 (hbound₂ fuel k (by omega) (by omega) _ hstate)
    rw [rounds_succ_eq k hvalue hv, testRound_eq htest (scope_of_test htest),
      if_neg (mt (style.met_iff c).1 hmet), bind_of_ok hlast]
    exact leads_ok_iff.2 ⟨last, rfl, hended⟩

/-- A loop has a value where there are rounds for it, and it is made of theirs. -/
theorem evaluates_loop_iff {s s' : State} {w : Value} :
    Evaluates (.loop mode name body style test) s (.ok w) s' ↔
      ∃ vs, Rounds name body style test s vs s' ∧ Suits mode vs ∧ w = loopValue mode vs := by
  constructor
  · intro h
    obtain ⟨fuel, hleads⟩ := h.exists_leads s.state_machine
    obtain ⟨after, hrun, rfl⟩ := leads_ok_iff.1 hleads
    cases fuel with
    | zero => cases hrun
    | succ fuel =>
      have hends : Ends (loop (eval fuel) mode name body style test fuel) s.machine
          (fun w after => ∃ vs, Rounds name body style test s vs after.state ∧ Suits mode vs ∧
            w = loopValue mode vs) fun _ _ => True := by
        unfold loop
        rw [ends_bind, ends_inScope]
        refine (ends_rounds fuel fuel s.machine).mono (fun vs last h => ?_) fun _ _ h => h
        rw [State.state_machine] at h
        rw [ends_pure, Machine.truncated_eq_self h.1.scope_eq]
        exact ⟨vs, h.1, h.2, rfl⟩
      exact hends.of_ok hrun
  · rintro ⟨vs, hrounds, hsuits, rfl⟩
    obtain ⟨bound, hbound⟩ := hrounds.eventually hsuits
    have hleads := hbound bound bound (Nat.le_refl _) (Nat.le_refl _) s.machine s.state_machine
    obtain ⟨after, hrun, hafter⟩ := leads_ok_iff.1 hleads
    have hscope : after.scope = [] ++ s.machine.scope := by
      rw [List.nil_append]
      exact (congrArg State.scope hafter).trans hrounds.scope_eq
    have hloop : eval (bound + 1) (.loop mode name body style test) s.machine = .ok (loopValue mode vs) after := by
      change loop (eval bound) mode name body style test bound s.machine = _
      unfold loop
      rw [bind_of_ok (inScope_of_ok hrun), Machine.truncated_eq_self hscope]
      rfl
    have hevaluates := evaluates_of_leads (leads_ok_iff.2 ⟨after, hloop, hafter⟩) (by intro h; cases h)
    rwa [State.state_machine] at hevaluates

theorem suits_accumulated_iff {vs : List Value} :
    Suits .accumulated vs ↔ ∃ cs : List Collection, vs = cs.map .collection := by
  constructor
  · intro h
    induction vs with
    | nil => exact ⟨[], rfl⟩
    | cons v vs ih =>
      obtain ⟨hv, hvs⟩ := suits_cons.1 h
      obtain ⟨c, rfl⟩ := hv rfl v List.mem_cons_self
      obtain ⟨cs, rfl⟩ := ih hvs
      exact ⟨c :: cs, rfl⟩
  · rintro ⟨cs, rfl⟩ - v hv
    obtain ⟨c, -, rfl⟩ := List.mem_map.1 hv
    exact ⟨c, rfl⟩

theorem Rounds.ne_nil {s s' : State} {vs : List Value} (h : Rounds name body style test s vs s') : vs ≠ [] := by
  cases h <;> exact List.cons_ne_nil _ _

theorem loopValue_accumulated (cs : List Collection) :
    loopValue .accumulated (cs.map .collection) = .collection cs.flatten := by
  simp [loopValue, List.flatMap_map, items, List.flatMap_id']

theorem loopValue_last {cs : List Collection} {last : Collection} (h : cs.getLast? = some last) :
    loopValue .last (cs.map .collection) = .collection last := by
  simp [loopValue, List.getLastD_eq_getLast?, h]

/-- A loop that accumulates and one that repeats describe the same run. The former returns a value if and only if
there are rounds of the loop with a collection each, up to the first whose test says so, and the value is these
collections put together. The latter, from the same state, then returns the collection of the last round, and leaves
the same random source and all else the same. -/
theorem accumulation_rounds (s s' : State) (name : Name) (body : Expr) (style : EndStyle) (test : Expr) (w : Value) :
    Returns (.loop .accumulated name body style test) s (.ok w) s' ↔
      ∃ (cs : List Collection) (last : Collection), cs.getLast? = some last ∧ w = .collection cs.flatten ∧
        Rounds name body style test s (cs.map .collection) s' ∧
        Returns (.loop .last name body style test) s (.ok (.collection last)) s' := by
  simp only [returns_iff, Except.mapError, evaluates_loop_iff]
  constructor
  · rintro ⟨vs, hrounds, hsuits, rfl⟩
    obtain ⟨cs, rfl⟩ := suits_accumulated_iff.1 hsuits
    have hlast : cs.getLast? = some (cs.getLast (by simpa using hrounds.ne_nil)) := List.getLast?_eq_some_getLast _
    have hsuits' : Suits .last (cs.map Value.collection) := by intro h; cases h
    exact ⟨cs, _, hlast, loopValue_accumulated cs, hrounds, _, hrounds, hsuits', (loopValue_last hlast).symm⟩
  · rintro ⟨cs, last, -, rfl, hrounds, -⟩
    exact ⟨_, hrounds, suits_accumulated_iff.2 ⟨cs, rfl⟩, (loopValue_accumulated cs).symm⟩

/-- A die is rolled until it shows more than five, which it does the second time. -/
example :
    let die : Token := Word.at ⟨.die, .text "d", .null⟩ ⟨1, 1⟩
    let less : Token := Word.at ⟨.less, .text "<", .null⟩ ⟨1, 3⟩
    let body : Expr := .unary die .singleton (.literal (.number 6))
    let test : Expr := .binary (.literal (.number 5)) less .singletonCollection (.var (.text "x") .missing)
    let m : Machine := ⟨[], [], ⟨[3, 5, 7], 0⟩, 0, #[]⟩
    outcome (eval 9 (.loop .accumulated (.text "x") body .untilTrue test) m) = .ok (.collection [4, 6]) ∧
      outcome (eval 9 (.loop .last (.text "x") body .untilTrue test) m) = .ok (.collection [6]) :=
  ⟨rfl, rfl⟩

end Eval

end DiceScript
