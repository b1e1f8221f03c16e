import DiceScript.Proofs.Evaluation.Bounds
import DiceScript.Proofs.Evaluation.Mentions

/-!
# What an expression comes to

A machine may trace what it does, and an evaluation has a bound, but neither has any influence on what is computed.
The state of a machine is all of it but the trace. `Evaluates` relates an expression and a state to the outcome and
the state after it, within some bound and whatever is traced; an evaluation that never ends is related to nothing.
Runs of different trees, which trace different events and need different bounds, are compared in these terms.
-/

namespace DiceScript

structure State where
  scope : Scope
  functions : Table Name Expr
  dice : Dice
  reports : List Problem

inductive Stop.Kind where
  | error (kind : RuntimeError.Kind)
  | fault (f : Fault)
  | outOfFuel

def Stop.kind : Stop → Stop.Kind
  | .error e => .error e.kind
  | .fault f => .fault f
  | .outOfFuel => .outOfFuel

def Machine.state (m : Machine) : State := ⟨m.scope, m.functions, m.dice, m.reports⟩

namespace State

def push (s : State) (b : Binding) : State := { s with scope := s.scope.push b }

def machine (s : State) : Machine := ⟨s.scope, s.functions, s.dice, 0, (s.reports.map Note.report).toArray⟩

@[simp] theorem state_machine (s : State) : s.machine.state = s := by
  have hreports : s.machine.reports = s.reports := by
    simp [Machine.reports, machine, List.filterMap_map, Function.comp_def, Note.problem?]
  unfold Machine.state
  rw [hreports]
  rfl

end State

namespace Machine

@[simp] theorem state_traced (m : Machine) (e : Event) : (m.traced e).state = m.state := by
  simp [state]

/-- Nothing is cut off where nothing was left on top. -/
theorem truncated_eq_self {base m : Machine} (h : m.scope = [] ++ base.scope) : m.truncated base.scope.depth = m := by
  rw [List.nil_append] at h
  unfold truncated
  rw [← h, Scope.truncate_self]

def pushed (m : Machine) (b : Binding) : Machine :=
  { m.traced (.pushing b) with scope := (m.traced (.pushing b)).scope.push b }

theorem pushed_scope (m : Machine) (b : Binding) : (m.pushed b).scope = b :: m.scope := by
  simp [pushed, Scope.push]

theorem state_pushed (m : Machine) (b : Binding) : (m.pushed b).state = m.state.push b := by
  have hreports : (m.pushed b).reports = m.reports := reports_traced m (.pushing b)
  unfold state
  rw [hreports]
  simp [pushed, State.push]

end Machine

namespace Eval

open Likeness

variable {α : Type} {e : Expr} {s s' : State} {o : Except Stop Value}

def Leads (result : EStateM.Result Stop Machine α) (o : Except Stop α) (s : State) : Prop :=
  outcome result = o ∧ (machineAfter result).state = s

theorem leads_self (result : EStateM.Result Stop Machine α) :
    Leads result (outcome result) (machineAfter result).state := ⟨rfl, rfl⟩

theorem leads_ok_iff {result : EStateM.Result Stop Machine α} {a : α} :
    Leads result (.ok a) s ↔ ∃ after, result = .ok a after ∧ after.state = s := by
  cases result <;> simp [Leads, outcome, machineAfter]

theorem leads_error_iff {result : EStateM.Result Stop Machine α} {stop : Stop} :
    Leads result (.error stop) s ↔ ∃ after, result = .error stop after ∧ after.state = s := by
  cases result <;> simp [Leads, outcome, machineAfter]

theorem Restores.after {x : Eval α} (hx : Restores x) (m : Machine) : Atop m [] (machineAfter (x m)) := by
  have h := hx m
  unfold Ends at h
  cases hrun : x m with
  | ok a after =>
    rw [hrun] at h
    exact h
  | error stop after =>
    rw [hrun] at h
    exact h

/-- What is traced has no influence on what is computed. -/
theorem eval_untraced (fuel : Nat) (e : Expr) {m m' : Machine} (h : m.state = m'.state) :
    Leads (eval fuel e m) (outcome (eval fuel e m')) (machineAfter (eval fuel e m')).state := by
  obtain ⟨hscope, hfunctions, hdice, hreports⟩ := State.mk.inj h
  have hmachines : (mentioned m.functions e m.reports m'.reports).Machines m m' :=
    machines_mentioned hdice (fun _ _ => by rw [hfunctions]) (fun _ _ => by rw [hscope])
  have hmeets := alike_eval fuel (trees_mentioned .self) m m' hmachines
  have hrest := hmeets.rest trivial fun _ _ _ _ h => h.2.rest
  obtain ⟨new, hnew, hnew'⟩ := hrest.reports
  have hafter := (restores_eval fuel e).after m
  have hafter' := (restores_eval fuel e).after m'
  constructor
  · refine hmeets.outcomes trivial ?_ ?_
    · rintro _ _ _ _ ⟨hv, -⟩
      rw [Value.eq_of_alike hv]
    · intro stop stop' h
      rw [Stop.eq_of_alike h]
  · unfold Machine.state
    rw [hafter.scope, hafter'.scope, hafter.functions, hafter'.functions, hscope, hfunctions, hrest.dice, hnew,
      hnew', hreports]

/-- An expression in a state comes to an outcome and to a state after it: there is a bound within which it does so
on every machine in that state. -/
def Evaluates (e : Expr) (s : State) (o : Except Stop Value) (s' : State) : Prop :=
  o ≠ .error .outOfFuel ∧ ∃ fuel, ∀ m : Machine, m.state = s → Leads (eval fuel e m) o s'

/-- It is enough to look at one machine in the state. -/
theorem evaluates_of_leads {fuel : Nat} {m : Machine} (h : Leads (eval fuel e m) o s')
    (hended : o ≠ .error .outOfFuel) : Evaluates e m.state o s' := by
  refine ⟨hended, fuel, fun m' hm' => ?_⟩
  have hleads := eval_untraced fuel e hm'
  rwa [h.1, h.2] at hleads

theorem Evaluates.exists_leads (h : Evaluates e s o s') {m : Machine} (hm : m.state = s) :
    ∃ fuel, Leads (eval fuel e m) o s' := by
  obtain ⟨-, fuel, hfuel⟩ := h
  exact ⟨fuel, hfuel m hm⟩

/-- Every larger bound does as well. -/
theorem Evaluates.eventually (h : Evaluates e s o s') :
    ∃ bound, ∀ fuel, bound ≤ fuel → ∀ m : Machine, m.state = s → Leads (eval fuel e m) o s' := by
  obtain ⟨hended, bound, hbound⟩ := h
  refine ⟨bound, fun fuel hfuel m hm => ?_⟩
  have hleads := hbound m hm
  rwa [below_eval hfuel e m (by rwa [hleads.1])]

theorem Evaluates.scope_eq (h : Evaluates e s o s') : s'.scope = s.scope := by
  obtain ⟨fuel, hleads⟩ := h.exists_leads s.state_machine
  rw [← hleads.2]
  exact ((restores_eval fuel e).after s.machine).scope

/-- What a host is given for an expression in a state, and the state after it. A machine that traces shows the
expression first, and then it must be one that can be shown. -/
def Returns (e : Expr) (s : State) (result : Except RuntimeError Value) (s' : State) : Prop :=
  ∃ fuel, ∀ m : Machine, m.state = s → m.verbosity = 0 ∨ e.isShowable = true →
    Leads (evaluate fuel e m) (.ok result) s'

def hosted : Except Stop Value → Except Stop (Except RuntimeError Value)
  | .ok v => .ok (.ok v)
  | .error (.error err) => .ok (.error err)
  | .error stop => .error stop

theorem leads_evaluate (fuel : Nat) {m : Machine} (hshown : m.verbosity = 0 ∨ e.isShowable = true) :
    Leads (evaluate fuel e m) (hosted (outcome (eval fuel e m))) (machineAfter (eval fuel e m)).state := by
  have hshow : (1 ≤ m.verbosity && !e.isShowable) = false := by
    rcases hshown with h | h <;> simp [h]
  have hsame := eval_untraced fuel e (m.state_traced (.evaluating e)).symm
  have hscope := ((restores_eval fuel e).after (m.traced (.evaluating e))).scope
  rw [Machine.traced_scope] at hscope
  unfold evaluate Leads
  rw [hsame.1, hsame.2, hshow]
  dsimp only
  generalize eval fuel e (m.traced (.evaluating e)) = run at hscope ⊢
  cases run with
  | ok v after => simp [outcome, machineAfter, hosted]
  | error stop after =>
    have hcut : after.truncated m.scope.depth = after := Machine.truncated_eq_self hscope
    cases stop <;> simp [outcome, machineAfter, hosted, hcut]

theorem hosted_eq_ok_iff {result : Except RuntimeError Value} :
    hosted o = .ok result ↔ o = result.mapError Stop.error := by
  rcases o with (err | f | _) | v <;> cases result <;> simp [hosted, Except.mapError]

theorem leads_evaluate_iff {fuel : Nat} {m : Machine} (hshown : m.verbosity = 0 ∨ e.isShowable = true)
    {result : Except RuntimeError Value} :
    Leads (evaluate fuel e m) (.ok result) s' ↔ Leads (eval fuel e m) (result.mapError Stop.error) s' := by
  have hleads := leads_evaluate fuel hshown
  unfold Leads at hleads ⊢
  rw [hleads.1, hleads.2, hosted_eq_ok_iff]

/-- What is traced has no influence on what a host is given for a tree that can be shown. -/
theorem evaluate_untraced (fuel : Nat) (hshown : e.isShowable = true) {m m' : Machine} (h : m.state = m'.state) :
    Leads (evaluate fuel e m) (outcome (evaluate fuel e m')) (machineAfter (evaluate fuel e m')).state := by
  have hleads (m : Machine) :
      Leads (evaluate fuel e m) (hosted (outcome (eval fuel e m))) (machineAfter (eval fuel e m)).state :=
    leads_evaluate fuel (.inr hshown)
  have hsame := eval_untraced fuel e h
  exact ⟨by rw [(hleads m).1, (hleads m').1, hsame.1], by rw [(hleads m).2, (hleads m').2, hsame.2]⟩

theorem returns_iff {result : Except RuntimeError Value} :
    Returns e s result s' ↔ Evaluates e s (result.mapError Stop.error) s' := by
  constructor
  · rintro ⟨fuel, h⟩
    have hleads := (leads_evaluate_iff (.inl rfl)).1 (h s.machine s.state_machine (.inl rfl))
    have hevaluates := evaluates_of_leads hleads (by cases result <;> intro h <;> cases h)
    rwa [State.state_machine] at hevaluates
  · rintro ⟨-, fuel, h⟩
    exact ⟨fuel, fun m hm hshown => (leads_evaluate_iff hshown).2 (h m hm)⟩

/-! Runs that differ only in what they report about an error. -/

/-- What can be told of an evaluation without its reports: its value or the kind of its stop, the bindings and the
random source that it leaves. -/
def ComesTo (e : Expr) (s : State) (ending : Except Stop.Kind Value) (scope : Scope) (dice : Dice) : Prop :=
  ∃ o s', Evaluates e s o s' ∧ o.mapError Stop.kind = ending ∧ s'.scope = scope ∧ s'.dice = dice

inductive SameUpToReport : EStateM.Result Stop Machine α → EStateM.Result Stop Machine α → Prop
  | values (a : α) {m m' : Machine} (h : m.state = m'.state) : SameUpToReport (.ok a m) (.ok a m')
  | stops {stop stop' : Stop} {m m' : Machine} (hkind : stop.kind = stop'.kind) (hdice : m.dice = m'.dice) :
    SameUpToReport (.error stop m) (.error stop' m')

def AgreeUpToReport (x y : Eval α) : Prop :=
  ∀ m m' : Machine, m.state = m'.state → SameUpToReport (x m) (y m')

section

variable {r r' : EStateM.Result Stop Machine α}

theorem SameUpToReport.symm (h : SameUpToReport r r') : SameUpToReport r' r := by
  cases h with
  | values a h => exact .values a h.symm
  | stops hkind hdice => exact .stops hkind.symm hdice.symm

theorem SameUpToReport.outcome_eq (h : SameUpToReport r r') :
    (outcome r).mapError Stop.kind = (outcome r').mapError Stop.kind := by
  cases h with
  | values a h => rfl
  | stops hkind hdice => exact congrArg Except.error hkind

theorem SameUpToReport.dice_eq (h : SameUpToReport r r') :
    (machineAfter r).state.dice = (machineAfter r').state.dice := by
  cases h with
  | values a h => exact congrArg State.dice h
  | stops hkind hdice => exact hdice

theorem mapError_kind_eq_outOfFuel {o : Except Stop α} (h : o.mapError Stop.kind = .error .outOfFuel) :
    o = .error .outOfFuel := by
  cases o with
  | ok a => cases h
  | error stop =>
    cases stop with
    | outOfFuel => rfl
    | _ => cases h

end

section

variable {β : Type} {x y : Eval α} {f g : α → Eval β}

theorem AgreeUpToReport.symm (h : AgreeUpToReport x y) : AgreeUpToReport y x :=
  fun m m' hm => (h m' m hm.symm).symm

theorem agreeUpToReport_pure (a : α) : AgreeUpToReport (pure a) (pure a) :=
  fun _ _ hm => .values a hm

theorem agreeUpToReport_fail {e e' : RuntimeError} (h : e.kind = e'.kind) :
    AgreeUpToReport (fail e : Eval α) (fail e') :=
  fun _ _ hm => .stops (congrArg Stop.Kind.error h) (congrArg State.dice hm)

theorem AgreeUpToReport.bind (h : AgreeUpToReport x y) (hf : ∀ a, AgreeUpToReport (f a) (g a)) :
    AgreeUpToReport (x >>= f) (y >>= g) := by
  intro m m' hm
  have hsame := h m m' hm
  simp only [Bind.bind, EStateM.bind]
  generalize x m = r at hsame ⊢
  generalize y m' = r' at hsame ⊢
  cases hsame with
  | values a h => exact hf a _ _ h
  | stops hkind hdice => exact .stops hkind hdice

/-- An event that only one of them traces makes no difference. -/
theorem AgreeUpToReport.trace_bind (h : AgreeUpToReport x y) (e : Event) : AgreeUpToReport (trace e >>= fun _ => x) y :=
  fun m m' hm => h (m.traced e) m' ((m.state_traced e).trans hm)

theorem agreeUpToReport_eval (fuel : Nat) (e : Expr) : AgreeUpToReport (eval fuel e) (eval fuel e) := by
  intro m m' hm
  have hleads := eval_untraced fuel e hm
  generalize eval fuel e m' = r' at hleads ⊢
  cases r' with
  | ok v after' =>
    obtain ⟨after, hrun, hafter⟩ := leads_ok_iff.1 hleads
    rw [hrun]
    exact .values v hafter
  | error stop after' =>
    obtain ⟨after, hrun, hafter⟩ := leads_error_iff.1 hleads
    rw [hrun]
    exact .stops rfl (congrArg State.dice hafter)

end

/-! Runs within different bounds, of which one may reach its bound first. -/

/-- Wherever the first computation ends within its bound, the second one ends in the same way but for the report of an
error. -/
def Approximates (x y : Eval α) : Prop :=
  ∀ m m' : Machine, m.state = m'.state → outcome (x m) ≠ .error .outOfFuel → SameUpToReport (x m) (y m')

section

variable {β : Type} {x y z : Eval α} {f g : α → Eval β}

theorem AgreeUpToReport.approximates (h : AgreeUpToReport x y) : Approximates x y :=
  fun m m' hm _ => h m m' hm

theorem approximates_outOfFuel (x : Eval α) : Approximates (throw .outOfFuel) x :=
  fun _ _ _ h => absurd rfl h

theorem SameUpToReport.ended {r r' : EStateM.Result Stop Machine α} (h : SameUpToReport r r')
    (hended : outcome r ≠ .error .outOfFuel) : outcome r' ≠ .error .outOfFuel := by
  intro hstop
  have houtcome := h.outcome_eq
  rw [hstop] at houtcome
  exact hended (mapError_kind_eq_outOfFuel houtcome)

/-- A larger bound on the second computation does as well. -/
theorem Approximates.below (h : Approximates x y) (hbelow : Below y z) : Approximates x z := by
  intro m m' hm hended
  have hsame := h m m' hm hended
  rwa [← hbelow m' (hsame.ended hended)] at hsame

theorem Approximates.bind (h : Approximates x y) (hf : ∀ a, Approximates (f a) (g a)) :
    Approximates (x >>= f) (y >>= g) := by
  intro m m' hm hended
  cases hrun : x m with
  | ok a after =>
    have hsame := h m m' hm (by rw [hrun]; intro hstop; cases hstop)
    rw [hrun] at hsame
    rw [bind_of_ok hrun] at hended ⊢
    generalize hrun' : y m' = r' at hsame
    cases hsame with
    | values a hstate =>
      rw [bind_of_ok hrun']
      exact hf a _ _ hstate hended
  | error stop after =>
    have hfinished : outcome (x m) ≠ .error .outOfFuel := by
      rw [hrun]
      intro hstop
      cases hstop
      rw [bind_of_error hrun] at hended
      exact hended rfl
    have hsame := h m m' hm hfinished
    rw [hrun] at hsame
    rw [bind_of_error hrun]
    generalize hrun' : y m' = r' at hsame
    cases hsame with
    | stops hkind hdice =>
      rw [bind_of_error hrun']
      exact .stops hkind hdice

theorem Approximates.inScope (h : Approximates x y) : Approximates (inScope x) (inScope y) := by
  intro m m' hm hended
  rw [outcome_inScope] at hended
  have hsame := h m m' hm hended
  have hscope : m.scope = m'.scope := congrArg State.scope hm
  unfold Eval.inScope
  generalize x m = r at hsame ⊢
  generalize y m' = r' at hsame ⊢
  cases hsame with
  | @values a after after' hstate =>
    apply SameUpToReport.values
    change { after.state with scope := after.state.scope.truncate m.scope.depth } =
      { after'.state with scope := after'.state.scope.truncate m'.scope.depth }
    rw [hstate, hscope]
  | stops hkind hdice => exact .stops hkind hdice

end

theorem ComesTo.of_approximates {e' : Expr} {more more' : Nat}
    (h : ∀ fuel, Approximates (eval (fuel + more) e) (eval (fuel + more') e')) {ending : Except Stop.Kind Value}
    {scope : Scope} {dice : Dice} (hcomes : ComesTo e s ending scope dice) : ComesTo e' s ending scope dice := by
  obtain ⟨o, t, hevaluates, rfl, rfl, rfl⟩ := hcomes
  obtain ⟨bound, hbound⟩ := hevaluates.eventually
  have hleads := hbound (bound + more) (Nat.le_add_right _ _) s.machine s.state_machine
  have hended : outcome (eval (bound + more) e s.machine) ≠ .error .outOfFuel := by
    rw [hleads.1]
    exact hevaluates.1
  have hsame := h bound s.machine s.machine rfl hended
  have houtcome := hsame.outcome_eq
  have hdice := hsame.dice_eq
  rw [hleads.1] at houtcome
  rw [hleads.2] at hdice
  have hevaluates' := evaluates_of_leads (leads_self _) (hsame.ended hended)
  rw [State.state_machine] at hevaluates'
  exact ⟨_, _, hevaluates', houtcome.symm, hevaluates'.scope_eq.trans hevaluates.scope_eq.symm, hdice.symm⟩

/-- Trees whose evaluations agree within bounds a fixed distance apart come to the same. -/
theorem comesTo_iff_of_agree {e' : Expr} (more more' : Nat)
    (h : ∀ fuel, AgreeUpToReport (eval (fuel + more) e) (eval (fuel + more') e')) {ending : Except Stop.Kind Value}
    {scope : Scope} {dice : Dice} : ComesTo e s ending scope dice ↔ ComesTo e' s ending scope dice :=
  ⟨.of_approximates fun fuel => (h fuel).approximates, .of_approximates fun fuel => (h fuel).symm.approximates⟩

end Eval

end DiceScript
