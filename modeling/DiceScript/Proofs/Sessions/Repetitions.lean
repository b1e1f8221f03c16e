import DiceScript.Proofs.Evaluation.Agreement
import DiceScript.Proofs.Sessions.Reports

/-!
# Evaluating a number of times

A session writes one value after the other until the count is reached or an evaluation has none. What it writes
is said by `Eval.values`, apart from any session. A script that was compiled is evaluated without a fault, and
whatever is reported on the way can be shown.
-/

namespace DiceScript

/-- The values of an expression that is evaluated a number of times, up to the first time that there is none,
and how that time ended. -/
def Eval.values (fuel : Nat) (e : Expr) :
    Nat → Machine → List Value × EStateM.Result Stop Machine (Option RuntimeError)
  | 0, m => ([], .ok none m)
  | count + 1, m =>
    match evaluate fuel e m with
    | .ok (.ok v) m => ((values fuel e count m).1.cons v, (values fuel e count m).2)
    | .ok (.error err) m => ([], .ok (some err) m)
    | .error stop m => ([], .error stop m)

def valueLines (vs : List Value) : String :=
  String.join (vs.map fun v => v.display ++ "\n")

def Session.wrote (s : Session) (vs : List Value) (m : Machine) : Session :=
  { s with machine := m, output := s.output ++ valueLines vs }

/-- Writing values ends as their evaluation does. -/
def Session.ofValues (s : Session) :
    List Value × EStateM.Result Stop Machine (Option RuntimeError) → EStateM.Result Stop Session Bool
  | (vs, .ok err m) => .ok err.isNone (s.wrote vs m)
  | (vs, .error stop m) => .error stop (s.wrote vs m)

theorem Session.wrote_nil (s : Session) (m : Machine) : s.wrote [] m = { s with machine := m } := by
  simp [wrote, valueLines]

theorem Session.ofValues_cons (s : Session) (v : Value) (m : Machine)
    (found : List Value × EStateM.Result Stop Machine (Option RuntimeError)) :
    (s.wrote [v] m).ofValues found = s.ofValues (found.1.cons v, found.2) := by
  obtain ⟨vs, last⟩ := found
  cases last <;> simp [ofValues, wrote, valueLines, String.append_assoc]

theorem Shell.evaluateAndWrite_eq (fuel : Nat) (e : Expr) (count : Nat) (s : Session) :
    evaluateAndWrite fuel e count s = s.ofValues (Eval.values fuel e count s.machine) := by
  induction count generalizing s with
  | zero =>
    rw [Eval.values, Session.ofValues, Session.wrote_nil]
    rfl
  | succ count ih =>
    simp only [evaluateAndWrite, Eval.values, bind, EStateM.bind, onMachine]
    cases Eval.evaluate fuel e s.machine with
    | error stop m => simp only [Session.ofValues, Session.wrote_nil]
    | ok result m =>
      cases result with
      | error err =>
        simp only [Session.ofValues, Session.wrote_nil]
        rfl
      | ok v =>
        have hwrite : write v.display { s with machine := m } = .ok () (s.wrote [v] m) := by
          simp only [Session.wrote, valueLines, List.map_cons, List.map_nil, String.join_cons, String.join_nil,
            String.append_empty]
          rfl
        exact (bind_of_ok hwrite).trans ((ih _).trans (s.ofValues_cons v m _))

theorem Shell.evaluateAndWrite_initial (fuel : Nat) (e : Expr) (count : Nat) (m : Machine) (input : List String) :
    evaluateAndWrite fuel e count (.initial m input) =
      Session.ofValues (.initial m input) (Eval.values fuel e count m) :=
  evaluateAndWrite_eq fuel e count (.initial m input)

theorem Session.wrote_initial_output (m after : Machine) (input : List String) (vs : List Value) :
    ((Session.initial m input).wrote vs after).output = valueLines vs := by
  simp [wrote, initial]

namespace Eval

/-- An expression of a script on a machine whose functions are those of scripts, with nothing reported that cannot
be shown. -/
structure Ready (e : Expr) (m : Machine) : Prop where
  scripted : e.isScripted = true
  callable : ∀ entry ∈ m.functions, entry.2.isCallable = true
  placed : ∀ op, Blameable m.functions e op → op.IsPlaced
  shown : ∀ p ∈ m.reports, p.IsShown

theorem Ready.evaluate {e : Expr} {m : Machine} (h : Ready e m) (fuel : Nat) :
    Ends (evaluate fuel e) m (fun _ after => Ready e after)
      (fun stop after => stop = .outOfFuel ∧ ∀ p ∈ after.reports, p.IsShown) := by
  refine ((evaluate_reports fuel e m).and (ends_evaluate_orderly h.callable fuel h.scripted)).mono ?_ ?_
  · rintro result after ⟨⟨hfunctions, hreports⟩, -⟩
    have hshown : ∀ p ∈ after.reports, p.IsShown := by
      cases result with
      | ok v =>
        rw [hreports]
        exact h.shown
      | error err =>
        rw [hreports.1, List.forall_mem_append, List.forall_mem_singleton]
        exact ⟨h.shown, Problem.isShown_runtime fun op hop => h.placed op (hreports.2 op hop)⟩
    exact ⟨h.scripted, by rw [hfunctions]; exact h.callable, by rw [hfunctions]; exact h.placed, hshown⟩
  · rintro stop after ⟨⟨-, hreports⟩, hstop⟩
    rw [hreports]
    exact ⟨hstop, h.shown⟩

/-- Nothing but its bound breaks off the evaluation of a script, and all reports can be shown. -/
theorem Ready.values {e : Expr} {m : Machine} (h : Ready e m) (fuel count : Nat) :
    (∀ p ∈ (machineAfter (values fuel e count m).2).reports, p.IsShown) ∧
      ∀ stop after, (values fuel e count m).2 = .error stop after → stop = .outOfFuel := by
  induction count generalizing m with
  | zero => exact ⟨h.shown, fun _ _ hstop => by cases hstop⟩
  | succ count ih =>
    have hends := h.evaluate fuel
    unfold Ends at hends
    simp only [Eval.values]
    cases hrun : Eval.evaluate fuel e m with
    | error stop after =>
      rw [hrun] at hends
      refine ⟨hends.2, fun _ _ hstop => ?_⟩
      cases hstop
      exact hends.1
    | ok result after =>
      rw [hrun] at hends
      cases result with
      | ok v => exact ih hends
      | error err => exact ⟨hends.shown, fun _ _ hstop => by cases hstop⟩

end Eval

/-- Arguments are bound, or they are malformed and nothing but a report comes of them. -/
theorem Shell.pushArguments_settled (arguments : List String) (s : Session) :
    let text := String.intercalate " " arguments
    (∃ found, bindings? text = some found ∧
      pushArguments arguments s = .ok true { s with machine := Eval.pushedAll s.machine found }) ∨
    ∃ p, bindings? text = none ∧ p.IsShown ∧
      pushArguments arguments s = .ok false { s with machine := s.machine.reported p } := by
  intro text
  have hsettled := Eval.compileBindings_settled text s.machine
  have honMachine : onMachine (Eval.compileBindings text) s =
      (Eval.compileBindings text s.machine).rec (fun found m => .ok found { s with machine := m })
        (fun stop m => .error stop { s with machine := m }) := by
    simp only [onMachine]
    cases Eval.compileBindings text s.machine <;> rfl
  generalize Eval.compileBindings text s.machine = compiled at hsettled honMachine
  cases hsettled with
  | @bindings found h =>
    have hpush : onMachine (Eval.pushAll found) s = .ok () { s with machine := Eval.pushedAll s.machine found } := by
      simp only [onMachine, Eval.pushAll_eq]
    exact .inl ⟨found, h, (bind_of_ok honMachine).trans (bind_of_ok hpush)⟩
  | @malformed p h hshown => exact .inr ⟨p, h, hshown, bind_of_ok honMachine⟩

end DiceScript
