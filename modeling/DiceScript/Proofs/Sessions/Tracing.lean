import DiceScript.Proofs.Evaluation.Composition
import DiceScript.Proofs.Sessions.Drivers

/-!
# Tracing changes nothing

A machine tells of its work as its verbosity asks for, between the steps of that work. Whatever it tells, a text that is
run on it has the same values or the same problem, and leaves the same bindings, functions, random source and reports.
For a single evaluation this is a comparison of two runs, rule by rule. Here it is carried over to a text: to its
functions, of which entering them tells as well, and to the repetitions.
-/

namespace DiceScript.Eval

variable {α β : Type}

/-- From machines in one state a computation comes to one outcome, and to machines in one state. -/
def Untraced (x : Eval α) : Prop :=
  ∀ m m' : Machine, m.state = m'.state → Leads (x m) (outcome (x m')) (machineAfter (x m')).state

theorem untraced_pure (a : α) : Untraced (pure a) :=
  fun _ _ h => ⟨rfl, h⟩

theorem Untraced.bind {x : Eval α} {f : α → Eval β} (hx : Untraced x) (hf : ∀ a, Untraced (f a)) :
    Untraced (x >>= f) := by
  intro m m' hm
  have hleads := hx m m' hm
  cases hrun : x m' with
  | ok a after' =>
    rw [hrun] at hleads
    obtain ⟨after, hrun', hafter⟩ := leads_ok_iff.1 hleads
    rw [bind_of_ok hrun, bind_of_ok hrun']
    exact hf a after after' hafter
  | error stop after' =>
    rw [hrun] at hleads
    obtain ⟨after, hrun', hafter⟩ := leads_error_iff.1 hleads
    rw [bind_of_error hrun, bind_of_error hrun']
    exact ⟨rfl, hafter⟩

theorem untraced_repeatedly (fuel : Nat) {e : Expr} (hshown : e.isShowable = true) (count : Nat) :
    Untraced (repeatedly fuel e count) := by
  induction count with
  | zero => exact untraced_pure _
  | succ count ih =>
    refine Untraced.bind (fun m m' hm => evaluate_untraced fuel hshown hm) fun result => ?_
    cases result with
    | error err => exact untraced_pure _
    | ok v =>
      refine ih.bind fun results => ?_
      cases results <;> exact untraced_pure _

theorem untraced_runScript (fuel : Nat) (source : String) (repetitions : Nat) :
    Untraced (runScript fuel source repetitions) := by
  intro m m' hm
  cases hscript : compiled? source with
  | none =>
    obtain ⟨p, -, hrun, -⟩ := Shell.run_of_problem hscript fuel
    rw [hrun, hrun]
    refine ⟨rfl, ?_⟩
    change (m.reported p).state = (m'.reported p).state
    rw [m.state_reported, m'.state_reported, hm]
  | some script =>
    obtain ⟨tokens, hscan, hread⟩ := compiled?_eq_some_iff.1 hscript
    have hshown := isShowable_of_ofTokens hscan script hread
    have hentered : (enteredAll m script.functions).state = (enteredAll m' script.functions).state := by
      have hfunctions : m.functions = m'.functions := congrArg State.functions hm
      rw [state_enteredAll, state_enteredAll, hm, hfunctions]
    rw [runScript_of_script hscript, runScript_of_script hscript]
    exact (untraced_repeatedly fuel hshown repetitions).bind (fun _ => untraced_pure _) _ _ hentered

/-- Whatever text is run, however often and on whatever machine: how verbose the machine is, and what it has told
before, makes no difference to the values or to the problem that the run ends with, nor to the bindings, the functions,
the random source and the reports that it leaves. -/
theorem tracing_changes_nothing (fuel : Nat) (source : String) (repetitions : Nat) {m m' : Machine}
    (h : m.state = m'.state) :
    let run := runScript fuel source repetitions m
    let run' := runScript fuel source repetitions m'
    outcome run = outcome run' ∧
      (machineAfter run).scope = (machineAfter run').scope ∧
      (machineAfter run).functions = (machineAfter run').functions ∧
      (machineAfter run).dice = (machineAfter run').dice ∧
      (machineAfter run).reports = (machineAfter run').reports := by
  intro run run'
  obtain ⟨houtcome, hstate⟩ := untraced_runScript fuel source repetitions m m' h
  exact ⟨houtcome, State.mk.inj hstate⟩

/-- A binding that is evaluated twice, on a machine that tells all and on one that tells nothing. -/
theorem tracing_changes_nothing_twice :
    let source := "x:=d6;x+n"
    let machine (verbosity : Nat) (log : Array Note) : Machine :=
      ⟨[⟨.text "n", .number 10⟩], [], ⟨[3, 9, 1], 0⟩, verbosity, log⟩
    let loud : Machine := machine 3 #[.trace (.calling (.text "f"))]
    let quiet : Machine := machine 0 #[]
    let run := runScript 9 source 2 loud
    let run' := runScript 9 source 2 quiet
    loud.state = quiet.state ∧ outcome run = .ok (.ok [.number 14, .number 14]) ∧
      (machineAfter run).events.length = 9 ∧ (machineAfter run').events.length = 0 ∧
      outcome run = outcome run' ∧
      (machineAfter run).scope = (machineAfter run').scope ∧
      (machineAfter run).functions = (machineAfter run').functions ∧
      (machineAfter run).dice = (machineAfter run').dice ∧
      (machineAfter run).reports = (machineAfter run').reports := by
  intro source machine loud quiet run run'
  let die : Token := Word.at ⟨.die, .text "d", .null⟩ ⟨1, 4⟩
  let plus : Token := Word.at ⟨.plus, .text "+", .null⟩ ⟨1, 8⟩
  let script : Script := ⟨.binding (.text "x") (.unary die .singleton (.literal (.number 6)))
    (.binary (.var (.text "x") .missing) plus .singletonSingleton (.var (.text "n") .missing)), []⟩
  have hscan : (scan source).toOption = some
      [Word.at ⟨.identifier, .text "x", .null⟩ ⟨1, 1⟩, Word.at ⟨.assign, .text ":=", .null⟩ ⟨1, 2⟩, die,
       Word.at ⟨.integer, .text "6", .integer 6⟩ ⟨1, 5⟩, Word.at ⟨.semicolon, .text ";", .null⟩ ⟨1, 6⟩,
       Word.at ⟨.identifier, .text "x", .null⟩ ⟨1, 7⟩, plus,
       Word.at ⟨.identifier, .text "n", .null⟩ ⟨1, 9⟩, Word.endOfInput.at ⟨1, 10⟩] := by
    decide +kernel
  have hscript : compiled? source = some script :=
    compiled?_eq_some_iff.2 ⟨_, eq_ok_of_toOption hscan, rfl⟩
  have hloud : outcome run = .ok (.ok [.number 14, .number 14]) ∧ (machineAfter run).events.length = 9 := by
    simp only [run, runScript_of_script hscript]
    exact ⟨rfl, rfl⟩
  have hquiet : (machineAfter run').events.length = 0 := by
    simp only [run', runScript_of_script hscript]
    rfl
  exact ⟨rfl, hloud.1, hloud.2, hquiet, tracing_changes_nothing 9 source 2 rfl⟩

end DiceScript.Eval
