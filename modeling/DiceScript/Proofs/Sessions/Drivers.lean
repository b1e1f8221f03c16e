import DiceScript.Proofs.Evaluation.States
import DiceScript.Proofs.Sessions.Failures
import DiceScript.Proofs.Sessions.Repetitions

/-!
# Two ways to run a text

A host runs a text a number of times and is given all values or a problem; a session writes the values as they come.
Each compiles the text once. Both do what running the text once does, time after time: a run leaves the functions of
the text entered, so entering them again changes nothing, and it leaves the bindings as they were.
-/

namespace DiceScript

def Problem.isRuntime : Problem → Bool
  | .runtime _ => true
  | _ => false

namespace Eval

/-- The values that were found one after the other, and how it ended. -/
abbrev Finds (ε : Type) := List Value × EStateM.Result Stop Machine (Option ε)

/-- The values of a text that is run once a number of times, up to the first time that it has a problem, and how that
time ended. -/
def runs (fuel : Nat) (source : String) : Nat → Machine → Finds Problem
  | 0, m => ([], .ok none m)
  | count + 1, m =>
    match runScript fuel source 1 m with
    | .ok (.ok vs) m => (vs ++ (runs fuel source count m).1, (runs fuel source count m).2)
    | .ok (.error p) m => ([], .ok (some p) m)
    | .error stop m => ([], .error stop m)

def answer {ε : Type} : Finds ε → EStateM.Result Stop Machine (Except ε (List Value))
  | (vs, .ok none m) => .ok (.ok vs) m
  | (_, .ok (some p) m) => .ok (.error p) m
  | (_, .error stop m) => .error stop m

theorem repeatedly_eq (fuel : Nat) (e : Expr) (count : Nat) (m : Machine) :
    repeatedly fuel e count m = answer (values fuel e count m) := by
  induction count generalizing m with
  | zero => rfl
  | succ count ih =>
    unfold repeatedly values
    cases hrun : evaluate fuel e m with
    | error stop after => exact bind_of_error hrun
    | ok result after =>
      refine (bind_of_ok hrun).trans ?_
      cases result with
      | error err => rfl
      | ok v =>
        have hrest := ih after
        dsimp only
        generalize values fuel e count after = found at hrest ⊢
        rcases found with ⟨vs, (_ | err) | stop⟩
        · exact bind_of_ok hrest
        · exact bind_of_ok hrest
        · exact bind_of_error hrest

/-- Values found by running a text and values found by evaluating its expression are the same, and so is the end,
where an error of the evaluation is a problem of the text. -/
inductive Tallies : Finds Problem → Finds RuntimeError → Prop
  | ended (vs : List Value) (err : Option RuntimeError) {m m' : Machine} (h : m.state = m'.state) :
    Tallies (vs, .ok (err.map .runtime) m) (vs, .ok err m')
  | broken (vs : List Value) (stop : Stop) {m m' : Machine} (h : m.state = m'.state) :
    Tallies (vs, .error stop m) (vs, .error stop m')

theorem Tallies.cons {found : Finds Problem} {found' : Finds RuntimeError} (h : Tallies found found') (v : Value) :
    Tallies ([v] ++ found.1, found.2) (found'.1.cons v, found'.2) := by
  cases h with
  | ended vs err h => exact .ended (v :: vs) err h
  | broken vs stop h => exact .broken (v :: vs) stop h

theorem Tallies.answer {found : Finds Problem} {found' : Finds RuntimeError} (h : Tallies found found') :
    outcome (answer found) = (outcome (answer found')).map (fun result => result.mapError .runtime) ∧
      (machineAfter found.2).state = (machineAfter found'.2).state := by
  cases h with
  | ended vs err h => cases err <;> exact ⟨rfl, h⟩
  | broken vs stop h => exact ⟨rfl, h⟩

section

variable {source : String} {script : Script} {fuel count : Nat} {m m' : Machine}

theorem runScript_once (hscript : compiled? source = some script) (fuel : Nat) (m : Machine) :
    runScript fuel source 1 m =
      match evaluate fuel script.expression (enteredAll m script.functions) with
      | .ok (.ok v) after => .ok (.ok [v]) after
      | .ok (.error err) after => .ok (.error (.runtime err)) after
      | .error stop after => .error stop after := by
  rw [runScript_of_script hscript]
  simp only [repeatedly, bind, EStateM.bind]
  rcases evaluate fuel script.expression (enteredAll m script.functions) with (_ | _) | _ <;> rfl

theorem state_enteredAll (m : Machine) (functions : Table Name Expr) :
    (enteredAll m functions).state = { m.state with functions := m.functions.merge functions } := by
  have hdice : (enteredAll m functions).dice = m.dice := by
    induction functions generalizing m with
    | nil => rfl
    | cons entry rest ih => exact (ih _).trans (Machine.traced_dice m _)
  unfold Machine.state
  rw [enteredAll_scope, enteredAll_functions, hdice, reports_enteredAll]

/-- A text whose functions are entered already enters nothing new. -/
theorem state_enteredAll_again {functions : Table Name Expr} (honce : functions.names.Nodup)
    (h : m'.functions = (enteredAll m functions).functions) : (enteredAll m' functions).state = m'.state := by
  rw [state_enteredAll, h, enteredAll_functions, Table.merge_merge _ honce, ← enteredAll_functions, ← h]
  rfl

/-- One more run of a text, and one more evaluation of its expression where its functions are entered. -/
theorem tallies_succ (hscript : compiled? source = some script) (hm : m'.state = (enteredAll m script.functions).state)
    (hrest : ∀ after after' : Machine, after.state = after'.state →
      (enteredAll after script.functions).state = after.state →
        Tallies (runs fuel source count after) (values fuel script.expression count after')) :
    Tallies (runs fuel source (count + 1) m) (values fuel script.expression (count + 1) m') := by
  obtain ⟨tokens, hscan, hread⟩ := compiled?_eq_some_iff.1 hscript
  have hscripted := (Grammar.isScripted_of_ofTokens (scan_scanned hscan) hread).1
  have honce := (Grammar.keyed_of_ofTokens (scan_scanned hscan) hread).once
  have hleads := evaluate_untraced fuel (Expr.isShowable_of_isScripted hscripted) hm
  have hkept := evaluate_reports fuel script.expression (enteredAll m script.functions)
  unfold Ends at hkept
  simp only [runs, values, runScript_once hscript]
  generalize evaluate fuel script.expression m' = run' at hleads ⊢
  rcases hrun : evaluate fuel script.expression (enteredAll m script.functions) with ⟨err | v, after⟩ | ⟨stop, after⟩
  · rw [hrun] at hleads
    obtain ⟨after', rfl, hstate⟩ := leads_ok_iff.1 hleads
    exact .ended [] (some err) hstate.symm
  · rw [hrun] at hleads hkept
    obtain ⟨after', rfl, hstate⟩ := leads_ok_iff.1 hleads
    exact (hrest after after' hstate.symm (state_enteredAll_again honce hkept.1)).cons v
  · rw [hrun] at hleads
    obtain ⟨after', rfl, hstate⟩ := leads_error_iff.1 hleads
    exact .broken [] stop hstate.symm

theorem tallies_entered (hscript : compiled? source = some script) (fuel count : Nat) (hm : m.state = m'.state)
    (hentered : (enteredAll m script.functions).state = m.state) :
    Tallies (runs fuel source count m) (values fuel script.expression count m') := by
  induction count generalizing m m' with
  | zero => exact .ended [] none hm
  | succ count ih => exact tallies_succ hscript (hm.symm.trans hentered.symm) fun _ _ => ih

/-- To run a text again and again is to enter its functions and evaluate its expression again and again. -/
theorem tallies_runs (hscript : compiled? source = some script) (fuel : Nat) (hcount : 1 ≤ count) (m : Machine) :
    Tallies (runs fuel source count m)
      (values fuel script.expression count (enteredAll m script.functions)) := by
  obtain ⟨count, rfl⟩ := Nat.exists_eq_succ_of_ne_zero (Nat.one_le_iff_ne_zero.1 hcount)
  exact tallies_succ hscript rfl fun _ _ => tallies_entered hscript fuel count

theorem runScript_of_values (hscript : compiled? source = some script) (fuel count : Nat) (m : Machine) :
    let found := values fuel script.expression count (enteredAll m script.functions)
    outcome (runScript fuel source count m) = (outcome (answer found)).map (fun result => result.mapError .runtime) ∧
      machineAfter (runScript fuel source count m) = machineAfter found.2 := by
  intro found
  have hrun := repeatedly_eq fuel script.expression count (enteredAll m script.functions)
  rw [runScript_of_script hscript]
  change _ = answer found at hrun
  rcases found with ⟨vs, (_ | err) | stop⟩
  · rw [bind_of_ok hrun]
    exact ⟨rfl, rfl⟩
  · rw [bind_of_ok hrun]
    exact ⟨rfl, rfl⟩
  · rw [bind_of_error hrun]
    exact ⟨rfl, rfl⟩

theorem values_outOfFuel {e : Expr} (he : e.isScripted = true)
    (hfunctions : ∀ entry ∈ m.functions, entry.2.isCallable = true) (fuel count : Nat) {vs : List Value}
    {stop : Stop} {after : Machine} (hstop : values fuel e count m = (vs, .error stop after)) :
    stop = .outOfFuel := by
  have hends := repeatedly_reports he hfunctions fuel count
  unfold Ends at hends
  rw [repeatedly_eq, hstop] at hends
  exact hends.1

/-- A text with a problem of its own is not run a second time. -/
theorem runs_of_problem {p : Problem} {after : Machine} (h : runScript fuel source 1 m = .ok (.error p) after)
    (hcount : 1 ≤ count) : runs fuel source count m = ([], .ok (some p) after) := by
  obtain ⟨count, rfl⟩ := Nat.exists_eq_succ_of_ne_zero (Nat.one_le_iff_ne_zero.1 hcount)
  rw [runs, h]

end

end Eval

namespace Session

/-- What becomes of a session when a text was run on its machine: the values that were found are written, one a line,
and the problem that ended it is noted for what it is. -/
def noting (s : Session) (vs : List Value) (problem : Option Problem) (m : Machine) : Session :=
  { s.wrote vs m with
    hadError := s.hadError || problem.any (!·.isRuntime)
    hadRuntimeError := s.hadRuntimeError || problem.any (·.isRuntime) }

theorem noting_none (s : Session) (vs : List Value) (m : Machine) : s.noting vs none m = s.wrote vs m := by
  simp [noting, wrote]

theorem noting_runtime (s : Session) (vs : List Value) (err : RuntimeError) (m : Machine) :
    s.noting vs (some (.runtime err)) m = { s.wrote vs m with hadRuntimeError := true } := by
  simp [noting, wrote, Problem.isRuntime]

theorem noting_of_isRuntime {p : Problem} (hp : p.isRuntime = false) (s : Session) (m : Machine) :
    s.noting [] (some p) m = { s with machine := m, hadError := true } := by
  simp [noting, wrote, valueLines, hp]

theorem listed_hidden {s : Session} (htokens : s.showTokens = false) (htree : s.showTree = false)
    (tokens : List Token) (script : Script) : s.listed tokens script = s := by
  cases s
  simp_all [listed]

end Session

namespace Shell

open Eval

variable {source : String} {script : Script} {s : Session}

/-- What a session makes of a text that compiles, when it shows neither its tokens nor its tree. -/
theorem run_of_values (hscript : compiled? source = some script) (htokens : s.showTokens = false)
    (htree : s.showTree = false) (fuel count : Nat) :
    run fuel source count s =
      match values fuel script.expression count (enteredAll s.machine script.functions) with
      | (vs, .ok err after) => .ok () (s.noting vs (err.map Problem.runtime) after)
      | (vs, .error stop after) => .error stop (s.noting vs none after) := by
  obtain ⟨tokens, hscan, hread⟩ := compiled?_eq_some_iff.1 hscript
  rw [run_of_script hscan hread, s.listed_hidden htokens htree, evaluateAll]
  have hwritten := evaluateAndWrite_eq fuel script.expression count
    { s with machine := enteredAll s.machine script.functions }
  dsimp only at hwritten
  generalize values fuel script.expression count (enteredAll s.machine script.functions) = found at hwritten ⊢
  rcases found with ⟨vs, (_ | err) | stop⟩
  · refine (bind_of_ok hwritten).trans ?_
    simp only [Option.map_none, Session.noting_none]
    rfl
  · refine (bind_of_ok hwritten).trans ?_
    simp only [Option.map_some, Session.noting_runtime]
    rfl
  · refine (bind_of_error hwritten).trans ?_
    simp only [Session.noting_none]
    rfl

/-- A text with a problem of its own is reported, by a host and by a session that does not show its tokens. -/
theorem run_of_problem (hscript : compiled? source = none) (fuel : Nat) :
    ∃ p : Problem, p.isRuntime = false ∧
      (∀ count m, runScript fuel source count m = .ok (.error p) (m.reported p)) ∧
      ∀ count s, s.showTokens = false →
        run fuel source count s = .ok () { s with machine := s.machine.reported p, hadError := true } := by
  rcases compiled?_eq_none_iff.1 hscript with ⟨e, hscan⟩ | ⟨tokens, e, hscan, hread⟩
  · exact ⟨.scan e, rfl, runScript_of_scan_error hscan fuel, fun count s _ => run_of_scan_error hscan fuel count s⟩
  · refine ⟨.parse e, rfl, runScript_of_read_problem hscan hread fuel, fun count s htokens => ?_⟩
    simpa [htokens] using run_of_read_problem hscan hread fuel count s

end Shell

namespace Eval

/-- A host that runs a text a number of times is given what running it once, that many times, gives: all values
together, or the first problem; and the machine comes to the same bindings, functions, random source and reports. A
session that shows neither tokens nor trees leaves its machine there, too. It has written the values that were found,
one a line, and has noted the problem, if there is one, as an error of the text or as one of its evaluation. Nothing
but the bound breaks off any of them. -/
theorem drivers_agree (fuel : Nat) (source : String) {count : Nat} (hcount : 1 ≤ count) {m : Machine}
    (hm : FromScripts m) :
    let found := runs fuel source count m
    let run := runScript fuel source count m
    Leads run (outcome (answer found)) (machineAfter found.2).state ∧
      (∀ stop after, found.2 = .error stop after → stop = .outOfFuel) ∧
      ∀ s : Session, s.machine = m → s.showTokens = false → s.showTree = false →
        Shell.run fuel source count s =
          match found with
          | (vs, .ok problem _) => .ok () (s.noting vs problem (machineAfter run))
          | (vs, .error stop _) => .error stop (s.noting vs none (machineAfter run)) := by
  intro found run
  cases hscript : compiled? source with
  | none =>
    obtain ⟨p, hp, hhost, hsession⟩ := Shell.run_of_problem hscript fuel
    have hfound : found = ([], .ok (some p) (m.reported p)) := runs_of_problem (hhost 1 m) hcount
    have hrun : run = .ok (.error p) (m.reported p) := hhost count m
    rw [hfound, hrun]
    refine ⟨⟨rfl, rfl⟩, fun stop after hstop => (by cases hstop), ?_⟩
    rintro s rfl htokens -
    exact (hsession count s htokens).trans (congrArg (EStateM.Result.ok ()) (s.noting_of_isRuntime hp _).symm)
  | some script =>
    obtain ⟨tokens, hscan, hread⟩ := compiled?_eq_some_iff.1 hscript
    have hscripted := (Grammar.isScripted_of_ofTokens (scan_scanned hscan) hread).1
    have htallies : Tallies found _ := tallies_runs hscript fuel hcount m
    obtain ⟨hanswer, hstate⟩ := htallies.answer
    obtain ⟨hrun, hafter⟩ : outcome run = _ ∧ machineAfter run = _ := runScript_of_values hscript fuel count m
    refine ⟨⟨hrun.trans hanswer.symm, by rw [hafter, hstate]⟩, fun stop after hstop => ?_, ?_⟩
    · generalize hinner : values fuel script.expression count (enteredAll m script.functions) = inner at htallies
      clear_value found
      cases htallies with
      | ended vs err h => cases hstop
      | broken vs stop h =>
        cases hstop
        exact values_outOfFuel hscripted (hm.enteredAll hscript).isCallable fuel count hinner
    · rintro s rfl htokens htree
      rw [Shell.run_of_values hscript htokens htree, hafter]
      generalize values fuel script.expression count (enteredAll s.machine script.functions) = inner at htallies ⊢
      clear_value found
      cases htallies with
      | ended vs err h => rfl
      | broken vs stop h => rfl

/-- A function that has a value with the first draw and divides by zero with the second, run for three times where it
is defined already. -/
theorem drivers_agree_second_draw :
    let source := "function f()=4/(d2-1) call f()"
    let slash : Token := Word.at ⟨.divide, .text "/", .null⟩ ⟨1, 15⟩
    let p : Problem := .runtime (.divisionByZero slash)
    ∃ m : Machine, FromScripts m ∧ m.functions ≠ [] ∧
      (runs 9 source 3 m).1 = [.number 4] ∧ outcome (runs 9 source 3 m).2 = .ok (some p) ∧
      outcome (runScript 9 source 3 m) = .ok (.error p) ∧
      (machineAfter (runScript 9 source 3 m)).state = (machineAfter (runs 9 source 3 m).2).state ∧
      Shell.run 9 source 3 (.initial m []) =
        .ok () ⟨machineAfter (runScript 9 source 3 m), false, false, false, true, [], "4\n"⟩ := by
  intro source slash p
  let die : Token := Word.at ⟨.die, .text "d", .null⟩ ⟨1, 17⟩
  let minus : Token := Word.at ⟨.minus, .text "-", .null⟩ ⟨1, 19⟩
  let divisor : Expr := .binary (.unary die .singleton (.literal (.number 2))) minus .singletonSingleton
    (.literal (.number 1))
  let f : Expr := .function (.text "f") []
    (.binary (.literal (.number 4)) slash .singletonSingleton (.group divisor))
  let script : Script := ⟨.call (.text "f") [], [(.text "f", f)]⟩
  let m : Machine := ⟨[], script.functions, ⟨[1, 0], 0⟩, 0, #[]⟩
  have hscan : (scan source).toOption = some
      [Word.at ⟨.wordFunction, .text "function", .null⟩ ⟨1, 1⟩,
       Word.at ⟨.identifier, .text "f", .null⟩ ⟨1, 10⟩, Word.at ⟨.leftParen, .text "(", .null⟩ ⟨1, 11⟩,
       Word.at ⟨.rightParen, .text ")", .null⟩ ⟨1, 12⟩, Word.at ⟨.equal, .text "=", .null⟩ ⟨1, 13⟩,
       Word.at ⟨.integer, .text "4", .integer 4⟩ ⟨1, 14⟩, slash,
       Word.at ⟨.leftParen, .text "(", .null⟩ ⟨1, 16⟩, die,
       Word.at ⟨.integer, .text "2", .integer 2⟩ ⟨1, 18⟩, minus,
       Word.at ⟨.integer, .text "1", .integer 1⟩ ⟨1, 20⟩, Word.at ⟨.rightParen, .text ")", .null⟩ ⟨1, 21⟩,
       Word.at ⟨.wordCall, .text "call", .null⟩ ⟨1, 23⟩, Word.at ⟨.identifier, .text "f", .null⟩ ⟨1, 28⟩,
       Word.at ⟨.leftParen, .text "(", .null⟩ ⟨1, 29⟩, Word.at ⟨.rightParen, .text ")", .null⟩ ⟨1, 30⟩,
       Word.endOfInput.at ⟨1, 31⟩] := by
    decide +kernel
  have hscript : compiled? source = some script :=
    compiled?_eq_some_iff.2 ⟨_, eq_ok_of_toOption hscan, rfl⟩
  have hm : FromScripts m := fun entry hentry =>
    ⟨source, m, script, m, compile_of_ofTokens hscan rfl m, List.mem_map_of_mem hentry⟩
  have hruns : ∃ after, runs 9 source 3 m = ([.number 4], .ok (some p) after) := by
    simp only [runs, runScript_once hscript]
    exact ⟨_, rfl⟩
  obtain ⟨after, hruns⟩ := hruns
  obtain ⟨⟨hrun, hstate⟩, -, hsession⟩ := drivers_agree 9 source (show 1 ≤ 3 by decide) hm
  have hsession := hsession (.initial m []) rfl rfl rfl
  rw [hruns] at hrun hsession
  have hnoted (after : Machine) :
      (Session.initial m []).noting [.number 4] (some p) after = ⟨after, false, false, false, true, [], "4\n"⟩ := by
    have hline : "" ++ valueLines [.number 4] = "4\n" := by decide +kernel
    simp only [Session.noting, Session.wrote, Session.initial, hline]
    rfl
  exact ⟨m, hm, List.cons_ne_nil _ _, by rw [hruns], by rw [hruns]; rfl, hrun, hstate,
    hsession.trans (congrArg (EStateM.Result.ok ()) (hnoted _))⟩

end Eval

end DiceScript
