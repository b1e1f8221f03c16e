import DiceScript.Proofs.Documents.RoundTrip
import DiceScript.Proofs.Evaluation.Spelling
import DiceScript.Proofs.Grammar.Totality
import DiceScript.Session

/-!
# What a text does to a session

A text that does not compile is reported and leaves the machine as it is otherwise. The functions of one that
compiles are entered before anything is evaluated, which nothing can prevent: they are entered under their own
names, and each is a function.
-/

namespace DiceScript

theorem eq_ok_of_toOption {ε α : Type} {x : Except ε α} {a : α} (h : x.toOption = some a) : x = .ok a := by
  cases x with
  | error e => cases h
  | ok found =>
    cases h
    rfl

/-! The functions of a script. -/

namespace Grammar

/-- The functions of a script are entered under their own names, each name once. -/
theorem keyed_of_ofTokens {tokens : List Token} {script : Script} (hts : ∀ t ∈ tokens, t.toWord.Scanned)
    (h : Script.ofTokens tokens = .ok script) : script.Keyed := by
  obtain ⟨_, hread⟩ := gives_of_ofTokens h
  obtain ⟨before, main, after, last, rest, earlier, later, rfl, -, -, hearlier, hlater, hfunctions, hnodup⟩ :=
    readScript_sound hread
  simp only [List.forall_mem_append] at hts
  obtain ⟨⟨⟨hbefore, -⟩, hafter⟩, -⟩ := hts
  have hnamed : ∀ entry ∈ script.functions, entry.1.isText = true ∧ entry.2.name? = some entry.1 := by
    rw [hfunctions, List.forall_mem_append]
    exact ⟨hearlier.isNamed hbefore, hlater.isNamed hafter⟩
  refine ⟨fun entry hentry => (hnamed entry hentry).2, hnodup, fun name hname => ?_⟩
  obtain ⟨entry, hentry, rfl⟩ := List.mem_map.1 hname
  have htext := (hnamed entry hentry).1
  cases hname : entry.1 <;> simp_all [Json.isText, Json.isCompound]

end Grammar

namespace Eval

def enteredAll (m : Machine) (functions : Table Name Expr) : Machine :=
  functions.foldl (fun m entry => entered m entry.1 entry.2) m

theorem defineAll_eq {functions : Table Name Expr}
    (h : ∀ entry ∈ functions, entry.1.isCompound = false ∧ entry.2.arity? ≠ none) (m : Machine) :
    defineAll functions m = .ok () (enteredAll m functions) := by
  induction functions generalizing m with
  | nil => rfl
  | cons entry rest ih =>
    obtain ⟨⟨hplain, harity⟩, hrest⟩ := List.forall_mem_cons.1 h
    have hdefine : define entry.1 entry.2 m = .ok () (entered m entry.1 entry.2) := by
      rw [define_eq, hplain, if_neg Bool.false_ne_true, if_neg fun hnone => harity hnone.2]
    exact (bind_of_ok hdefine).trans (ih hrest _)

theorem enteredAll_scope (m : Machine) (functions : Table Name Expr) :
    (enteredAll m functions).scope = m.scope := by
  induction functions generalizing m with
  | nil => rfl
  | cons entry rest ih => exact (ih _).trans (entered_scope m _ _)

theorem enteredAll_functions (m : Machine) (functions : Table Name Expr) :
    (enteredAll m functions).functions = m.functions.merge functions := by
  induction functions generalizing m with
  | nil => rfl
  | cons entry rest ih =>
    have hentered : (entered m entry.1 entry.2).functions = m.functions.insert entry.1 entry.2 := by
      simp [entered]
    exact (ih _).trans (by rw [hentered]; rfl)

end Eval

def compiled? (source : String) : Option Script :=
  (scan source).toOption.bind fun tokens => (Script.ofTokens tokens).toOption

theorem compiled?_eq_some_iff {source : String} {script : Script} :
    compiled? source = some script ↔
      ∃ tokens, scan source = .ok tokens ∧ Script.ofTokens tokens = .ok script := by
  unfold compiled?
  cases scan source with
  | error e => simp [Except.toOption]
  | ok tokens => cases hread : Script.ofTokens tokens <;> simp [Except.toOption, hread]

/-- Why a text does not compile: the scan or the reading has a problem. -/
theorem compiled?_eq_none_iff {source : String} :
    compiled? source = none ↔ (∃ e, scan source = .error e) ∨
      ∃ tokens e, scan source = .ok tokens ∧ Script.ofTokens tokens = .error (.problem e) := by
  unfold compiled?
  cases hscan : scan source with
  | error e => simp [Except.toOption]
  | ok tokens =>
    rcases Script.ofTokens_settled (scan_ending hscan) with ⟨script, hread⟩ | ⟨e, hread⟩
    all_goals simp [Except.toOption, hread]

section

variable {source : String} {tokens : List Token} {script : Script}

theorem defineAll_of_ofTokens (hscan : scan source = .ok tokens) (hread : Script.ofTokens tokens = .ok script)
    (m : Machine) : Eval.defineAll script.functions m = .ok () (Eval.enteredAll m script.functions) := by
  have hts := scan_scanned hscan
  have hkeyed := Grammar.keyed_of_ofTokens hts hread
  have hcallable := (Grammar.isScripted_of_ofTokens hts hread).2
  refine Eval.defineAll_eq (fun entry hentry => ⟨hkeyed.plain _ (List.mem_map_of_mem hentry), ?_⟩) m
  have hcallable := hcallable entry hentry
  cases hnode : entry.2 <;> simp_all [Expr.isCallable, Expr.arity?]

end

/-- The session after it has shown what it was asked to show of a script. -/
def Session.listed (s : Session) (tokens : List Token) (script : Script) : Session :=
  let line := if s.showTokens then String.intercalate " " (tokens.map Token.display) ++ "\n" else ""
  let tree := if s.showTree then "Tree: " ++ script.expression.display ++ "\n" else ""
  { s with output := s.output ++ line ++ tree }

/-- What a session makes of an evaluation: a value is written, an error is noted. -/
def Session.concluded (s : Session) :
    EStateM.Result Stop Machine (Except RuntimeError Value) → EStateM.Result Stop Session Unit
  | .ok (.ok v) m => .ok () { s with machine := m, output := s.output ++ (v.display ++ "\n") }
  | .ok (.error _) m => .ok () { s with machine := m, hadRuntimeError := true }
  | .error stop m => .error stop { s with machine := m }

namespace Shell

/-- Evaluate and write, and note an error that ended it. -/
def evaluateAll (fuel : Nat) (e : Expr) (count : Nat) : Shell Unit := do
  let finished ← evaluateAndWrite fuel e count
  if finished then pure () else flagRuntimeError

theorem evaluateAll_once (fuel : Nat) (e : Expr) (s : Session) :
    evaluateAll fuel e 1 s = s.concluded (Eval.evaluate fuel e s.machine) := by
  simp only [evaluateAll, evaluateAndWrite, bind, EStateM.bind, onMachine]
  cases Eval.evaluate fuel e s.machine with
  | error stop m => rfl
  | ok result m => cases result <;> rfl

section

variable {source : String} {tokens : List Token} {script : Script}

/-- A line that is written if the session is asked to. -/
theorem write_when {α : Type} (wanted : Session → Bool) (text : String) (next : Shell α) (s : Session) :
    (do if wanted (← get) then write text
        next : Shell α) s = next { s with output := s.output ++ if wanted s then text ++ "\n" else "" } := by
  refine (get_bind s).trans ?_
  cases wanted s with
  | true => rfl
  | false => exact congrArg next (by simp)

theorem onMachine_scanned (hscan : scan source = .ok tokens) (s : Session) :
    onMachine (Eval.scanned source) s = .ok (.ok tokens) s := by
  simp only [onMachine, Eval.scanned, hscan]
  rfl

theorem run_of_script (hscan : scan source = .ok tokens) (hread : Script.ofTokens tokens = .ok script)
    (fuel count : Nat) (s : Session) :
    run fuel source count s =
      evaluateAll fuel script.expression count
        { s.listed tokens script with machine := Eval.enteredAll s.machine script.functions } := by
  have hofRead (s : Session) : onMachine (Eval.ofRead (Script.ofTokens tokens)) s = .ok (.ok script) s := by
    rw [hread]
    rfl
  have hdefine (s : Session) : onMachine (Eval.defineAll script.functions) s =
      .ok () { s with machine := Eval.enteredAll s.machine script.functions } := by
    simp only [onMachine, defineAll_of_ofTokens hscan hread]
  refine (bind_of_ok (onMachine_scanned hscan s)).trans ?_
  refine (write_when (·.showTokens) _ _ s).trans ?_
  refine (bind_of_ok (hofRead _)).trans ?_
  refine (write_when (·.showTree) _ _ _).trans ?_
  exact bind_of_ok (hdefine _)

/-- A text that does not scan is reported, and the error is noted. -/
theorem run_of_scan_error {e : ScanError} (hscan : scan source = .error e) (fuel count : Nat) (s : Session) :
    run fuel source count s = .ok () { s with machine := s.machine.reported (.scan e), hadError := true } := by
  have hscanned : onMachine (Eval.scanned source) s =
      .ok (.error (.scan e)) { s with machine := s.machine.reported (.scan e) } := by
    simp only [onMachine, Eval.scanned, hscan]
    rfl
  exact bind_of_ok hscanned

/-- A text whose tokens are not a script is reported, and the error is noted. -/
theorem run_of_read_problem {e : ParseError} (hscan : scan source = .ok tokens)
    (hread : Script.ofTokens tokens = .error (.problem e)) (fuel count : Nat) (s : Session) :
    let line := if s.showTokens then String.intercalate " " (tokens.map Token.display) ++ "\n" else ""
    run fuel source count s =
      .ok () { s with machine := s.machine.reported (.parse e), hadError := true, output := s.output ++ line } := by
  have hofRead (s : Session) : onMachine (Eval.ofRead (Script.ofTokens tokens)) s =
      .ok (.error (.parse e)) { s with machine := s.machine.reported (.parse e) } := by
    rw [hread]
    rfl
  refine (bind_of_ok (onMachine_scanned hscan s)).trans ?_
  refine (write_when (·.showTokens) _ _ s).trans ?_
  exact bind_of_ok (hofRead _)

/-- A text that does not compile is reported; the session goes on as it was, with the error noted. -/
theorem run_of_none (h : compiled? source = none) (fuel count : Nat) (s : Session) :
    ∃ p text, run fuel source count s =
      .ok () { s with machine := s.machine.reported p, hadError := true, output := text } := by
  rcases compiled?_eq_none_iff.1 h with ⟨e, hscan⟩ | ⟨tokens, e, hscan, hread⟩
  · exact ⟨.scan e, s.output, run_of_scan_error hscan fuel count s⟩
  · exact ⟨.parse e, _, run_of_read_problem hscan hread fuel count s⟩

end

end Shell

end DiceScript
