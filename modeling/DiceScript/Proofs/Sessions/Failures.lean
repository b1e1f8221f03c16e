import DiceScript.Proofs.Evaluation.Agreement
import DiceScript.Proofs.Grammar.Sight
import DiceScript.Proofs.Scanning.Offences
import DiceScript.Proofs.Sessions.Reports

/-!
# One report for a failure

A text is scanned, read, and evaluated a number of times, and each of these may fail. Whichever it is, the failure
ends the run, and it is reported exactly once, at a place that the text or the functions account for. A run that
does not fail reports nothing.
-/

namespace DiceScript

/-- Where a problem with a text is: where an offence against the words of the language begins, at one of the
tokens, at an operator of the script or of a function, as it was scanned, or nowhere. -/
inductive Problem.IsAt (source : String) (functions : Table Name Expr) : Problem → Prop
  | offence {e : ScanError} {before offending : List Char} (hcut : source.toList = before ++ offending)
    (hposition : e.position = .counted before)
    (hbefore : before = [] ∨ ∃ tokens, DiceScript.scan (String.ofList before) = .ok tokens)
    (hoffends : Offends offending e.cause) : IsAt source functions (.scan e)
  | token {e : ParseError} {tokens : List Token} {t : Token} (hscan : DiceScript.scan source = .ok tokens)
    (ht : t ∈ tokens) (hposition : e.position = t.position) : IsAt source functions (.parse e)
  | operator {e : RuntimeError} {script : Script} {op : Token} (hscript : compiled? source = some script)
    (hop : Eval.Blameable functions script.expression op)
    (hscanned : ∃ text tokens, DiceScript.scan text = .ok tokens ∧ op ∈ tokens)
    (hposition : e.position = op.position) : IsAt source functions (.runtime e)
  | nowhere {e : RuntimeError} (hposition : e.position = Position.unknown.mark) :
    IsAt source functions (.runtime e)

namespace Eval

/-- An expression that is evaluated a number of times, up to the first error. -/
theorem repeatedly_reports {e : Expr} {m : Machine} (he : e.isScripted = true)
    (hfunctions : ∀ entry ∈ m.functions, entry.2.isCallable = true) (fuel count : Nat) :
    Ends (repeatedly fuel e count) m
      (fun result after => after.functions = m.functions ∧
        match result with
        | .ok _ => after.reports = m.reports
        | .error err => after.reports = m.reports ++ [.runtime err] ∧
          ∀ op, err.operator? = some op → Blameable m.functions e op)
      (fun stop after => stop = .outOfFuel ∧ after.reports = m.reports) := by
  induction count generalizing m with
  | zero => exact ends_pure.2 ⟨rfl, rfl⟩
  | succ count ih =>
    rw [repeatedly, ends_bind]
    refine ((evaluate_reports fuel e m).and (ends_evaluate_orderly hfunctions fuel he)).mono ?_ ?_
    · rintro result m₁ ⟨⟨hfunctions₁, hreports₁⟩, -⟩
      cases result with
      | error err => exact ends_pure.2 ⟨hfunctions₁, hreports₁⟩
      | ok v =>
        simp only at hreports₁ ⊢
        rw [ends_bind]
        refine (ih (by rwa [hfunctions₁])).mono ?_ ?_
        · rintro results m₂ ⟨hfunctions₂, hreports₂⟩
          rw [hfunctions₁, hreports₁] at hreports₂
          rw [hfunctions₁] at hfunctions₂
          cases results with
          | error err => exact ends_pure.2 ⟨hfunctions₂, hreports₂⟩
          | ok vs => exact ends_pure.2 ⟨hfunctions₂, hreports₂⟩
        · rintro stop m₂ ⟨hstop, hreports₂⟩
          exact ⟨hstop, hreports₂.trans hreports₁⟩
    · rintro stop m₁ ⟨⟨-, hreports₁⟩, hstop⟩
      exact ⟨hstop, hreports₁⟩

/-- Functions of a script may be entered among functions of scripts. -/
theorem FromScripts.enteredAll {m : Machine} (hm : FromScripts m) {source : String} {script : Script}
    (hscript : compiled? source = some script) : FromScripts (enteredAll m script.functions) := by
  obtain ⟨tokens, hscan, hread⟩ := compiled?_eq_some_iff.1 hscript
  intro entry hentry
  rw [enteredAll_functions] at hentry
  rcases Table.mem_of_mem_merge hentry with hentry | hentry
  · exact hm entry hentry
  · have hcompile : compile source m = .ok (.ok script) m :=
      compile_of_ofTokens (by rw [hscan]; rfl) hread m
    exact ⟨source, m, script, m, hcompile, List.mem_map_of_mem hentry⟩

/-- Whom an evaluation may blame was scanned, in this text or in one that a function comes from. -/
theorem FromScripts.scanned {m : Machine} (hm : FromScripts m) {source : String} {script : Script}
    (hscript : compiled? source = some script) {op : Token} (hop : Blameable m.functions script.expression op) :
    ∃ text tokens, scan text = .ok tokens ∧ op ∈ tokens := by
  rcases hop with hop | ⟨entry, hentry, hop⟩
  · obtain ⟨tokens, hscan, hread⟩ := compiled?_eq_some_iff.1 hscript
    exact ⟨source, tokens, hscan, (Grammar.mem_of_ofTokens hread).1 hop⟩
  · obtain ⟨text, _, other, _, hcompile, hmem⟩ := hm entry hentry
    obtain ⟨entry', hentry', hsame⟩ := List.mem_map.1 hmem
    obtain ⟨tokens, hscan, hread⟩ := ofTokens_of_compile hcompile
    exact ⟨text, tokens, hscan, (Grammar.mem_of_ofTokens hread).2 entry' hentry' (hsame ▸ hop)⟩

/-- A text that does not scan. -/
theorem runScript_of_scan_error {source : String} {e : ScanError} (h : scan source = .error e)
    (fuel repetitions : Nat) (m : Machine) :
    runScript fuel source repetitions m = .ok (.error (.scan e)) (m.reported (.scan e)) := by
  have hcompile : compile source m = .ok (.error (.scan e)) (m.reported (.scan e)) := by
    unfold compile scanned
    rw [h]
    rfl
  exact bind_of_ok hcompile

/-- A text whose tokens are not a script. -/
theorem runScript_of_read_problem {source : String} {tokens : List Token} {e : ParseError}
    (hscan : scan source = .ok tokens) (hread : Script.ofTokens tokens = .error (.problem e))
    (fuel repetitions : Nat) (m : Machine) :
    runScript fuel source repetitions m = .ok (.error (.parse e)) (m.reported (.parse e)) := by
  have hcompile : compile source m = .ok (.error (.parse e)) (m.reported (.parse e)) := by
    rw [compile_eq hscan, hread]
    rfl
  exact bind_of_ok hcompile

/-- A script is run with its functions entered. -/
theorem runScript_of_script {source : String} {script : Script} (h : compiled? source = some script)
    (fuel repetitions : Nat) (m : Machine) :
    runScript fuel source repetitions m =
      (repeatedly fuel script.expression repetitions >>= fun results => pure (results.mapError .runtime))
        (enteredAll m script.functions) := by
  obtain ⟨tokens, hscan, hread⟩ := compiled?_eq_some_iff.1 h
  have hcompile : compile source m = .ok (.ok script) m := by
    rw [compile_eq hscan, hread]
    rfl
  refine (bind_of_ok hcompile).trans ((bind_of_ok (defineAll_of_ofTokens hscan hread m)).trans ?_)
  refine congrFun (bind_congr fun results => ?_) _
  cases results with
  | ok vs => rfl
  | error err => rfl

/-- Whatever text is run, however often, on a machine whose functions come from scripts: values come without any
report, and a problem comes with one report, which is that problem. A problem that is found in scanning is where
the offence begins, one that is found in reading is at a token of the text, and one that is found in evaluating
is at an operator of the script or of one of the functions, or nowhere. A run that reaches its bound has
reported nothing, and there is no other way to end. -/
theorem runScript_reports_once (fuel : Nat) (source : String) (repetitions : Nat) {m : Machine}
    (hm : FromScripts m) :
    (∃ vs after, runScript fuel source repetitions m = .ok (.ok vs) after ∧ after.reports = m.reports) ∨
      (∃ p after, runScript fuel source repetitions m = .ok (.error p) after ∧
        after.reports = m.reports ++ [p] ∧ p.IsAt source after.functions) ∨
      ∃ after, runScript fuel source repetitions m = .error .outOfFuel after ∧ after.reports = m.reports := by
  cases hscript : compiled? source with
  | none =>
    rcases compiled?_eq_none_iff.1 hscript with ⟨e, hscan⟩ | ⟨tokens, e, hscan, hread⟩
    · obtain ⟨before, offending, hcut, hposition, hbefore, hoffends⟩ := scan_offends hscan
      refine .inr (.inl ⟨_, _, runScript_of_scan_error hscan fuel repetitions m, ?_, ?_⟩)
      · rw [Machine.reports_reported]
      · exact .offence hcut hposition hbefore hoffends
    · obtain ⟨t, ht, hposition⟩ := Script.position_of_ofTokens hread
      refine .inr (.inl ⟨_, _, runScript_of_read_problem hscan hread fuel repetitions m, ?_, ?_⟩)
      · rw [Machine.reports_reported]
      · exact .token hscan ht hposition
  | some script =>
    have hentered := hm.enteredAll hscript
    obtain ⟨tokens, hscan, hread⟩ := compiled?_eq_some_iff.1 hscript
    have hscripted := (Grammar.isScripted_of_ofTokens (scan_scanned hscan) hread).1
    have hends := repeatedly_reports hscripted hentered.isCallable fuel repetitions
    rw [runScript_of_script hscript]
    unfold Ends at hends
    rw [reports_enteredAll] at hends
    cases hrun : repeatedly fuel script.expression repetitions (enteredAll m script.functions) with
    | error stop after =>
      rw [hrun] at hends
      obtain ⟨rfl, hreports⟩ := hends
      exact .inr (.inr ⟨after, bind_of_error hrun, hreports⟩)
    | ok results after =>
      rw [hrun] at hends
      obtain ⟨hfunctions, hreports⟩ := hends
      cases results with
      | ok vs => exact .inl ⟨vs, after, bind_of_ok hrun, hreports⟩
      | error err =>
        refine .inr (.inl ⟨.runtime err, after, bind_of_ok hrun, hreports.1, ?_⟩)
        cases hoperator : err.operator? with
        | none => exact .nowhere (by rw [RuntimeError.position, hoperator]; rfl)
        | some op =>
          have hblamed := hreports.2 op hoperator
          refine .operator hscript (hfunctions ▸ hblamed) (hentered.scanned hscript hblamed) ?_
          rw [RuntimeError.position, hoperator]
          rfl

/-- A call of a function that divides by zero, on a machine where an earlier text has defined it. -/
theorem runScript_reports_once_quotient :
    let slash : Token := Word.at ⟨.divide, .text "/", .null⟩ ⟨1, 15⟩
    let zero : Expr := .literal (.number 0)
    let f : Expr := .function (.text "f") [] (.binary (.literal (.number 1)) slash .singletonSingleton zero)
    let m : Machine := ⟨[], [(.text "f", f)], ⟨[], 0⟩, 0, #[]⟩
    let p : Problem := .runtime (.divisionByZero slash)
    FromScripts m ∧ ∃ after, runScript 9 "call f()" 2 m = .ok (.error p) after ∧
      after.reports = m.reports ++ [p] ∧ p.IsAt "call f()" after.functions := by
  intro slash zero f m p
  have hdefined : (scan "function f()=1/0 2").toOption = some
      [Word.at ⟨.wordFunction, .text "function", .null⟩ ⟨1, 1⟩,
       Word.at ⟨.identifier, .text "f", .null⟩ ⟨1, 10⟩, Word.at ⟨.leftParen, .text "(", .null⟩ ⟨1, 11⟩,
       Word.at ⟨.rightParen, .text ")", .null⟩ ⟨1, 12⟩, Word.at ⟨.equal, .text "=", .null⟩ ⟨1, 13⟩,
       Word.at ⟨.integer, .text "1", .integer 1⟩ ⟨1, 14⟩, slash,
       Word.at ⟨.integer, .text "0", .integer 0⟩ ⟨1, 16⟩,
       Word.at ⟨.integer, .text "2", .integer 2⟩ ⟨1, 18⟩, Word.endOfInput.at ⟨1, 19⟩] := by
    decide +kernel
  have hm : FromScripts m := by
    intro entry hentry
    obtain rfl := List.mem_singleton.1 hentry
    have hcompile : compile "function f()=1/0 2" m = .ok (.ok ⟨.literal (.number 2), [(.text "f", f)]⟩) m :=
      compile_of_ofTokens hdefined rfl m
    exact ⟨_, m, _, m, hcompile, List.mem_singleton_self _⟩
  have hcalled : (scan "call f()").toOption = some
      [Word.at ⟨.wordCall, .text "call", .null⟩ ⟨1, 1⟩, Word.at ⟨.identifier, .text "f", .null⟩ ⟨1, 6⟩,
       Word.at ⟨.leftParen, .text "(", .null⟩ ⟨1, 7⟩, Word.at ⟨.rightParen, .text ")", .null⟩ ⟨1, 8⟩,
       Word.endOfInput.at ⟨1, 9⟩] := by
    decide +kernel
  have hscript : compiled? "call f()" = some ⟨.call (.text "f") [], []⟩ :=
    compiled?_eq_some_iff.2 ⟨_, eq_ok_of_toOption hcalled, rfl⟩
  have hrun : outcome (runScript 9 "call f()" 2 m) = .ok (.error p) := by
    rw [runScript_of_script hscript]
    rfl
  refine ⟨hm, ?_⟩
  rcases runScript_reports_once 9 "call f()" 2 hm with ⟨vs, after, h, -⟩ | ⟨p', after, h, hreports, hat⟩ | ⟨after, h, -⟩
  · rw [h] at hrun
    cases hrun
  · rw [h] at hrun
    cases hrun
    exact ⟨after, h, hreports, hat⟩
  · rw [h] at hrun
    cases hrun

end Eval

end DiceScript
