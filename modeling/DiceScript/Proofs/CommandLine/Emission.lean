import DiceScript.Proofs.CommandLine.Arguments
import DiceScript.Proofs.Sessions.Repetitions

/-!
# A document runs like its script

A command that runs a script file and one that runs the document made from it come to the same: what they write,
what they log and their status are the same. The two take different ways. One compiles the source and notes
errors in the session, the other reads the tree back and quits at once. Both bind the same arguments, enter the
same functions and evaluate the same expression, so each is shown to end like the work they have in common.
-/

namespace DiceScript

/-! A document keeps what a script stands for. -/

namespace Expr

theorem isKept_of_isScripted {e : Expr} (he : e.isScripted = true) : e.isKept = true := by
  refine scripted_induction (p := fun e => e.isKept = true) (fun e hfit h => ?_) he
  cases e with
  | missing | misfit form | function name parameters body => cases hfit
  | var name fallback => cases fallback <;> simp_all [isKept, children]
  | _ => simp_all [isKept, children, allKept_iff]

theorem isKept_of_isCallable {e : Expr} (h : e.isCallable = true) : e.isKept = true := by
  cases e with
  | function name parameters body => exact isKept_of_isScripted (e := body) h
  | _ => cases h

theorem allKept_of_isCallable {functions : Table Name Expr}
    (h : ∀ entry ∈ functions, entry.2.isCallable = true) : allKept (functions.map Prod.snd) = true :=
  allKept_iff.2 (List.forall_mem_map.2 fun entry hentry => isKept_of_isCallable (h entry hentry))

end Expr

/-- The document of a compiled script is read as that script. -/
theorem toScript_of_compiled? {source : String} {script : Script} (h : compiled? source = some script) :
    Document.toScript (Document.ofScript script) = .ok script := by
  obtain ⟨tokens, hscan, hread⟩ := compiled?_eq_some_iff.1 h
  have hts := scan_scanned hscan
  obtain ⟨hexpression, hfunctions⟩ := Grammar.isScripted_of_ofTokens hts hread
  refine Document.toScript_of_isKept (Grammar.keyed_of_ofTokens hts hread) ?_
  simp [Script.isKept, Expr.isKept_of_isScripted hexpression, Expr.allKept_of_isCallable hfunctions]

def Files.plainText (files : Files) (path : String) : Except FileError String :=
  (files.read path).map fun text => String.ofList (Text.unixNewlines text.toList)

namespace CommandLine

/-- The bindings that the arguments behind a script stand for, if they are well-formed. -/
def argumentBindings? (arguments : List String) : Option (List Binding) :=
  if arguments.isEmpty then some [] else bindings? (String.intercalate " " arguments)

/-- The values of a script that is run a number of times, and how the last evaluation ended: the bindings are
pushed first, then the functions are entered. -/
def scriptValues (fuel : Nat) (m : Machine) (bindings : List Binding) (script : Script) (count : Nat) :
    List Value × EStateM.Result Stop Machine (Option RuntimeError) :=
  Eval.values fuel script.expression count (Eval.enteredAll (Eval.pushedAll m bindings) script.functions)

/-- How a command that runs a script a number of times ends, and what it has written by then. -/
inductive Conducted (fuel : Nat) (m : Machine) (arguments : List String) (script : Script) (count : Nat) :
    Exit → String → Prop
  | malformed (h : argumentBindings? arguments = none) :
    Conducted fuel m arguments script count (.status usageStatus) ""
  | finished {bindings : List Binding} {vs : List Value} {after : Machine}
    (hbindings : argumentBindings? arguments = some bindings)
    (h : scriptValues fuel m bindings script count = (vs, .ok none after)) :
    Conducted fuel m arguments script count (.status 0) (valueLines vs)
  | failed {bindings : List Binding} {vs : List Value} {err : RuntimeError} {after : Machine}
    (hbindings : argumentBindings? arguments = some bindings)
    (h : scriptValues fuel m bindings script count = (vs, .ok (some err) after)) :
    Conducted fuel m arguments script count (.status evaluationStatus) (valueLines vs)
  | brokenOff {bindings : List Binding} {vs : List Value} {after : Machine}
    (hbindings : argumentBindings? arguments = some bindings)
    (h : scriptValues fuel m bindings script count = (vs, .error .outOfFuel after)) :
    Conducted fuel m arguments script count (.escaped .outOfFuel) (valueLines vs)

/-- The job that a command without a debug file begins with. -/
def Job.begun (m : Machine) (files : Files) (input : List String) : Job :=
  ⟨.initial m input, files, "", none⟩

structure Ending where
  exit : Exit
  machine : Machine
  output : String
  complaints : String

inductive Ending.Of (ending : Ending) : EStateM.Result Exit Job Unit → Prop
  | success {job : Job} (h : ending = ⟨.status 0, job.session.machine, job.session.output, job.complaints⟩)
    (htrace : job.trace = none) : Of ending (.ok () job)
  | exit {exit : Exit} {job : Job}
    (h : ending = ⟨exit, job.session.machine, job.session.output, job.complaints⟩)
    (htrace : job.trace = none) : Of ending (.error exit job)

def Exit.ofValues : EStateM.Result Stop Machine (Option RuntimeError) → Exit
  | .ok none _ => .status 0
  | .ok (some _) _ | .error (.error _) _ => .status evaluationStatus
  | .error (.fault f) _ => .escaped (.fault f)
  | .error .outOfFuel _ => .escaped .outOfFuel

def Ending.ofValues (found : List Value × EStateM.Result Stop Machine (Option RuntimeError)) : Ending :=
  ⟨.ofValues found.2, Eval.machineAfter found.2, valueLines found.1, ""⟩

def Ending.malformed (m : Machine) (p : Problem) : Ending :=
  ⟨.status usageStatus, m.reported p, "", usage ++ "\n"⟩

namespace Work

theorem onSession_begun {α : Type} {x : Shell α} {a : α} {m after : Machine} {input : List String}
    (h : x (.initial m input) = .ok a (.initial after input)) (files : Files) :
    onSession x (.begun m files input) = .ok a (.begun after files input) := by
  simp only [onSession, Job.begun, h]

theorem readText_of_currentFiles {job : Job} {path text : String}
    (h : job.currentFiles.plainText path = .ok text) : readText path job = .ok text job := by
  refine (get_bind job).trans ?_
  unfold Files.plainText at h
  cases hread : job.currentFiles.read path with
  | error e =>
    rw [hread] at h
    cases h
  | ok found =>
    rw [hread] at h
    cases h
    rfl

theorem readText_of_plainText {job : Job} {path text : String} (htrace : job.trace = none)
    (h : job.files.plainText path = .ok text) : readText path job = .ok text job := by
  have hcurrent : job.currentFiles = job.files := by
    simp only [Job.currentFiles, htrace]
  exact readText_of_currentFiles (hcurrent ▸ h)

theorem readDocument_of_readText {job : Job} {path text : String} (h : readText path job = .ok text job) :
    readDocument path job = .ok text job := by
  simp only [readDocument, tryCatch, tryCatchThe, MonadExceptOf.tryCatch, EStateM.tryCatch, h]

theorem loadDocument_of_script {job : Job} {path text : String} {script : Script}
    (htext : job.currentFiles.plainText path = .ok text)
    (h : Document.parse text = .ok script) : loadDocument path job = .ok script job := by
  refine (bind_of_ok (readDocument_of_readText (readText_of_currentFiles htext))).trans ?_
  rw [h]
  rfl

theorem repetitions_of_integer? {count : String} {n : Int} (h : Numeral.integer? count = some n) (hn : 1 ≤ n)
    (rest : List String) (job : Job) : repetitions (count :: rest) job = .ok (n.toNat, rest) job := by
  simp only [repetitions, h, if_neg (show ¬ n < 1 by omega)]
  rfl

/-- Arguments are bound, or the command is used wrongly and nothing is bound. Files are of no account. -/
theorem bind_settled (arguments : List String) (m : Machine) (input : List String) :
    (∃ bindings, argumentBindings? arguments = some bindings ∧ ∀ files,
      Work.bind arguments (.begun m files input) = .ok () (.begun (Eval.pushedAll m bindings) files input)) ∨
    ∃ p, argumentBindings? arguments = none ∧ p.IsShown ∧ ∀ files, ∃ job,
      Work.bind arguments (.begun m files input) = .error (.status usageStatus) job ∧
        (Ending.malformed m p).Of (.error (.status usageStatus) job) := by
  unfold argumentBindings? Work.bind
  cases arguments.isEmpty with
  | true => exact .inl ⟨[], rfl, fun _ => rfl⟩
  | false =>
    simp only [Bool.false_eq_true, if_false]
    rcases Shell.pushArguments_settled arguments (.initial m input) with ⟨found, h, hpush⟩ | ⟨p, h, hshown, hpush⟩
    · exact .inl ⟨found, h, fun files => bind_of_ok (onSession_begun hpush files)⟩
    · refine .inr ⟨p, h, hshown, fun files => ⟨_, bind_of_ok (onSession_begun hpush files), ?_⟩⟩
      exact .exit (by simp [Ending.malformed, Job.begun, Session.initial]) rfl

variable {source : String} {script : Script} {m : Machine} {files : Files} {input : List String}

/-- Evaluating for a document: an error ends the work at once. -/
theorem document_evaluated (fuel : Nat) (e : Expr) (count : Nat) :
    (Ending.ofValues (Eval.values fuel e count m)).Of ((do
      let finished ← onSession (Shell.evaluateAndWrite fuel e count)
      if finished then pure () else quit evaluationStatus : Work Unit) (.begun m files input)) := by
  simp only [Bind.bind, EStateM.bind, onSession, Job.begun, Shell.evaluateAndWrite_initial]
  rcases Eval.values fuel e count m with ⟨vs, last⟩
  have houtput (after : Machine) := Session.wrote_initial_output m after input vs
  cases last with
  | ok err after =>
    cases err with
    | none => exact .success (by rw [houtput]; rfl) rfl
    | some err => exact .exit (by rw [houtput]; rfl) rfl
  | error stop after => cases stop <;> exact .exit (by rw [houtput]; rfl) rfl

/-- Evaluating for a script: an error is noted, and looked at in the end. -/
theorem script_evaluated (fuel : Nat) (e : Expr) (count : Nat) :
    (Ending.ofValues (Eval.values fuel e count m)).Of ((do
      onSession (Shell.evaluateAll fuel e count)
      conclude : Work Unit) (.begun m files input)) := by
  simp only [Bind.bind, EStateM.bind, onSession, Job.begun, Shell.evaluateAll,
    Shell.evaluateAndWrite_initial]
  rcases Eval.values fuel e count m with ⟨vs, last⟩
  have houtput (after : Machine) := Session.wrote_initial_output m after input vs
  cases last with
  | ok err after =>
    cases err with
    | none => exact .success (by rw [houtput]; rfl) rfl
    | some err => exact .exit (congrArg (Ending.mk _ _ · _) (houtput after).symm) rfl
  | error stop after => cases stop <;> exact .exit (by rw [houtput]; rfl) rfl

section

variable {path count : String} {bindings : List String} {n : Int}

theorem loadDocument_of_plainText (hscript : compiled? source = some script)
    (hjson : Json.parse (Json.documentText (Document.ofScript script)) = .ok (Document.ofScript script))
    (htext : files.plainText path = .ok (Json.documentText (Document.ofScript script))) :
    loadDocument path (.begun m files input) = .ok script (.begun m files input) := by
  have hparse : Document.parse (Json.documentText (Document.ofScript script)) = .ok script := by
    rw [Document.parse, hjson]
    exact toScript_of_compiled? hscript
  exact loadDocument_of_script htext hparse

/-- A document that cannot be read breaks the work off with a complaint. -/
theorem loadDocument_of_error {e : FileError} (hread : files.read path = .error e) (he : e ≠ .nullInPath) :
    ∃ text, loadDocument path (.begun m files input) =
      .error (.status inputStatus) { Job.begun m files input with complaints := text } := by
  have hjob : (Job.begun m files input).currentFiles.read path = .error e := hread
  let text := "" ++ ("Error: cannot read " ++ path ++ ": " ++ e.message) ++ "\n"
  have htext : readText path (.begun m files input) =
      .error (.status inputStatus) { Job.begun m files input with complaints := text } := by
    refine (get_bind _).trans ?_
    rw [hjob]
    cases e with
    | nullInPath => exact absurd rfl he
    | _ => rfl
  refine ⟨text, bind_of_error ?_⟩
  simp only [readDocument, tryCatch, tryCatchThe, MonadExceptOf.tryCatch, EStateM.tryCatch, htext]
  rfl

theorem runDocument_eq (hcount : Numeral.integer? count = some n) (hn : 1 ≤ n)
    (hload : loadDocument path (.begun m files input) = .ok script (.begun m files input)) (fuel : Nat) :
    runDocument fuel path (count :: bindings) (.begun m files input) = (do
      Work.bind bindings
      onSession (Shell.onMachine (Eval.defineAll script.functions))
      let finished ← onSession (Shell.evaluateAndWrite fuel script.expression n.toNat)
      if finished then pure () else quit evaluationStatus : Work Unit) (.begun m files input) :=
  (bind_of_ok (repetitions_of_integer? hcount hn bindings _)).trans (bind_of_ok hload)

theorem runFile_eq (hcount : Numeral.integer? count = some n) (hn : 1 ≤ n) (fuel : Nat) :
    runFile fuel (count :: path :: bindings) (.begun m files input) = (do
      Work.bind bindings
      let source ← readText (tidyPath path)
      onSession (Shell.run fuel source n.toNat)
      conclude : Work Unit) (.begun m files input) :=
  bind_of_ok (repetitions_of_integer? hcount hn (path :: bindings) _)

theorem onSession_run (hscript : compiled? source = some script) (fuel count : Nat) :
    onSession (Shell.run fuel source count) (.begun m files input) =
      onSession (Shell.evaluateAll fuel script.expression count)
        (.begun (Eval.enteredAll m script.functions) files input) := by
  obtain ⟨tokens, hscan, hread⟩ := compiled?_eq_some_iff.1 hscript
  have hrun := Shell.run_of_script hscan hread fuel count (.initial m input)
  have hlisted : { (Session.initial m input).listed tokens script with
      machine := Eval.enteredAll m script.functions } = .initial (Eval.enteredAll m script.functions) input := by
    simp [Session.listed, Session.initial]
  simp only [onSession, Job.begun, hrun.trans (congrArg _ hlisted)]

/-- A script file whose arguments can be bound is evaluated. -/
theorem runFile_evaluated {bound : Machine} (hscript : compiled? source = some script)
    (hcount : Numeral.integer? count = some n) (hn : 1 ≤ n)
    (hbind : Work.bind bindings (.begun m files input) = .ok () (.begun bound files input))
    (hfile : files.plainText (tidyPath path) = .ok source) (fuel : Nat) :
    (Ending.ofValues (Eval.values fuel script.expression n.toNat (Eval.enteredAll bound script.functions))).Of
      (runFile fuel (count :: path :: bindings) (.begun m files input)) := by
  have hread : readText (tidyPath path) (.begun bound files input) = .ok source (.begun bound files input) :=
    readText_of_plainText rfl hfile
  rw [runFile_eq hcount hn, bind_of_ok hbind, bind_of_ok hread]
  simp only [Bind.bind, EStateM.bind, onSession_run hscript]
  exact script_evaluated fuel script.expression n.toNat

/-- A document whose arguments can be bound is evaluated. -/
theorem runDocument_evaluated {bound : Machine} (hscript : compiled? source = some script)
    (hcount : Numeral.integer? count = some n) (hn : 1 ≤ n)
    (hload : loadDocument path (.begun m files input) = .ok script (.begun m files input))
    (hbind : Work.bind bindings (.begun m files input) = .ok () (.begun bound files input)) (fuel : Nat) :
    (Ending.ofValues (Eval.values fuel script.expression n.toNat (Eval.enteredAll bound script.functions))).Of
      (runDocument fuel path (count :: bindings) (.begun m files input)) := by
  obtain ⟨tokens, hscan, hread⟩ := compiled?_eq_some_iff.1 hscript
  have hdefine : Shell.onMachine (Eval.defineAll script.functions) (.initial bound input) =
      .ok () (.initial (Eval.enteredAll bound script.functions) input) := by
    simp only [Shell.onMachine, Session.initial, defineAll_of_ofTokens hscan hread]
  rw [runDocument_eq hcount hn hload, bind_of_ok hbind, bind_of_ok (onSession_begun hdefine files)]
  exact document_evaluated fuel script.expression n.toNat

/-- The document of a script that compiles is written, and its path is told. -/
theorem emitDocument_eq {after : Files} (hfile : files.plainText path = .ok source)
    (hscript : compiled? source = some script)
    (hwrite : files.write (path ++ ".ast.json") (Json.documentText (Document.ofScript script)) = .ok after) :
    let told : Session := { Session.initial m input with output := path ++ ".ast.json" ++ "\n" }
    emitDocument path (.begun m files input) = .ok () { Job.begun m after input with session := told } := by
  obtain ⟨tokens, hscan, hread⟩ := compiled?_eq_some_iff.1 hscript
  have htext : readText path (.begun m files input) = .ok source (.begun m files input) :=
    readText_of_plainText rfl hfile
  have hcompile : Shell.onMachine (Eval.compile source) (.initial m input) =
      .ok (.ok script) (.initial m input) := by
    simp only [Shell.onMachine, Session.initial, Eval.compile_eq hscan, hread]
    rfl
  have hwritten : writeText (path ++ ".ast.json") (Json.documentText (Document.ofScript script))
      (.begun m files input) = .ok () (.begun m after input) := by
    refine (get_bind _).trans ?_
    simp only [Job.begun, hwrite]
    rfl
  refine (bind_of_ok htext).trans ?_
  refine (bind_of_ok (onSession_begun hcompile files)).trans ?_
  refine (bind_of_ok hwritten).trans ?_
  have htold (s : Session) (text : String) : Shell.write text s =
      .ok () { s with output := s.output ++ (text ++ "\n") } := rfl
  simp only [onSession, Job.begun, Session.initial, htold, String.empty_append]

end

end Work

/-- A script that was compiled is ready to be run on a new machine. -/
theorem ready_of_compiled? {source : String} {script : Script} (hscript : compiled? source = some script)
    (dice : Dice) (verbosity : Nat) (bindings : List Binding) :
    Eval.Ready script.expression
      (Eval.enteredAll (Eval.pushedAll (.initial dice verbosity) bindings) script.functions) := by
  obtain ⟨tokens, hscan, hread⟩ := compiled?_eq_some_iff.1 hscript
  have hts := scan_scanned hscan
  obtain ⟨hscripted, hcallable⟩ := Grammar.isScripted_of_ofTokens hts hread
  obtain ⟨hplaced, hplaced'⟩ := isPlaced_of_compiled? hscript
  have htold := Eval.pushedAll_told bindings (.initial dice verbosity)
  have hfunctions : (Eval.enteredAll (Eval.pushedAll (.initial dice verbosity) bindings)
      script.functions).functions = script.functions := by
    rw [Eval.enteredAll_functions, htold.functions]
    exact Table.merge_of_nodup [] _ (Grammar.keyed_of_ofTokens hts hread).once
  refine ⟨hscripted, ?_, ?_, ?_⟩
  · rw [hfunctions]
    exact hcallable
  · rw [hfunctions]
    rintro op (hop | ⟨entry, hentry, hop⟩)
    · exact hplaced op hop
    · exact hplaced' entry hentry op hop
  · rw [Eval.reports_enteredAll, htold.reports]
    simp [Machine.reports, Machine.initial]

theorem conducted_ofValues {fuel : Nat} {m : Machine} {arguments : List String} {script : Script} {count : Nat}
    {bindings : List Binding} (hbindings : argumentBindings? arguments = some bindings)
    (hstops : ∀ stop after,
      (scriptValues fuel m bindings script count).2 = .error stop after → stop = .outOfFuel) :
    let ending := Ending.ofValues (scriptValues fuel m bindings script count)
    Conducted fuel m arguments script count ending.exit ending.output := by
  rcases hfound : scriptValues fuel m bindings script count with ⟨vs, last⟩
  cases last with
  | ok err after =>
    cases err with
    | none => exact .finished hbindings hfound
    | some err => exact .failed hbindings hfound
  | error stop after =>
    rw [hfound] at hstops
    obtain rfl := hstops stop after rfl
    exact .brokenOff hbindings hfound

/-- A script file and a document of the script come to the same ending, and all that is reported can be shown. -/
theorem common_ending {source path count document : String} {script : Script} {n : Int}
    (hscript : compiled? source = some script) (hcount : Numeral.integer? count = some n) (hn : 1 ≤ n)
    (hjson : Json.parse (Json.documentText (Document.ofScript script)) = .ok (Document.ofScript script))
    (fuel : Nat) (dice : Dice) (verbosity : Nat) (arguments input : List String) :
    let m := Machine.initial dice verbosity
    ∃ ending : Ending, Conducted fuel m arguments script n.toNat ending.exit ending.output ∧
      (∀ p ∈ ending.machine.reports, p.IsShown) ∧
      (∀ files : Files, files.plainText (tidyPath path) = .ok source →
        ending.Of (Work.runFile fuel (count :: path :: arguments) (.begun m files input))) ∧
      ∀ files : Files, files.plainText document = .ok (Json.documentText (Document.ofScript script)) →
        ending.Of (Work.runDocument fuel document (count :: arguments) (.begun m files input)) := by
  intro m
  have hload (files : Files) (hdocument : files.plainText document =
      .ok (Json.documentText (Document.ofScript script))) :
      Work.loadDocument document (.begun m files input) = .ok script (.begun m files input) :=
    Work.loadDocument_of_plainText hscript hjson hdocument
  rcases Work.bind_settled arguments m input with ⟨bindings, hbindings, hbind⟩ | ⟨p, hnone, hshown, hbind⟩
  · obtain ⟨hshown, hstops⟩ := (ready_of_compiled? hscript dice verbosity bindings).values fuel n.toNat
    refine ⟨.ofValues (scriptValues fuel m bindings script n.toNat), conducted_ofValues hbindings hstops, hshown,
      fun files hfile => ?_, fun files hdocument => ?_⟩
    · exact Work.runFile_evaluated hscript hcount hn (hbind files) hfile fuel
    · exact Work.runDocument_evaluated hscript hcount hn (hload files hdocument) (hbind files) fuel
  · refine ⟨.malformed m p, .malformed hnone, ?_, fun files _ => ?_, fun files hdocument => ?_⟩
    · simp [Ending.malformed, m, Machine.initial, Machine.reports, Machine.reported, Note.problem?, hshown]
    · obtain ⟨job, hbind, hof⟩ := hbind files
      rw [Work.runFile_eq hcount hn, bind_of_error hbind]
      exact hof
    · obtain ⟨job, hbind, hof⟩ := hbind files
      rw [Work.runDocument_eq hcount hn (hload files hdocument), bind_of_error hbind]
      exact hof

/-! What a command leaves. -/

def ended : EStateM.Result Exit Job Unit → Outcome
  | .ok _ job => finish (.status 0) job
  | .error exit job => finish exit job

theorem runWith_eq (fuel : Nat) {o : Options} (hdebug : o.debugFile = none) (start : Start) :
    runWith fuel o start = ended (Work.perform fuel o start
      (.begun (.initial start.dice o.verbosity) start.files (Text.inputLines start.input))) := by
  have htrace : o.tracePath? = none := by
    simp [Options.tracePath?, hdebug, Work.given?]
  simp only [runWith, htrace]
  rfl

theorem finish_eq {exit : Exit} {job : Job} (htrace : job.trace = none)
    (hshown : ∀ p ∈ job.session.machine.reports, p.IsShown) :
    finish exit job =
      ⟨exit, job.session.output,
       some (String.join (job.session.machine.log.toList.filterMap (noteLine? true)) ++ job.complaints),
       job.files⟩ := by
  have hnotes : ∀ note ∈ job.session.machine.log.toList, (noteLine? true note).isSome = true := by
    intro note hnote
    cases note with
    | trace e => rfl
    | report p =>
      have hp : p ∈ job.session.machine.reports := List.mem_filterMap.2 ⟨_, hnote, rfl⟩
      rw [noteLine?, Option.isSome_map]
      exact hshown p hp
  have hsettle : settle exit job = (exit, job) := by
    simp only [settle, List.takeWhile_eq_self_iff.2 hnotes, if_true]
  simp only [finish, hsettle, Job.currentFiles, htrace, Option.isNone_none]

def Ending.errors (ending : Ending) : String :=
  String.join (ending.machine.log.toList.filterMap (noteLine? true)) ++ ending.complaints

theorem Ending.Of.ended {ending : Ending} {result : EStateM.Result Exit Job Unit} (h : ending.Of result)
    (hshown : ∀ p ∈ ending.machine.reports, p.IsShown) :
    ∃ files, CommandLine.ended result = ⟨ending.exit, ending.output, some ending.errors, files⟩ := by
  cases h with
  | success h htrace =>
    subst h
    exact ⟨_, finish_eq htrace hshown⟩
  | exit h htrace =>
    subst h
    exact ⟨_, finish_eq htrace hshown⟩

/-! The three commands. -/

theorem given?_of_ne {path : String} (h : path ≠ "") : Work.given? (some path) = some path := by
  have hne : path.isEmpty = false := by
    rwa [← Bool.not_eq_true, String.isEmpty_iff]
  simp [Work.given?, hne]

section

variable {fuel : Nat} {files after : Files} {path count source input : String} {interactive : Bool} {dice : Dice}
  {bindings : List String} {script : Script}

/-- Making a document succeeds, and nothing but the document is written to the files. -/
theorem run_emission (hword : IsWord path) (hsome : path ≠ "")
    (hfile : files.plainText (tidyPath path) = .ok source) (hscript : compiled? source = some script)
    (hwrite : files.write (tidyPath path ++ ".ast.json") (Json.documentText (Document.ofScript script)) = .ok after) :
    run fuel ⟨["--emit-ast", path], files, input, interactive, dice⟩ =
      ⟨.status 0, tidyPath path ++ ".ast.json" ++ "\n", some "", after⟩ := by
  have hemit := @Work.emitDocument_eq source script (.initial dice 0) files (Text.inputLines input) _ after hfile
    hscript hwrite
  rw [run, parse_emitted hword]
  dsimp only
  rw [runWith_eq fuel rfl]
  simp only [Work.perform, given?_of_ne hsome]
  rw [hemit]
  dsimp only [ended]
  rw [finish_eq rfl fun p hp => absurd hp List.not_mem_nil]
  simp [Session.initial, Machine.initial, Job.begun]

theorem run_script {k : Nat} (hwords : ∀ s ∈ count :: path :: bindings, IsWord s) :
    run fuel ⟨List.replicate k "-v" ++ count :: path :: bindings, files, input, interactive, dice⟩ =
      ended (Work.runFile fuel (count :: path :: bindings)
        (.begun (.initial dice k) files (Text.inputLines input))) := by
  rw [run, parse_words k hwords]
  dsimp only
  rw [runWith_eq fuel rfl]
  rfl

theorem run_loaded {k : Nat} (hpath : IsWord path) (hsome : path ≠ "")
    (hwords : ∀ s ∈ count :: bindings, IsWord s) :
    run fuel ⟨List.replicate k "-v" ++ "--ast" :: path :: count :: bindings, files, input, interactive, dice⟩ =
      ended (Work.runDocument fuel (tidyPath path) (count :: bindings)
        (.begun (.initial dice k) files (Text.inputLines input))) := by
  rw [run, parse_loaded k hpath hwords]
  dsimp only
  rw [runWith_eq fuel rfl]
  simp only [Work.perform, given?_of_ne hsome]
  rfl

/-- Let a script file compile, and let its document be written and read back as it was written. If the file and the
document are words to the command line, a count and arguments for the file do with the document what they do with
the file, at any verbosity: the output, the errors and the status are the same. The status is 64 if the arguments
are malformed, 70 if an evaluation fails, with the values before it written, and else 0 with all values written. -/
theorem run_emitted {k : Nat} {n : Int} (hpath : IsWord path) (hdocument : IsWord (path ++ ".ast.json"))
    (hname : EndsInName path.toList) (hfile : files.plainText (tidyPath path) = .ok source)
    (hscript : compiled? source = some script) (hcount : Numeral.integer? count = some n) (hn : 1 ≤ n)
    (hbindings : ∀ b ∈ bindings, b.toList.head? ≠ some '-')
    (hwrite : files.write (tidyPath path ++ ".ast.json") (Json.documentText (Document.ofScript script)) = .ok after)
    (hback : after.plainText (tidyPath path ++ ".ast.json") = .ok (Json.documentText (Document.ofScript script)))
    (hjson : Json.parse (Json.documentText (Document.ofScript script)) = .ok (Document.ofScript script)) :
    let verbose := List.replicate k "-v"
    let direct := run fuel ⟨verbose ++ count :: path :: bindings, files, input, interactive, dice⟩
    let emission := run fuel ⟨["--emit-ast", path], files, input, interactive, dice⟩
    let loaded := run fuel
      ⟨verbose ++ "--ast" :: (path ++ ".ast.json") :: count :: bindings, emission.files, input, interactive, dice⟩
    emission.exit = .status 0 ∧ loaded.output = direct.output ∧ loaded.errors = direct.errors ∧
      loaded.exit = direct.exit ∧
      Conducted fuel (.initial dice k) bindings script n.toNat direct.exit direct.output := by
  intro verbose direct emission loaded
  have hwords : ∀ s ∈ count :: bindings, IsWord s :=
    List.forall_mem_cons.2 ⟨isWord_of_integer? hcount hn, fun b hb => isWord_of_head (hbindings b hb)⟩
  have hwords' : ∀ s ∈ count :: path :: bindings, IsWord s := by
    simp only [List.forall_mem_cons] at hwords ⊢
    exact ⟨hwords.1, hpath, hwords.2⟩
  have htidy : tidyPath (path ++ ".ast.json") = tidyPath path ++ ".ast.json" :=
    tidyPath_append hname (by decide) (by decide)
  have hsome : path ++ ".ast.json" ≠ "" := by
    simp [String.append_eq_empty_iff]
  have hemission : emission = ⟨.status 0, tidyPath path ++ ".ast.json" ++ "\n", some "", after⟩ :=
    run_emission hpath hname.ne_empty hfile hscript hwrite
  obtain ⟨ending, hconducted, hshown, hrunFile, hrunDocument⟩ :=
    @common_ending source path count (tidyPath path ++ ".ast.json") script n hscript hcount hn hjson fuel dice k
      bindings (Text.inputLines input)
  obtain ⟨files₁, hdirect⟩ := (hrunFile files hfile).ended hshown
  obtain ⟨files₂, hloaded⟩ := (hrunDocument after hback).ended hshown
  have hdirect : direct = ⟨ending.exit, ending.output, some ending.errors, files₁⟩ :=
    (run_script hwords').trans hdirect
  have hloaded : loaded = ⟨ending.exit, ending.output, some ending.errors, files₂⟩ := by
    refine (run_loaded hdocument hsome hwords).trans ?_
    rw [htidy, hemission]
    exact hloaded
  rw [hemission, hloaded, hdirect]
  exact ⟨rfl, rfl, rfl, rfl, hconducted⟩

end

/-- A variable that is bound behind the script, evaluated twice and traced. -/
theorem run_emitted_variable :
    let dice : Dice := ⟨[], 0⟩
    let files : Files := [("a.t", .file "x")]
    let script : Script := ⟨.var (.text "x") .missing, []⟩
    let direct := run 9 ⟨["-v", "2", "a.t", "x=5"], files, "", false, dice⟩
    let emission := run 9 ⟨["--emit-ast", "a.t"], files, "", false, dice⟩
    let loaded := run 9 ⟨["-v", "--ast", "a.t" ++ ".ast.json", "2", "x=5"], emission.files, "", false, dice⟩
    compiled? "x" = some script ∧ emission.exit = .status 0 ∧ loaded.output = direct.output ∧
      loaded.errors = direct.errors ∧ loaded.exit = direct.exit ∧
      Conducted 9 (.initial dice 1) ["x=5"] script 2 direct.exit direct.output := by
  intro dice files script direct emission loaded
  let document : String := "\x7b\n  \"type\": \"Script\",\n  \"expression\": \x7b\n    \"type\": \"Variable\",\n" ++
    "    \"identifier\": \"x\",\n    \"default\": null\n  \x7d,\n  \"functions\": []\n\x7d"
  have hscan : (scan "x").toOption = some
      [Word.at ⟨.identifier, .text "x", .null⟩ ⟨1, 1⟩, Word.endOfInput.at ⟨1, 2⟩] := by
    decide +kernel
  have hscript : compiled? "x" = some script := by
    rw [compiled?, hscan]
    rfl
  have htext : Json.documentText (Document.ofScript script) = document := by decide +kernel
  have hjson : (Json.parse document).toOption = some (Document.ofScript script) := by decide +kernel
  have htidy : tidyPath "a.t" = "a.t" := by decide +kernel
  have hfile : files.plainText (tidyPath "a.t") = .ok "x" := by decide +kernel
  have hwrite : files.write ("a.t" ++ ".ast.json") document = .ok (files ++ [("a.t.ast.json", .file document)]) := rfl
  have hback : Files.plainText (files ++ [("a.t.ast.json", .file document)]) ("a.t" ++ ".ast.json") =
      .ok document := by
    decide +kernel
  have hparsed : Json.parse (Json.documentText (Document.ofScript script)) = .ok (Document.ofScript script) := by
    rw [htext]
    exact eq_ok_of_toOption hjson
  refine ⟨hscript, ?_⟩
  exact @run_emitted 9 files (files ++ [("a.t.ast.json", .file document)]) "a.t" "2" "x" "" false dice ["x=5"]
    script 1 2 (isWord_of_head (by decide)) (isWord_of_head (by decide)) (.alone (by decide)) hfile hscript
    (by decide +kernel) (by decide) (by decide) (by rw [htidy, htext]; exact hwrite)
    (by rw [htidy, htext]; exact hback) hparsed

/-- Not every path will do. One that looks like a negative number is a word, but its document is not. One that ends
in a slash loses it, so that its document is beside it and not within. -/
theorem run_emitted_refused :
    let dice : Dice := ⟨[], 0⟩
    let runOn (files : Files) (arguments : List String) := run 9 ⟨arguments, files, "", false, dice⟩
    let dashed : Files := [("-5", .file "1")]
    let slashed : Files := [("a.t", .file "1")]
    (runOn dashed ["--emit-ast", "-5"]).exit = .status 0 ∧ (runOn dashed ["3", "-5"]).exit = .status 0 ∧
      (runOn (runOn dashed ["--emit-ast", "-5"]).files ["--ast", "-5.ast.json", "3"]).exit = .status refusedStatus ∧
      (runOn slashed ["--emit-ast", "a.t/"]).exit = .status 0 ∧ (runOn slashed ["2", "a.t/"]).exit = .status 0 ∧
      (runOn (runOn slashed ["--emit-ast", "a.t/"]).files ["--ast", "a.t/.ast.json", "2"]).exit =
        .status inputStatus := by
  intro dice runOn dashed slashed
  let script : Script := ⟨.literal (.number 1), []⟩
  have hscan : (scan "1").toOption = some
      [Word.at ⟨.integer, .text "1", .integer 1⟩ ⟨1, 1⟩, Word.endOfInput.at ⟨1, 2⟩] := by
    decide +kernel
  have hscript : compiled? "1" = some script := by
    rw [compiled?, hscan]
    rfl
  let m : Machine := .initial dice 0
  have hdirect {files : Files} {count path : String} {n : Int} (hcount : Numeral.integer? count = some n)
      (hn : 1 ≤ n) (hpath : IsWord path) (hfile : files.plainText (tidyPath path) = .ok "1")
      (hexit : (Ending.ofValues (Eval.values 9 script.expression n.toNat m)).exit = .status 0) :
      (runOn files [count, path]).exit = .status 0 := by
    have hwords : ∀ s ∈ [count, path], IsWord s := by simp [hpath, isWord_of_integer? hcount hn]
    have hbind : Work.bind [] (.begun m files (Text.inputLines "")) = .ok () (.begun m files (Text.inputLines "")) :=
      rfl
    have hending := Work.runFile_evaluated hscript hcount hn hbind hfile 9
    obtain ⟨_, hended⟩ := hending.ended ((ready_of_compiled? hscript dice 0 []).values 9 n.toNat).1
    have hrun : runOn files [count, path] = _ :=
      (@run_script 9 files path count "" false dice [] 0 hwords).trans hended
    rw [hrun]
    exact hexit
  have hrefused : Options.parse ["--ast", "-5.ast.json", "3"] = .error .malformed := by decide +kernel
  have hemission {files after : Files} {path : String} (hpath : IsWord path) (hsome : path ≠ "")
      (hfile : files.plainText (tidyPath path) = .ok "1") (hwrite : files.write (tidyPath path ++ ".ast.json")
        (Json.documentText (Document.ofScript script)) = .ok after) :
      (runOn files ["--emit-ast", path]).exit = .status 0 ∧ (runOn files ["--emit-ast", path]).files = after := by
    have hrun : runOn files ["--emit-ast", path] = _ := run_emission hpath hsome hfile hscript hwrite
    rw [hrun]
    exact ⟨rfl, rfl⟩
  have hdashed := @hemission dashed _ "-5" ⟨by decide, by decide +kernel⟩ (by decide) (by decide +kernel) rfl
  have hslashed := @hemission slashed _ "a.t/" (isWord_of_head (by decide)) (by decide) (by decide +kernel) rfl
  have hmissing {text : String} : (runOn [("a.t", .file "1"), ("a.t.ast.json", .file text)]
      ["--ast", "a.t/.ast.json", "2"]).exit = .status inputStatus := by
    let files : Files := [("a.t", .file "1"), ("a.t.ast.json", .file text)]
    have hread : files.read (tidyPath "a.t/.ast.json") = .error .notDirectory := rfl
    obtain ⟨complaints, hload⟩ := @Work.loadDocument_of_error m files (Text.inputLines "") _ _ hread (by decide)
    have hcount : Numeral.integer? "2" = some 2 := by decide +kernel
    have hdocument : Work.runDocument 9 (tidyPath "a.t/.ast.json") ["2"] (.begun m files (Text.inputLines "")) = _ :=
      (bind_of_ok (Work.repetitions_of_integer? hcount (by decide) [] _)).trans (bind_of_error hload)
    have hrun : runOn files ["--ast", "a.t/.ast.json", "2"] = _ :=
      @run_loaded 9 files "a.t/.ast.json" "2" "" false dice [] 0 (isWord_of_head (by decide)) (by decide)
        (by simp [isWord_of_integer? hcount])
    rw [hrun, hdocument]
    dsimp only [ended]
    rw [finish_eq rfl fun p hp => absurd hp List.not_mem_nil]
  refine ⟨hdashed.1, ?_, ?_, hslashed.1, ?_, ?_⟩
  · exact hdirect (n := 3) (by decide +kernel) (by decide) ⟨by decide, by decide +kernel⟩ (by decide +kernel) rfl
  · simp only [runOn, run, hrefused]
  · exact hdirect (n := 2) (by decide +kernel) (by decide) (isWord_of_head (by decide)) (by decide +kernel) rfl
  · rw [hslashed.2]
    exact hmissing

end CommandLine

end DiceScript
