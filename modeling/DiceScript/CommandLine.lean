import DiceScript.CommandLine.Files
import DiceScript.CommandLine.Options
import DiceScript.Document.Reader
import DiceScript.Session

/-!
# The command line

A command runs a script file, runs a document, makes a document from a script, runs its input, or holds a
session with a person. It ends with status 64 when it is used wrongly or the script does not compile, 66
when a file cannot be read and 70 when evaluation fails.

The log of the machine goes to the error stream as it comes, except that events go to the debug file if
one is given, where a file that is read later may meet them. Complaints of the command itself are its last
words, so they follow the log.
-/

namespace DiceScript

namespace CommandLine

def usage : String := "usage: troll [[N] <script> [ID1=N1] [ID2=N2] ... [IDn=Nn]]"

def usageStatus : Nat := 64

def inputStatus : Nat := 66

def evaluationStatus : Nat := 70

def refusedStatus : Nat := 2

inductive Escape where
  | fault (f : Fault)
  | document (e : Document.Error)
  | file (e : FileError)
  | outOfFuel

inductive Exit where
  | status (n : Nat)
  | escaped (e : Escape)

def eventLines (events : List Event) : String :=
  String.join (events.map fun e => e.text ++ "\n")

/-- What a command works on. The trace is the debug file, if there is one. -/
structure Job where
  session : Session
  files : Files
  complaints : String
  trace : Option String

/-- The files as they are now, with all events so far in the debug file. -/
def Job.currentFiles (job : Job) : Files :=
  match job.trace with
  | none => job.files
  | some path =>
    let events := job.session.machine.events
    if events.isEmpty then job.files
    else
      match job.files.write path (eventLines events) with
      | .ok files => files
      | .error _ => job.files

abbrev Work := EStateM Exit Job

structure Start where
  arguments : List String
  files : Files
  input : String
  interactive : Bool
  dice : Dice

/-- What a command leaves. When the options are refused, nothing is said of the error stream. -/
structure Outcome where
  exit : Exit
  output : String
  errors : Option String
  files : Files

namespace Work

variable {α : Type}

def quit (status : Nat) : Work α :=
  throw (.status status)

def complain (text : String) : Work Unit :=
  modify fun job => { job with complaints := job.complaints ++ text ++ "\n" }

def usageError : Work α := do
  complain usage
  quit usageStatus

def onSession (x : Shell α) : Work α := fun job =>
  match x job.session with
  | .ok a s => .ok a { job with session := s }
  | .error (.error _) s => .error (.status evaluationStatus) { job with session := s }
  | .error (.fault f) s => .error (.escaped (.fault f)) { job with session := s }
  | .error .outOfFuel s => .error (.escaped .outOfFuel) { job with session := s }

/-- Divide a count at the front, which must be positive, from the other arguments. -/
def repetitions : List String → Work (Nat × List String)
  | [] => pure (1, [])
  | first :: rest =>
    match Numeral.integer? first with
    | none => pure (1, first :: rest)
    | some n => if n < 1 then usageError else pure (n.toNat, rest)

/-- The text of a file, with plain line ends. -/
def readText (path : String) : Work String := do
  match (← get).currentFiles.read path with
  | .ok text => pure (String.ofList (Text.unixNewlines text.toList))
  | .error .nullInPath => throw (.escaped (.file .nullInPath))
  | .error e => do
    complain ("Error: cannot read " ++ path ++ ": " ++ e.message)
    quit inputStatus

def writeText (path text : String) : Work Unit := do
  let job ← get
  match job.files.write path text with
  | .ok files => set { job with files := files }
  | .error e => throw (.escaped (.file e))

def bind (arguments : List String) : Work Unit := do
  if arguments.isEmpty then pure ()
  else
    let bound ← onSession (Shell.pushArguments arguments)
    if bound then pure () else usageError

/-- Write the document of a script beside it and tell its name. -/
def emitDocument (path : String) : Work Unit := do
  let source ← readText path
  match ← onSession (Shell.onMachine (Eval.compile source)) with
  | .error _ => quit usageStatus
  | .ok script => do
    let target := path ++ ".ast.json"
    writeText target (Json.documentText (Document.ofScript script))
    onSession (Shell.write target)

def rejectDocument (path reason : String) : Work α := do
  complain ("Error: " ++ path ++ " is not a Troll AST file: " ++ reason)
  quit usageStatus

/-- The text of a document. A path that cannot be looked for is the document's fault. -/
def readDocument (path : String) : Work String :=
  tryCatch (readText path) fun
    | .escaped (.file e) => rejectDocument path e.message
    | exit => throw exit

def loadDocument (path : String) : Work Script := do
  let text ← readDocument path
  match Document.parse text with
  | .ok script => pure script
  | .error e =>
    if e.isRejection then rejectDocument path e.message else throw (.escaped (.document e))

def runDocument (fuel : Nat) (path : String) (arguments : List String) : Work Unit := do
  let (count, rest) ← repetitions arguments
  let script ← loadDocument path
  bind rest
  onSession (Shell.onMachine (Eval.defineAll script.functions))
  let finished ← onSession (Shell.evaluateAndWrite fuel script.expression count)
  if finished then pure () else quit evaluationStatus

def conclude : Work Unit := do
  let s := (← get).session
  if s.hadError then quit usageStatus
  else if s.hadRuntimeError then quit evaluationStatus
  else pure ()

def runFile (fuel : Nat) (arguments : List String) : Work Unit := do
  let (count, rest) ← repetitions arguments
  match rest with
  | [] => usageError
  | path :: bindings => do
    bind bindings
    let source ← readText (tidyPath path)
    onSession (Shell.run fuel source count)
    conclude

/-- An option value that says something. -/
def given? (value : Option String) : Option String :=
  value.filter fun s => !s.isEmpty

def perform (fuel : Nat) (o : Options) (start : Start) : Work Unit := do
  match given? o.emitted, given? o.loaded with
  | some path, _ => emitDocument (tidyPath path)
  | none, some path => runDocument fuel (tidyPath path) o.arguments
  | none, none =>
    if !o.arguments.isEmpty then runFile fuel o.arguments
    else if start.interactive then onSession (Shell.repl fuel)
    else do
      onSession (Shell.run fuel (String.ofList (Text.unixNewlines start.input.toList)) 1)
      conclude

end Work

/-- Whether a command with these options takes its script, or its lines, from the input. -/
def Options.usesInput (o : Options) : Bool :=
  (Work.given? o.emitted).isNone && (Work.given? o.loaded).isNone && o.arguments.isEmpty

/-- The debug file in use: it is of no use without events. -/
def Options.tracePath? (o : Options) : Option String :=
  if o.verbosity = 0 then none else Work.given? o.debugFile

/-- A log entry on the error stream, if it can be shown. -/
def noteLine? (withEvents : Bool) : Note → Option String
  | .report p => p.consoleLine?.map (· ++ "\n")
  | .trace e => some (if withEvents then e.text ++ "\n" else "")

/-- The job with only the first entries of its log. -/
def Job.withLog (job : Job) (notes : List Note) : Job :=
  let machine := { job.session.machine with log := notes.toArray }
  { job with session := { job.session with machine := machine } }

/-- A command is broken off by the first report that cannot be shown. -/
def settle (exit : Exit) (job : Job) : Exit × Job :=
  let notes := job.session.machine.log.toList
  let shown := notes.takeWhile fun note => (noteLine? true note).isSome
  if shown.length = notes.length then (exit, job)
  else (.escaped (.fault .unplaced), job.withLog shown)

def finish (exit : Exit) (job : Job) : Outcome :=
  let (exit, job) := settle exit job
  let log := job.session.machine.log.toList.filterMap (noteLine? job.trace.isNone)
  { exit := exit
    output := job.session.output
    errors := some (String.join log ++ job.complaints)
    files := job.currentFiles }

/-- Run a command with options that were understood. The debug file is emptied first. -/
def runWith (fuel : Nat) (o : Options) (start : Start) : Outcome :=
  let trace := o.tracePath?
  let machine := Machine.initial start.dice o.verbosity
  let job : Job := ⟨.initial machine (Text.inputLines start.input), start.files, "", trace⟩
  let work : Work Unit := do
    match trace with
    | some path => Work.writeText path ""
    | none => pure ()
    Work.perform fuel o start
  match work job with
  | .ok _ job => finish (.status 0) job
  | .error exit job => finish exit job

def run (fuel : Nat) (start : Start) : Outcome :=
  match Options.parse start.arguments with
  | .error .malformed => ⟨.status refusedStatus, "", none, start.files⟩
  | .error .help => ⟨.status 0, usage ++ "\n", some "", start.files⟩
  | .ok o => runWith fuel o start

end CommandLine

end DiceScript
