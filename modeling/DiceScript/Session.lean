import DiceScript.Machine.Run
import DiceScript.Session.Command

/-!
# Sessions

A session runs scripts and commands on one machine. Functions of a script stay for the next one, and
variables stay bound until they are removed. A line that fails, whether it is a command or a script that
does not compile, changes neither bindings nor functions. What the session writes is kept as text, and
what it reads is a list of lines.
-/

namespace DiceScript

structure Session where
  machine : Machine
  showTokens : Bool
  showTree : Bool
  hadError : Bool
  hadRuntimeError : Bool
  input : List String
  output : String

abbrev Shell := EStateM Stop Session

namespace Session

def prompt : String := "troll> "

def helpText : String :=
  "Commands:\n\n" ++
  "+help - print this message\n" ++
  "+multiline - enter a Troll script over multiple lines\n" ++
  "+/-parser - turn on/off printing of abstract syntax tree\n" ++
  "+/-scanner - turn on/off printing of token stream\n" ++
  "+set <identifier> <integer> - set a variable to be used in subsequent Troll expressions\n" ++
  "-set <identifier> - remove the definition for <identifier>\n" ++
  "+version - print the version\n\n" ++
  "+quit - quit the interpreter\n\n" ++
  "Any other line will be assumed to be a Troll script and parsed accordingly.\n"

def entryEnd : String := "+done"

def initial (machine : Machine) (input : List String) : Session :=
  ⟨machine, false, false, false, false, input, ""⟩

end Session

namespace Shell

variable {α : Type}

def onMachine (x : Eval α) : Shell α := fun s =>
  match x s.machine with
  | .ok a m => .ok a { s with machine := m }
  | .error stop m => .error stop { s with machine := m }

def emit (text : String) : Shell Unit :=
  modify fun s => { s with output := s.output ++ text }

def write (text : String) : Shell Unit :=
  emit (text ++ "\n")

def readLine : Shell (Option String) := do
  let s ← get
  match s.input with
  | [] => pure none
  | line :: rest => do
    set { s with input := rest }
    pure (some line)

def flagError : Shell Unit :=
  modify fun s => { s with hadError := true }

def flagRuntimeError : Shell Unit :=
  modify fun s => { s with hadRuntimeError := true }

/-- Evaluate an expression a number of times and write each value. An error ends it; the answer tells
whether there was none. -/
def evaluateAndWrite (fuel : Nat) (e : Expr) : Nat → Shell Bool
  | 0 => pure true
  | count + 1 => do
    match ← onMachine (Eval.evaluate fuel e) with
    | .error _ => pure false
    | .ok v => do
      write v.display
      evaluateAndWrite fuel e count

def run (fuel : Nat) (source : String) (repetitions : Nat) : Shell Unit := do
  match ← onMachine (Eval.scanned source) with
  | .error _ => flagError
  | .ok tokens => do
    if (← get).showTokens then write (String.intercalate " " (tokens.map Token.display))
    match ← onMachine (Eval.ofRead (Script.ofTokens tokens)) with
    | .error _ => flagError
    | .ok script => do
      if (← get).showTree then write ("Tree: " ++ script.expression.display)
      onMachine (Eval.defineAll script.functions)
      let finished ← evaluateAndWrite fuel script.expression repetitions
      if finished then pure () else flagRuntimeError

/-- Bind `name=number` arguments, or none of them when any is malformed. -/
def pushArguments (arguments : List String) : Shell Bool := do
  match ← onMachine (Eval.compileBindings (String.intercalate " " arguments)) with
  | .error _ => pure false
  | .ok bindings => do
    onMachine (Eval.pushAll bindings)
    pure true

def writeVersion : Shell Unit :=
  write ("Troll version " ++ Machine.version)

/-- The lines up to the one that ends an entry, without blanks at their ends, and the lines after it. -/
def entry : List String → List String × List String
  | [] => ([], [])
  | line :: rest =>
    if Text.strip line = Session.entryEnd then ([], rest)
    else
      let (lines, rest) := entry rest
      (Text.strip line :: lines, rest)

def multiline : Shell String := do
  write "Enter '+done' on its own line when you are finished."
  let s ← get
  let (lines, rest) := entry s.input
  set { s with input := rest }
  pure (String.intercalate "\n" lines)

/-- Carry out a command; the answer tells whether the session goes on. -/
def execute (fuel : Nat) : Command → Shell Bool
  | .quit => pure false
  | .help => do
    writeVersion
    write ""
    write Session.helpText
    pure true
  | .version => do
    writeVersion
    pure true
  | .multiline => do
    let source ← multiline
    run fuel source 1
    pure true
  | .showTokens => do
    modify fun s => { s with showTokens := true }
    pure true
  | .hideTokens => do
    modify fun s => { s with showTokens := false }
    pure true
  | .showTree => do
    modify fun s => { s with showTree := true }
    pure true
  | .hideTree => do
    modify fun s => { s with showTree := false }
    pure true
  | .setVariable name value => do
    onMachine (Eval.push ⟨.text name, .number value⟩)
    pure true
  | .unsetVariable name => do
    let _ ← onMachine (Eval.remove (.text name))
    pure true

def usage (line : String) : String :=
  if "+set".toList.isPrefixOf line.toList then "usage: +set <identifier> <integer>"
  else if "-set".toList.isPrefixOf line.toList then "usage: -set <identifier>"
  else "Unknown command '" ++ line ++ "'. Enter +help for a list of commands."

/-- Handle one line; the answer tells whether the session goes on. -/
def executeLine (fuel : Nat) (line : String) : Shell Bool := do
  let line := Text.strip line
  if line.isEmpty then pure true
  else if Command.isCommand line then
    match Command.parse? line with
    | some command => execute fuel command
    | none => do
      write (usage line)
      pure true
  else do
    run fuel line 1
    pure true

/-- Read and handle lines until one ends the session or there are no more, at most `count` of them. -/
def loop (fuel : Nat) : Nat → Shell Unit
  | 0 => pure ()
  | count + 1 => do
    emit Session.prompt
    match ← readLine with
    | none => write ""
    | some line => do
      let goesOn ← executeLine fuel line
      if goesOn then loop fuel count else pure ()

def repl (fuel : Nat) : Shell Unit := do
  loop fuel ((← get).input.length + 1)

end Shell

end DiceScript
