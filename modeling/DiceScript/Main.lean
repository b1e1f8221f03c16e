import DiceScript.CommandLine

/-!
# The program

Reads what a command needs, runs it, and writes what it leaves. A session with a person is held line by
line instead, so that each answer is seen before the next line is typed.
-/

namespace DiceScript.Program

/-- A bound on the depth of evaluation that no command reaches. -/
def fuel : Nat := 1000000000

def entryAt (path : String) : IO (Option Entry) := do
  try
    return some (.file (← IO.FS.readFile path))
  catch e =>
    match e with
    | .noFileOrDirectory .. => return none
    | _ => return some .directory

/-- A path and every directory on the way to it. -/
def stages (path : String) : List String :=
  let parts := pathParts path
  (List.range (parts.length + 1)).map fun n => pathRoot path ++ joinParts (parts.take n)

def namedPaths (o : CommandLine.Options) : List String :=
  [o.debugFile, o.emitted, o.loaded].filterMap id ++ o.arguments

def knownFiles (o : CommandLine.Options) : IO Files := do
  let mut files : Files := []
  for path in (namedPaths o).flatMap stages do
    match ← entryAt path with
    | some entry => files := Table.insert files (joinParts (Place.ofPath path)) entry
    | none => pure ()
  return files

def writeChanges (before after : Files) : IO Unit := do
  for (name, text) in after.changesSince before do
    IO.FS.writeFile name text

def appendEvents (path : String) (events : List Event) : IO Unit := do
  let handle ← IO.FS.Handle.mk path .append
  handle.putStr (CommandLine.eventLines events)

def flushSession (trace : Option String) (s : Session) : IO Session := do
  let out ← IO.getStdout
  out.putStr s.output
  out.flush
  for note in s.machine.log do
    IO.eprint ((CommandLine.noteLine? trace.isNone note).getD "")
  match trace with
  | some path => appendEvents path s.machine.events
  | none => pure ()
  return { s with output := "", machine := s.machine.quiet }

partial def readEntry (lines : List String) : IO (List String) := do
  let line ← (← IO.getStdin).getLine
  if line.isEmpty || Text.strip line = Session.entryEnd then return lines.reverse
  else readEntry (line :: lines)

partial def interact (trace : Option String) (s : Session) : IO Unit := do
  let out ← IO.getStdout
  out.putStr Session.prompt
  out.flush
  let line ← (← IO.getStdin).getLine
  if line.isEmpty then out.putStr "\n"
  else do
    let entry ← if Command.parse? line = some .multiline then readEntry [] else pure []
    match Shell.executeLine fuel line { s with input := entry } with
    | .ok goesOn s => do
      let s ← flushSession trace s
      if goesOn then interact trace s else pure ()
    | .error _ s => do
      let _ ← flushSession trace s
      pure ()

def startSession (o : CommandLine.Options) (dice : Dice) : IO Unit := do
  match o.tracePath? with
  | some path => IO.FS.writeFile path ""
  | none => pure ()
  interact o.tracePath? (.initial (.initial dice o.verbosity) [])

def status : CommandLine.Exit → UInt32
  | .status n => n.toUInt32
  | .escaped _ => 1

def reason : CommandLine.Escape → String
  | .fault f => f.message?.getD "The tree cannot be evaluated."
  | .document e => e.message
  | .file e => e.message
  | .outOfFuel => "Evaluation is nested too deeply."

def runOn (start : CommandLine.Start) : IO UInt32 := do
  let outcome := CommandLine.run fuel start
  IO.print outcome.output
  IO.eprint (outcome.errors.getD (CommandLine.usage ++ "\n"))
  match outcome.exit with
  | .status _ => pure ()
  | .escaped e => IO.eprintln (reason e)
  writeChanges start.files outcome.files
  return status outcome.exit

def runCommand (arguments : List String) : IO UInt32 := do
  let stdin ← IO.getStdin
  let interactive ← stdin.isTty
  let dice := Dice.ofSeed (Int.ofNat (← IO.rand 0 (Nat.pow 2 62))) []
  match CommandLine.Options.parse arguments with
  | .error _ => runOn ⟨arguments, [], "", interactive, dice⟩
  | .ok o =>
    if o.usesInput && interactive then do
      startSession o dice
      return 0
    else do
      let input ← if o.usesInput then stdin.readToEnd else pure ""
      runOn ⟨arguments, ← knownFiles o, input, interactive, dice⟩

end DiceScript.Program

def main (arguments : List String) : IO UInt32 :=
  DiceScript.Program.runCommand arguments
