import DiceScript.Text.Digit

/-!
# Command-line options

Arguments are options, values of options and words. A long option may be shortened as long as no other
one starts that way, its value may be attached with an equal sign, and single-letter options may be
bundled. A negative number is a word, a text with a space in it that spells no option is one, and so is
everything after `--`. The words that are not values of options must stand together.
-/

namespace DiceScript.CommandLine

structure Options where
  verbosity : Nat
  debugFile : Option String
  emitted : Option String
  loaded : Option String
  arguments : List String
deriving DecidableEq

def Options.initial : Options := ⟨0, none, none, none, []⟩

inductive Flag where
  | help | verbose
deriving DecidableEq

inductive Setting where
  | debugFile | emitted | loaded
deriving DecidableEq

def Flag.ofLetter? : Char → Option Flag
  | 'h' => some .help
  | 'v' => some .verbose
  | _ => none

inductive LongOption where
  | help
  | setting (s : Setting)
deriving DecidableEq

def longOptions : List (String × LongOption) :=
  [("--help", .help), ("--debug-file", .setting .debugFile), ("--emit-ast", .setting .emitted),
   ("--ast", .setting .loaded)]

inductive Refusal where
  | help | malformed
deriving DecidableEq

inductive Argument where
  | word (s : String)
  | separator
  | flags (fs : List Flag)
  | setting (s : Setting) (attached : Option String)
  | misused
  | unknown
deriving DecidableEq

/-- The text before the first equal sign, and the text after it if there is one. -/
def splitEqual (cs : List Char) : List Char × Option (List Char) :=
  match cs.dropWhile (· ≠ '=') with
  | [] => (cs, none)
  | _ :: value => (cs.takeWhile (· ≠ '='), some value)

def isDigit (c : Char) : Bool :=
  (Text.digitValue? c).isSome

/-- A minus sign and digits, perhaps with a point before the last ones, perhaps with a line end. -/
def isNegativeNumber : List Char → Bool
  | '-' :: cs =>
    let cs := if cs.getLast? = some '\n' then cs.dropLast else cs
    match cs.dropWhile isDigit with
    | [] => !cs.isEmpty
    | '.' :: fraction => !fraction.isEmpty && fraction.all isDigit
    | _ => false
  | _ => false

/-- An argument that starts like an option but spells none. -/
def unspelt (cs : List Char) : Argument :=
  if isNegativeNumber cs || cs.contains ' ' then .word (String.ofList cs) else .unknown

/-- The text of an attached value. The separator is no value, even here: it leaves an empty one. -/
def attachedText (value : List Char) : String :=
  if value = ['-', '-'] then "" else String.ofList value

def LongOption.withValue (option : LongOption) (attached : Option (List Char)) : Argument :=
  match option with
  | .help => if attached.isSome then .misused else .flags [.help]
  | .setting s => .setting s (attached.map attachedText)

/-- An argument with two dashes, of which the whole spelling wins over shortened ones. -/
def classifyLong (cs : List Char) : Except Refusal Argument :=
  let (start, attached) := splitEqual cs
  match longOptions.find? fun entry => entry.1.toList = start with
  | some (_, option) => .ok (option.withValue attached)
  | none =>
    match longOptions.filter fun entry => start.isPrefixOf entry.1.toList with
    | [] => .ok (unspelt cs)
    | [(_, option)] => .ok (option.withValue attached)
    | _ => .error .malformed

def bundle? (letters : List Char) : Option (List Flag) :=
  letters.mapM Flag.ofLetter?

/-- An argument with one dash. An equal sign right after the first letter of a bundle does not count. -/
def classifyShort (cs : List Char) : Argument :=
  match cs with
  | [] => .unknown
  | letter :: rest =>
    match Flag.ofLetter? letter with
    | none => unspelt ('-' :: cs)
    | some first =>
      let bundled :=
        match rest with
        | '=' :: more => if more.isEmpty then none else bundle? more
        | _ => bundle? rest
      match bundled with
      | some more => .flags (first :: more)
      | none => .misused

def classify (s : String) : Except Refusal Argument :=
  match s.toList with
  | '-' :: '-' :: rest => classifyLong ('-' :: '-' :: rest)
  | '-' :: c :: rest => .ok (classifyShort (c :: rest))
  | _ => .ok (.word s)

/-- What the arguments are. After the separator all are words. -/
def classifyAll : List String → Except Refusal (List Argument)
  | [] => .ok []
  | s :: rest =>
    if s = "--" then .ok (.separator :: rest.map .word)
    else do
      let first ← classify s
      let others ← classifyAll rest
      pure (first :: others)

def leadingWords : List Argument → List String
  | .word s :: rest => s :: leadingWords rest
  | .separator :: rest => leadingWords rest
  | _ => []

def setFlags (o : Options) : List Flag → Except Refusal Options
  | [] => .ok o
  | .help :: _ => .error .help
  | .verbose :: rest => setFlags { o with verbosity := o.verbosity + 1 } rest

/-- Give an option its value. A document cannot be both made and used. -/
def assign (o : Options) (value : String) : Setting → Except Refusal Options
  | .debugFile => .ok { o with debugFile := some value }
  | .emitted => if o.loaded.isSome then .error .malformed else .ok { o with emitted := some value }
  | .loaded => if o.emitted.isSome then .error .malformed else .ok { o with loaded := some value }

inductive Stage where
  | before | within | after
deriving DecidableEq

def Stage.interrupted : Stage → Stage
  | .before => .before
  | _ => .after

/-- Go through the arguments; the flag tells whether some were of no use. -/
def collect (o : Options) (stage : Stage) (stray : Bool) : List Argument → Except Refusal (Options × Bool)
  | [] => .ok (o, stray)
  | .word s :: rest =>
    match stage with
    | .before => collect { o with arguments := s :: leadingWords rest } .within stray rest
    | .within => collect o .within stray rest
    | .after => collect o .after true rest
  | .separator :: rest =>
    match stage with
    | .before => collect { o with arguments := leadingWords rest } .within stray rest
    | .within => collect o .within stray rest
    | .after => collect o .after true rest
  | .flags fs :: rest =>
    match setFlags o fs with
    | .error e => .error e
    | .ok o => collect o stage.interrupted stray rest
  | .setting s (some value) :: rest =>
    match assign o value s with
    | .error e => .error e
    | .ok o => collect o stage.interrupted stray rest
  | .setting s none :: .word value :: rest =>
    match assign o value s with
    | .error e => .error e
    | .ok o => collect o stage.interrupted stray rest
  | .setting _ none :: _ => .error .malformed
  | .misused :: _ => .error .malformed
  | .unknown :: rest => collect o stage.interrupted true rest

def Options.parse (arguments : List String) : Except Refusal Options := do
  let classified ← classifyAll arguments
  let (o, stray) ← collect .initial .before false classified
  if stray then .error .malformed else .ok o

end DiceScript.CommandLine
