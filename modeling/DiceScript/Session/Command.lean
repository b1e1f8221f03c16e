import DiceScript.Text.Blank
import DiceScript.Text.Digit

/-!
# Session commands

A line that starts with a plus sign is a command, and so is one whose first word is `-set`, `-scanner` or
`-parser`. `grammar` says how commands are written: a production for each, as a list of terminals. Gaps are
ignored wherever they stand, and none are needed: a name is a run of ASCII letters and a number an optional minus
sign and digits, so it is clear where each ends.
-/

namespace DiceScript

inductive Command where
  | help | quit | version | multiline
  | showTokens | hideTokens | showTree | hideTree
  | setVariable (name : String) (value : Int)
  | unsetVariable (name : String)
deriving DecidableEq

namespace Command

/-- A character that is ignored between terminals. -/
def isGap (c : Char) : Bool :=
  c = ' ' || c = '\t'

def isAsciiLetter (c : Char) : Bool :=
  decide ('a' ≤ c) && decide (c ≤ 'z') || decide ('A' ≤ c) && decide (c ≤ 'Z')

inductive Terminal where
  | word (text : String)
  | name
  | number

def Terminal.Value : Terminal → Type
  | .word _ => Unit
  | .name => String
  | .number => Int

inductive Values : List Terminal → Type
  | nil : Values []
  | cons {t : Terminal} {rest : List Terminal} (value : t.Value) (values : Values rest) : Values (t :: rest)

/-- A command, made of what its terminals stand for. -/
structure Production where
  terminals : List Terminal
  command : Values terminals → Command

/-- The commands that are one word. -/
def words : List (String × Command) :=
  [("+help", .help), ("+quit", .quit), ("+version", .version), ("+multiline", .multiline),
   ("+scanner", .showTokens), ("-scanner", .hideTokens), ("+parser", .showTree), ("-parser", .hideTree)]

def Production.ofWord (entry : String × Command) : Production :=
  ⟨[.word entry.1], fun _ => entry.2⟩

def Production.set : Production :=
  ⟨[.word "+set", .name, .number], fun (.cons _ (.cons name (.cons n .nil))) => .setVariable name n⟩

def Production.unset : Production :=
  ⟨[.word "-set", .name], fun (.cons _ (.cons name .nil)) => .unsetVariable name⟩

def grammar : List Production :=
  words.map .ofWord ++ [.set, .unset]

/-- The characters of a class at the front of a text, and what follows them. -/
def run? (p : Char → Bool) (cs : List Char) : Option (List Char × List Char) :=
  let run := cs.takeWhile p
  if run.isEmpty then none else some (run, cs.dropWhile p)

/-! A word, a name or a number at the front of a text, and what follows it. -/

def word? (text : String) (cs : List Char) : Option (Unit × List Char) :=
  (text.toList.isPrefixOf? cs).map fun rest => ((), rest)

def name? (cs : List Char) : Option (String × List Char) :=
  (run? isAsciiLetter cs).map fun (letters, rest) => (String.ofList letters, rest)

def number? (cs : List Char) : Option (Int × List Char) :=
  match cs with
  | '-' :: cs => (run? Text.isAsciiDigit cs).map fun (digits, rest) => (-Text.asciiNumber digits, rest)
  | _ => (run? Text.isAsciiDigit cs).map fun (digits, rest) => (Text.asciiNumber digits, rest)

def Terminal.read? : (t : Terminal) → List Char → Option (t.Value × List Char)
  | .word text => word? text
  | .name => name?
  | .number => number?

def read? : (terminals : List Terminal) → List Char → Option (Values terminals)
  | [], cs => if (cs.dropWhile isGap).isEmpty then some .nil else none
  | t :: rest, cs => do
    let (value, later) ← t.read? (cs.dropWhile isGap)
    let values ← read? rest later
    pure (.cons value values)

def ofChars? (cs : List Char) : Option Command :=
  grammar.findSome? fun production => (read? production.terminals cs).map production.command

def parse? (line : String) : Option Command :=
  ofChars? (Text.stripped line.toList)

/-- Whether a line is meant as a command, well-formed or not. -/
def isCommand (line : String) : Bool :=
  let cs := Text.stripped line.toList
  cs.head? = some '+' ||
    ["-set", "-scanner", "-parser"].contains (String.ofList (Text.firstWord cs))

end Command

end DiceScript
