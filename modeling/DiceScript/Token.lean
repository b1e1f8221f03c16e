import DiceScript.Json.Quoted
import DiceScript.Position

/-!
# Tokens

A token is a word of the language together with the place where it says it stands. The word alone, its
kind, spelling and literal, is what rescanning and layout leave unchanged; places are kept for reports.

A scanned token is spelt by text and stands at a position. A token may also be made by hand, or come from
a document, and then it holds whatever data it was given.
-/

namespace DiceScript

inductive Kind where
  | die | zeroDie | union | plus | times | divide | leftParen | rightParen | comma | semicolon
  | leftBrace | rightBrace | tilde | bang | and | hash | question | sample | leftBracket
  | rightBracket
  | minus | setMinus | assign | equal | unequal | less | greater | atMost | atLeast | dotDot
  | beside | aboveLeft | aboveRight | aboveCentre | first | second
  | integer | real | identifier | string
  | sum | sign | modulo | least | largest | count | drop | keep | pick | median
  | wordIn | wordRepeat | wordAccumulate | wordWhile | wordUntil | wordForeach | wordDo | wordIf
  | wordThen | wordElse
  | minimum | maximum | minimal | maximal | choose | different
  | wordFunction | wordCall | wordCompositional
  | endOfInput
deriving DecidableEq

namespace Kind

def name : Kind → String
  | die => "DIE"
  | zeroDie => "ZERO_DIE"
  | union => "UNION"
  | plus => "PLUS"
  | times => "TIMES"
  | divide => "DIVIDE"
  | leftParen => "LPAREN"
  | rightParen => "RPAREN"
  | comma => "COMMA"
  | semicolon => "SEMICOLON"
  | leftBrace => "LBRACE"
  | rightBrace => "RBRACE"
  | tilde => "TILDE"
  | bang => "BANG"
  | and => "AND"
  | hash => "HASH"
  | question => "QUESTION"
  | sample => "SAMPLE"
  | leftBracket => "LBRACK"
  | rightBracket => "RBRACK"
  | minus => "MINUS"
  | setMinus => "SET_MINUS"
  | assign => "ASSIGN"
  | equal => "EQ"
  | unequal => "NEQ"
  | less => "LT"
  | greater => "GT"
  | atMost => "LE"
  | atLeast => "GE"
  | dotDot => "DOT_DOT"
  | beside => "HCONC"
  | aboveLeft => "VCONCL"
  | aboveRight => "VCONCR"
  | aboveCentre => "VCONCC"
  | first => "FIRST"
  | second => "SECOND"
  | integer => "INTEGER"
  | real => "REAL"
  | identifier => "IDENTIFIER"
  | string => "STRING"
  | sum => "SUM"
  | sign => "SGN"
  | modulo => "MOD"
  | least => "LEAST"
  | largest => "LARGEST"
  | count => "COUNT"
  | drop => "DROP"
  | keep => "KEEP"
  | pick => "PICK"
  | median => "MEDIAN"
  | wordIn => "IN"
  | wordRepeat => "REPEAT"
  | wordAccumulate => "ACCUMULATE"
  | wordWhile => "WHILE"
  | wordUntil => "UNTIL"
  | wordForeach => "FOREACH"
  | wordDo => "DO"
  | wordIf => "IF"
  | wordThen => "THEN"
  | wordElse => "ELSE"
  | minimum => "MIN"
  | maximum => "MAX"
  | minimal => "MINIMAL"
  | maximal => "MAXIMAL"
  | choose => "CHOOSE"
  | different => "DIFFERENT"
  | wordFunction => "FUNCTION"
  | wordCall => "CALL"
  | wordCompositional => "COMPOSITIONAL"
  | endOfInput => "EOF"

def all : List Kind :=
  [die, zeroDie, union, plus, times, divide, leftParen, rightParen, comma, semicolon, leftBrace,
   rightBrace, tilde, bang, and, hash, question, sample, leftBracket, rightBracket, minus, setMinus,
   assign, equal, unequal, less, greater, atMost, atLeast, dotDot, beside, aboveLeft, aboveRight,
   aboveCentre, first, second, integer, real, identifier, string, sum, sign, modulo, least, largest,
   count, drop, keep, pick, median, wordIn, wordRepeat, wordAccumulate, wordWhile, wordUntil,
   wordForeach, wordDo, wordIf, wordThen, wordElse, minimum, maximum, minimal, maximal, choose,
   different, wordFunction, wordCall, wordCompositional, endOfInput]

def ofName? (s : String) : Option Kind :=
  all.find? fun k => k.name = s

theorem ofName?_name (k : Kind) : ofName? k.name = some k := by
  cases k <;> decide

end Kind

/-- What something is called: a text in every script. Names are the same if they are the same data: `1`, `1.0` and
`true` are three names, though they may be one key of a hash table, and arrays and objects are names like any other,
though they may be none. -/
abbrev Name := Json

/-- A token without its place. The literal is what it carries besides its spelling: a number, a real or a
text if it was scanned. -/
structure Word where
  kind : Kind
  lexeme : Name
  literal : Json := .null
deriving DecidableEq

/-- A line and a column: the numbers of a position if the token was scanned. -/
structure Mark where
  line : Json
  column : Json
deriving DecidableEq

def Position.mark (p : Position) : Mark := ⟨.integer p.line, .integer p.column⟩

structure Token extends Word where
  position : Mark
deriving DecidableEq

def Word.at (w : Word) (p : Position) : Token := ⟨w, p.mark⟩

def Word.endOfInput : Word := ⟨.endOfInput, .text "", .null⟩

def Token.display (t : Token) : String :=
  match t.kind with
  | .identifier => "<IDENTIFIER: " ++ t.lexeme.shown ++ ">"
  | .integer | .real | .string => "<" ++ t.literal.shown ++ ">"
  | kind => "<" ++ kind.name ++ ">"

@[simp] theorem Word.at_toWord (w : Word) (p : Position) : (w.at p).toWord = w := rfl

@[simp] theorem Word.at_position (w : Word) (p : Position) : (w.at p).position = p.mark := rfl

end DiceScript
