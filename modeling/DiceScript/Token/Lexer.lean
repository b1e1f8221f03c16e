import DiceScript.Text.Digit
import DiceScript.Text.Letter
import DiceScript.Token.Pieces

/-!
# From text to tokens

The text is read from left to right. `munch` looks at a character and what follows it, and says which
words start there and how many further characters they take; blanks and comments are taken without
words. `scanFrom` walks over the text one character at a time, counting down the characters already
taken, so that a position is always the position of the character looked at.

A numeral may have any number of digits, and `number` reads it whatever its length. An implementation may refuse to turn
a text of more than some thousand digits into a number; that limit is not modelled.
-/

namespace DiceScript

/-- A spelling that needs a further character. -/
inductive Half where
  | colon | bar | percent | equalSlash | dot
deriving DecidableEq

def Half.rule : Half → String
  | .colon => "':' must be followed by '='"
  | .bar => "'|' must be followed by either '|' or '>'"
  | .percent => "'%' must be followed by either '1' or '2'"
  | .equalSlash => "'=/' must be followed by '='"
  | .dot => "'.' must be followed by '.'"

inductive ScanError.Cause where
  | noSource
  | malformed (half : Half) (found : Option Char)
  | unexpected (c : Char)
  | unterminated
deriving DecidableEq

/-- A cause at the position where the offending token starts. -/
structure ScanError where
  cause : ScanError.Cause
  position : Position
deriving DecidableEq

def ScanError.Cause.message : ScanError.Cause → String
  | .noSource => "No source to scan."
  | .malformed half none => half.rule ++ "; found end of input."
  | .malformed half (some c) => half.rule ++ "; found '" ++ c.toString ++ "'."
  | .unexpected c => "Unexpected character: '" ++ c.toString ++ "'."
  | .unterminated => "Unterminated string."

def ScanError.message (e : ScanError) : String :=
  e.cause.message

namespace Lexer

/-- The words that start at a character, and how many further characters they take. -/
structure Munch where
  words : List Word
  extra : Nat
deriving DecidableEq

def silent (extra : Nat) : Munch := ⟨[], extra⟩

def single (kind : Kind) (spelling : List Char) (literal : Json) : Munch :=
  ⟨[⟨kind, .text (String.ofList spelling), literal⟩], spelling.length - 1⟩

/-- Operators of one character that start no longer one. -/
def punctuation? : Char → Option Kind
  | '+' => some .plus
  | '*' => some .times
  | '/' => some .divide
  | '(' => some .leftParen
  | ')' => some .rightParen
  | ',' => some .comma
  | ';' => some .semicolon
  | '\x7b' => some .leftBrace
  | '\x7d' => some .rightBrace
  | '@' => some .union
  | '&' => some .and
  | '#' => some .hash
  | '?' => some .question
  | '\x27' => some .sample
  | '[' => some .leftBracket
  | ']' => some .rightBracket
  | '~' => some .tilde
  | '!' => some .bang
  | _ => none

def wordKind (letters : String) : Kind :=
  match letters with
  | "d" | "D" => .die
  | "z" | "Z" => .zeroDie
  | "U" => .union
  | "sum" => .sum
  | "sgn" => .sign
  | "mod" => .modulo
  | "least" => .least
  | "largest" => .largest
  | "count" => .count
  | "drop" => .drop
  | "keep" => .keep
  | "pick" => .pick
  | "median" => .median
  | "in" => .wordIn
  | "repeat" => .wordRepeat
  | "accumulate" => .wordAccumulate
  | "while" => .wordWhile
  | "until" => .wordUntil
  | "foreach" => .wordForeach
  | "do" => .wordDo
  | "if" => .wordIf
  | "then" => .wordThen
  | "else" => .wordElse
  | "min" => .minimum
  | "max" => .maximum
  | "minimal" => .minimal
  | "maximal" => .maximal
  | "choose" => .choose
  | "different" => .different
  | "function" => .wordFunction
  | "call" => .wordCall
  | "compositional" => .wordCompositional
  | _ => .identifier

/-- Operators that may take more than one character, `none` for a character that starts none. -/
def operator? (c : Char) (rest : List Char) : Option (Except ScanError.Cause Munch) :=
  match c, rest with
  | ':', '=' :: _ => some (.ok (single .assign [':', '='] .null))
  | ':', _ => some (.error (.malformed .colon rest.head?))
  | '-', '-' :: _ => some (.ok (single .setMinus ['-', '-'] .null))
  | '-', _ => some (.ok (single .minus ['-'] .null))
  | '>', '=' :: _ => some (.ok (single .atLeast ['>', '='] .null))
  | '>', _ => some (.ok (single .greater ['>'] .null))
  | '<', '=' :: _ => some (.ok (single .atMost ['<', '='] .null))
  | '<', '>' :: _ => some (.ok (single .aboveCentre ['<', '>'] .null))
  | '<', '|' :: _ => some (.ok (single .aboveRight ['<', '|'] .null))
  | '<', _ => some (.ok (single .less ['<'] .null))
  | '|', '|' :: _ => some (.ok (single .beside ['|', '|'] .null))
  | '|', '>' :: _ => some (.ok (single .aboveLeft ['|', '>'] .null))
  | '|', _ => some (.error (.malformed .bar rest.head?))
  | '%', '1' :: _ => some (.ok (single .first ['%', '1'] .null))
  | '%', '2' :: _ => some (.ok (single .second ['%', '2'] .null))
  | '%', _ => some (.error (.malformed .percent rest.head?))
  | '=', '/' :: '=' :: _ => some (.ok (single .unequal ['=', '/', '='] .null))
  | '=', '/' :: after => some (.error (.malformed .equalSlash after.head?))
  | '=', _ => some (.ok (single .equal ['='] .null))
  | '.', '.' :: _ => some (.ok (single .dotDot ['.', '.'] .null))
  | '.', _ => some (.error (.malformed .dot rest.head?))
  | _, _ => none

/-- A string literal after its opening quote. It ends on its own line. -/
def stringLiteral (rest : List Char) : Except ScanError.Cause Munch :=
  let body := rest.takeWhile fun c => c ≠ '\x22' && c ≠ '\n'
  match rest.drop body.length with
  | '\x22' :: _ => .ok ⟨(Pieces.ofText body).words, body.length + 1⟩
  | _ => .error .unterminated

/-- A number after its first digit. A zero stands alone unless a point follows that does not start
a range: then it is a real. -/
def number (c : Char) (rest : List Char) : Munch :=
  let run := fun cs : List Char => cs.takeWhile Text.isAsciiDigit
  if c = '0' then
    match rest with
    | '.' :: after =>
      if after.head? = some '.' then single .integer ['0'] (.integer 0)
      else
        let fraction := run after
        single .real ('0' :: '.' :: fraction)
          (.real (Binary64.ofDecimal false (Text.asciiNumber fraction) (-(fraction.length : Int))))
    | _ => single .integer ['0'] (.integer 0)
  else
    let digits := c :: run rest
    single .integer digits (.integer (Text.asciiNumber digits))

def letters (c : Char) (rest : List Char) : Munch :=
  let run := c :: rest.takeWhile Text.isLetter
  single (wordKind (String.ofList run)) run .null

def munch (c : Char) (rest : List Char) : Except ScanError.Cause Munch :=
  match punctuation? c with
  | some kind => .ok (single kind [c] .null)
  | none =>
    match operator? c rest with
    | some found => found
    | none =>
      if c = '\x22' then stringLiteral rest
      else if c = '\\' then .ok (silent (rest.takeWhile fun d => d ≠ '\n').length)
      else if c = ' ' || c = '\r' || c = '\t' || c = '\n' then .ok (silent 0)
      else if Text.isAsciiDigit c then .ok (number c rest)
      else if Text.isLetter c then .ok (letters c rest)
      else .error (.unexpected c)

/-- The tokens of a text that starts at a position, after `taken` characters that belong to the token
before. -/
def scanFrom (p : Position) : Nat → List Char → Except ScanError (List Token)
  | _, [] => .ok [Word.endOfInput.at p]
  | taken + 1, c :: rest => scanFrom (p.next c) taken rest
  | 0, c :: rest =>
    match munch c rest with
    | .error cause => .error ⟨cause, p⟩
    | .ok found =>
      (scanFrom (p.next c) found.extra rest).map ((found.words.map (·.at p)) ++ ·)

end Lexer

def scan (source : String) : Except ScanError (List Token) :=
  if source.isEmpty then .error ⟨.noSource, .start⟩
  else Lexer.scanFrom .start 0 source.toList

end DiceScript
