import DiceScript.Json
import DiceScript.Numeral.Reader
import DiceScript.Position
import DiceScript.Text.Digit

/-!
# Reading JSON text

A number with a point or an exponent is a real, any other a whole number of any size. Of two members
with one key the later one counts, at the place of the earlier. The reader recurses on a bound on the
nesting, for which twice the length of the text is enough. The first thing that does not fit is the
error; its place is known by the text that is left there.
-/

namespace DiceScript.Json

inductive Flaw where
  | valueExpected | keyExpected | colonExpected | commaExpected | extraData
  | unterminated | controlCharacter | badEscape | badCodeUnit | byteOrderMark
deriving DecidableEq

def Flaw.message : Flaw → String
  | .valueExpected => "Expecting value"
  | .keyExpected => "Expecting property name enclosed in double quotes"
  | .colonExpected => "Expecting ':' delimiter"
  | .commaExpected => "Expecting ',' delimiter"
  | .extraData => "Extra data"
  | .unterminated => "Unterminated string starting at"
  | .controlCharacter => "Invalid control character at"
  | .badEscape => "Invalid \\escape"
  | .badCodeUnit => "Invalid \\uXXXX escape"
  | .byteOrderMark => "Unexpected UTF-8 BOM (decode using utf-8-sig)"

/-- A flaw and the text from its place on. -/
structure Misread where
  flaw : Flaw
  rest : List Char

abbrev Reading (α : Type) := Except Misread (α × List Char)

structure TextError where
  flaw : Flaw
  position : Position
  offset : Nat
deriving DecidableEq

def TextError.message (e : TextError) : String :=
  e.flaw.message ++ ": line " ++ toString e.position.line ++ " column " ++
    toString e.position.column ++ " (char " ++ toString e.offset ++ ")"

def Misread.within (m : Misread) (text : List Char) : TextError :=
  let offset := text.length - m.rest.length
  ⟨m.flaw, Position.start.after (text.take offset), offset⟩

def skipBlanks (cs : List Char) : List Char :=
  cs.dropWhile fun c => c = ' ' || c = '\t' || c = '\n' || c = '\r'

def hexDigit? (c : Char) : Option Nat :=
  let n := c.toNat
  if 48 ≤ n && n ≤ 57 then some (n - 48)
  else if 97 ≤ n && n ≤ 102 then some (n - 87)
  else if 65 ≤ n && n ≤ 70 then some (n - 55)
  else none

def hexUnit? (a b c d : Char) : Option Nat := do
  let a ← hexDigit? a
  let b ← hexDigit? b
  let c ← hexDigit? c
  let d ← hexDigit? d
  some (4096 * a + 256 * b + 16 * c + d)

def escapeLetter? : Char → Option Char
  | '\x22' => some '\x22'
  | '\\' => some '\\'
  | '/' => some '/'
  | 'b' => some '\x08'
  | 'f' => some '\x0c'
  | 'n' => some '\n'
  | 'r' => some '\r'
  | 't' => some '\t'
  | _ => none

/-- A pair of code units that stands for one character beyond the first plane. -/
def surrogatePair? (high low : Nat) : Option Char :=
  if 0xD800 ≤ high && high < 0xDC00 && 0xDC00 ≤ low && low < 0xE000 then
    some (Char.ofNat (0x10000 + (high - 0xD800) * 0x400 + (low - 0xDC00)))
  else none

def Reading.cons (c : Char) (body : Reading (List Char)) : Reading (List Char) :=
  body.map fun (cs, rest) => (c :: cs, rest)

/-- The characters of a string up to its closing quote. The text never ends right after a code unit, and
two of them may be one character. -/
def stringBody (opening : List Char) : List Char → Reading (List Char)
  | [] => .error ⟨.unterminated, opening⟩
  | '\x22' :: rest => .ok ([], rest)
  | '\\' :: 'u' :: a :: b :: c :: d :: '\\' :: 'u' :: e :: f :: g :: h :: x :: rest =>
    match hexUnit? a b c d, hexUnit? e f g h with
    | some high, some low =>
      match surrogatePair? high low with
      | some y => (stringBody opening (x :: rest)).cons y
      | none =>
        (stringBody opening ('\\' :: 'u' :: e :: f :: g :: h :: x :: rest)).cons (Char.ofNat high)
    | none, _ =>
      .error ⟨.badCodeUnit, 'u' :: a :: b :: c :: d :: '\\' :: 'u' :: e :: f :: g :: h :: x :: rest⟩
    | _, none => .error ⟨.badCodeUnit, 'u' :: e :: f :: g :: h :: x :: rest⟩
  | '\\' :: 'u' :: a :: b :: c :: d :: x :: rest =>
    match hexUnit? a b c d with
    | some n => (stringBody opening (x :: rest)).cons (Char.ofNat n)
    | none => .error ⟨.badCodeUnit, 'u' :: a :: b :: c :: d :: x :: rest⟩
  | '\\' :: 'u' :: rest => .error ⟨.badCodeUnit, 'u' :: rest⟩
  | ['\\'] => .error ⟨.unterminated, opening⟩
  | '\\' :: c :: rest =>
    match escapeLetter? c with
    | some x => (stringBody opening rest).cons x
    | none => .error ⟨.badEscape, '\\' :: c :: rest⟩
  | c :: rest =>
    if c.toNat < 32 then .error ⟨.controlCharacter, c :: rest⟩
    else (stringBody opening rest).cons c

def string (rest : List Char) : Reading String :=
  (stringBody ('\x22' :: rest) rest).map fun (cs, rest) => (String.ofList cs, rest)

/-- The whole part at the front of a number, and the text after it. A zero in front stands alone. -/
def wholePart : List Char → List Char × List Char
  | '0' :: rest => (['0'], rest)
  | cs => (cs.takeWhile Text.isAsciiDigit, cs.dropWhile Text.isAsciiDigit)

def number? (cs : List Char) : Option (Json × List Char) :=
  let (negative, digits) :=
    match cs with
    | '-' :: rest => (true, rest)
    | _ => (false, cs)
  let (whole, rest) := wholePart digits
  let (point, fraction, rest) :=
    match rest with
    | '.' :: after =>
      let ds := after.takeWhile Text.isAsciiDigit
      if ds.isEmpty then (false, [], rest) else (true, ds, after.dropWhile Text.isAsciiDigit)
    | _ => (false, [], rest)
  let (power, exponent, rest) : Bool × Int × List Char :=
    match rest with
    | mark :: after =>
      if mark = 'e' || mark = 'E' then
        let (minus, after) := Numeral.splitSign after
        let ds := after.takeWhile Text.isAsciiDigit
        let n : Int := Text.asciiNumber ds
        if ds.isEmpty then (false, 0, rest)
        else (true, (if minus then -n else n), after.dropWhile Text.isAsciiDigit)
      else (false, 0, rest)
    | [] => (false, 0, rest)
  if whole.isEmpty then none
  else if point || power then
    let digits := Text.asciiNumber (whole ++ fraction)
    some (.real (Binary64.ofDecimal negative digits (exponent - fraction.length)), rest)
  else
    let n : Int := Text.asciiNumber whole
    some (.integer (if negative then -n else n), rest)

def words : List (List Char × Json) :=
  [("null".toList, .null), ("true".toList, .bool true), ("false".toList, .bool false),
   ("NaN".toList, .real .nan), ("Infinity".toList, .real (.infinite false)),
   ("-Infinity".toList, .real (.infinite true))]

def scalar (cs : List Char) : Reading Json :=
  match words.find? fun word => word.1.isPrefixOf cs with
  | some (word, j) => .ok (j, cs.drop word.length)
  | none =>
    match number? cs with
    | some reading => .ok reading
    | none => .error ⟨.valueExpected, cs⟩

def quotedKey : List Char → Reading String
  | '\x22' :: rest => string rest
  | cs => .error ⟨.keyExpected, cs⟩

def afterColon (cs : List Char) : Except Misread (List Char) :=
  match skipBlanks cs with
  | ':' :: rest => .ok (skipBlanks rest)
  | rest => .error ⟨.colonExpected, rest⟩

mutual

/-- A value at the front of a text that has no blanks in front. -/
def value : Nat → List Char → Reading Json
  | 0, cs => .error ⟨.valueExpected, cs⟩
  | fuel + 1, cs =>
    match cs with
    | '\x22' :: rest => (string rest).map fun (s, rest) => (.text s, rest)
    | '[' :: rest =>
      match skipBlanks rest with
      | ']' :: rest => .ok (.array [], rest)
      | rest => (items fuel rest).map fun (items, rest) => (.array items, rest)
    | '\x7b' :: rest =>
      match skipBlanks rest with
      | '\x7d' :: rest => .ok (.object [], rest)
      | rest => (members fuel rest).map fun (members, rest) => (.object (Table.ofList members), rest)
    | _ => scalar cs

def items : Nat → List Char → Except Misread (List Json × List Char)
  | 0, cs => .error ⟨.valueExpected, cs⟩
  | fuel + 1, cs => do
    let (item, rest) ← value fuel cs
    match skipBlanks rest with
    | ',' :: rest =>
      let (others, rest) ← items fuel (skipBlanks rest)
      pure (item :: others, rest)
    | ']' :: rest => pure ([item], rest)
    | rest => throw ⟨.commaExpected, rest⟩

def members : Nat → List Char → Except Misread (List (String × Json) × List Char)
  | 0, cs => .error ⟨.valueExpected, cs⟩
  | fuel + 1, cs => do
    let (key, rest) ← quotedKey cs
    let rest ← afterColon rest
    let (item, rest) ← value fuel rest
    match skipBlanks rest with
    | ',' :: rest =>
      let (others, rest) ← members fuel (skipBlanks rest)
      pure ((key, item) :: others, rest)
    | '\x7d' :: rest => pure ([(key, item)], rest)
    | rest => throw ⟨.commaExpected, rest⟩

end

def parse (s : String) : Except TextError Json :=
  let cs := s.toList
  let reading : Except Misread Json := do
    if cs.head? = some '\uFEFF' then throw ⟨.byteOrderMark, cs⟩
    let (j, rest) ← value (2 * cs.length + 2) (skipBlanks cs)
    let rest := skipBlanks rest
    if rest.isEmpty then pure j else throw ⟨.extraData, rest⟩
  reading.mapError fun m => m.within cs

end DiceScript.Json
