/-!
# Blanks, words and lines

The 29 blank characters are those that separate words in any script. Lines of a session are stripped of
them at both ends; inside a script only four of them are blanks, which is the scanner's own rule. Around
a number the four information separators are no blanks.
-/

namespace DiceScript.Text

def isBlank (c : Char) : Bool :=
  let n := c.toNat
  (9 ≤ n && n ≤ 13) || (28 ≤ n && n ≤ 32) || n == 0x85 || n == 0xA0 || n == 0x1680 ||
    (0x2000 ≤ n && n ≤ 0x200A) || n == 0x2028 || n == 0x2029 || n == 0x202F || n == 0x205F ||
    n == 0x3000

/-- One of the four controls that separate files, groups, records and units of information. -/
def isInformationSeparator (c : Char) : Bool :=
  28 ≤ c.toNat && c.toNat ≤ 31

def isNumberBlank (c : Char) : Bool :=
  isBlank c && !isInformationSeparator c

def dropTrailing (p : Char → Bool) (cs : List Char) : List Char :=
  (cs.reverse.dropWhile p).reverse

def trimmed (p : Char → Bool) (cs : List Char) : List Char :=
  dropTrailing p (cs.dropWhile p)

def stripped (cs : List Char) : List Char :=
  trimmed isBlank cs

def strip (s : String) : String :=
  String.ofList (stripped s.toList)

def firstWord (cs : List Char) : List Char :=
  (cs.dropWhile isBlank).takeWhile fun c => !isBlank c

/-- Line ends written as carriage return, with or without a line feed, become line feeds. -/
def unixNewlines : List Char → List Char
  | [] => []
  | '\r' :: '\n' :: rest => '\n' :: unixNewlines rest
  | c :: rest => (if c = '\r' then '\n' else c) :: unixNewlines rest

/-- The lines of an input stream: each line feed ends a line, and what follows the last one is a line
only if there is something. -/
def inputLines (s : String) : List String :=
  let lines := s.toList.splitOn '\n'
  (if lines.getLast? = some [] then lines.dropLast else lines).map String.ofList

end DiceScript.Text
