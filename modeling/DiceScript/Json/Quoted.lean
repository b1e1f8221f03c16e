import DiceScript.Json
import DiceScript.Text.Quoted

/-!
# JSON data in messages and listings

Inside other data a text stands in quotes, alone it does not. A number is shown with all its digits, however many they
are; an implementation that refuses to print a number of more than some thousand digits fails there.
-/

namespace DiceScript.Json

mutual

def quoted : Json → String
  | .null => "None"
  | .bool value => if value then "True" else "False"
  | .integer n => toString n
  | .real x => x.display
  | .text s => Text.quoted s
  | .array items => "[" ++ String.intercalate ", " (quotedItems items) ++ "]"
  | .object members => "\x7b" ++ String.intercalate ", " (quotedMembers members) ++ "\x7d"

def quotedItems : List Json → List String
  | [] => []
  | item :: rest => quoted item :: quotedItems rest

def quotedMembers : List (String × Json) → List String
  | [] => []
  | (key, value) :: rest => (Text.quoted key ++ ": " ++ quoted value) :: quotedMembers rest

end

/-- A JSON value as messages show it: like its quoted form, but a text without quotes. -/
def shown : Json → String
  | .text s => s
  | j => j.quoted

end DiceScript.Json
