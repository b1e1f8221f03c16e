import DiceScript.Json.Quoted
import DiceScript.Json.Reader

/-!
# Why a document is not a script

The parts of a document are looked at in the order in which they are written out, and the first one that
does not fit decides the error. Most errors have a message that names what was found.
-/

namespace DiceScript.Document

def sortName : Json → String
  | .null => "NoneType"
  | .bool _ => "bool"
  | .integer _ => "int"
  | .real _ => "float"
  | .text _ => "str"
  | .array _ => "list"
  | .object _ => "dict"

inductive Family where
  | binarySchema | unarySchema | endStyle
deriving DecidableEq

def Family.name : Family → String
  | .binarySchema => "BinarySchema"
  | .unarySchema => "UnarySchema"
  | .endStyle => "EndStyle"

inductive Error where
  /-- The text is not JSON. -/
  | notJson (e : Json.TextError)
  /-- A node that is neither an object nor `null`. -/
  | notNode
  /-- A value or a script that is not an object. -/
  | notObject
  /-- A token that is not an object. -/
  | notToken (found : Json)
  /-- Something else where a list is needed. -/
  | notList (found : Json)
  /-- Something else where a number is needed. -/
  | notNumber (found : Json)
  /-- A token type, or the name of a function, that is a list or an object. -/
  | compoundName (found : Json)
  /-- The form of no value. -/
  | misfit
  | missingMember (key : String)
  | unknownTokenType (found : Json)
  | unknownNode (found : Json)
  | unknownValue (found : Json)
  | unknownName (family : Family) (found : Json)
  | unreadableReal (text : String)
  /-- A whole number beyond every real. -/
  | realOverflow
  /-- An entry of the function table that has no name. -/
  | unnamedFunction

namespace Error

def message : Error → String
  | .notJson e => e.message
  | .notNode => "Invalid AST object"
  | .notObject => "not an object"
  | .notToken found =>
    match found with
    | .text _ => "string indices must be integers, not 'str'"
    | .array _ => "list indices must be integers or slices, not str"
    | _ => "'" ++ sortName found ++ "' object is not subscriptable"
  | .notList found => "'" ++ sortName found ++ "' object is not iterable"
  | .notNumber found =>
    "float() argument must be a string or a real number, not '" ++ sortName found ++ "'"
  | .compoundName found => "unhashable type: '" ++ sortName found ++ "'"
  | .misfit => "misfit value"
  | .missingMember key => Text.quoted key
  | .unknownTokenType found => found.quoted
  | .unknownNode found => "Unknown AST node type: " ++ found.shown
  | .unknownValue found => "Unknown value kind: " ++ found.shown
  | .unknownName family found => found.quoted ++ " is not a valid " ++ family.name
  | .unreadableReal text => "could not convert string to float: " ++ Text.quoted text
  | .realOverflow => "int too large to convert to float"
  | .unnamedFunction => "unnamed function"

/-- Whether a document with this error is turned down with a message. The other errors go through to
the caller. -/
def isRejection : Error → Bool
  | .notObject | .realOverflow | .unnamedFunction => false
  | _ => true

end Error

end DiceScript.Document
