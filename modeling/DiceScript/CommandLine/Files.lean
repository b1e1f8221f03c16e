import DiceScript.Table

/-!
# Named files

Files and directories are known by place: the parts of a path from the working directory, or from the
root, after steps up have been taken. A path is followed part by part, so that it fails at the first part
that is not a directory. The root, the working directory and the directories above it are always there,
and so are a directory for temporary files and the null device, which reads as nothing and keeps nothing.
-/

namespace DiceScript

inductive FileError where
  | missing | isDirectory | notDirectory | nameTooLong
  /-- A path with a null character in it, which is not even looked for. -/
  | nullInPath
deriving DecidableEq

def FileError.message : FileError → String
  | .missing => "No such file or directory"
  | .isDirectory => "Is a directory"
  | .notDirectory => "Not a directory"
  | .nameTooLong => "File name too long"
  | .nullInPath => "embedded null byte"

def pathSteps (path : String) : List String :=
  ((path.toList.splitOn '/').map String.ofList).filter (· ≠ "")

/-- The parts of a path that lead somewhere. -/
def pathParts (path : String) : List String :=
  (pathSteps path).filter (· ≠ ".")

def joinParts (parts : List String) : String :=
  String.intercalate "/" parts

def isAbsolute (path : String) : Bool :=
  path.toList.head? = some '/'

/-- Whether a path can only name a directory. -/
def endsInSlash (path : String) : Bool :=
  path.toList.getLast? = some '/'

/-- The slashes that a path keeps in front: exactly two stay two. -/
def pathRoot (path : String) : String :=
  match path.toList with
  | '/' :: '/' :: '/' :: _ => "/"
  | '/' :: '/' :: _ => "//"
  | '/' :: _ => "/"
  | _ => ""

/-- A path without empty parts and parts that stay in place. -/
def tidyPath (path : String) : String :=
  let tidy := pathRoot path ++ joinParts (pathParts path)
  if tidy.isEmpty then "." else tidy

/-- Where something is: parts from the working directory, or from the root if the first one is empty. -/
abbrev Place := List String

namespace Place

def origin (path : String) : Place :=
  if isAbsolute path then [""] else []

/-- Whether nothing but steps up leads here, or this is the root. -/
def isTop (place : Place) : Bool :=
  place = [""] || place.all (· = "..")

/-- Whether a directory is here in any case. -/
def isStanding (place : Place) : Bool :=
  place.isTop || place = ["", "dev"] || place = ["", "tmp"]

def nullDevice : Place := ["", "dev", "null"]

/-- Whether this is within the working directory. -/
def isInside (place : Place) : Bool :=
  match place with
  | [] => true
  | first :: _ => first ≠ "" && first ≠ ".."

/-- The place one part further. There is nothing above the root. -/
def enter (place : Place) (part : String) : Place :=
  if part = "." then place
  else if part = ".." then
    if place = [""] then place
    else if isTop place then place ++ [".."]
    else place.dropLast
  else place ++ [part]

/-- The place that a path leads to if each of its parts can be entered. -/
def ofPath (path : String) : Place :=
  (pathParts path).foldl enter (origin path)

end Place

inductive Entry where
  | file (text : String)
  | directory
deriving DecidableEq

/-- Files and directories by the name of their place. -/
abbrev Files := Table String Entry

namespace Files

/-- The files that a host starts with. A name that ends in a slash stands for a directory. -/
def ofTexts (texts : List (String × String)) : Files :=
  Table.ofList (texts.map fun (name, text) =>
    (joinParts (Place.ofPath name),
      if endsInSlash name then Entry.directory else .file text))

/-- What is found at a place. Directories need no entry if something in them has one. -/
def entry? (files : Files) (place : Place) : Option Entry :=
  if place.isStanding then some .directory
  else if place = Place.nullDevice then some (.file "")
  else
    match Table.find? files (joinParts place) with
    | some entry => some entry
    | none =>
      if files.any fun entry => place.isPrefixOf (Place.ofPath entry.1) then some .directory
      else none

def nameLimit : Nat := 255

def pathLimit : Nat := 4095

/-- Follow the parts of a path; each must be met in a directory. -/
def follow (files : Files) (place : Place) : List String → Except FileError Place
  | [] => .ok place
  | part :: rest =>
    match entry? files place with
    | none => .error .missing
    | some (.file _) => .error .notDirectory
    | some .directory =>
      if nameLimit < part.utf8ByteSize then .error .nameTooLong
      else follow files (place.enter part) rest

/-- The place that a path leads to. The empty path leads nowhere. -/
def locate (files : Files) (path : String) : Except FileError Place :=
  if path.toList.contains (Char.ofNat 0) then .error .nullInPath
  else if path.isEmpty then .error .missing
  else if pathLimit < path.utf8ByteSize then .error .nameTooLong
  else follow files (Place.origin path) (pathSteps path)

def read (files : Files) (path : String) : Except FileError String := do
  match entry? files (← files.locate path) with
  | none => .error .missing
  | some .directory => .error .isDirectory
  | some (.file text) => if endsInSlash path then .error .notDirectory else .ok text

def write (files : Files) (path text : String) : Except FileError Files := do
  let place ← files.locate path
  if endsInSlash path || entry? files place = some .directory then
    .error .isDirectory
  else if place = Place.nullDevice then .ok files
  else .ok (Table.insert files (joinParts place) (.file text))

def inside (files : Files) : Files :=
  files.filter fun entry => (Place.ofPath entry.1).isInside

def changesSince (files earlier : Files) : List (String × String) :=
  files.filterMap fun (name, entry) =>
    match entry with
    | .file text => if Table.find? earlier name = some entry then none else some (name, text)
    | .directory => none

end Files

end DiceScript
