import AccessLog.Text.Basic

/-!
# Reading files

What programs ask of files: the text of the file at a path, or why there is none. A reader is a
function in some monad, so the same code runs on the files of a machine and on a directory that
is held in memory (`Directory`).
-/

set_option autoImplicit false

namespace AccessLog

/-- Why no text could be read. -/
inductive ReadFailure where
  | noSuchFile
  | notADirectory
  | isADirectory
  | nameTooLong
  /-- A path with a null character names nothing. -/
  | nullInPath
  /-- The bytes are no UTF-8. -/
  | notText
  /-- Any other reason, in the words of the system. -/
  | other (reason : String)
  deriving DecidableEq, Repr

def ReadFailure.message : ReadFailure → String
  | .noSuchFile => "No such file or directory (os error 2)"
  | .notADirectory => "Not a directory (os error 20)"
  | .isADirectory => "Is a directory (os error 21)"
  | .nameTooLong => "File name too long (os error 36)"
  | .nullInPath => "file name contained an unexpected NUL byte"
  | .notText => "stream did not contain valid UTF-8"
  | .other reason => reason

/-- A way to read the file at a path. -/
abbrev FileReader (m : Type → Type) := String → m (Except ReadFailure String)

def textOfBytes (bytes : ByteArray) : Except ReadFailure String :=
  match String.fromUTF8? bytes with
  | some s => .ok s
  | none => .error .notText

/-! ## Paths -/

namespace Path

/-- The components of a path. Beyond the first one, empty components and single dots lead
nowhere and are left out. -/
def components (path : String) : List String :=
  match (path.toList.splitOn '/').map String.ofList with
  | first :: rest => first :: rest.filter fun part => part != "" && part != "."
  | [] => []

/-- The part of a file name after its last dot. A dot in front does not count. -/
def extensionOf? (name : String) : Option String :=
  match name.toList.reverse.span (· != '.') with
  | (ending, '.' :: _ :: _) => if name == ".." then none else some (String.ofList ending.reverse)
  | _ => none

def extension? (path : String) : Option String := do extensionOf? (← (components path).getLast?)

end Path

/-! ## Directories in memory -/

/-- What stands at a path in a directory. -/
inductive Directory.Entry where
  | file (bytes : ByteArray)
  | directory

/-- A directory with all that is in it, however deep. Every entry has the names that lead to it;
the directories on the way to an entry need no entry of their own. -/
abbrev Directory := List (List String × Directory.Entry)

namespace Directory

/-- The directory whose entries stand at given paths. -/
def ofPaths (entries : List (String × Entry)) : Directory :=
  entries.map fun (path, entry) => (Path.components path, entry)

/-- A place reached while following a path. -/
inductive Place where
  /-- A directory above the given one. Nothing in it is known. -/
  | above
  /-- The directory that names lead to, the last of them first. -/
  | inside (names : List String)
  | file (bytes : ByteArray)

/-- What a name in a directory leads to. -/
def enter (d : Directory) (names : List String) (name : String) : Except ReadFailure Place :=
  let path := (name :: names).reverse
  match d.lookup path with
  | some (.file bytes) => .ok (.file bytes)
  | some .directory => .ok (.inside (name :: names))
  | none =>
    if d.any (path.isPrefixOf ·.1) then .ok (.inside (name :: names)) else .error .noSuchFile

/-- Follows one component of a path. The directory above the topmost one is that one itself, so
it is always possible to go up from a directory. -/
def step (d : Directory) (place : Place) (name : String) : Except ReadFailure Place :=
  match place, name with
  | .file _, _ => .error .notADirectory
  | place, "" | place, "." => .ok place
  | .above, ".." | .inside [], ".." => .ok .above
  | .inside (_ :: names), ".." => .ok (.inside names)
  | place, name =>
    if 255 < name.utf8ByteSize then .error .nameTooLong
    else match place with
      | .inside names => d.enter names name
      | _ => .error .noSuchFile

/-- Where a path starts: at the top if a slash is in front of it, otherwise in the directory. -/
def start (path : String) : Place :=
  if path.toList.head? == some '/' then .above else .inside []

def read (d : Directory) (path : String) : Except ReadFailure String :=
  if path.toList.contains '\x00' then .error .nullInPath
  else if path.isEmpty then .error .noSuchFile
  else if 4096 ≤ path.utf8ByteSize then .error .nameTooLong
  else do
    match ← ((path.toList.splitOn '/').map String.ofList).foldlM d.step (start path) with
    | .file bytes => textOfBytes bytes
    | .above | .inside _ => .error .isADirectory

end Directory

end AccessLog
