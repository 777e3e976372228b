import QueryMask.Text.Pieces

/-! Files, and how a path leads to one of them from the folder that a program runs in. -/

namespace QueryMask

namespace CommandLine

inductive FileFault where
  | missing
  | notFolder
  | isFolder
  | nameTooLong
  | stated (reason : String)
  deriving DecidableEq, Repr

def FileFault.text : FileFault → String
  | missing => "No such file or directory (os error 2)"
  | notFolder => "Not a directory (os error 20)"
  | isFolder => "Is a directory (os error 21)"
  | nameTooLong => "File name too long (os error 36)"
  | stated reason => reason

/-- The texts of files by the paths to them. -/
abbrev Files := String → Except FileFault String

def nameLimit : Nat := 255

def pathLimit : Nat := 4095

/-- The path of the null device, which is empty. -/
def nullDevice : String := "/dev/null"

/-- The texts of the files in a folder, each with the names that lead to it. -/
abbrev Folder := List (List String × String)

/-- Where a path has led to: a folder inside the first one, a folder around it, or a file. -/
inductive Place where
  | inside (names : List String)
  | around
  | file (text : String)
  deriving DecidableEq, Repr

namespace Folder

def hasFolder (folder : Folder) (names : List String) : Bool :=
  folder.any fun (path, _) => names.isPrefixOf path

def find (folder : Folder) (names : List String) : Except FileFault Place :=
  match folder.lookup names with
  | some text => .ok (.file text)
  | none => if folder.hasFolder names then .ok (.inside names) else .error .missing

/-- Goes on by one name. Of a folder around the first one, only the folders around it are known. -/
def step (folder : Folder) : Place → String → Except FileFault Place
  | .file _, _ => .error .notFolder
  | place, "" | place, "." => .ok place
  | .around, ".." | .inside [], ".." => .ok .around
  | .inside names, ".." => .ok (.inside names.dropLast)
  | place, name =>
    if nameLimit < name.utf8ByteSize then .error .nameTooLong
    else match place with
      | .inside names => folder.find (names ++ [name])
      | .around | .file _ => .error .missing

def follow (folder : Folder) (path : String) : Except FileFault Place :=
  let start : Place := if path.startsWith "/" then .around else .inside []
  (piecesOf '/' path).foldlM folder.step start

/-- The files as they are seen from inside the folder. -/
def files (folder : Folder) : Files := fun path =>
  if path.isEmpty then .error .missing
  else if pathLimit < path.utf8ByteSize then .error .nameTooLong
  else if path == nullDevice then .ok ""
  else match folder.follow path with
    | .ok (.file text) => .ok text
    | .ok (.inside _) | .ok .around => .error .isFolder
    | .error fault => .error fault

def ofTexts (texts : List (String × String)) : Folder :=
  texts.map fun (path, text) => (piecesOf '/' path, text)

end Folder

end CommandLine

end QueryMask
