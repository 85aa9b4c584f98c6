/-!
Contract: a directory of text files, held in memory, and the paths that lead to
its files.

Owns:
- the faults of file operations and their messages;
- walks along a path, name by name from the directory or from the root of all
  files: a dot stays, two dots lead to the folder around, other names are looked
  up; only folders lead further, and names and paths have a greatest length;
- reading a file, and writing one, which makes a new file in a folder that is
  there.

A path that ends in a slash names a folder. Around the directory there is nothing
but the folders that lead to it and the null device, which reads as empty and
keeps nothing.
-/

namespace TypedIR.CommandLine

/-! ### Faults -/

inductive FileFault where
  /-- A refusal by the system, with its code. -/
  | system (reason : String) (code : Nat)
  | notText
deriving DecidableEq, Repr

namespace FileFault

def missing : FileFault := .system "No such file or directory" 2

def notDirectory : FileFault := .system "Not a directory" 20

def isDirectory : FileFault := .system "Is a directory" 21

def nameTooLong : FileFault := .system "File name too long" 36

def message : FileFault → String
  | .system reason code => reason ++ " (os error " ++ toString code ++ ")"
  | .notText => "stream did not contain valid UTF-8"

end FileFault

/-! ### Paths -/

/-- The bytes that a name may have at most. -/
def maxNameLength : Nat := 255

/-- The bytes that a path may have at most. -/
def maxPathLength : Nat := 4095

/-- A path as the names between its slashes. -/
structure Path where
  /-- The path starts at the root of all files. -/
  isAbsolute : Bool
  names : List String
  /-- The path names a folder by its form. -/
  endsInSlash : Bool
deriving DecidableEq, Repr

def Path.ofText (text : String) : Path where
  isAbsolute := text.toList.head? = some '/'
  names := ((text.toList.splitOn '/').filter fun name => name ≠ []).map String.ofList
  endsInSlash := text.toList.getLast? = some '/'

/-! ### Walks -/

/-- The files of a directory by their paths. -/
abbrev Directory := List (String × String)

/-- Where a walk can stand. -/
inductive Spot where
  /-- The folder of the names in the directory. -/
  | folder (names : List String)
  | file (names : List String)
  /-- The folder of the names below the root of all files. -/
  | outside (names : List String)
  | nullDevice
deriving DecidableEq, Repr

/-- The folder around the directory. -/
def surroundings : List String := ["tmp"]

/-- The folder of the null device, and its name there. -/
def nullDevicePath : List String × String := (["dev"], "null")

namespace Directory

def find? (directory : Directory) (names : List String) : Option (String × String) :=
  List.find? (fun file => (Path.ofText file.1).names = names) directory

/-- Some file lies below the names. -/
def hasFolder (directory : Directory) (names : List String) : Bool :=
  directory.any fun file =>
    names.isPrefixOf (Path.ofText file.1).names && (Path.ofText file.1).names ≠ names

/-- What a name other than the dots leads to from a folder of the directory. -/
def lookUp (directory : Directory) (folder : List String) (name : String) :
    Except FileFault Spot :=
  let names := folder ++ [name]
  if maxNameLength < name.utf8ByteSize then .error .nameTooLong
  else if (directory.find? names).isSome then .ok (.file names)
  else if directory.hasFolder names then .ok (.folder names)
  else .error .missing

end Directory

/-- What a name other than the dots leads to from a folder outside of the directory. -/
def lookUpOutside (folder : List String) (name : String) : Except FileFault Spot :=
  if maxNameLength < name.utf8ByteSize then .error .nameTooLong
  else if (folder, name) = nullDevicePath then .ok .nullDevice
  else if folder = [] ∧ ([name] = surroundings ∨ [name] = nullDevicePath.1) then
    .ok (.outside [name])
  else .error .missing

namespace Directory

def step (directory : Directory) (spot : Spot) (name : String) : Except FileFault Spot :=
  match spot with
  | .file _ | .nullDevice => .error .notDirectory
  | .folder names =>
      if name = "." then .ok spot
      else if name = ".." then
        .ok (if names = [] then .outside surroundings else .folder names.dropLast)
      else directory.lookUp names name
  | .outside names =>
      if name = "." then .ok spot
      else if name = ".." then .ok (.outside names.dropLast)
      else lookUpOutside names name

def walk (directory : Directory) (path : Path) (names : List String) : Except FileFault Spot :=
  names.foldlM directory.step (if path.isAbsolute then .outside [] else .folder [])

/-! ### Operations -/

def read (directory : Directory) (path : String) : Except FileFault String := do
  if maxPathLength < path.utf8ByteSize then throw .nameTooLong
  let path := Path.ofText path
  match ← directory.walk path path.names with
  | .folder _ | .outside _ => throw .isDirectory
  | .nullDevice => if path.endsInSlash then throw .notDirectory else return ""
  | .file names =>
      if path.endsInSlash then throw .notDirectory
      else return ((directory.find? names).map (·.2)).getD ""

/-- The directory with the text of a file replaced, or with a new file. -/
def put (directory : Directory) (names : List String) (text : String) : Directory :=
  match directory.find? names with
  | some (name, _) => directory.map fun file => if file.1 = name then (name, text) else file
  | none => directory ++ [("/".intercalate names, text)]

/-- Writes a text where a name other than the dots leads to from a folder. -/
def writeIn (directory : Directory) (spot : Spot) (name text : String) :
    Except FileFault Directory :=
  match directory.step spot name with
  | .ok (.folder _) | .ok (.outside _) => .error .isDirectory
  | .ok .nullDevice => .ok directory
  | .ok (.file names) => .ok (directory.put names text)
  | .error fault =>
      if fault = .missing then
        match spot with
        | .folder names => .ok (directory.put (names ++ [name]) text)
        | _ => .ok directory
      else .error fault

/-- The directory with a file replaced, or with a new one in a folder that is there. What is
written outside of the directory does not show in it. -/
def write (directory : Directory) (path text : String) : Except FileFault Directory := do
  if maxPathLength < path.utf8ByteSize then throw .nameTooLong
  let path := Path.ofText path
  let spot ← directory.walk path path.names.dropLast
  match path.names.getLast? with
  | none => throw .isDirectory
  | some name =>
      if name = "." ∨ name = ".." ∨ path.endsInSlash then
        match spot with
        | .file _ | .nullDevice => throw .notDirectory
        | .folder _ | .outside _ => throw .isDirectory
      else directory.writeIn spot name text

/-- The files of a directory that another one lacks or holds with other contents. -/
def changedSince (directory before : Directory) : Directory :=
  directory.filter fun file => before.lookup file.1 ≠ some file.2

end Directory

end TypedIR.CommandLine
