/-!
Contract: the arguments of the command line and the request that they make.

Owns:
- the flags, their long and short names, and which of them take a value;
- the choices, what a flag or a free argument leaves behind: nothing is chosen
  twice, a file has a name, and what to write is a known word;
- the reading of arguments from the left to the right, in which flags of the
  whole program may stand before and after the name of the task, and flags of a
  task only after it;
- the request: what to do, with which settings, and how much to log.

A value is attached to its flag, behind `=` or behind the short name, or stands in
the next argument, which then may not look like a flag. Behind `--` no argument is
a flag. A flag may stand once before the task and once behind it; behind counts.

The reading ends at the first thing that makes no request: a violation, or a
question about the program. What stands behind it does not count.
-/

namespace TypedIR.CommandLine

/-- Why arguments make no request. -/
inductive Stop where
  | wrongUsage
  /-- The usage is asked for. -/
  | help
  /-- The name and the version of the program are asked for. -/
  | version
deriving DecidableEq, Repr

/-! ### Flags -/

inductive Flag where
  | verbose
  | settings
  | output
  | emission
  | abortOnInvalid
  | help
  | version
deriving DecidableEq, Repr

namespace Flag

def long : Flag → String
  | .verbose => "verbose"
  | .settings => "config"
  | .output => "output"
  | .emission => "emit"
  | .abortOnInvalid => "abort-on-invalid"
  | .help => "help"
  | .version => "version"

def short? : Flag → Option Char
  | .verbose => some 'v'
  | .output => some 'o'
  | .help => some 'h'
  | .version => some 'V'
  | .settings | .emission | .abortOnInvalid => none

def takesValue : Flag → Bool
  | .settings | .output | .emission => true
  | .verbose | .abortOnInvalid | .help | .version => false

end Flag

inductive TaskName where
  | demo
  | build
deriving DecidableEq, Repr

def TaskName.ofWord? : String → Option TaskName
  | "demo" => some .demo
  | "build" => some .build
  | _ => none

/-- The flags that may stand at a point: before a task's name, or behind it. -/
def flagsAt : Option TaskName → List Flag
  | none => [.verbose, .settings, .help, .version]
  | some .demo => [.verbose, .settings, .help, .output]
  | some .build => [.verbose, .settings, .help, .output, .emission, .abortOnInvalid]

/-! ### Choices -/

inductive Emission where
  | text
  | summary
deriving DecidableEq, Repr

def Emission.ofWord? : String → Option Emission
  | "text" => some .text
  | "summary" => some .summary
  | _ => none

/-- What the arguments on one side of the task's name choose. -/
structure Choices where
  verbose : Bool
  abortOnInvalid : Bool
  /-- The file that holds the settings. -/
  settings : Option String
  /-- The file to write. -/
  output : Option String
  emission : Option Emission
  /-- The file that holds the description. -/
  input : Option String
deriving DecidableEq, Repr

namespace Choices

def start : Choices := ⟨false, false, none, none, none, none⟩

/-- Something that was not chosen yet. -/
def choose (before : Option α) (value : α) : Except Stop (Option α) :=
  if before.isSome then .error .wrongUsage else .ok (some value)

def switch (before : Bool) : Except Stop Bool :=
  if before then .error .wrongUsage else .ok true

/-- A file that was not chosen yet. Its name is not empty. -/
def chooseFile (before : Option String) (name : String) : Except Stop (Option String) :=
  if name = "" then .error .wrongUsage else choose before name

/-- The choices with a flag that takes no value. -/
def takeFlag (choices : Choices) : Flag → Except Stop Choices
  | .help => .error .help
  | .version => .error .version
  | .verbose => do return { choices with verbose := ← switch choices.verbose }
  | .abortOnInvalid => do return { choices with abortOnInvalid := ← switch choices.abortOnInvalid }
  | .settings | .output | .emission => .error .wrongUsage

/-- The choices with a flag and its value. -/
def takeValue (choices : Choices) (value : String) : Flag → Except Stop Choices
  | .settings => do return { choices with settings := ← chooseFile choices.settings value }
  | .output => do return { choices with output := ← chooseFile choices.output value }
  | .emission =>
      match Emission.ofWord? value with
      | some emission => do return { choices with emission := ← choose choices.emission emission }
      | none => .error .wrongUsage
  | .verbose | .abortOnInvalid | .help | .version => .error .wrongUsage

/-- The choices with a free argument behind the given task's name. -/
def takeFree (choices : Choices) (argument : String) : TaskName → Except Stop Choices
  | .demo => .error .wrongUsage
  | .build => do return { choices with input := ← chooseFile choices.input argument }

end Choices

/-! ### Reading -/

/-- Choices, and the flag whose value has to follow. -/
structure Reading where
  choices : Choices
  waiting : Option Flag
deriving DecidableEq, Repr

/-- The name of a long flag and the value attached to it. -/
def splitLong (name : List Char) : String × Option String :=
  match name.dropWhile (· ≠ '=') with
  | [] => (String.ofList name, none)
  | _ :: value => (String.ofList (name.takeWhile (· ≠ '=')), some (String.ofList value))

def readLong (flags : List Flag) (choices : Choices) (name : List Char) : Except Stop Reading := do
  let (word, attached) := splitLong name
  match flags.find? fun flag => flag.long == word with
  | none => throw .wrongUsage
  | some flag =>
      match flag.takesValue, attached with
      | true, some value => return ⟨← choices.takeValue value flag, none⟩
      | true, none => return ⟨choices, some flag⟩
      | false, none => return ⟨← choices.takeFlag flag, none⟩
      | false, some _ => throw .wrongUsage

/-- Short flags in a row; the first that takes a value takes all that follows. -/
def readShort (flags : List Flag) (choices : Choices) : List Char → Except Stop Reading
  | [] => .ok ⟨choices, none⟩
  | letter :: rest =>
      match flags.find? fun flag => flag.short? = some letter with
      | none => .error .wrongUsage
      | some flag =>
          if flag.takesValue then
            match rest with
            | [] => .ok ⟨choices, some flag⟩
            | '=' :: value => do return ⟨← choices.takeValue (String.ofList value) flag, none⟩
            | value => do return ⟨← choices.takeValue (String.ofList value) flag, none⟩
          else do readShort flags (← choices.takeFlag flag) rest

/-- The flags of an argument, given without its first dash. -/
def readFlags (flags : List Flag) (choices : Choices) : List Char → Except Stop Reading
  | '-' :: name => readLong flags choices name
  | letters => readShort flags choices letters

/-- A dash alone is no flag. -/
def looksLikeFlag (argument : String) : Bool :=
  match argument.toList with
  | '-' :: _ :: _ => true
  | _ => false

/-- A question about the tasks named by a list, which has at most one name. -/
def readHelp : List String → Stop
  | [] => .help
  | [word] => if word = "help" ∨ (TaskName.ofWord? word).isSome then .help else .wrongUsage
  | _ => .wrongUsage

/-- The choices of the arguments behind a task's name. -/
def readTask (task : TaskName) (reading : Reading) : List String → Except Stop Choices
  | [] => if reading.waiting.isSome then .error .wrongUsage else .ok reading.choices
  | argument :: rest =>
      match reading.waiting with
      | some flag =>
          if looksLikeFlag argument then .error .wrongUsage
          else do readTask task ⟨← reading.choices.takeValue argument flag, none⟩ rest
      | none =>
          if argument = "--" then
            rest.foldlM (fun choices argument => choices.takeFree argument task) reading.choices
          else if looksLikeFlag argument then do
            readTask task (← readFlags (flagsAt task) reading.choices (argument.toList.drop 1)) rest
          else do
            readTask task ⟨← reading.choices.takeFree argument task, none⟩ rest

/-- The choices before the task's name, the task, and the choices behind its name. -/
def readArguments (reading : Reading) :
    List String → Except Stop (Choices × TaskName × Choices)
  | [] => .error .wrongUsage
  | argument :: rest =>
      match reading.waiting with
      | some flag =>
          if looksLikeFlag argument then .error .wrongUsage
          else do readArguments ⟨← reading.choices.takeValue argument flag, none⟩ rest
      | none =>
          if looksLikeFlag argument then do
            readArguments (← readFlags (flagsAt none) reading.choices (argument.toList.drop 1)) rest
          else if argument = "help" then .error (readHelp rest)
          else
            match TaskName.ofWord? argument with
            | some task => do
                return (reading.choices, task, ← readTask task ⟨.start, none⟩ rest)
            | none => .error .wrongUsage

/-! ### Requests -/

structure BuildOptions where
  /-- The file that holds the description. -/
  input : String
  /-- The file to write; none for the output stream. -/
  output : Option String
  emission : Emission
  abortOnInvalid : Bool
deriving DecidableEq, Repr

inductive Task where
  | demo (output : Option String)
  | build (options : BuildOptions)
deriving DecidableEq, Repr

structure Request where
  verbose : Bool
  /-- The file that holds the settings. -/
  settings : Option String
  task : Task
deriving DecidableEq, Repr

/-- The task with its choices. A build has an input. -/
def TaskName.complete (choices : Choices) : TaskName → Except Stop Task
  | .demo => .ok (.demo choices.output)
  | .build =>
      match choices.input with
      | none => .error .wrongUsage
      | some input =>
          .ok (.build {
            input := input
            output := choices.output
            emission := choices.emission.getD .text
            abortOnInvalid := choices.abortOnInvalid })

/-- The request that arguments make. -/
def Request.ofArguments (arguments : List String) : Except Stop Request := do
  let (before, name, behind) ← readArguments ⟨.start, none⟩ arguments
  let task ← name.complete behind
  return ⟨before.verbose || behind.verbose, behind.settings <|> before.settings, task⟩

end TypedIR.CommandLine
