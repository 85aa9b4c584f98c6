import TypedIR.CommandLine.Program

/-!
Contract: the program in a real directory.

Owns:
- the interpretation of interactions by file operations and standard streams;
- the entry point.

Does not own: any decision about what to print, read or write.
-/

namespace TypedIR.CommandLine

/-- The environment variable whose word selects the log. -/
def levelVariable : String := "TYPEDIR_LOG"

def faultOf : IO.Error → FileFault
  | .noFileOrDirectory _ _ _ => .missing
  | .permissionDenied _ code _ => .system "Permission denied" code.toNat
  | .inappropriateType _ code details => .system details code.toNat
  | .alreadyExists _ code details => .system details code.toNat
  | .invalidArgument _ code details => .system details code.toNat
  | .resourceExhausted _ code details => .system details code.toNat
  | .otherError code details => .system details code.toNat
  | _ => .notText

/-- The answer of a file operation. -/
def attempt (operation : IO α) : IO (Except FileFault α) := do
  match ← operation.toBaseIO with
  | .ok value => return .ok value
  | .error fault => return .error (faultOf fault)

/-- Performs an interaction while the log has a filter. -/
def Interaction.perform (level : Option String) (filter : LogFilter) : Interaction → IO UInt32
  | .finish (.code number) => return number.toUInt32
  | .finish .abort => return 134
  | .print text next => do
      IO.print text
      next.perform level filter
  | .notify notice next => do
      let (filter, text) := notice.show level filter
      IO.eprint text
      next.perform level filter
  | .readFile path next => do (next (← attempt (IO.FS.readFile path))).perform level filter
  | .writeFile path text next => do
      (next (← attempt (IO.FS.writeFile path text))).perform level filter

end TypedIR.CommandLine

def main (arguments : List String) : IO UInt32 := do
  let level ← IO.getEnv TypedIR.CommandLine.levelVariable
  (TypedIR.CommandLine.Libraries.standard.run arguments).perform level none
