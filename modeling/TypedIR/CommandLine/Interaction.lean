import TypedIR.CommandLine.Directory
import TypedIR.Event

/-!
Contract: runs of a program as data, and their effect on a directory.

Owns:
- interactions: text on the output stream, notices on the error stream, files read
  and written, and the end of the run with a status;
- the transcript of an interaction in a directory.

A notice is a text of the program itself, or something that it hands to a library to
be shown: the start of the log, a record for the log, a failure with its causes. How
the library shows it is left open, and so is whether it shows a record at all.

An interaction goes on as its surroundings answer, so the same program runs in a
directory held in memory and in a real one.
-/

namespace TypedIR.CommandLine

inductive ExitStatus where
  | code (number : Nat)
  | abort
deriving DecidableEq, Repr

/-- What a program has for the error stream. -/
inductive Notice where
  | text (content : String)
  /-- The log starts, with the filter of this word unless the surroundings name another one. -/
  | logStarts (word : String)
  | log (record : LogRecord)
  /-- The run has failed: a message, and the causes behind it. -/
  | failure (chain : List String)
deriving DecidableEq, Repr

inductive Interaction where
  | finish (status : ExitStatus)
  | print (text : String) (next : Interaction)
  | notify (notice : Notice) (next : Interaction)
  | readFile (path : String) (next : Except FileFault String → Interaction)
  | writeFile (path text : String) (next : Except FileFault Unit → Interaction)

/-! ### Transcripts -/

/-- What a run leaves behind. -/
structure Transcript where
  status : ExitStatus
  output : String
  notices : List Notice
  directory : Directory
deriving DecidableEq, Repr

def Interaction.runIn (directory : Directory) : Interaction → Transcript
  | .finish status => ⟨status, "", [], directory⟩
  | .print text next =>
      let rest := next.runIn directory
      { rest with output := text ++ rest.output }
  | .notify notice next =>
      let rest := next.runIn directory
      { rest with notices := notice :: rest.notices }
  | .readFile path next => (next (directory.read path)).runIn directory
  | .writeFile path text next =>
      match directory.write path text with
      | .ok changed => (next (.ok ())).runIn changed
      | .error fault => (next (.error fault)).runIn directory

end TypedIR.CommandLine
