import TypedIR.CommandLine.Tasks
import TypedIR.Json.Reader
import TypedIR.Json.Writer
import TypedIR.Text.ControlSequence

/-!
Contract: the program with libraries to run it with, and its notices as text.

Owns:
- a log: the filter that a word names, in any case: a level or `off`; the empty word
  stands for errors, and a word that is neither selects nothing. A record is one line,
  in which a further line is indented by four blanks, without control sequences;
- the report of a failure, in which the causes stand behind the message;
- the reading of arguments and of documents by this project's own readers;
- runs with these libraries, whose notices are a text.

The program leaves all of this open. Nothing that is shown of it rests on these choices.
-/

namespace TypedIR

def LogFilter.ofWord (word : String) : LogFilter :=
  if word = "" then some .error
  else LogLevel.all.find? fun level => level.word == word.toLower

namespace CommandLine

/-! ### Notices -/

/-- The characters of a text, with blanks behind every line feed. -/
def indentLines (indent : Nat) (characters : List Char) : List Char :=
  characters.flatMap fun character =>
    if character = '\n' then '\n' :: List.replicate indent ' ' else [character]

def indented (indent : Nat) (text : String) : String :=
  String.ofList (indentLines indent text.toList)

def logLine (record : LogRecord) : String :=
  record.level.word ++ ": " ++ Text.plain (indented 4 record.message ++ "\n")

/-- Several causes are numbered, and their further lines are indented under the first. -/
def causeText (numbered : Bool) (number : Nat) (cause : String) : String :=
  if numbered then
    let digits := toString number
    String.ofList (List.replicate (5 - digits.length) ' ') ++ digits ++ ": " ++ indented 7 cause
  else "    " ++ indented 4 cause

/-- The report of a failure; its message stands first in the chain of causes. -/
def failureText : List String → String
  | [] => "Error: \n"
  | [message] => "Error: " ++ message ++ "\n"
  | message :: causes =>
      "Error: " ++ message ++ "\n\nCaused by:\n" ++
        Text.joined "\n" (causes.mapIdx (causeText (1 < causes.length))) ++ "\n"

/-- The filter behind a notice, and the text of the notice. -/
def Notice.show (level : Option String) (filter : LogFilter) : Notice → LogFilter × String
  | .text content => (filter, content)
  | .logStarts word => (.ofWord (level.getD word), "")
  | .log record => (filter, if filter.admits record then logLine record else "")
  | .failure chain => (filter, failureText chain)

/-- The notices as text, given the word for the log that the surroundings name, if any. -/
def noticesText (level : Option String) (notices : List Notice) : String :=
  (notices.foldl (fun (filter, text) notice =>
    let (filter, more) := notice.show level filter
    (filter, text ++ more)) ((none : LogFilter), "")).2

/-! ### Libraries -/

/-- The name and the version of the program. -/
def versionText : String := "irk 0.1.0\n"

def usage : String :=
  "usage: [--verbose] [--config FILE] demo [--output FILE]\n" ++
  "       [--verbose] [--config FILE] build INPUT [--output FILE] [--emit text|summary]\n" ++
  "           [--abort-on-invalid]\n"

/-- The run for arguments that make no request. Wrong usage ends it with status 2. -/
def Stop.run : Stop → Interaction
  | .wrongUsage => .notify (.text usage) (.finish (.code 2))
  | .help => .print usage (.finish (.code 0))
  | .version => .print versionText (.finish (.code 0))

def Libraries.standard : Libraries where
  request arguments := (Request.ofArguments arguments).mapError Stop.run
  readJson := Json.read?
  writeJson := Json.indented
  refusal _ := "not a document of this form"

/-! ### Runs -/

/-- A run with the standard libraries. -/
structure Run where
  interaction : Interaction
  /-- The word for the log that the surroundings name. -/
  level : Option String

/-- What a run leaves behind, with its notices as text. -/
structure Shown where
  status : ExitStatus
  output : String
  error : String
  directory : Directory
deriving DecidableEq, Repr

def Run.runIn (directory : Directory) (run : Run) : Shown :=
  let transcript := run.interaction.runIn directory
  ⟨transcript.status, transcript.output, noticesText run.level transcript.notices,
    transcript.directory⟩

def run (arguments : List String) (level : Option String) : Run :=
  ⟨Libraries.standard.run arguments, level⟩

end CommandLine

end TypedIR
