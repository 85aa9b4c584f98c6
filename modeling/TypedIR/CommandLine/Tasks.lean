import TypedIR.CommandLine.Arguments
import TypedIR.CommandLine.Interaction
import TypedIR.Description.Build
import TypedIR.Description.Reader
import TypedIR.Summary
import TypedIR.Workspace.Abort

/-!
Contract: what the program does for a request.

Owns:
- what the program takes from libraries: the reading of its arguments, and documents
  read from texts and written as texts;
- scripts, programs over a workspace with the reference engine that read and
  write files, print, log, and may end early;
- the demonstration, and the build of a module from its description.

Records are handed to the log in step with the actions that leave them.
-/

namespace TypedIR.CommandLine

/-- What other libraries do for the program. -/
structure Libraries where
  /-- The request that arguments make, or the run that ends without one: wrong usage, or a question
  about the program. -/
  request : List String → Except Interaction Request
  readJson : String → Option Json
  writeJson : Json → String
  /-- What is said of a text that does not write a document of the form that was asked for. -/
  refusal : String → String

abbrev Bench := Workspace ReferenceState

/-- A program part: it goes on with a result and a workspace, or ends the run. -/
def Script (α : Type) : Type := Bench → (α → Bench → Interaction) → Interaction

namespace Script

instance : Monad Script where
  pure value := fun bench next => next value bench
  bind script further := fun bench next =>
    script bench fun value bench => further value bench next

def stop (status : ExitStatus) : Script α := fun _ _ => .finish status

def print (text : String) : Script Unit := fun bench next => .print text (next () bench)

def notify (notice : Notice) : Script Unit := fun bench next => .notify notice (next () bench)

def complain (text : String) : Script Unit := notify (.text text)

/-- Reports a failure and ends the run. -/
def fail (chain : List String) : Script α := do
  notify (.failure chain)
  stop (.code 1)

def log (events : List Event) : Script Unit := fun bench next =>
  (events.filterMap Event.record?).foldr (fun record rest => .notify (.log record) rest)
    (next () bench)

/-- Runs an action; a fault ends the run. -/
def act (action : Action ReferenceState α) : Script α := fun bench next =>
  let outcome := action bench
  (log outcome.events : Script Unit) outcome.workspace fun _ bench =>
    match outcome.result with
    | .ok value => next value bench
    | .error fault => (fail [fault.message] : Script α) bench next

def operate (operation : Operation α) : Script α := act (.perform operation)

/-- The contents of a file; a failure is reported under the given activity. -/
def readFile (activity path : String) : Script String := fun bench next =>
  .readFile path fun
    | .ok content => next content bench
    | .error fault =>
        (fail [activity ++ " " ++ path, fault.message] : Script String) bench next

def writeFile (path text : String) : Script Unit := fun bench next =>
  .writeFile path text fun
    | .ok () => next () bench
    | .error fault =>
        (fail ["writing " ++ path, fault.message] : Script Unit) bench next

end Script

/-! ### Output -/

/-- Writes a text to a file and says so, or prints it. -/
def deliver (output : Option String) (text : String) : Script Unit := do
  match output with
  | some path =>
      Script.writeFile path text
      Script.print ("Output written to: " ++ path ++ "\n")
  | none => Script.print text

def verdictLines : Verdict → String
  | .valid => "  verified\n"
  | .invalid reasons =>
      "  invalid:\n" ++ String.join (reasons.map fun reason => "    " ++ reason ++ "\n")

/-- The text of a module as the engine writes it. -/
def emitText (context : ContextId) : Script String := do
  let bytes ← Script.act (Action.emitModule .reference context)
  match String.fromUTF8? (ByteArray.mk bytes.toArray) with
  | some text => return text
  | none => Script.fail [FileFault.notText.message]

/-! ### Tasks -/

/-- Builds `i32 @add(i32, i32)` step by step, verifies it before and after it is complete, and
delivers it. -/
def demonstrate (settings : Settings) (output : Option String) : Script Unit := do
  let context ← Script.act (Action.createContext .reference "demo")
  let word ← Script.operate (.integerType settings context 32)
  let signature ← Script.operate (.signatureType word [word, word] false)
  let add ← Script.operate (.declare settings context "add" signature)
  let entry ← Script.operate (.appendBlock add "entry")
  let early ← Script.act (Action.verify .reference add)
  Script.print ("Before terminating the entry block:\n" ++ verdictLines early)
  let left ← Script.act (Action.inspect fun store =>
    store.read context fun home => home.parameterAt add 0)
  let right ← Script.act (Action.inspect fun store =>
    store.read context fun home => home.parameterAt add 1)
  Script.operate (.rename left "a")
  Script.operate (.rename right "b")
  let sum ← Script.operate (.binary entry .add left right "sum")
  let _ ← Script.operate (.ret entry (some sum))
  let late ← Script.act (Action.verify .reference add)
  Script.print ("\nAfter adding `ret`:\n" ++ verdictLines late)
  let text ← emitText context
  Script.print "\nGenerated IR:\n"
  deliver output text

/-- The verdict on a module, which may have to be favourable for the run to go on. -/
def judge (abortOnInvalid : Bool) (context : ContextId) : Script Verdict := do
  if abortOnInvalid then
    match ← Script.act (Action.verifyModuleOrAbort .reference context) with
    | .ok verdict => return verdict
    | .error notice =>
        Script.complain notice.text
        Script.stop .abort
  else Script.act (Action.verifyModule .reference context)

/-- Ends the run with the reasons against a module, if there are any. -/
def requireValid (module : String) (context : ContextId) : Verdict → Script Unit
  | .valid => return ()
  | .invalid reasons => do
      reasons.forM fun reason => Script.complain ("  " ++ reason ++ "\n")
      Script.act (Action.destroyContext .reference context)
      Script.fail ["module '" ++ module ++ "' failed verification with " ++
        toString reasons.length ++ " error(s)"]

/-- Runs a script on a fresh workspace and ends with success. -/
def withSettings (settings : Settings) (script : Script Unit) : Interaction :=
  let opened : Script Unit := do
    Script.log [.debug (Action.openingText Engine.reference)]
    script
    Script.stop (.code 0)
  opened (.start settings .start) fun _ _ => .finish (.code 0)

/-- The word of the log's filter, where the surroundings name none. -/
def logWord (verbose : Bool) : String := if verbose then "debug" else "warn"

namespace Libraries

variable (libraries : Libraries)

/-- Delivers what was asked for: the text of a valid module, or the summary of any. -/
def emit (options : BuildOptions) (context : ContextId) (verdict : Verdict) : Script Unit := do
  match options.emission with
  | .summary =>
      let summary ← Script.act (Action.inspect fun store => store.read context Context.summarize)
      deliver options.output (libraries.writeJson summary.toJson)
  | .text =>
      if verdict.isValid then
        deliver options.output (← emitText context)

def build (options : BuildOptions) : Script Unit := do
  let content ← Script.readFile "reading" options.input
  match libraries.readJson content >>= Description.Module.ofJson? with
  | none => Script.fail ["parsing " ++ options.input, libraries.refusal content]
  | some description =>
  match ← Script.act (Description.build .reference description) with
  | .error fault => Script.fail fault.chain
  | .ok context =>
      Script.log [.log ⟨.info, "Built module '" ++ description.name ++ "' from " ++
        options.input⟩]
      let verdict ← judge options.abortOnInvalid context
      libraries.emit options context verdict
      requireValid description.name context verdict

/-! ### Runs -/

/-- Reads the settings first, from a file or the standard ones. -/
def runTask (path : Option String) (script : Settings → Script Unit) : Interaction :=
  let failed (path : String) (causes : List String) : Interaction :=
    .notify (.failure (("loading " ++ path) :: causes)) (.finish (.code 1))
  match path with
  | none => withSettings .standard (script .standard)
  | some path => .readFile path fun
      | .error fault => failed path ["failed to read config: " ++ fault.message, fault.message]
      | .ok content =>
          let refusal := libraries.refusal content
          match (libraries.readJson content).map Settings.read with
          | some (.ok settings) => withSettings settings (script settings)
          | some (.error (.widthOutOfRange width)) =>
              failed path [(SettingsFault.widthOutOfRange width).message]
          | some (.error .malformed) | none =>
              failed path [SettingsFault.malformed.message ++ ": " ++ refusal, refusal]

/-- The run of a request. -/
def perform (request : Request) : Interaction :=
  .notify (.logStarts (logWord request.verbose))
    (match request.task with
      | .demo output =>
          libraries.runTask request.settings fun settings => demonstrate settings output
      | .build options => libraries.runTask request.settings fun _ => libraries.build options)

/-- The run for arguments. -/
def run (arguments : List String) : Interaction :=
  match libraries.request arguments with
  | .ok request => libraries.perform request
  | .error ended => ended

end Libraries

end TypedIR.CommandLine
