import TypedIR.CommandLine.Tasks
import TypedIR.Proofs.Text.Bytes

/-!
Contract: what a part of the program leaves behind, however the run goes on.

Owns:
- transcripts behind what was printed before, and the records of an action as notices;
- scripts that pass, with what they have printed by then, and scripts that end the run, among
  them those that deliver nothing;
- both for the steps of scripts and for their sequences;
- the delivery of a text, to a file or to the output stream.

A script takes the rest of the run as an argument, so what it does is stated for every rest.
-/

namespace TypedIR.CommandLine

variable {α β : Type} {bench : Bench} {directory : Directory}

/-! ### Transcripts and records -/

/-- The transcript of a run that has printed and reported something before. -/
def Transcript.behind (output : String) (notices : List Notice) (transcript : Transcript) :
    Transcript :=
  { transcript with
    output := output ++ transcript.output
    notices := notices ++ transcript.notices }

@[simp] theorem Transcript.behind_empty (transcript : Transcript) :
    transcript.behind "" [] = transcript := by
  simp [behind]

@[simp] theorem Transcript.behind_behind (output earlierOutput : String)
    (notices earlierNotices : List Notice) (transcript : Transcript) :
    (transcript.behind output notices).behind earlierOutput earlierNotices =
      transcript.behind (earlierOutput ++ output) (earlierNotices ++ notices) := by
  simp [behind, String.append_assoc]

namespace Interaction

theorem runIn_print (text : String) (next : Interaction) :
    (print text next).runIn directory = (next.runIn directory).behind text [] := rfl

theorem runIn_notify (notice : Notice) (next : Interaction) :
    (notify notice next).runIn directory = (next.runIn directory).behind "" [notice] := by
  simp [runIn, Transcript.behind]

theorem runIn_readFile (path : String) (next : Except FileFault String → Interaction) :
    (readFile path next).runIn directory = (next (directory.read path)).runIn directory := rfl

theorem runIn_writeFile {path text : String} {changed : Directory}
    (next : Except FileFault Unit → Interaction)
    (done : directory.write path text = .ok changed) :
    (writeFile path text next).runIn directory = (next (.ok ())).runIn changed := by
  rw [runIn, done]

end Interaction

/-- What the log is given of events. -/
def logged (events : List Event) : List Notice := (events.filterMap Event.record?).map .log

theorem logged_append (earlier later : List Event) :
    logged (earlier ++ later) = logged earlier ++ logged later := by
  simp [logged]

namespace Script

/-! ### Passing and ending -/

/-- Where a script has come to when the run goes on, and what it has printed and reported by then. -/
structure Passage (α : Type) where
  value : α
  bench : Bench
  directory : Directory
  output : String
  notices : List Notice

variable {script : Script α} {further : α → Script β} {passage : Passage α}

/-- The run goes on behind the script, whatever its rest is. -/
def Passes (bench : Bench) (directory : Directory) (script : Script α)
    (passage : Passage α) : Prop :=
  ∀ next, (script bench next).runIn directory =
    ((next passage.value passage.bench).runIn passage.directory).behind passage.output passage.notices

/-- The script ends the run, whatever its rest would have been. -/
def Ends (bench : Bench) (directory : Directory) (script : Script α)
    (transcript : Transcript) : Prop :=
  ∀ next, (script bench next).runIn directory = transcript

theorem Passes.of_eq {other : Passage α} (passes : Passes bench directory script passage)
    (same : passage = other) : Passes bench directory script other :=
  same ▸ passes

theorem Ends.of_eq {transcript other : Transcript}
    (ends : Ends bench directory script transcript) (same : transcript = other) :
    Ends bench directory script other :=
  same ▸ ends

theorem passes_pure (value : α) :
    Passes bench directory (pure value) ⟨value, bench, directory, "", []⟩ :=
  fun _ => (Transcript.behind_empty _).symm

/-- A script that passes can be taken out of the run. -/
theorem Passes.runIn_bind (first : Passes bench directory script passage)
    (next : β → Bench → Interaction) :
    ((script >>= further) bench next).runIn directory =
      ((further passage.value passage.bench next).runIn passage.directory).behind
        passage.output passage.notices :=
  first fun value bench => further value bench next

theorem Passes.bind {after : Passage β} (first : Passes bench directory script passage)
    (second : Passes passage.bench passage.directory (further passage.value) after) :
    Passes bench directory (script >>= further)
      { after with
        output := passage.output ++ after.output
        notices := passage.notices ++ after.notices } := by
  intro next
  rw [first.runIn_bind, second next, Transcript.behind_behind]

theorem Passes.bind_ends {transcript : Transcript}
    (first : Passes bench directory script passage)
    (second : Ends passage.bench passage.directory (further passage.value) transcript) :
    Ends bench directory (script >>= further)
      (transcript.behind passage.output passage.notices) := by
  intro next
  rw [first.runIn_bind, second next]

theorem Ends.bind {transcript : Transcript} (first : Ends bench directory script transcript) :
    Ends bench directory (script >>= further) transcript :=
  fun next => first fun value bench => further value bench next

/-! ### Single steps -/

theorem ends_stop (status : ExitStatus) :
    Ends bench directory (stop status : Script α) ⟨status, "", [], directory⟩ :=
  fun _ => rfl

theorem passes_print (text : String) :
    Passes bench directory (print text) ⟨(), bench, directory, text, []⟩ :=
  fun _ => Interaction.runIn_print _ _

theorem passes_notify (notice : Notice) :
    Passes bench directory (notify notice) ⟨(), bench, directory, "", [notice]⟩ :=
  fun _ => Interaction.runIn_notify _ _

theorem passes_complain (text : String) :
    Passes bench directory (complain text) ⟨(), bench, directory, "", [.text text]⟩ :=
  passes_notify _

/-- Complaints come one after the other. -/
theorem passes_complaints (line : α → String) (items : List α) :
    Passes bench directory (items.forM fun item => complain (line item))
      ⟨(), bench, directory, "", items.map fun item => .text (line item)⟩ := by
  induction items with
  | nil => exact passes_pure ()
  | cons item items inductionHypothesis =>
      exact ((passes_complain (line item)).bind inductionHypothesis).of_eq (by simp)

theorem ends_fail (chain : List String) :
    Ends bench directory (fail chain : Script α) ⟨.code 1, "", [.failure chain], directory⟩ := by
  unfold fail
  refine ((passes_notify _).bind_ends (ends_stop (.code 1))).of_eq ?_
  simp [Transcript.behind]

theorem passes_log (events : List Event) :
    Passes bench directory (log events) ⟨(), bench, directory, "", logged events⟩ := by
  intro next
  unfold log logged
  induction events.filterMap Event.record? with
  | nil => exact (Transcript.behind_empty _).symm
  | cons record records inductionHypothesis =>
      rw [List.foldr_cons, Interaction.runIn_notify, inductionHypothesis, Transcript.behind_behind]
      simp

/-- An action that succeeds leaves its events in the log. -/
theorem passes_act {action : Action ReferenceState α} {value : α}
    (done : (action bench).result = .ok value) :
    Passes bench directory (act action)
      ⟨value, (action bench).workspace, directory, "", logged (action bench).events⟩ := by
  intro next
  unfold act
  dsimp only
  rw [done]
  exact passes_log _ _

/-- A look at the store leaves no trace. -/
theorem passes_inspect {query : Store → Except Fault α} {value : α} {after : Passage β}
    (found : query bench.store = .ok value)
    (rest : Passes bench directory (further value) after) :
    Passes bench directory (act (Action.inspect query) >>= further) after := by
  have looked : Passes bench directory (act (Action.inspect query))
      ⟨value, bench, directory, "", []⟩ := passes_act found
  exact (looked.bind rest).of_eq (by simp)

theorem passes_readFile {activity path content : String}
    (read : directory.read path = .ok content) :
    Passes bench directory (readFile activity path)
      ⟨content, bench, directory, "", []⟩ := by
  intro next
  unfold readFile
  rw [Interaction.runIn_readFile, read]
  exact (Transcript.behind_empty _).symm

theorem passes_writeFile {path text : String} {changed : Directory}
    (written : directory.write path text = .ok changed) :
    Passes bench directory (writeFile path text) ⟨(), bench, changed, "", []⟩ := by
  intro next
  unfold writeFile
  rw [Interaction.runIn_writeFile _ written]
  exact (Transcript.behind_empty _).symm

/-! ### Quitting -/

/-- The script ends the run with a status and has delivered nothing. -/
def Quits (bench : Bench) (directory : Directory) (status : ExitStatus)
    (script : Script α) : Prop :=
  ∃ notices, Ends bench directory script ⟨status, "", notices, directory⟩

variable {status : ExitStatus}

theorem quits_stop : Quits bench directory status (stop status : Script α) :=
  ⟨[], ends_stop status⟩

theorem quits_fail (chain : List String) :
    Quits bench directory (.code 1) (fail chain : Script α) :=
  ⟨_, ends_fail chain⟩

theorem Quits.bind (first : Quits bench directory status script) :
    Quits bench directory status (script >>= further) := by
  obtain ⟨notices, ends⟩ := first
  exact ⟨notices, ends.bind⟩

theorem Passes.bind_quits {value : α} {later : Bench} {notices : List Notice}
    (first : Passes bench directory script ⟨value, later, directory, "", notices⟩)
    (second : Quits later directory status (further value)) :
    Quits bench directory status (script >>= further) := by
  obtain ⟨rest, ends⟩ := second
  refine ⟨notices ++ rest, (first.bind_ends ends).of_eq ?_⟩
  simp only [Transcript.behind, String.empty_append]

theorem quits_readFile {activity path : String} {fault : FileFault}
    (unread : directory.read path = .error fault) :
    Quits bench directory (.code 1) (readFile activity path) := by
  refine ⟨[.failure [activity ++ " " ++ path, fault.message]], fun next => ?_⟩
  unfold readFile
  rw [Interaction.runIn_readFile, unread]
  exact ends_fail _ _

end Script

/-! ### Delivery -/

/-- A file that may be written; there is nothing to ask of the output stream. -/
def Writable (directory : Directory) (output : Option String) : Prop :=
  ∀ path, output = some path → ∀ text, ∃ changed, directory.write path text = .ok changed

theorem exists_writeIn {spot : Spot} {name text : String} {changed : Directory}
    (done : directory.writeIn spot name text = .ok changed) (other : String) :
    ∃ changed, directory.writeIn spot name other = .ok changed := by
  unfold Directory.writeIn at done ⊢
  split at done
  · cases done
  · cases done
  · exact ⟨_, rfl⟩
  · exact ⟨_, rfl⟩
  · split at done
    case isTrue missing =>
      rw [if_pos missing]
      split <;> exact ⟨_, rfl⟩
    case isFalse => cases done

/-- Whether a file may be written does not depend on the text. -/
theorem writable_of_write {path text : String} {changed : Directory}
    (done : directory.write path text = .ok changed) : Writable directory (some path) := by
  rintro _ ⟨⟩ other
  unfold Directory.write at done ⊢
  by_cases long : maxPathLength < path.utf8ByteSize
  · rw [if_pos long] at done
    cases done
  · rw [if_neg long] at done ⊢
    dsimp only at done ⊢
    cases walked : directory.walk (Path.ofText path) (Path.ofText path).names.dropLast with
    | error fault =>
        rw [walked] at done
        cases done
    | ok spot =>
        rw [walked] at done
        cases last : (Path.ofText path).names.getLast? with
        | none =>
            rw [last] at done
            cases done
        | some name =>
            rw [last] at done
            dsimp only [bind, Except.bind] at done ⊢
            split at done
            case isTrue => split at done <;> cases done
            case isFalse plain =>
              rw [if_neg plain]
              exact exists_writeIn done other

/-- What is printed and what becomes of the directory when a text is delivered. -/
inductive Delivered (directory : Directory) (text : String) :
    Option String → String → Directory → Prop where
  | printed : Delivered directory text none text directory
  | written {path : String} {changed : Directory}
      (done : directory.write path text = .ok changed) :
      Delivered directory text (some path) ("Output written to: " ++ path ++ "\n") changed

/-- What goes to the output stream leaves the directory as it was. -/
theorem Delivered.to_output {text printed : String} {changed : Directory}
    (delivered : Delivered directory text none printed changed) :
    printed = text ∧ changed = directory := by
  cases delivered
  exact ⟨rfl, rfl⟩

theorem passes_deliver {output : Option String} (writable : Writable directory output)
    (text : String) :
    ∃ printed changed, Delivered directory text output printed changed ∧
      Script.Passes bench directory (deliver output text)
        ⟨(), bench, changed, printed, []⟩ := by
  cases output with
  | none => exact ⟨text, directory, .printed, Script.passes_print text⟩
  | some path =>
      obtain ⟨changed, done⟩ := writable path rfl text
      refine ⟨_, changed, .written done, ?_⟩
      refine ((Script.passes_writeFile done).bind (Script.passes_print _)).of_eq ?_
      simp

/-- The text of a module is delivered as the engine has encoded it. -/
theorem passes_emitText {context : ContextId} {text : String}
    (done : (Action.emitModule Engine.reference context bench).result =
      .ok text.toUTF8.toList) :
    Script.Passes bench directory (emitText context)
      ⟨text, (Action.emitModule Engine.reference context bench).workspace, directory, "",
        logged (Action.emitModule Engine.reference context bench).events⟩ := by
  unfold emitText
  apply Script.Passes.of_eq
  · apply (Script.passes_act done).bind
    dsimp only
    rw [Text.fromUTF8?_bytes]
    exact Script.passes_pure text
  · simp

end TypedIR.CommandLine
