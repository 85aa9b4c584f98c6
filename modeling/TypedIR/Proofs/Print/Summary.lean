import TypedIR.Proofs.Ownership.Names
import TypedIR.Proofs.Print.Total
import TypedIR.Summary

/-!
Contract: overviews of modules.

Owns:
- an overview can be made wherever the invariants hold;
- it shows for each function what is recorded of its last verification;
- the document of an overview says so under the names of its fields.

Does not own: when what is recorded.
-/

namespace TypedIR

/-! ### Documents -/

/-- The value of a field, if the document is a record that has it. -/
def Json.field? (document : Json) (name : String) : Option Json := do
  (← document.fields?).find? name

theorem Json.field?_record (fields : List (String × Json)) (name : String) :
    (Json.record fields).field? name = Fields.find? fields name := by
  have read : (Json.record fields).fields? = some fields := by
    rw [Json.record, Json.fields?, mapM_eq_some, List.forall₂_map_left_iff]
    exact List.forall₂_same.mpr fun _ _ => rfl
  rw [Json.field?, read]
  rfl

theorem ModuleSummary.field?_functions (summary : ModuleSummary) :
    summary.toJson.field? "functions" =
      some (.array (summary.functions.map FunctionSummary.toJson)) :=
  Json.field?_record _ _

section FunctionSummary

variable (summary : FunctionSummary)

theorem FunctionSummary.field?_name : summary.toJson.field? "name" = some (.text summary.name) :=
  Json.field?_record _ _

theorem FunctionSummary.field?_state :
    summary.toJson.field? "state" = some (.text summary.state.word) := by
  rw [FunctionSummary.toJson, Json.field?_record]
  cases summary.collector <;> cases summary.personality <;> rfl

/-- An absent list of reasons is the empty one. -/
theorem FunctionSummary.field?_reasons :
    (summary.toJson.field? "reasons").getD (.array []) =
      .array (summary.state.reasons.map Json.text) := by
  rw [FunctionSummary.toJson, Json.field?_record]
  cases summary.collector <;> cases summary.personality <;>
    cases reasons : summary.state.reasons <;> rfl

end FunctionSummary

namespace Context

variable {settings : Settings} {context : Context} {entry : FunctionEntry}

/-! ### What an overview shows -/

theorem summarizeFunction_shows {overview : FunctionSummary}
    (done : context.summarizeFunction entry = .ok overview) :
    context.functionName (context.functionId entry.self) = .ok overview.name ∧
      overview.state = entry.state := by
  obtain ⟨blocks, _, done⟩ := bind_eq_ok.mp done
  obtain ⟨personality, _, done⟩ := bind_eq_ok.mp done
  obtain ⟨name, named, done⟩ := bind_eq_ok.mp done
  obtain ⟨signature, _, done⟩ := bind_eq_ok.mp done
  obtain rfl := pure_eq_ok.mp done
  exact ⟨named, rfl⟩

/-- Each function is shown under its name and with what is recorded of it. -/
theorem summarize_shows {summary : ModuleSummary} (done : context.summarize = .ok summary) :
    List.Forall₂ (fun entry overview =>
      context.functionName (context.functionId entry.self) = .ok overview.name ∧
        overview.state = entry.state) context.functions summary.functions := by
  obtain ⟨overviews, shown, done⟩ := bind_eq_ok.mp done
  obtain rfl := pure_eq_ok.mp done
  exact (mapM_eq_ok.mp shown).imp fun _ _ => summarizeFunction_shows

/-! ### Making an overview -/

section Overview

variable (canonical : context.Canonical settings) (coherent : context.Coherent)

include canonical coherent

theorem summarizeFunction_succeeds (member : entry ∈ context.functions) :
    Succeeds (context.summarizeFunction entry) := by
  have blocks : Succeeds (entry.blocks.mapM context.summarizeBlock) := by
    apply succeeds_mapM
    intro block listed
    obtain ⟨home, found⟩ := live_block coherent member listed
    exact ⟨_, bind_eq_ok.mpr ⟨home, found, rfl⟩⟩
  have personality : Succeeds (entry.personality.mapM fun personality =>
      context.functionName (context.functionId personality)) := by
    cases target : entry.personality with
    | none => exact succeeds_pure _
    | some function =>
        have live := coherent.owned.functions.personalities entry member function target
        obtain ⟨name, named⟩ := functionName_succeeds coherent.owned live
        exact ⟨some name, bind_eq_ok.mpr ⟨name, named, rfl⟩⟩
  obtain ⟨name, named⟩ := functionName_succeeds coherent.owned ⟨entry, member, rfl⟩
  obtain ⟨_, _, _, known, _⟩ := coherent.owned.functions.parameters entry member
  obtain ⟨signature, formatted⟩ :=
    requireTypeText_succeeds canonical coherent.grounded (lt_size_of_shape? known)
  obtain ⟨shownBlocks, blocksDone⟩ := blocks
  obtain ⟨shownPersonality, personalityDone⟩ := personality
  exact ⟨_, bind_eq_ok.mpr ⟨shownBlocks, blocksDone, bind_eq_ok.mpr ⟨shownPersonality,
    personalityDone, bind_eq_ok.mpr ⟨name, named, bind_eq_ok.mpr ⟨signature, formatted, rfl⟩⟩⟩⟩⟩

/-- The overview lists the functions in order, each with what is recorded of it. -/
theorem summarize_succeeds :
    ∃ summary, context.summarize = .ok summary ∧
      summary.functions.map FunctionSummary.state =
        context.functions.map FunctionEntry.state := by
  obtain ⟨overviews, done⟩ := succeeds_mapM fun entry member =>
    summarizeFunction_succeeds canonical coherent member
  have made : context.summarize = .ok ⟨context.moduleName, overviews⟩ :=
    bind_eq_ok.mpr ⟨overviews, done, rfl⟩
  have states : List.Forall₂ (· = ·) (overviews.map FunctionSummary.state)
      (context.functions.map FunctionEntry.state) := by
    rw [List.forall₂_map_left_iff, List.forall₂_map_right_iff]
    exact (summarize_shows made).flip.imp fun _ _ shows => shows.2
  exact ⟨_, made, List.forall₂_eq_eq_eq ▸ states⟩

end Overview

end Context

end TypedIR
