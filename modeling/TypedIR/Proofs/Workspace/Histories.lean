import TypedIR.Proofs.Workspace.Recording

/-!
Contract: what is recorded of a function, by the history of the workspace.

Owns:
- verdicts and marks in the course of a run;
- what a whole run does to the record of a function: the record is the last verdict, unless there
  is none or the function was marked since.

The runs are followed forwards. A function that is live at the end was live ever since it was
judged, because a released handle is never given out again.
-/

namespace TypedIR

variable {σ : Type} {engine : Engine σ} {settings : Settings} {workspace : Workspace σ}
  {function : FunctionId} {state : VerificationState}

/-! ### Events of a run -/

namespace Workspace

/-- Some step of the run has the property, in the workspace that it starts from. -/
def Happens (event : Engine σ → Workspace σ → Request → Prop) : Workspace σ → History σ → Prop
  | _, [] => False
  | workspace, (engine, request) :: rest =>
      event engine workspace request ∨ Happens event (request.run engine workspace).workspace rest

/-- The run has a verdict on the function. -/
def Judged (workspace : Workspace σ) (run : History σ) (function : FunctionId) : Prop :=
  workspace.Happens (fun engine workspace request =>
    ∃ verdict, request.Judges engine workspace function verdict) run

/-- The run marks the function as unverified. -/
def Marked (workspace : Workspace σ) (run : History σ) (function : FunctionId) : Prop :=
  workspace.Happens (fun engine workspace request =>
    request.Invalidates engine workspace function) run

/-- The last verdict of a run on the function, the workspace behind it, and the steps since. -/
def LastJudged (workspace : Workspace σ) (run : History σ) (function : FunctionId)
    (verdict : Verdict) (later : Workspace σ) (since : History σ) : Prop :=
  ∃ before engine request, run = before ++ (engine, request) :: since ∧
    request.Judges engine (workspace.follow before) function verdict ∧
    later = (request.run engine (workspace.follow before)).workspace ∧
    ¬ later.Judged since function

theorem Judged.last {run : History σ} (judged : workspace.Judged run function) :
    ∃ verdict later since, workspace.LastJudged run function verdict later since := by
  induction run generalizing workspace with
  | nil => exact judged.elim
  | cons step rest inductionHypothesis =>
      obtain ⟨engine, request⟩ := step
      by_cases again : (request.run engine workspace).workspace.Judged rest function
      · obtain ⟨verdict, later, since, before, lastEngine, last, rfl, judges, behind, none⟩ :=
          inductionHypothesis again
        exact ⟨verdict, later, since, (engine, request) :: before, lastEngine, last, rfl, judges,
          behind, none⟩
      · obtain ⟨verdict, judges⟩ := judged.resolve_right again
        exact ⟨verdict, _, rest, [], engine, request, rfl, judges, rfl, again⟩

end Workspace

/-! ### Liveness in the course of a run -/

namespace Workspace

variable {run : History σ}

theorem Proper.follow (proper : workspace.Proper settings) (run : History σ) :
    (workspace.follow run).Proper settings :=
  Store.lasting_sound.follow proper run

/-- What is live in the end and was live before is live in between. -/
theorem Proper.live_between (proper : workspace.Proper settings) {handle : Handle}
    (live : workspace.store.Live handle) (earlier : History σ) {later : History σ}
    (last : (workspace.follow (earlier ++ later)).store.Live handle) :
    (workspace.follow earlier).store.Live handle := by
  have given : workspace.store.GivenOut handle :=
    live.givenOut proper.2 fun context found => proper.owned found
  obtain ⟨every, sound, still⟩ :=
    (Store.lasting_givenOut handle).follow ⟨proper.1, proper.2, given⟩ earlier
  by_contra gone
  obtain ⟨_, _, dead⟩ :=
    (Store.lasting_dead handle).follow ⟨every, sound, still.dead gone⟩ later
  apply dead.not_live
  unfold Workspace.follow at last ⊢
  rwa [List.foldl_append] at last

/-- A live function has a record. -/
theorem Proper.exists_records (live : workspace.store.Live (.function function)) :
    ∃ state, workspace.store.Records function state := by
  obtain ⟨context, found, _, entry, lookup⟩ := live
  obtain ⟨member, self⟩ := Context.mem_of_function? lookup
  exact ⟨entry.state, context, found, entry, member, self, rfl⟩

/-! ### Records at the end of a run -/

/-- As long as no verdict comes, the record stays, or becomes unverified at the first mark. -/
theorem Proper.records_follow (proper : workspace.Proper settings) {before : VerificationState}
    (first : workspace.store.Records function before) (unjudged : ¬ workspace.Judged run function)
    (records : (workspace.follow run).store.Records function state) :
    (workspace.Marked run function → state = .unverified) ∧
      (¬ workspace.Marked run function → state = before) := by
  induction run generalizing workspace before with
  | nil => exact ⟨False.elim, fun _ => proper.unique records first⟩
  | cons step rest inductionHypothesis =>
      obtain ⟨engine, request⟩ := step
      obtain ⟨quiet, later⟩ := not_or.mp unjudged
      have next : ((request.run engine workspace).workspace).Proper settings :=
        proper.follow [(engine, request)]
      have live : (request.run engine workspace).workspace.store.Live (.function function) :=
        proper.live_between (proper.live first) [(engine, request)]
          ((proper.follow _).live records)
      obtain ⟨between, known⟩ := Proper.exists_records live
      obtain ⟨marked, unmarked⟩ := inductionHypothesis next known later records
      by_cases invalidates : request.Invalidates engine workspace function
      · have cleared := request.records_of_invalidates invalidates known
        refine ⟨fun _ => ?_, fun never => absurd (.inl invalidates) never⟩
        by_cases again : (request.run engine workspace).workspace.Marked rest function
        · exact marked again
        · exact (unmarked again).trans cleared
      · have kept : between = before := by
          rcases request.records_of_other proper (not_exists.mp quiet) invalidates known
            with old | ⟨absent, _⟩
          · exact proper.unique old first
          · exact absurd (proper.live first) absent
        exact ⟨fun once => marked (once.resolve_left invalidates),
          fun never => (unmarked fun again => never (.inr again)).trans kept⟩

/-- Without any verdict, there is none on record. -/
theorem Proper.unverified_follow (proper : workspace.Proper settings)
    (fresh : ∀ state, workspace.store.Records function state → state = .unverified)
    (unjudged : ¬ workspace.Judged run function)
    (records : (workspace.follow run).store.Records function state) : state = .unverified := by
  induction run generalizing workspace with
  | nil => exact fresh state records
  | cons step rest inductionHypothesis =>
      obtain ⟨engine, request⟩ := step
      obtain ⟨quiet, later⟩ := not_or.mp unjudged
      refine inductionHypothesis (proper.follow [(engine, request)]) ?_ later records
      intro between known
      by_cases invalidates : request.Invalidates engine workspace function
      · exact request.records_of_invalidates invalidates known
      · rcases request.records_of_other proper (not_exists.mp quiet) invalidates known
          with old | ⟨_, unverified⟩
        · exact fresh between old
        · exact unverified

/-- From the last verdict on, the record is that verdict until the first mark. -/
theorem Proper.records_of_lastJudged (proper : workspace.Proper settings) {verdict : Verdict}
    {later : Workspace σ} {since : History σ}
    (last : workspace.LastJudged run function verdict later since)
    (records : (workspace.follow run).store.Records function state) :
    (later.Marked since function → state = .unverified) ∧
      (¬ later.Marked since function → state = verdict.state) := by
  obtain ⟨before, engine, request, rfl, judges, rfl, unjudged⟩ := last
  have earlier := proper.follow before
  have after : (workspace.follow before).follow ((engine, request) :: since) =
      workspace.follow (before ++ (engine, request) :: since) :=
    List.foldl_append.symm
  rw [← after] at records
  have live : (request.run engine (workspace.follow before)).workspace.store.Live
      (.function function) :=
    earlier.live_between (earlier.live_of_judges judges) [(engine, request)]
      ((earlier.follow _).live records)
  obtain ⟨first, known⟩ := Proper.exists_records live
  obtain rfl := request.records_of_judges earlier judges known
  exact (earlier.follow [(engine, request)]).records_follow known unjudged records

/-! ### The record of a live function -/

theorem proper_start (settings : Settings) (native : σ) : (start settings native).Proper settings :=
  ⟨every_start settings Context.Coherent, Store.sound_empty settings⟩

/-- The query for the state of a live function tells its record. -/
theorem Proper.told (proper : workspace.Proper settings)
    (records : workspace.store.Records function state) :
    (Query.state function).answer workspace.store = .ok (.state state) := by
  obtain ⟨context, found, sameHome, entry, lookup⟩ := proper.live records
  have resolved : context.resolveFunction function = .ok entry :=
    Context.resolveFunction_eq_ok.mpr ⟨sameHome, lookup⟩
  have told : (Query.state function).answer workspace.store = .ok (.state entry.state) :=
    bind_eq_ok.mpr ⟨context, Store.resolve_eq_ok.mpr found, bind_eq_ok.mpr ⟨entry, resolved, rfl⟩⟩
  rw [told, proper.unique records (Store.records_of_answer told)]

/-- A live function is on record as unverified exactly if no verdict on it ever came, or it was
marked since the last one. Otherwise the last verdict is on record. -/
theorem recorded_state (settings : Settings) (native : σ) (run : History σ)
    (live : ((start settings native).follow run).store.Live (.function function)) :
    ∃ state, (Query.state function).answer ((start settings native).follow run).store =
        .ok (.state state) ∧
      (state = .unverified ↔ ¬ (start settings native).Judged run function ∨
        ∃ verdict later since,
          (start settings native).LastJudged run function verdict later since ∧
            later.Marked since function) ∧
      ∀ verdict later since, (start settings native).LastJudged run function verdict later since →
        ¬ later.Marked since function → state = verdict.state := by
  have proper := proper_start settings native
  obtain ⟨state, records⟩ := Proper.exists_records live
  have last : ∀ verdict later since,
      (start settings native).LastJudged run function verdict later since →
        ¬ later.Marked since function → state = verdict.state :=
    fun verdict later since last unmarked => (proper.records_of_lastJudged last records).2 unmarked
  refine ⟨state, (proper.follow run).told records, ⟨fun unverified => ?_, ?_⟩, last⟩
  · by_contra verified
    obtain ⟨judged, unmarked⟩ := not_or.mp verified
    obtain ⟨verdict, later, since, lastJudged⟩ := (not_not.mp judged).last
    have stands := last verdict later since lastJudged fun marked =>
      unmarked ⟨verdict, later, since, lastJudged, marked⟩
    cases verdict <;> cases unverified.symm.trans stands
  · rintro (unjudged | ⟨verdict, later, since, lastJudged, marked⟩)
    · refine proper.unverified_follow (fun _ absent => ?_) unjudged records
      obtain ⟨context, found, _⟩ := absent
      simp [start, Store.empty, Store.context?] at found
    · exact (proper.records_of_lastJudged lastJudged records).1 marked

/-- Three functions are verified by an engine that rejects two of them. Later the first one gets
another name, and the second one a block. -/
def judgedRun : History ReferenceState :=
  let changes : List Request :=
    [.query (.state ⟨⟨0, 0⟩, 0⟩),
      .command (.edit (.rename ⟨⟨0, 0⟩, 0⟩ "e")),
      .command (.edit (.removeAttribute ⟨⟨0, 0⟩, 0⟩ .function (.string "absent"))),
      .command (.edit (.appendBlock ⟨⟨0, 0⟩, 1⟩ "entry"))]
  (declaredRun.map fun command => (.reference, .command command)) ++
    [(.scripted rejectingScript, .verifyModuleOrAbort ⟨0, 0⟩)] ++
    changes.map fun request => (.reference, request)

/-- The verdict on the first function outlasts its new name, and an attribute that was not there
and is removed. -/
theorem judgedRun_recorded :
    ∃ verdict later since, (start .standard .start).LastJudged judgedRun ⟨⟨0, 0⟩, 0⟩ verdict later
        since ∧ ¬ later.Marked since ⟨⟨0, 0⟩, 0⟩ ∧
      VerificationState.invalid ["@f: rejected by the scripted engine"] = verdict.state := by
  have told : (Query.state ⟨⟨0, 0⟩, 0⟩).answer ((start .standard .start).follow judgedRun).store =
      .ok (.state (.invalid ["@f: rejected by the scripted engine"])) := by decide +kernel
  have proper := (proper_start .standard ReferenceState.start).follow judgedRun
  have records := Store.records_of_answer told
  have live := proper.live records
  obtain ⟨state, shown, unverified, verified⟩ :=
    recorded_state .standard ReferenceState.start judgedRun live
  obtain rfl := Fact.state.inj (Except.ok.inj (told.symm.trans shown))
  obtain ⟨judged, unmarked⟩ := not_or.mp (mt unverified.mpr fun equal => by cases equal)
  obtain ⟨verdict, later, since, last⟩ := (not_not.mp judged).last
  have kept : ¬ later.Marked since ⟨⟨0, 0⟩, 0⟩ :=
    fun marked => unmarked ⟨verdict, later, since, last, marked⟩
  exact ⟨verdict, later, since, last, kept, verified verdict later since last kept⟩

end Workspace

end TypedIR
