import BuildLog.Proofs.StepErrors

namespace BuildLog

namespace Step

def withoutErrors (s : Step) : Step := { s with errors := [], errorCount := 0 }

def recordingAtMost (maxErrors : Nat) (s : Step) : Step :=
  { s with errors := s.errors.take maxErrors }

end Step

def StepReport.withoutErrors (r : StepReport) : StepReport where
  steps := r.steps.map Step.withoutErrors
  allErrors := []
  errorsTruncated := false

namespace StepSpan
open StepLog

def outline (order : Nat) (span : StepSpan) : Step :=
  let s := Step.start span.marker.name order span.marker.time span.lineNumber
  match finishIn? span.body with
  | some (m, n) => s.finish m n
  | none => s

theorem step_eq_outline (checksErrors : Bool) (maxErrors order : Nat) (span : StepSpan) :
    span.step checksErrors maxErrors order =
      { span.outline order with
        errors := ((errorsIn checksErrors span.body).take maxErrors).map fun x => ⟨x.2, x.1⟩
        errorCount := (errorsIn checksErrors span.body).length } := by
  unfold step carry outline
  cases finishIn? span.body <;> simp [Step.start, Step.finish]

theorem errorsIn_unchecked (lines : List (String × Nat)) : errorsIn false lines = [] := by
  simp [errorsIn]

theorem step_unchecked (m n order : Nat) (span : StepSpan) :
    span.step false m order = (span.step true n order).withoutErrors := by
  rw [step_eq_outline, step_eq_outline, errorsIn_unchecked, List.take_nil]
  rfl

/-- Errors are recorded in order, so that with a lower limit they are a front of what they are with
a higher one. -/
theorem step_recordingAtMost {m n : Nat} (h : m ≤ n) (checksErrors : Bool) (order : Nat)
    (span : StepSpan) :
    span.step checksErrors m order = (span.step checksErrors n order).recordingAtMost m := by
  rw [step_eq_outline, step_eq_outline, Step.recordingAtMost, ← List.map_take, List.take_take,
    Nat.min_eq_left h]

/-- What holds of each single step under two settings holds of the steps of a log. -/
theorem steps_readAll_eq_map {checksErrors checksErrors' : Bool} {m n : Nat} {f : Step → Step}
    (h : ∀ order span, step checksErrors m order span = f (step checksErrors' n order span))
    (lines : List (String × Nat)) :
    ((StepLog.empty checksErrors m).readAll lines).steps =
      ((StepLog.empty checksErrors' n).readAll lines).steps.map f := by
  rw [steps_readAll_empty, steps_readAll_empty]
  ext order : 1
  rw [List.getElem?_map, List.getElem?_mapIdx, List.getElem?_mapIdx, Option.map_map]
  congr 1
  funext span
  exact h order span

/-- A step records as many of its errors as there is room for. -/
theorem length_errors_readAll {checksErrors : Bool} {maxErrors : Nat} {lines : List (String × Nat)}
    {s : Step} (hs : s ∈ ((StepLog.empty checksErrors maxErrors).readAll lines).steps) :
    s.errors.length = min maxErrors s.errorCount := by
  rw [steps_readAll_empty] at hs
  obtain ⟨order, horder, rfl⟩ := List.mem_mapIdx.mp hs
  obtain ⟨herrors, hcount⟩ := errors_step checksErrors maxErrors order (ofLines lines)[order]
  rw [herrors, hcount, List.length_map, List.length_take]

/-- Errors are missing from the record exactly if some step has more than there is room for. -/
theorem errorsTruncated_readAll (checksErrors : Bool) (maxErrors : Nat)
    (lines : List (String × Nat)) :
    ((StepLog.empty checksErrors maxErrors).readAll lines).errorsTruncated = true ↔
      ∃ s ∈ ((StepLog.empty checksErrors maxErrors).readAll lines).steps,
        maxErrors < s.errorCount := by
  rw [(accounted_readAll (accounted_empty checksErrors maxErrors) lines).truncated]
  apply exists_congr
  intro s
  apply and_congr_right
  intro hs
  rw [length_errors_readAll hs]
  omega

theorem report_unchecked (m n : Nat) (lines : List (String × Nat)) :
    ((StepLog.empty false m).readAll lines).report =
      ((StepLog.empty true n).readAll lines).report.withoutErrors := by
  -- no step has an error, so that none is listed and none is missing
  have hsteps := steps_readAll_eq_map (step_unchecked m n) lines
  have herrors : ∀ s ∈ ((StepLog.empty false m).readAll lines).steps,
      s.errors = [] ∧ s.errorCount = 0 := by
    intro s hs
    rw [hsteps] at hs
    obtain ⟨s', -, rfl⟩ := List.mem_map.mp hs
    exact ⟨rfl, rfl⟩
  have hall : ((StepLog.empty false m).readAll lines).steps.flatMap Step.errors = [] :=
    List.flatMap_eq_nil_iff.mpr fun s hs => (herrors s hs).1
  have hflag : ((StepLog.empty false m).readAll lines).errorsTruncated = false := by
    rw [Bool.eq_false_iff, ne_eq, errorsTruncated_readAll]
    rintro ⟨s, hs, hless⟩
    rw [(herrors s hs).2] at hless
    exact Nat.not_lt_zero m hless
  rw [report, hall, hflag, hsteps]
  rfl

end StepSpan

namespace Session
open StepSpan

/-- Whatever the settings for error lines, a structured log has the same address and header. Not
checking for errors gives the report of a log that is checked with its errors taken out. With a
lower limit a step has the front of the errors that it has with a higher one, and is the same for
the rest; errors are missing from the record exactly if some step has more of them than the limit.
-/
theorem error_settings_reach_errors_only (url : Option String) (t : Truncation)
    (lines : List String) :
    let artifact (checksErrors : Bool) (maxErrors : Nat) : Json :=
      ((ReportKind.structuredLog.session url ⟨checksErrors, maxErrors, t⟩).readEach lines).1.artifact
    let header := Header.empty.readAll (lines.map t.cut)
    let report (checksErrors : Bool) (maxErrors : Nat) : StepReport :=
      ((StepLog.empty checksErrors maxErrors).readAll (lines.map t.cut).zipIdx).report
    (∀ checksErrors maxErrors, artifact checksErrors maxErrors =
      structuredArtifact url header (report checksErrors maxErrors)) ∧
    (∀ m n, artifact false m = structuredArtifact url header (report true n).withoutErrors) ∧
    ∀ m n, m ≤ n →
      (report true m).steps = (report true n).steps.map (Step.recordingAtMost m) ∧
      ((report true m).errorsTruncated = true ↔
        ∃ s ∈ (report true m).steps, m < s.errorCount) := by
  intro artifact header report
  have hartifact (checksErrors : Bool) (maxErrors : Nat) : artifact checksErrors maxErrors =
      structuredArtifact url header (report checksErrors maxErrors) :=
    artifact_structuredLog url ⟨checksErrors, maxErrors, t⟩ lines
  refine ⟨hartifact, ?_, ?_⟩
  · intro m n
    rw [hartifact]
    exact congrArg (structuredArtifact url header) (report_unchecked m n _)
  · intro m n h
    have hstep := step_recordingAtMost h true
    exact ⟨steps_readAll_eq_map hstep _, errorsTruncated_readAll true m _⟩

theorem error_settings_twoErrors :
    let seen := twoErrors.map Truncation.standard.cut
    let report (checksErrors : Bool) (maxErrors : Nat) : StepReport :=
      ((StepLog.empty checksErrors maxErrors).readAll seen.zipIdx).report
    ((ReportKind.structuredLog.session none ⟨false, 1, Truncation.standard⟩).readEach
        twoErrors).1.artifact =
      structuredArtifact none (Header.empty.readAll seen) (report true 2).withoutErrors ∧
    1 ≤ 2 ∧ (report true 1).steps = (report true 2).steps.map (Step.recordingAtMost 1) ∧
    (report true 1).errorsTruncated = true := by
  intro seen report
  obtain ⟨-, hunchecked, hlimits⟩ :=
    error_settings_reach_errors_only none Truncation.standard twoErrors
  have hle : 1 ≤ 2 := by decide
  obtain ⟨hsteps, htruncated⟩ := hlimits 1 2 hle
  have hcount : (report true 1).steps.map Step.errorCount = [2] := by decide +kernel
  refine ⟨hunchecked 1 2, hle, hsteps, htruncated.mpr ?_⟩
  obtain ⟨s, hs, htwo⟩ := List.map_eq_singleton_iff.mp hcount
  refine ⟨s, ?_, ?_⟩
  · rw [hs]
    exact List.mem_singleton_self s
  · omega

end Session
end BuildLog
