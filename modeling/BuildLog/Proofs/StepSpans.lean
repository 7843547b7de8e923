import BuildLog.Proofs.StepRun
import BuildLog.Section

namespace BuildLog
open StepLog

/-- A start marker, its line number, and the lines after it up to the next start marker. -/
structure StepSpan where
  marker : StepMarker.Started
  lineNumber : Nat
  body : List (String × Nat)

namespace StepSpan

def untilStart (lines : List (String × Nat)) : List (String × Nat) :=
  lines.takeWhile fun x => !isStart x.1

def ofLines : List (String × Nat) → List StepSpan
  | [] => []
  | x :: lines =>
    match StepMarker.started? x.1 with
    | some m => ⟨m, x.2, untilStart lines⟩ :: ofLines lines
    | none => ofLines lines

/-- The first finish marker among some lines, with its line number. -/
def finishIn? (lines : List (String × Nat)) : Option (StepMarker.Finished × Nat) :=
  lines.findSome? fun x => (StepMarker.finished? x.1).map (·, x.2)

def untilFinish (lines : List (String × Nat)) : List (String × Nat) :=
  lines.takeWhile fun x => !isFinish x.1

/-- The error lines before the first finish marker, if errors are checked for. -/
def errorsIn (checksErrors : Bool) (lines : List (String × Nat)) : List (String × Nat) :=
  (untilFinish lines).filter fun x => checksErrors && FailureLine.isFailure x.1

/-- A step in the course of lines none of which is a start marker. -/
def carry (checksErrors : Bool) (maxErrors : Nat) (s : Step) (lines : List (String × Nat)) : Step :=
  let errors := errorsIn checksErrors lines
  let room := maxErrors - s.errors.length
  let s :=
    { s with
      errors := s.errors ++ (errors.take room).map fun x => ⟨x.2, x.1⟩
      errorCount := s.errorCount + errors.length }
  match finishIn? lines with
  | some (m, n) => s.finish m n
  | none => s

def step (checksErrors : Bool) (maxErrors order : Nat) (span : StepSpan) : Step :=
  carry checksErrors maxErrors
    (Step.start span.marker.name order span.marker.time span.lineNumber) span.body

theorem untilStart_cons_start {x : String × Nat} {m : StepMarker.Started}
    (h : StepMarker.started? x.1 = some m) (lines : List (String × Nat)) :
    untilStart (x :: lines) = [] := by
  simp [untilStart, isStart_of_some h]

theorem untilStart_cons_none {x : String × Nat} (h : StepMarker.started? x.1 = none)
    (lines : List (String × Nat)) : untilStart (x :: lines) = x :: untilStart lines := by
  simp [untilStart, isStart_of_none h]

theorem ofLines_cons_start {x : String × Nat} {m : StepMarker.Started}
    (h : StepMarker.started? x.1 = some m) (lines : List (String × Nat)) :
    ofLines (x :: lines) = ⟨m, x.2, untilStart lines⟩ :: ofLines lines := by
  rw [ofLines, h]

theorem ofLines_cons_none {x : String × Nat} (h : StepMarker.started? x.1 = none)
    (lines : List (String × Nat)) : ofLines (x :: lines) = ofLines lines := by
  rw [ofLines, h]

theorem finishIn?_cons_finish {x : String × Nat} {m : StepMarker.Finished}
    (h : StepMarker.finished? x.1 = some m) (lines : List (String × Nat)) :
    finishIn? (x :: lines) = some (m, x.2) := by
  simp [finishIn?, h]

theorem finishIn?_cons_none {x : String × Nat} (h : StepMarker.finished? x.1 = none)
    (lines : List (String × Nat)) : finishIn? (x :: lines) = finishIn? lines := by
  simp [finishIn?, h]

theorem errorsIn_cons_finish {x : String × Nat} {m : StepMarker.Finished}
    (h : StepMarker.finished? x.1 = some m) (checksErrors : Bool) (lines : List (String × Nat)) :
    errorsIn checksErrors (x :: lines) = [] := by
  simp [errorsIn, untilFinish, isFinish_of_some h]

theorem errorsIn_cons_none {x : String × Nat} (h : StepMarker.finished? x.1 = none)
    (checksErrors : Bool) (lines : List (String × Nat)) :
    errorsIn checksErrors (x :: lines) =
      if (checksErrors && FailureLine.isFailure x.1) = true then x :: errorsIn checksErrors lines
      else errorsIn checksErrors lines := by
  simp [errorsIn, untilFinish, isFinish_of_none h, List.filter_cons]

theorem carry_nil (checksErrors : Bool) (maxErrors : Nat) (s : Step) :
    carry checksErrors maxErrors s [] = s := by
  simp [carry, errorsIn, untilFinish, finishIn?]

theorem carry_cons_finish {x : String × Nat} {m : StepMarker.Finished}
    (h : StepMarker.finished? x.1 = some m) (checksErrors : Bool) (maxErrors : Nat) (s : Step)
    (lines : List (String × Nat)) :
    carry checksErrors maxErrors s (x :: lines) = s.finish m x.2 := by
  simp [carry, errorsIn_cons_finish h, finishIn?_cons_finish h]

/-- An error line takes up room as long as there is any, and is counted in any case. -/
theorem carry_cons_error {x : String × Nat} {checksErrors : Bool}
    (h : StepMarker.finished? x.1 = none)
    (herr : (checksErrors && FailureLine.isFailure x.1) = true) (maxErrors : Nat) (s : Step)
    (lines : List (String × Nat)) :
    carry checksErrors maxErrors s (x :: lines) =
      carry checksErrors maxErrors (s.addError maxErrors x.1 x.2) lines := by
  -- the counts agree, and so do the records, since the line takes one place of the room if any
  let errors := errorsIn checksErrors lines
  let recorded : List (String × Nat) → List LoggedError := List.map fun y => ⟨y.2, y.1⟩
  have hcount : s.errorCount + (x :: errors).length =
      (s.addError maxErrors x.1 x.2).errorCount + errors.length := by
    simp only [Step.addError, List.length_cons]
    omega
  have hrecord : s.errors ++ recorded ((x :: errors).take (maxErrors - s.errors.length)) =
      (s.addError maxErrors x.1 x.2).errors ++
        recorded (errors.take (maxErrors - (s.addError maxErrors x.1 x.2).errors.length)) := by
    by_cases hroom : s.errors.length < maxErrors
    · obtain ⟨room, hr⟩ : ∃ room, maxErrors = s.errors.length + 1 + room :=
        ⟨maxErrors - (s.errors.length + 1), by omega⟩
      have hr' : maxErrors - s.errors.length = room + 1 := by omega
      have hr'' : maxErrors - (s.errors.length + 1) = room := by omega
      simp [Step.addError, hroom, hr', hr'', recorded]
    · have hr : maxErrors - s.errors.length = 0 := by omega
      simp [Step.addError, hroom, hr, recorded]
  unfold carry
  rw [errorsIn_cons_none h, if_pos herr, finishIn?_cons_none h]
  dsimp only
  rw [hcount, hrecord]
  rfl

theorem carry_cons_other {x : String × Nat} {checksErrors : Bool}
    (h : StepMarker.finished? x.1 = none)
    (herr : (checksErrors && FailureLine.isFailure x.1) = false) (maxErrors : Nat) (s : Step)
    (lines : List (String × Nat)) :
    carry checksErrors maxErrors s (x :: lines) = carry checksErrors maxErrors s lines := by
  have hne : ¬ (checksErrors && FailureLine.isFailure x.1) = true := by simp [herr]
  unfold carry
  rw [errorsIn_cons_none h, if_neg hne, finishIn?_cons_none h]

/-- The steps that a log is to have after some lines: the closed ones, the open one carried on to
the next start marker, and one for each span. -/
def stepsAfter (l : StepLog) (lines : List (String × Nat)) : List Step :=
  l.closed ++
    (l.current.map fun s => carry l.checksErrors l.maxErrors s (untilStart lines)).toList ++
    (ofLines lines).mapIdx fun k span => span.step l.checksErrors l.maxErrors (l.steps.length + k)

theorem stepsAfter_start (l : StepLog) {x : String × Nat} {m : StepMarker.Started}
    (h : StepMarker.started? x.1 = some m) (lines : List (String × Nat)) :
    stepsAfter (l.start m x.2) lines = stepsAfter l (x :: lines) := by
  -- no line is left for the step that was open, which closes as it is
  have hopen : l.current.map (fun s => carry l.checksErrors l.maxErrors s []) = l.current := by
    cases l.current <;> simp [carry_nil]
  have hshift (k : Nat) : l.steps.length + 1 + k = l.steps.length + (k + 1) := by omega
  have hclosed : (l.start m x.2).closed = l.closed ++ l.current.toList := rfl
  rw [stepsAfter, stepsAfter, steps_start, hclosed, untilStart_cons_start h, hopen,
    ofLines_cons_start h, List.mapIdx_cons]
  simp [StepLog.start, step, hshift]

theorem stepsAfter_outside {l : StepLog} {x : String × Nat}
    (h : StepMarker.started? x.1 = none) (hcur : l.current = none) (lines : List (String × Nat)) :
    stepsAfter l lines = stepsAfter l (x :: lines) := by
  simp [stepsAfter, hcur, ofLines_cons_none h]

theorem stepsAfter_finish {l : StepLog} {s : Step} {x : String × Nat} {m : StepMarker.Finished}
    (h : StepMarker.started? x.1 = none) (hcur : l.current = some s)
    (hfin : StepMarker.finished? x.1 = some m) (lines : List (String × Nat)) :
    stepsAfter (l.finish s m x.2) lines = stepsAfter l (x :: lines) := by
  rw [stepsAfter, stepsAfter, steps_finish, steps_of_current hcur, hcur, untilStart_cons_none h,
    ofLines_cons_none h]
  simp [finish_eq, carry_cons_finish hfin]

theorem stepsAfter_error {l : StepLog} {s : Step} {x : String × Nat}
    (h : StepMarker.started? x.1 = none) (hcur : l.current = some s)
    (hfin : StepMarker.finished? x.1 = none)
    (herr : (l.checksErrors && FailureLine.isFailure x.1) = true) (lines : List (String × Nat)) :
    stepsAfter (l.addError s x.1 x.2) lines = stepsAfter l (x :: lines) := by
  rw [stepsAfter, stepsAfter, steps_addError, steps_of_current hcur, hcur, untilStart_cons_none h,
    ofLines_cons_none h]
  simp [addError_eq, carry_cons_error hfin herr]

theorem stepsAfter_pass {l : StepLog} {s : Step} {x : String × Nat}
    (h : StepMarker.started? x.1 = none) (hcur : l.current = some s)
    (hfin : StepMarker.finished? x.1 = none)
    (herr : (l.checksErrors && FailureLine.isFailure x.1) = false) (lines : List (String × Nat)) :
    stepsAfter l lines = stepsAfter l (x :: lines) := by
  rw [stepsAfter, stepsAfter, hcur, untilStart_cons_none h, ofLines_cons_none h]
  simp [carry_cons_other hfin herr]

theorem steps_readAll (l : StepLog) (lines : List (String × Nat)) :
    (l.readAll lines).steps = stepsAfter l lines := by
  induction lines generalizing l with
  | nil =>
    have hopen : (l.current.map fun s => carry l.checksErrors l.maxErrors s []) = l.current := by
      cases l.current <;> simp [carry_nil]
    simp [readAll_nil, stepsAfter, untilStart, ofLines, hopen, steps]
  | cons x lines ih =>
    rw [readAll_cons, ih]
    -- whatever the line does, the steps called for stay what they were
    refine readLine_cases l x.1 x.2 ?_ ?_ ?_ ?_ ?_
    · intro m hm
      exact stepsAfter_start l hm lines
    · intro h hcur
      exact stepsAfter_outside h hcur lines
    · intro s m h hcur hfin
      exact stepsAfter_finish h hcur hfin lines
    · intro s h hcur hfin herr
      exact stepsAfter_error h hcur hfin herr lines
    · intro s h hcur hfin herr
      exact stepsAfter_pass h hcur hfin herr lines

theorem steps_readAll_empty (checksErrors : Bool) (maxErrors : Nat) (lines : List (String × Nat)) :
    ((StepLog.empty checksErrors maxErrors).readAll lines).steps =
      (ofLines lines).mapIdx (step checksErrors maxErrors) := by
  rw [steps_readAll]
  simp [stepsAfter, StepLog.empty, steps]

theorem lineNumbers_ofLines (lines : List (String × Nat)) :
    (ofLines lines).map StepSpan.lineNumber =
      (lines.filter fun x => isStart x.1).map fun x => x.2 := by
  induction lines with
  | nil => rfl
  | cons x lines ih =>
    cases h : StepMarker.started? x.1 with
    | none => simpa [ofLines_cons_none h, isStart_of_none h] using ih
    | some m => simpa [ofLines_cons_start h, isStart_of_some h] using ih

theorem length_ofLines (lines : List (String × Nat)) :
    (ofLines lines).length = lines.countP fun x => isStart x.1 := by
  have h := congrArg List.length (lineNumbers_ofLines lines)
  rwa [List.length_map, List.length_map, ← List.countP_eq_length_filter] at h

/-- The span of a start marker comes after those of the start markers before it. -/
theorem getElem?_ofLines {x : String × Nat} {m : StepMarker.Started}
    (h : StepMarker.started? x.1 = some m) (before after : List (String × Nat)) :
    (ofLines (before ++ x :: after))[before.countP fun y => isStart y.1]? =
      some ⟨m, x.2, untilStart after⟩ := by
  induction before with
  | nil => simp [ofLines_cons_start h]
  | cons y before ih =>
    rw [List.cons_append]
    cases hy : StepMarker.started? y.1 with
    | none => simpa [ofLines_cons_none hy, isStart_of_none hy] using ih
    | some m' => simpa [ofLines_cons_start hy, isStart_of_some hy] using ih

theorem readLine_stray_finish {l : StepLog} (hcur : l.current = none) {line : String}
    (hfin : isFinish line = true) (n : Nat) : l.readLine line n = l := by
  have h : ∀ x ∈ [(line, n)], isStart x.1 = false := by
    intro x hx
    rw [List.mem_singleton.mp hx]
    exact isStart_of_isFinish hfin
  exact readAll_outside hcur h

/-- No step is open before the first start marker, nor from a finish marker to the next start
marker. -/
theorem current_readAll_eq_none {l : StepLog} (hcur : l.current = none)
    {lines : List (String × Nat)}
    (h : (∀ y ∈ lines, isStart y.1 = false) ∨
      ∃ before y after, lines = before ++ y :: after ∧ isFinish y.1 = true ∧
        ∀ z ∈ after, isStart z.1 = false) :
    (l.readAll lines).current = none := by
  obtain h | ⟨before, y, after, rfl, hy, hafter⟩ := h
  · rw [readAll_outside hcur h]
    exact hcur
  · have hnone := current_readLine_finish (l.readAll before) (isStart_of_isFinish hy) hy y.2
    rw [readAll_append, readAll_cons, readAll_outside hnone hafter]
    exact hnone

/-- Each start marker gives a step of its own, finished by the first finish marker before the next
start marker. A finish marker with no open step before it changes nothing, and no line fails. -/
theorem steps_at_start_markers (checksErrors : Bool) (maxErrors : Nat)
    (lines : List (String × Nat)) :
    let log := (StepLog.empty checksErrors maxErrors).readAll lines
    log.steps.length = lines.countP (fun x => isStart x.1) ∧
    (∀ before x after m, lines = before ++ x :: after → StepMarker.started? x.1 = some m →
      let k := before.countP fun y => isStart y.1
      let finish := finishIn? (untilStart after)
      ∃ s, log.steps[k]? = some s ∧ s.order = k ∧ s.name = m.name ∧ s.started = m.time ∧
        s.startedLine = x.2 ∧
        s.finished = finish.map (fun f => f.1.time) ∧
        s.finishedLine = finish.map (fun f => f.2) ∧
        s.outcome = finish.elim .unknown (fun f => Outcome.ofDigits f.1.results.code) ∧
        s.duration = finish.bind (fun f => duration? m.time f.1.time)) ∧
    (∀ line n, isFinish line = true →
      ((∀ y ∈ lines, isStart y.1 = false) ∨
        ∃ before y after, lines = before ++ y :: after ∧ isFinish y.1 = true ∧
          ∀ z ∈ after, isStart z.1 = false) →
      log.readLine line n = log) ∧
    ∀ line n, (Section.steps log).readLine line n = (.steps (log.readLine line n), none) := by
  intro log
  have hsteps : log.steps = (ofLines lines).mapIdx (step checksErrors maxErrors) :=
    steps_readAll_empty checksErrors maxErrors lines
  refine ⟨?_, ?_, ?_, fun _ _ => rfl⟩
  · rw [hsteps, List.length_mapIdx, length_ofLines]
  · intro before x after m hlines hm k finish
    have hspan : (ofLines lines)[k]? = some ⟨m, x.2, untilStart after⟩ := by
      rw [hlines]
      exact getElem?_ofLines hm before after
    refine ⟨step checksErrors maxErrors k ⟨m, x.2, untilStart after⟩, ?_, ?_⟩
    · rw [hsteps, List.getElem?_mapIdx, hspan]
      rfl
    · have hfinish : finishIn? (untilStart after) = finish := rfl
      unfold step carry
      rw [hfinish]
      cases finish with
      | none => exact ⟨rfl, rfl, rfl, rfl, rfl, rfl, rfl, rfl⟩
      | some f => exact ⟨rfl, rfl, rfl, rfl, rfl, rfl, rfl, rfl⟩
  · intro line n hfin hclosed
    exact readLine_stray_finish (current_readAll_eq_none rfl hclosed) hfin n

def finishedTwice : List (String × Nat) :=
  [("========= Started build (at noon) =========", 4),
    ("========= Finished test (results: 2, elapsed: 1 secs) (at one) =========", 6),
    ("========= Finished build (results: 0, elapsed: 2 secs) (at two) =========", 9)]

theorem steps_finishedTwice :
    let log := (StepLog.empty true 1).readAll finishedTwice
    StepMarker.started? finishedTwice[0].1 = some ⟨"build", none, "noon"⟩ ∧
      (∃ s, log.steps[0]? = some s ∧ s.name = "build" ∧ s.finishedLine = some 6 ∧
        s.outcome = .busted) ∧
      isFinish finishedTwice[2].1 = true ∧
      log.readLine finishedTwice[2].1 10 = log := by
  have hstart : StepMarker.started? finishedTwice[0].1 = some ⟨"build", none, "noon"⟩ := by
    decide +kernel
  have hfinish : finishIn? (untilStart finishedTwice.tail) =
      some (⟨"test", ⟨"2", "1 secs"⟩, "one"⟩, 6) := by
    decide +kernel
  have hlast : isFinish finishedTwice[2].1 = true := by decide +kernel
  obtain ⟨-, hsteps, hstray, -⟩ := steps_at_start_markers true 1 finishedTwice
  obtain ⟨s, hs, -, hname, -, -, -, hline, houtcome, -⟩ :=
    hsteps [] finishedTwice[0] finishedTwice.tail _ rfl hstart
  rw [hfinish] at hline houtcome
  refine ⟨hstart, ⟨s, hs, hname, hline, ?_⟩, hlast, ?_⟩
  · rw [houtcome]
    decide +kernel
  · exact hstray _ 10 hlast (.inr ⟨finishedTwice.take 2, finishedTwice[2], [], rfl, hlast, by simp⟩)

end StepSpan
end BuildLog
