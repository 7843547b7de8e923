import BuildLog.Proofs.SessionRun
import BuildLog.Proofs.StepSpans
import Mathlib.Data.List.TakeWhile

namespace BuildLog

namespace StepLog

/-- A log that has counted and recorded its error lines as it should. -/
structure Accounted (l : StepLog) : Prop where
  recorded : ∀ s ∈ l.steps, s.errors.length = min s.errorCount l.maxErrors
  truncated : l.errorsTruncated = true ↔ ∃ s ∈ l.steps, s.errors.length < s.errorCount

theorem accounted_empty (checksErrors : Bool) (maxErrors : Nat) :
    (empty checksErrors maxErrors).Accounted :=
  ⟨by simp [empty, steps], by simp [empty, steps]⟩

theorem accounted_start {l : StepLog} (h : l.Accounted) (m : StepMarker.Started) (n : Nat) :
    (l.start m n).Accounted := by
  have hset : (l.start m n).maxErrors = l.maxErrors := rfl
  have hflag : (l.start m n).errorsTruncated = l.errorsTruncated := rfl
  constructor
  · rw [steps_start, hset]
    intro s hs
    obtain hs | hs := List.mem_append.mp hs
    · exact h.recorded s hs
    · rw [List.mem_singleton.mp hs]
      simp [Step.start]
  · rw [hflag, h.truncated, steps_start]
    simp [Step.start]

theorem accounted_of_last {l l' : StepLog} {closed : List Step} {s s' : Step} (h : l.Accounted)
    (hsteps : l.steps = closed ++ [s]) (hsteps' : l'.steps = closed ++ [s'])
    (hmax : l'.maxErrors = l.maxErrors)
    (hrecorded : s'.errors.length = min s'.errorCount l.maxErrors)
    (hkept : s.errors.length < s.errorCount → s'.errors.length < s'.errorCount)
    (hflag : l'.errorsTruncated = true ↔
      l.errorsTruncated = true ∨ s'.errors.length < s'.errorCount) : l'.Accounted := by
  have hall := h.recorded
  have htruncated := h.truncated
  rw [hsteps] at hall htruncated
  constructor
  · rw [hsteps', hmax]
    intro x hx
    obtain hx | hx := List.mem_append.mp hx
    · exact hall x (List.mem_append_left _ hx)
    · rw [List.mem_singleton.mp hx]
      exact hrecorded
  · simp only [List.mem_append, List.mem_singleton, or_and_right, exists_or, exists_eq_left]
      at htruncated
    rw [hflag, htruncated, hsteps']
    simp only [List.mem_append, List.mem_singleton, or_and_right, exists_or, exists_eq_left]
    rw [or_assoc, or_iff_right_of_imp hkept]

theorem accounted_finish {l : StepLog} (h : l.Accounted) {s : Step} (hcur : l.current = some s)
    (m : StepMarker.Finished) (n : Nat) : (l.finish s m n).Accounted := by
  have hmem : s ∈ l.steps := by simp [steps_of_current hcur]
  have hlost (hs : s.errors.length < s.errorCount) : l.errorsTruncated = true :=
    h.truncated.mpr ⟨s, hmem, hs⟩
  apply accounted_of_last h (steps_of_current hcur) (steps_finish l s m n) rfl
  · exact h.recorded s hmem
  · exact id
  · exact (or_iff_left_of_imp hlost).symm

/-- The flag is set exactly when an error line of the open step finds no room. -/
theorem accounted_addError {l : StepLog} (h : l.Accounted) {s : Step} (hcur : l.current = some s)
    (line : String) (n : Nat) : (l.addError s line n).Accounted := by
  have hmem : s ∈ l.steps := by simp [steps_of_current hcur]
  have hmax : (l.addError s line n).maxErrors = l.maxErrors := by rw [addError_eq]
  have hs : s.errors.length = min s.errorCount l.maxErrors := h.recorded s hmem
  have hrecorded : (s.addError l.maxErrors line n).errors.length =
      min (s.errorCount + 1) l.maxErrors := by
    unfold Step.addError
    by_cases hroom : s.errors.length < l.maxErrors
    · simp only [hroom, if_true, List.length_append, List.length_singleton]
      omega
    · simp only [hroom, if_false]
      omega
  -- a step without room had none before, or has just run out of it
  have hlost : (s.addError l.maxErrors line n).errors.length <
      (s.addError l.maxErrors line n).errorCount ↔ l.maxErrors ≤ s.errors.length := by
    have hcount : (s.addError l.maxErrors line n).errorCount = s.errorCount + 1 := rfl
    omega
  apply accounted_of_last h (steps_of_current hcur) (steps_addError l s line n) hmax hrecorded
  · intro hless
    apply hlost.mpr
    omega
  · rw [hlost, addError_eq]
    simp only [Bool.or_eq_true, decide_eq_true_eq]

theorem accounted_readLine {l : StepLog} (h : l.Accounted) (line : String) (n : Nat) :
    (l.readLine line n).Accounted := by
  refine readLine_cases l line n ?_ ?_ ?_ ?_ ?_
  · exact fun m _ => accounted_start h m n
  · exact fun _ _ => h
  · exact fun s m _ hcur _ => accounted_finish h hcur m n
  · exact fun s _ hcur _ _ => accounted_addError h hcur line n
  · exact fun _ _ _ _ _ => h

theorem accounted_readAll {l : StepLog} (h : l.Accounted) (lines : List (String × Nat)) :
    (l.readAll lines).Accounted :=
  readAll_induction (motive := Accounted) (fun _ line n h => accounted_readLine h line n) h lines

end StepLog

namespace StepSpan
open StepLog

theorem exists_split {lines : List (String × Nat)} {k : Nat} {span : StepSpan}
    (h : (ofLines lines)[k]? = some span) :
    ∃ before x after, lines = before ++ x :: after ∧ x.2 = span.lineNumber ∧
      span.body = untilStart after ∧ (ofLines lines)[k + 1]? = (ofLines after)[0]? := by
  induction lines generalizing k with
  | nil => simp [ofLines] at h
  | cons x lines ih =>
    cases hx : StepMarker.started? x.1 with
    | none =>
      rw [ofLines_cons_none hx] at h
      obtain ⟨before, y, after, hlines, hy, hbody, hnext⟩ := ih h
      exact ⟨x :: before, y, after, by rw [hlines]; rfl, hy, hbody, by
        rw [ofLines_cons_none hx, hnext]⟩
    | some m =>
      rw [ofLines_cons_start hx] at h
      cases k with
      | zero =>
        rw [List.getElem?_cons_zero, Option.some.injEq] at h
        rw [← h]
        exact ⟨[], x, lines, rfl, rfl, rfl, by rw [ofLines_cons_start hx]; rfl⟩
      | succ k =>
        rw [List.getElem?_cons_succ] at h
        obtain ⟨before, y, after, hlines, hy, hbody, hnext⟩ := ih h
        exact ⟨x :: before, y, after, by rw [hlines]; rfl, hy, hbody, by
          rw [ofLines_cons_start hx, List.getElem?_cons_succ, hnext]⟩

theorem lineNumber_first (lines : List (String × Nat)) :
    (ofLines lines)[0]?.map StepSpan.lineNumber =
      (lines.find? fun x => isStart x.1).map fun x => x.2 := by
  induction lines with
  | nil => rfl
  | cons x lines ih =>
    cases hx : StepMarker.started? x.1 with
    | none => rw [ofLines_cons_none hx, List.find?_cons_of_neg (by simp [isStart_of_none hx]), ih]
    | some m =>
      rw [ofLines_cons_start hx, List.find?_cons_of_pos (by simp [isStart_of_some hx])]
      rfl

theorem lineNumber_finish (lines : List (String × Nat)) :
    (finishIn? lines).map (fun f => f.2) =
      (lines.find? fun x => isFinish x.1).map fun x => x.2 := by
  induction lines with
  | nil => rfl
  | cons x lines ih =>
    cases hx : StepMarker.finished? x.1 with
    | none =>
      rw [finishIn?_cons_none hx, List.find?_cons_of_neg (by simp [isFinish_of_none hx]), ih]
    | some m =>
      rw [finishIn?_cons_finish hx, List.find?_cons_of_pos (by simp [isFinish_of_some hx])]
      rfl

/-- The lines of an open step lie between its start line and the next marker, if there is one. That
marker finishes the step or starts the next one. -/
theorem exists_placement {lines : List (String × Nat)} {k : Nat} {span : StepSpan}
    (h : (ofLines lines)[k]? = some span) :
    ∃ before x rest, lines = before ++ x :: (untilFinish span.body ++ rest) ∧
      x.2 = span.lineNumber ∧
      (∀ y, rest.head? = some y → isStart y.1 = true ∨ isFinish y.1 = true) ∧
      (rest.head?.filter fun y => isFinish y.1).map (fun y => y.2) =
        (finishIn? span.body).map (fun f => f.2) ∧
      rest.head?.map (fun y => y.2) =
        ((finishIn? span.body).map fun f => f.2).or
          ((ofLines lines)[k + 1]?.map StepSpan.lineNumber) := by
  obtain ⟨before, x, after, hlines, hx, hbody, hnext⟩ := exists_split h
  have hafter : span.body ++ (after.dropWhile fun y => !isStart y.1) = after := by
    rw [hbody]
    exact List.takeWhile_append_dropWhile
  have hspan : untilFinish span.body ++ (span.body.dropWhile fun y => !isFinish y.1) =
      span.body := List.takeWhile_append_dropWhile
  -- past its open part, a span begins with its finish marker or is over
  have hhead : ((span.body.dropWhile fun y => !isFinish y.1) ++
      after.dropWhile fun y => !isStart y.1).head? =
        (span.body.find? fun y => isFinish y.1).or (after.find? fun y => isStart y.1) := by
    rw [List.head?_append, List.find?_eq_head?_dropWhile_not, List.find?_eq_head?_dropWhile_not]
  refine ⟨before, x, (span.body.dropWhile fun y => !isFinish y.1) ++
    after.dropWhile fun y => !isStart y.1, ?_, hx, ?_, ?_, ?_⟩
  · rw [← List.append_assoc, hspan, hafter]
    exact hlines
  · intro y hy
    rw [hhead, Option.or_eq_some_iff] at hy
    rcases hy with hy | ⟨-, hy⟩
    · have h := List.find?_some hy
      exact .inr h
    · have h := List.find?_some hy
      exact .inl h
  · rw [hhead, lineNumber_finish]
    cases hfinish : span.body.find? fun y => isFinish y.1 with
    | some y => rw [Option.some_or, Option.filter_some, if_pos (List.find?_some hfinish)]
    | none =>
      rw [Option.none_or]
      cases hstart : after.find? fun y => isStart y.1 with
      | none => rfl
      | some y =>
        have hnot : ¬ isFinish y.1 = true := by
          intro hy
          have h := List.find?_some hstart
          rw [isStart_of_isFinish hy] at h
          contradiction
        rw [Option.filter_some, if_neg hnot]
  · rw [hnext, lineNumber_first, lineNumber_finish, hhead]
    cases span.body.find? fun y => isFinish y.1 <;> rfl

theorem not_marker {lines : List (String × Nat)} {k : Nat} {span : StepSpan}
    (h : (ofLines lines)[k]? = some span) {y : String × Nat} (hy : y ∈ untilFinish span.body) :
    isStart y.1 = false ∧ isFinish y.1 = false := by
  obtain ⟨-, -, after, -, -, hbody, -⟩ := exists_split h
  have hfinish := List.mem_takeWhile_imp hy
  have hmem : y ∈ untilStart after := hbody ▸ (List.takeWhile_sublist _).subset hy
  have hstart := List.mem_takeWhile_imp hmem
  exact ⟨by simpa using hstart, by simpa using hfinish⟩

def nextMarker? (start : Nat) (lines : List (String × Nat)) : Option (String × Nat) :=
  lines.find? fun x => start < x.2 && (isStart x.1 || isFinish x.1)

theorem nextMarker?_append {before between rest : List (String × Nat)} {x : String × Nat}
    (hascend : (before ++ x :: (between ++ rest)).Pairwise fun y z => y.2 < z.2)
    (hbetween : ∀ y ∈ between, isStart y.1 = false ∧ isFinish y.1 = false)
    (hrest : ∀ y, rest.head? = some y → isStart y.1 = true ∨ isFinish y.1 = true) :
    nextMarker? x.2 (before ++ x :: (between ++ rest)) = rest.head? := by
  obtain ⟨-, hx, hbefore⟩ := List.pairwise_append.mp hascend
  have hafter := (List.pairwise_cons.mp hx).1
  have hearly : before.find? (fun y => x.2 < y.2 && (isStart y.1 || isFinish y.1)) = none := by
    rw [List.find?_eq_none]
    intro y hy
    have hlt : y.2 < x.2 := hbefore y hy x List.mem_cons_self
    have hnot : ¬ x.2 < y.2 := by omega
    simp [hnot]
  have hplain : between.find? (fun y => x.2 < y.2 && (isStart y.1 || isFinish y.1)) = none := by
    rw [List.find?_eq_none]
    intro y hy
    simp [hbetween y hy]
  rw [nextMarker?, List.find?_append, hearly, Option.none_or, List.find?_cons_of_neg (by simp),
    List.find?_append, hplain, Option.none_or]
  cases rest with
  | nil => rfl
  | cons y rest =>
    have hlt : x.2 < y.2 := hafter y (by simp)
    have hmarker := hrest y rfl
    rw [List.find?_cons_of_pos (by simpa [hlt] using hmarker), List.head?_cons]

/-- In a log with ascending numbers, some consecutive lines are those between the number before them
and the number after them. -/
theorem filter_between {before between rest : List (String × Nat)} {x : String × Nat} {total : Nat}
    (hascend : (before ++ x :: (between ++ rest)).Pairwise fun y z => y.2 < z.2)
    (htotal : ∀ y ∈ between, y.2 < total) (p : String × Nat → Bool) :
    (before ++ x :: (between ++ rest)).filter (fun y =>
        (x.2 < y.2 && y.2 < (rest.head?.map fun z => z.2).getD total) && p y) =
      between.filter p := by
  -- the lines before have numbers too low, the rest begins with one that is too high
  let stop := (rest.head?.map fun z => z.2).getD total
  obtain ⟨-, hx, hbefore⟩ := List.pairwise_append.mp hascend
  obtain ⟨hafter, hbetween⟩ := List.pairwise_cons.mp hx
  obtain ⟨-, hrest, hcross⟩ := List.pairwise_append.mp hbetween
  have hnone : before.filter (fun y => (x.2 < y.2 && y.2 < stop) && p y) = [] := by
    apply List.filter_eq_nil_iff.mpr
    intro y hy
    have hlt : y.2 < x.2 := hbefore y hy x List.mem_cons_self
    have hnot : ¬ x.2 < y.2 := by omega
    simp [hnot]
  have hall : between.filter (fun y => (x.2 < y.2 && y.2 < stop) && p y) = between.filter p := by
    apply List.filter_congr
    intro y hy
    have hlow : x.2 < y.2 := hafter y (List.mem_append_left _ hy)
    have hhigh : y.2 < stop := by
      cases hr : rest with
      | nil => simpa [stop, hr] using htotal y hy
      | cons z rest' => simpa [stop, hr] using hcross y hy z (by rw [hr]; exact List.mem_cons_self)
    simp [hlow, hhigh]
  have hpast : rest.filter (fun y => (x.2 < y.2 && y.2 < stop) && p y) = [] := by
    apply List.filter_eq_nil_iff.mpr
    intro y hy
    cases hr : rest with
    | nil => simp [hr] at hy
    | cons z rest' =>
      have hle : z.2 ≤ y.2 := by
        rw [hr] at hy hrest
        obtain rfl | hy := List.mem_cons.mp hy
        · exact Nat.le_refl _
        · exact Nat.le_of_lt ((List.pairwise_cons.mp hrest).1 y hy)
      have hnot : ¬ y.2 < stop := by simpa [stop, hr] using hle
      simp [hnot]
  rw [List.filter_append, List.filter_cons_of_neg (by simp), List.filter_append, hnone, hall, hpast]
  simp

/-- The error lines strictly between two line numbers. A marker is none. -/
def errorsBetween (checksErrors : Bool) (start stop : Nat) (lines : List (String × Nat)) :
    List (String × Nat) :=
  lines.filter fun x =>
    (start < x.2 && x.2 < stop) &&
      (!isStart x.1 && !isFinish x.1 && (checksErrors && FailureLine.isFailure x.1))

theorem errors_step (checksErrors : Bool) (maxErrors k : Nat) (span : StepSpan) :
    (span.step checksErrors maxErrors k).errors =
        ((errorsIn checksErrors span.body).take maxErrors).map (fun x => ⟨x.2, x.1⟩) ∧
      (span.step checksErrors maxErrors k).errorCount =
        (errorsIn checksErrors span.body).length := by
  unfold step carry
  cases finishIn? span.body <;> simp [Step.start, Step.finish]

theorem lineNumbers_step (checksErrors : Bool) (maxErrors k : Nat) (span : StepSpan) :
    (span.step checksErrors maxErrors k).startedLine = span.lineNumber ∧
      (span.step checksErrors maxErrors k).finishedLine =
        (finishIn? span.body).map fun f => f.2 := by
  unfold step carry
  cases finishIn? span.body <;> simp [Step.start, Step.finish]

/-- The error lines of a span, found by their numbers, and the marker that ends them. -/
theorem errorsIn_eq_errorsBetween {lines : List (String × Nat)} {total k : Nat} {span : StepSpan}
    (hascend : lines.Pairwise fun y z => y.2 < z.2) (htotal : ∀ y ∈ lines, y.2 < total)
    (h : (ofLines lines)[k]? = some span) (checksErrors : Bool) :
    let marker? := nextMarker? span.lineNumber lines
    (marker?.filter fun y => isFinish y.1).map (fun y => y.2) =
        (finishIn? span.body).map (fun f => f.2) ∧
      (marker?.map fun y => y.2).getD total =
        ((finishIn? span.body).map fun f => f.2).getD
          (((ofLines lines)[k + 1]?.map StepSpan.lineNumber).getD total) ∧
      errorsIn checksErrors span.body =
        errorsBetween checksErrors span.lineNumber ((marker?.map fun y => y.2).getD total)
          lines := by
  obtain ⟨before, x, rest, hlines, hx, hmarker, hfinish, hstop⟩ := exists_placement h
  have hbound : ∀ y ∈ untilFinish span.body, y.2 < total := by
    intro y hy
    apply htotal
    rw [hlines]
    simp [hy]
  have hplain : errorsIn checksErrors span.body = (untilFinish span.body).filter fun y =>
      !isStart y.1 && !isFinish y.1 && (checksErrors && FailureLine.isFailure y.1) := by
    apply List.filter_congr
    intro y hy
    obtain ⟨hstart, hfinish⟩ := not_marker h hy
    simp [hstart, hfinish]
  have hdefault (a b : Option Nat) : (a.or b).getD total = a.getD (b.getD total) := by
    cases a <;> rfl
  have hnext : nextMarker? span.lineNumber lines = rest.head? := by
    rw [hlines] at hascend ⊢
    rw [← hx]
    exact nextMarker?_append hascend (fun y hy => not_marker h hy) hmarker
  dsimp only
  refine ⟨?_, ?_, ?_⟩
  · rw [hnext, hfinish]
  · rw [hnext, hstop, hdefault]
  · rw [hnext, hplain, ← hx, errorsBetween]
    rw [hlines] at hascend ⊢
    exact (filter_between hascend hbound _).symm

/-- The number of the line at which step `k` ends: its finish line, or else the start line of the
next step, or else the end of a log of `total` lines. -/
def stopLine (steps : List Step) (k total : Nat) : Nat :=
  (steps[k]?.bind Step.finishedLine).getD ((steps[k + 1]?.map Step.startedLine).getD total)

theorem startedLines_readAll (checksErrors : Bool) (maxErrors : Nat) (lines : List (String × Nat)) :
    ((StepLog.empty checksErrors maxErrors).readAll lines).steps.map Step.startedLine =
      (lines.filter fun x => isStart x.1).map fun x => x.2 := by
  rw [steps_readAll_empty, ← lineNumbers_ofLines]
  ext k : 1
  rw [List.getElem?_map, List.getElem?_mapIdx, List.getElem?_map]
  cases (ofLines lines)[k]? with
  | none => rfl
  | some span => exact congrArg some (lineNumbers_step checksErrors maxErrors k span).1

/-- The errors of each step of a log with ascending numbers, found by the numbers that the steps
themselves give. A step is finished by the next marker after its start, if that is a finish marker. -/
theorem errors_readAll {lines : List (String × Nat)} {total : Nat}
    (hascend : lines.Pairwise fun y z => y.2 < z.2) (htotal : ∀ y ∈ lines, y.2 < total)
    (checksErrors : Bool) (maxErrors : Nat) {k : Nat} {s : Step}
    (h : ((StepLog.empty checksErrors maxErrors).readAll lines).steps[k]? = some s) :
    let marker? := nextMarker? s.startedLine lines
    let stop := stopLine ((StepLog.empty checksErrors maxErrors).readAll lines).steps k total
    let found := errorsBetween checksErrors s.startedLine stop lines
    s.finishedLine = (marker?.filter fun x => isFinish x.1).map (fun x => x.2) ∧
      stop = (marker?.map fun x => x.2).getD total ∧
      s.errorCount = found.length ∧
      s.errors = (found.take maxErrors).map fun x => ⟨x.2, x.1⟩ := by
  rw [steps_readAll_empty, List.getElem?_mapIdx, Option.map_eq_some_iff] at h
  obtain ⟨span, hspan, rfl⟩ := h
  obtain ⟨hstart, hfinish⟩ := lineNumbers_step checksErrors maxErrors k span
  obtain ⟨herrors, hcount⟩ := errors_step checksErrors maxErrors k span
  have hnext : (((ofLines lines).mapIdx (step checksErrors maxErrors))[k + 1]?.map
      Step.startedLine) = (ofLines lines)[k + 1]?.map StepSpan.lineNumber := by
    rw [List.getElem?_mapIdx]
    cases (ofLines lines)[k + 1]? with
    | none => rfl
    | some next => exact congrArg some (lineNumbers_step checksErrors maxErrors (k + 1) next).1
  have hstop : stopLine ((ofLines lines).mapIdx (step checksErrors maxErrors)) k total =
      ((finishIn? span.body).map fun f => f.2).getD
        (((ofLines lines)[k + 1]?.map StepSpan.lineNumber).getD total) := by
    rw [stopLine, hnext, List.getElem?_mapIdx, hspan, ← hfinish]
    rfl
  obtain ⟨hmarker, hplace, hfound⟩ := errorsIn_eq_errorsBetween hascend htotal hspan checksErrors
  dsimp only
  rw [steps_readAll_empty, hstart, hfinish, hstop, ← hplace, ← hfound]
  exact ⟨hmarker.symm, rfl, hcount, herrors⟩

end StepSpan

namespace Session
open StepLog StepSpan

theorem pairwise_zipIdx {α : Type} (xs : List α) (n : Nat) :
    (xs.zipIdx n).Pairwise fun y z => y.2 < z.2 := by
  have h := List.pairwise_lt_range' (s := n) (n := xs.length)
  rw [← List.zipIdx_map_snd n xs] at h
  exact List.pairwise_map.mp h

/-- The report of a structured log has a step for each start line. A step stops at the next marker
after its start line, which finishes it if it is a finish marker. The report counts the error lines
of a step, which are the ones between its start line and its stop line, records the first of them as
they were seen, lists all that are recorded, and tells whether some step has more than it records. -/
theorem structuredLog_accounts (url : Option String) (o : Options) (lines : List String) :
    let seen := (lines.map o.truncation.cut).zipIdx
    let log := (StepLog.empty o.checkErrors o.maxStepErrors).readAll seen
    let final := ((ReportKind.structuredLog.session url o).readEach lines).1
    Section.steps log ∈ final.sections ∧
      final.artifact.field? "step_data" = some log.report.toJson ∧
      log.report.steps.map Step.startedLine =
        (seen.filter fun x => isStart x.1).map (fun x => x.2) ∧
      (∀ k s, log.report.steps[k]? = some s →
        let marker? := nextMarker? s.startedLine seen
        let stop := stopLine log.report.steps k lines.length
        let found := errorsBetween o.checkErrors s.startedLine stop seen
        s.finishedLine = (marker?.filter fun x => isFinish x.1).map (fun x => x.2) ∧
        stop = (marker?.map fun x => x.2).getD lines.length ∧
        s.errorCount = found.length ∧
        s.errors = (found.take o.maxStepErrors).map fun x => ⟨x.2, x.1⟩) ∧
      log.report.allErrors = log.report.steps.flatMap Step.errors ∧
      (log.report.errorsTruncated = true ↔
        ∃ s ∈ log.report.steps, s.errors.length < s.errorCount) := by
  intro seen log final
  have hsections : final.sections =
      [.header (Header.empty.readAll (lines.map o.truncation.cut)), .steps log] :=
    readEach_structuredLog url o lines
  have haccounted : log.Accounted :=
    accounted_readAll (accounted_empty o.checkErrors o.maxStepErrors) seen
  have hascend : seen.Pairwise fun y z => y.2 < z.2 := pairwise_zipIdx _ 0
  have htotal : ∀ y ∈ seen, y.2 < lines.length := by
    intro y hy
    simpa [seen] using List.snd_lt_of_mem_zipIdx hy
  refine ⟨?_, ?_, ?_, ?_, rfl, haccounted.truncated⟩
  · simp [hsections]
  · rw [field?_artifact, hsections]
    rfl
  · exact startedLines_readAll o.checkErrors o.maxStepErrors seen
  · intro k s hs
    exact errors_readAll hascend htotal o.checkErrors o.maxStepErrors hs

def twoErrors : List String :=
  ["abort: early", "========= Started a (at 1) =========", "abort: first", "fine", "abort: last",
    "========= Finished a (results: 2, elapsed: 1) (at 2) =========", "abort: late"]

theorem accounts_twoErrors :
    let o : Options := ⟨true, 1, Truncation.ofMarkers 9 ["==="]⟩
    let log := (StepLog.empty o.checkErrors o.maxStepErrors).readAll
      (twoErrors.map o.truncation.cut).zipIdx
    ∃ s, log.report.steps[0]? = some s ∧ s.finishedLine = some 5 ∧ s.errorCount = 2 ∧
      s.errors = [⟨2, "abort: fi"⟩] ∧
      log.report.errorsTruncated = true := by
  intro o log
  have hstarts : log.report.steps[0]?.map Step.startedLine = some 1 := by decide +kernel
  obtain ⟨s, hs, hstart⟩ := Option.map_eq_some_iff.mp hstarts
  have hmarker : nextMarker? 1 (twoErrors.map o.truncation.cut).zipIdx =
      some ("========= Finished a (results: 2, elapsed: 1) (at 2) =========", 5) := by
    decide +kernel
  have hfinish :
      isFinish "========= Finished a (results: 2, elapsed: 1) (at 2) =========" = true := by
    decide +kernel
  have hfound : errorsBetween true 1 5 (twoErrors.map o.truncation.cut).zipIdx =
      [("abort: fi", 2), ("abort: la", 4)] := by
    decide +kernel
  obtain ⟨-, -, -, hsteps, -, htruncated⟩ := structuredLog_accounts none o twoErrors
  obtain ⟨hfinished, hstop, hcount, herrors⟩ := hsteps 0 s hs
  rw [hstart, hmarker, Option.filter_some, if_pos hfinish] at hfinished
  rw [hstart, hmarker] at hstop
  rw [hstop, hstart] at hcount herrors
  have htwo : s.errorCount = 2 := hcount.trans (congrArg List.length hfound)
  have hone : s.errors = [⟨2, "abort: fi"⟩] := herrors.trans (congrArg (fun found =>
    (found.take 1).map fun x => (⟨x.2, x.1⟩ : LoggedError)) hfound)
  refine ⟨s, hs, hfinished, htwo, hone, ?_⟩
  apply htruncated.mpr
  refine ⟨s, List.mem_of_getElem? hs, ?_⟩
  rw [htwo, hone]
  decide

end Session
end BuildLog
