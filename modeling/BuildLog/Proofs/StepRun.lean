import BuildLog.StepLog
import BuildLog.Text.Scan.Lemmas

namespace BuildLog

namespace Step

def finish (s : Step) (m : StepMarker.Finished) (lineNumber : Nat) : Step :=
  { s with
    finished := some m.time
    finishedLine := some lineNumber
    duration := StepLog.duration? s.started m.time
    outcome := Outcome.ofDigits m.results.code }

def addError (s : Step) (maxErrors : Nat) (line : String) (lineNumber : Nat) : Step :=
  { s with
    errors := if s.errors.length < maxErrors then s.errors ++ [⟨lineNumber, line⟩] else s.errors
    errorCount := s.errorCount + 1 }

end Step

namespace StepMarker
open Text

theorem exists_body_of_started? {line : String} {m : Started} (h : started? line = some m) :
    ∃ body r, body? line = some body ∧ body = (startedWord ++ " ").toList ++ r := by
  simp only [started?, Option.bind_eq_bind, Option.bind_eq_some_iff] at h
  obtain ⟨body, hbody, r, hr, -⟩ := h
  exact ⟨body, r, hbody, after?_eq_some_iff.mp hr⟩

theorem exists_body_of_finished? {line : String} {m : Finished} (h : finished? line = some m) :
    ∃ body r, body? line = some body ∧ body = (finishedWord ++ " ").toList ++ r := by
  simp only [finished?, Option.bind_eq_bind, Option.bind_eq_some_iff] at h
  obtain ⟨body, hbody, r, hr, -⟩ := h
  exact ⟨body, r, hbody, after?_eq_some_iff.mp hr⟩

theorem words_differ (r r' : List Char) :
    (startedWord ++ " ").toList ++ r ≠ (finishedWord ++ " ").toList ++ r' := by
  intro h
  have h' := congrArg (List.take 11) h
  rw [List.take_append_of_le_length (by decide +kernel),
    List.take_append_of_le_length (by decide +kernel)] at h'
  revert h'
  decide +kernel

end StepMarker

namespace StepLog

def isStart (line : String) : Bool := (StepMarker.started? line).isSome

def isFinish (line : String) : Bool := (StepMarker.finished? line).isSome

theorem isStart_of_some {line : String} {m : StepMarker.Started}
    (h : StepMarker.started? line = some m) : isStart line = true := by
  rw [isStart, h, Option.isSome_some]

theorem isStart_of_none {line : String} (h : StepMarker.started? line = none) :
    isStart line = false := by
  rw [isStart, h, Option.isSome_none]

theorem isFinish_of_some {line : String} {m : StepMarker.Finished}
    (h : StepMarker.finished? line = some m) : isFinish line = true := by
  rw [isFinish, h, Option.isSome_some]

theorem isFinish_of_none {line : String} (h : StepMarker.finished? line = none) :
    isFinish line = false := by
  rw [isFinish, h, Option.isSome_none]

theorem isStart_of_isFinish {line : String} (h : isFinish line = true) : isStart line = false := by
  obtain ⟨f, hf⟩ := Option.isSome_iff_exists.mp h
  obtain ⟨body, r, hbody, hr⟩ := StepMarker.exists_body_of_finished? hf
  cases hm : StepMarker.started? line with
  | none => exact isStart_of_none hm
  | some m =>
    -- both markers have the same body, which would begin with both words
    obtain ⟨body', r', hbody', hr'⟩ := StepMarker.exists_body_of_started? hm
    have hsame : body = body' := Option.some.inj (hbody.symm.trans hbody')
    exact absurd (hr'.symm.trans (hsame.symm.trans hr)) (StepMarker.words_differ r' r)

def readAll (l : StepLog) (lines : List (String × Nat)) : StepLog :=
  lines.foldl (fun l x => l.readLine x.1 x.2) l

theorem readAll_nil (l : StepLog) : l.readAll [] = l := rfl

theorem readAll_cons (l : StepLog) (x : String × Nat) (lines : List (String × Nat)) :
    l.readAll (x :: lines) = (l.readLine x.1 x.2).readAll lines :=
  List.foldl_cons ..

theorem readAll_append (l : StepLog) (lines rest : List (String × Nat)) :
    l.readAll (lines ++ rest) = (l.readAll lines).readAll rest :=
  List.foldl_append

/-- What every line keeps, all lines keep. -/
theorem readAll_induction {motive : StepLog → Prop}
    (hline : ∀ l line n, motive l → motive (l.readLine line n)) {l : StepLog} (h : motive l)
    (lines : List (String × Nat)) : motive (l.readAll lines) := by
  induction lines generalizing l with
  | nil => exact h
  | cons x lines ih => exact ih (hline l x.1 x.2 h)

/-- The five things that a line can do to the log, each with what tells it from the others. -/
@[elab_as_elim]
theorem readLine_cases {motive : StepLog → Prop} (l : StepLog) (line : String) (lineNumber : Nat)
    (starts : ∀ m, StepMarker.started? line = some m → motive (l.start m lineNumber))
    (outside : StepMarker.started? line = none → l.current = none → motive l)
    (finishes : ∀ s m, StepMarker.started? line = none → l.current = some s →
      StepMarker.finished? line = some m → motive (l.finish s m lineNumber))
    (fails : ∀ s, StepMarker.started? line = none → l.current = some s →
      StepMarker.finished? line = none → (l.checksErrors && FailureLine.isFailure line) = true →
      motive (l.addError s line lineNumber))
    (passes : ∀ s, StepMarker.started? line = none → l.current = some s →
      StepMarker.finished? line = none → (l.checksErrors && FailureLine.isFailure line) = false →
      motive l) :
    motive (l.readLine line lineNumber) := by
  rw [readLine]
  cases hstart : StepMarker.started? line with
  | some m => exact starts m hstart
  | none =>
    cases hcur : l.current with
    | none => exact outside hstart hcur
    | some s =>
      cases hfin : StepMarker.finished? line with
      | some m => exact finishes s m hstart hcur hfin
      | none =>
        dsimp only
        split
        · rename_i herr
          exact fails s hstart hcur hfin herr
        · rename_i herr
          exact passes s hstart hcur hfin (Bool.eq_false_iff.mpr herr)

theorem finish_eq (l : StepLog) (s : Step) (m : StepMarker.Finished) (n : Nat) :
    l.finish s m n = { l with closed := l.closed ++ [s.finish m n], current := none } := rfl

theorem addError_eq (l : StepLog) (s : Step) (line : String) (n : Nat) :
    l.addError s line n =
      { l with
        current := some (s.addError l.maxErrors line n)
        errorsTruncated := l.errorsTruncated || decide (l.maxErrors ≤ s.errors.length) } := by
  unfold addError Step.addError
  by_cases h : s.errors.length < l.maxErrors
  · have h' : ¬ l.maxErrors ≤ s.errors.length := by omega
    simp [h, h']
  · have h' : l.maxErrors ≤ s.errors.length := by omega
    simp [h, h']

theorem steps_of_current {l : StepLog} {s : Step} (h : l.current = some s) :
    l.steps = l.closed ++ [s] := by
  simp [steps, h]

theorem steps_start (l : StepLog) (m : StepMarker.Started) (n : Nat) :
    (l.start m n).steps = l.steps ++ [Step.start m.name l.steps.length m.time n] := rfl

theorem steps_finish (l : StepLog) (s : Step) (m : StepMarker.Finished) (n : Nat) :
    (l.finish s m n).steps = l.closed ++ [s.finish m n] := by
  simp [finish_eq, steps]

theorem steps_addError (l : StepLog) (s : Step) (line : String) (n : Nat) :
    (l.addError s line n).steps = l.closed ++ [s.addError l.maxErrors line n] := by
  simp [addError_eq, steps]

/-- Lines outside of any step pass by. -/
theorem readAll_outside {l : StepLog} (hcur : l.current = none) {lines : List (String × Nat)}
    (h : ∀ x ∈ lines, isStart x.1 = false) : l.readAll lines = l := by
  induction lines with
  | nil => rfl
  | cons x lines ih =>
    have hx : StepMarker.started? x.1 = none := by
      have hs := h x List.mem_cons_self
      simpa [isStart] using hs
    have hstay : l.readLine x.1 x.2 = l := by
      rw [readLine, hx, hcur]
    rw [readAll_cons, hstay]
    exact ih fun y hy => h y (List.mem_cons_of_mem x hy)

theorem current_readLine_finish (l : StepLog) {line : String} (hstart : isStart line = false)
    (hfin : isFinish line = true) (n : Nat) : (l.readLine line n).current = none := by
  refine readLine_cases (motive := fun l' => l'.current = none) l line n ?_ ?_ ?_ ?_ ?_
  · intro m hm
    exact absurd (isStart_of_some hm) (by simp [hstart])
  · exact fun _ hcur => hcur
  · exact fun _ _ _ _ _ => rfl
  · intro s _ _ hnone _
    exact absurd (isFinish_of_none hnone) (by simp [hfin])
  · intro s _ _ hnone _
    exact absurd (isFinish_of_none hnone) (by simp [hfin])

end StepLog
end BuildLog
