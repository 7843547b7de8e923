import BuildLog.Proofs.StepErrors

namespace BuildLog

namespace StepMarker
open Text

theorem body_isPrefix {line : String} {body : List Char} (h : body? line = some body) :
    body <+: line.toList := by
  unfold body? at h
  dsimp only at h
  split at h
  · rw [← Option.some.inj h]
    exact List.take_prefix _ _
  · contradiction

theorem isEnd_of_started? {line : String} {m : Started} (h : started? line = some m) :
    Header.isEnd line = true := by
  obtain ⟨body, r, hbody, hr⟩ := exists_body_of_started? h
  have hword : startedWord.toList <+: body := by
    rw [hr, String.toList_append, List.append_assoc]
    exact List.prefix_append _ _
  exact List.isPrefixOf_iff_prefix.mpr (hword.trans (body_isPrefix hbody))

end StepMarker

namespace Header

theorem readAll_of_isComplete {h : Header} (hc : h.isComplete = true) (lines : List String) :
    h.readAll lines = h := by
  induction lines with
  | nil => rfl
  | cons line lines ih => rw [readAll_cons, readLine_of_isComplete hc, ih]

theorem readLine_of_isEnd (h : Header) {line : String} (hend : isEnd line = true) :
    h.readLine line = { h with isComplete := true } := by
  cases hc : h.isComplete with
  | true => rw [readLine_of_isComplete hc, ← hc]
  | false => rw [readLine, if_neg (by simp [hc]), if_pos hend]

/-- A header has the properties from before a line that ends it. It may have ended earlier. -/
theorem readAll_of_isEnd (h : Header) (front : List String) {line : String}
    (hend : isEnd line = true) (back : List String) :
    h.readAll (front ++ line :: back) = { h.readAll front with isComplete := true } := by
  rw [readAll_append, readAll_cons, readLine_of_isEnd _ hend]
  exact readAll_of_isComplete rfl back

end Header

namespace StepLog

theorem exists_first_start {checksErrors : Bool} {maxErrors : Nat} {lines : List (String × Nat)}
    {s : Step} (h : ((empty checksErrors maxErrors).readAll lines).steps[0]? = some s) :
    ∃ front x back, lines = front ++ x :: back ∧ isStart x.1 = true ∧ x.2 = s.startedLine := by
  have hfirst : ((empty checksErrors maxErrors).readAll lines).steps[0]?.map Step.startedLine =
      (lines.filter fun y => isStart y.1)[0]?.map fun y => y.2 := by
    rw [← List.getElem?_map, StepSpan.startedLines_readAll, List.getElem?_map]
  rw [h, Option.map_some] at hfirst
  obtain ⟨x, hx, hnumber⟩ := Option.map_eq_some_iff.mp hfirst.symm
  cases hstarts : lines.filter fun y => isStart y.1 with
  | nil => simp [hstarts] at hx
  | cons y starts =>
    rw [hstarts, List.getElem?_cons_zero, Option.some.injEq] at hx
    obtain ⟨front, back, hsplit, -, hstart, -⟩ := List.filter_eq_cons_iff.mp hstarts
    exact ⟨front, y, back, hsplit, hstart, hx ▸ hnumber⟩

end StepLog

namespace Session

/-- In a log that is numbered from zero the number of a line tells how many lines are before it. -/
theorem split_zipIdx {lines : List String} {front back : List (String × Nat)} {x : String × Nat}
    (h : lines.zipIdx = front ++ x :: back) :
    lines = lines.take x.2 ++ x.1 :: back.map Prod.fst := by
  have hlines : lines = front.map Prod.fst ++ x.1 :: back.map Prod.fst := by
    have hfirst := congrArg (List.map Prod.fst) h
    rwa [List.zipIdx_map_fst, List.map_append, List.map_cons] at hfirst
  -- the number of `x` is its place, which is the length of what is before it
  have hx : lines.zipIdx[front.length]? = some x := by
    rw [h, List.getElem?_append_right (Nat.le_refl _), Nat.sub_self]
    rfl
  rw [List.getElem?_zipIdx] at hx
  obtain ⟨line, -, hline⟩ := Option.map_eq_some_iff.mp hx
  have hnumber : x.2 = (front.map Prod.fst).length := by
    rw [← hline, List.length_map]
    exact Nat.zero_add _
  have hfront : lines.take x.2 = front.map Prod.fst := by
    rw [hnumber, hlines]
    exact List.take_left
  rw [hfront]
  exact hlines

/-- Once a structured log has a step its header is complete, and the header section is that of the
lines before the first step. No further line changes the header, wherever it stands. -/
theorem header_ends_before_steps (url : Option String) (o : Options) (lines : List String) :
    let s := ReportKind.structuredLog.session url o
    let header (lines : List String) : Header :=
      Header.empty.readAll (lines.map o.truncation.cut)
    let log := (StepLog.empty o.checkErrors o.maxStepErrors).readAll
      (lines.map o.truncation.cut).zipIdx
    (s.readEach lines).1.sections = [.header (header lines), .steps log] ∧
    ∀ first, log.report.steps[0]? = some first →
      (header lines).isComplete = true ∧
      (s.readEach lines).1.artifact.field? "header" =
        (s.readEach (lines.take first.startedLine)).1.artifact.field? "header" ∧
      ∀ more, header (lines ++ more) = header lines ∧
        (s.readEach (lines ++ more)).1.artifact.field? "header" =
          (s.readEach lines).1.artifact.field? "header" := by
  intro s header log
  refine ⟨readEach_structuredLog url o lines, ?_⟩
  intro first hfirst
  have hfield (lines : List String) : (s.readEach lines).1.artifact.field? "header" =
      some (Section.header (header lines)).artifact := by
    rw [artifact_structuredLog, field?_header]
  obtain ⟨front, x, back, hsplit, hstart, hnumber⟩ := StepLog.exists_first_start hfirst
  obtain ⟨m, hm⟩ := Option.isSome_iff_exists.mp hstart
  -- both sections read the same cut line, and where it starts a step it ends the header
  have hheader : header lines =
      { header (lines.take first.startedLine) with isComplete := true } := by
    have hlines := split_zipIdx hsplit
    rw [hnumber, ← List.map_take] at hlines
    dsimp only [header]
    rw [hlines]
    exact Header.readAll_of_isEnd _ _ (StepMarker.isEnd_of_started? hm) _
  have hcomplete : (header lines).isComplete = true := by rw [hheader]
  refine ⟨hcomplete, ?_, ?_⟩
  · rw [hfield, hfield, hheader]
    rfl
  · intro more
    have hstay : header (lines ++ more) = header lines := by
      dsimp only [header] at hcomplete ⊢
      rw [List.map_append, Header.readAll_append, Header.readAll_of_isComplete hcomplete]
    refine ⟨hstay, ?_⟩
    rw [hfield, hfield, hstay]

def earlyEnd : List String :=
  ["builder: b", "========= Started too early", "slave: s",
    "========= Started a (at 1) =========", "starttime: 1"]

theorem header_of_earlyEnd :
    let s := ReportKind.structuredLog.session none Options.standard
    let log := (StepLog.empty true 100).readAll
      (earlyEnd.map Truncation.standard.cut).zipIdx
    (∃ first, log.report.steps[0]? = some first ∧ first.startedLine = 3) ∧
      (s.readEach earlyEnd).1.artifact.field? "header" =
        (s.readEach (earlyEnd.take 3)).1.artifact.field? "header" := by
  intro s log
  have hline : log.report.steps[0]?.map Step.startedLine = some 3 := by decide +kernel
  obtain ⟨first, hfirst, hthree⟩ := Option.map_eq_some_iff.mp hline
  obtain ⟨-, hends⟩ := header_ends_before_steps none Options.standard earlyEnd
  obtain ⟨-, hfront, -⟩ := hends first hfirst
  rw [hthree] at hfront
  exact ⟨⟨first, hfirst, hthree⟩, hfront⟩

end Session
end BuildLog
