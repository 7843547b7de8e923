import BuildLog.Proofs.ArtifactRequests
import BuildLog.Proofs.TruncationLaws

namespace BuildLog

def Request.mapText (f : String → String) : Request → Request
  | .line text => .line (f text)
  | .lines texts => .lines (texts.map f)
  | .artifact => .artifact

namespace Session

theorem readLine_congr {s : Session} {line line' : String}
    (h : s.truncation.cut line = s.truncation.cut line') : s.readLine line = s.readLine line' := by
  rw [readLine, readLine, h]

theorem readLines_map {s : Session} {f : String → String}
    (hf : ∀ line, s.truncation.cut (f line) = s.truncation.cut line) (lines : List String) :
    s.readLines (lines.map f) = s.readLines lines := by
  induction lines generalizing s with
  | nil => rfl
  | cons line lines ih =>
    have hline : s.readLine (f line) = s.readLine line := readLine_congr (hf line)
    rw [List.map_cons]
    cases h : (s.readLine line).2 with
    | some e => rw [readLines_cons_of_failure h, readLines_cons_of_failure (hline ▸ h), hline]
    | none =>
      rw [readLines_cons_of_none h, readLines_cons_of_none (hline ▸ h), hline]
      exact ih hf

theorem truncation_readLines (s : Session) (lines : List String) :
    (s.readLines lines).1.truncation = s.truncation := by
  induction lines generalizing s with
  | nil => rfl
  | cons line lines ih =>
    cases h : (s.readLine line).2 with
    | some e =>
      rw [readLines_cons_of_failure h]
      rfl
    | none =>
      rw [readLines_cons_of_none h]
      exact ih (s.readLine line).1

theorem truncation_answer (s : Session) (r : Request) :
    (s.answer r).1.truncation = s.truncation := by
  cases r with
  | line text => rfl
  | lines texts => exact truncation_readLines s texts
  | artifact => rfl

theorem answer_mapText {s : Session} {f : String → String}
    (hf : ∀ line, s.truncation.cut (f line) = s.truncation.cut line) (r : Request) :
    s.answer (r.mapText f) = s.answer r := by
  cases r with
  | line text => rw [Request.mapText, answer, answer, readLine_congr (hf text)]
  | lines texts => rw [Request.mapText, answer, answer, readLines_map hf]
  | artifact => rfl

theorem answerAll_cons (s : Session) (r : Request) (rs : List Request) :
    s.answerAll (r :: rs) =
      (((s.answer r).1.answerAll rs).1,
        (s.answer r).1.observe (s.answer r).2 :: ((s.answer r).1.answerAll rs).2) := rfl

/-- Lines may be exchanged for others that are cut to the same. -/
theorem answerAll_mapText {s : Session} {f : String → String}
    (hf : ∀ line, s.truncation.cut (f line) = s.truncation.cut line) (rs : List Request) :
    s.answerAll (rs.map (Request.mapText f)) = s.answerAll rs := by
  induction rs generalizing s with
  | nil => rfl
  | cons r rs ih =>
    have hrest : ∀ line, (s.answer r).1.truncation.cut (f line) =
        (s.answer r).1.truncation.cut line := by
      rw [truncation_answer]
      exact hf
    rw [List.map_cons, answerAll_cons, answerAll_cons, answer_mapText hf, ih hrest]

/-- A cut leaves the front of a line: the whole of it if a marker, other than the empty text, occurs
in it or it is not longer than the limit, and otherwise as many characters as the limit says. It
leaves exempt what is exempt, and no other line. Of two cuts with the same markers the shorter one
counts, so that a second cut changes nothing. A session that is asked to read lines that have been
cut for it answers, whatever it is asked and wherever it stands, as if they were whole. -/
theorem cutting_beforehand_shows_nowhere (markers : List String) (m n : Nat) (line : String)
    (s : Session) (rs : List Request) :
    let t := Truncation.ofMarkers m markers
    let spared := (∃ w ∈ markers, w ≠ "" ∧ w.toList <:+: line.toList) ∨ line.length ≤ m
    (t.cut line).toList <+: line.toList ∧
    (t.cut line = line ↔ spared) ∧
    (¬ spared → (t.cut line).length = m) ∧
    t.isExempt (t.cut line) = t.isExempt line ∧
    t.cut ((Truncation.ofMarkers n markers).cut line) =
      (Truncation.ofMarkers (min m n) markers).cut line ∧
    t.cut (t.cut line) = t.cut line ∧
    s.answerAll (rs.map (Request.mapText s.truncation.cut)) = s.answerAll rs := by
  intro t spared
  have hspared : t.isExempt line = true ∨ line.length ≤ t.limit ↔ spared :=
    or_congr_left Truncation.isExempt_ofMarkers_iff
  refine ⟨t.cut_isPrefix line, Truncation.cut_eq_self_iff.trans hspared, ?_,
    Truncation.isExempt_cut rfl line, Truncation.cut_cut_ofMarkers m n markers line,
    t.cut_cut line, answerAll_mapText s.truncation.cut_cut rs⟩
  intro hcut
  obtain ⟨hexempt, hlong⟩ := not_or.mp (mt hspared.mp hcut)
  rw [Truncation.length_cut_of_not_isExempt hexempt]
  exact Nat.min_eq_left (Nat.le_of_not_le hlong)

theorem cutting_beforehand_insideMarker :
    let markers := ["", "€ß"]
    let s : Session := .start "" none [.details []] (Truncation.ofMarkers 17 markers)
    ¬ ((∃ w ∈ markers, w ≠ "" ∧ w.toList <:+: "ä€öß".toList) ∨ "ä€öß".length ≤ 2) ∧
      ((Truncation.ofMarkers 2 markers).cut "ä€öß").length = 2 ∧
      s.answerAll [.line "TinderboxPrint: ö", .lines ["TinderboxPrint: €"], .artifact] =
        s.answerAll [.line "TinderboxPrint: öß", .lines ["TinderboxPrint: €öß"], .artifact] := by
  intro markers s
  obtain ⟨-, -, hlength, -, -, -, hanswers⟩ := cutting_beforehand_shows_nowhere markers 2 3 "ä€öß" s
    [.line "TinderboxPrint: öß", .lines ["TinderboxPrint: €öß"], .artifact]
  have hlong : ¬ ((∃ w ∈ markers, w ≠ "" ∧ w.toList <:+: "ä€öß".toList) ∨ "ä€öß".length ≤ 2) := by
    decide +kernel
  have hcut : s.truncation.cut "TinderboxPrint: öß" = "TinderboxPrint: ö" ∧
      s.truncation.cut "TinderboxPrint: €öß" = "TinderboxPrint: €" := by
    decide +kernel
  refine ⟨hlong, hlength hlong, ?_⟩
  simpa only [List.map_cons, List.map_nil, Request.mapText, hcut] using hanswers

end Session
end BuildLog
