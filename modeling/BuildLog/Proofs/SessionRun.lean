import BuildLog.Proofs.StepRun
import BuildLog.Report
import Mathlib.Data.List.Induction

namespace BuildLog

def Header.readAll (h : Header) (lines : List String) : Header :=
  lines.foldl (fun h line => h.readLine line) h

namespace Header

theorem readAll_cons (h : Header) (line : String) (lines : List String) :
    h.readAll (line :: lines) = (h.readLine line).readAll lines := rfl

theorem readAll_append (h : Header) (lines rest : List String) :
    h.readAll (lines ++ rest) = (h.readAll lines).readAll rest :=
  List.foldl_append

theorem readLine_of_isComplete {h : Header} (hc : h.isComplete = true) (line : String) :
    h.readLine line = h := by
  rw [readLine, if_pos hc]

end Header

theorem Measurements.readLine_of_isComplete {m : Measurements} (h : m.isComplete = true)
    (line : String) (n : Nat) : m.readLine line n = (m, none) := by
  rw [readLine, if_pos h]

def Section.readAll (s : Section) (lines : List (String × Nat)) : Section :=
  lines.foldl (fun s x => (s.readLine x.1 x.2).1) s

namespace Section

/-- What a section answers to a line that it is given. It is given none once it is complete. -/
def failure? (s : Section) (line : String) (lineNumber : Nat) : Option Malformed :=
  if s.isComplete then none else (s.readLine line lineNumber).2

theorem readLine_of_isComplete {s : Section} (h : s.isComplete = true) (line : String) (n : Nat) :
    s.readLine line n = (s, none) := by
  cases s with
  | header h' =>
    rw [readLine, Header.readLine_of_isComplete h]
  | steps l => exact absurd h (by simp [isComplete])
  | details ds => exact absurd h (by simp [isComplete])
  | measurements m =>
    rw [readLine, Measurements.readLine_of_isComplete h]

theorem failure?_eq (s : Section) (line : String) (n : Nat) :
    s.failure? line n = (s.readLine line n).2 := by
  unfold failure?
  split
  · rename_i h
    rw [readLine_of_isComplete h]
  · rfl

end Section

namespace Session

theorem dispatch_cons_of_failure {s : Section} {line : String} {n : Nat} {e : Malformed}
    (h : s.failure? line n = some e) (sections : List Section) :
    dispatch line n (s :: sections) = ((s.readLine line n).1 :: sections, some e) := by
  have hread : (s.readLine line n).2 = some e := (s.failure?_eq line n).symm.trans h
  have hc : ¬ s.isComplete = true := by
    intro hc
    simp [Section.failure?, hc] at h
  rw [dispatch, if_neg hc]
  cases hs : s.readLine line n with
  | mk s' e' =>
    rw [hs] at hread
    dsimp only at hread
    rw [hread]

/-- Being passed over is the same as reading without an effect. -/
theorem dispatch_cons_of_none {s : Section} {line : String} {n : Nat}
    (h : s.failure? line n = none) (sections : List Section) :
    dispatch line n (s :: sections) =
      ((s.readLine line n).1 :: (dispatch line n sections).1, (dispatch line n sections).2) := by
  have hread : (s.readLine line n).2 = none := (s.failure?_eq line n).symm.trans h
  rw [dispatch]
  split
  · rename_i hc
    rw [Section.readLine_of_isComplete hc]
  · cases hs : s.readLine line n with
    | mk s' e' =>
      rw [hs] at hread
      dsimp only at hread
      rw [hread]

theorem dispatch_singleton (s : Section) (line : String) (n : Nat) :
    dispatch line n [s] = ([(s.readLine line n).1], (s.readLine line n).2) := by
  cases h : s.failure? line n with
  | none =>
    rw [dispatch_cons_of_none h, ← Section.failure?_eq, h]
    rfl
  | some e => rw [dispatch_cons_of_failure h, ← Section.failure?_eq, h]

def readEach (s : Session) : List String → Session × List (Option Malformed)
  | [] => (s, [])
  | line :: lines =>
    let (t, e) := s.readLine line
    let (u, es) := t.readEach lines
    (u, e :: es)

def before (s : Session) (lines : List String) (k : Nat) : Session := (s.readEach (lines.take k)).1

def numbered (s : Session) (lines : List String) : List (String × Nat) :=
  (lines.map s.truncation.cut).zipIdx s.lineNumber

theorem readEach_nil (s : Session) : s.readEach [] = (s, []) := rfl

theorem readEach_cons (s : Session) (line : String) (lines : List String) :
    s.readEach (line :: lines) =
      (((s.readLine line).1.readEach lines).1,
        (s.readLine line).2 :: ((s.readLine line).1.readEach lines).2) := rfl

theorem readEach_append (s : Session) (lines rest : List String) :
    s.readEach (lines ++ rest) =
      (((s.readEach lines).1.readEach rest).1,
        (s.readEach lines).2 ++ ((s.readEach lines).1.readEach rest).2) := by
  induction lines generalizing s with
  | nil => rfl
  | cons line lines ih => simp only [List.cons_append, readEach_cons, ih]

theorem readEach_concat (s : Session) (lines : List String) (line : String) :
    s.readEach (lines ++ [line]) =
      (((s.readEach lines).1.readLine line).1,
        (s.readEach lines).2 ++ [((s.readEach lines).1.readLine line).2]) := by
  rw [readEach_append]
  rfl

/-- Reading leaves alone what it does not read into. -/
theorem readEach_frame (s : Session) (lines : List String) :
    (s.readEach lines).1.name = s.name ∧ (s.readEach lines).1.truncation = s.truncation ∧
      (s.readEach lines).1.assembled = s.assembled := by
  induction lines generalizing s with
  | nil => exact ⟨rfl, rfl, rfl⟩
  | cons line lines ih => exact ih (s.readLine line).1

/-- Every line counts, those that fail included. -/
theorem lineNumber_readEach (s : Session) (lines : List String) :
    (s.readEach lines).1.lineNumber = s.lineNumber + lines.length := by
  induction lines generalizing s with
  | nil => rfl
  | cons line lines ih =>
    have h : (s.readLine line).1.lineNumber = s.lineNumber + 1 := rfl
    rw [readEach_cons, List.length_cons]
    dsimp only
    rw [ih, h]
    omega

theorem length_readEach (s : Session) (lines : List String) :
    (s.readEach lines).2.length = lines.length := by
  induction lines generalizing s with
  | nil => rfl
  | cons line lines ih => rw [readEach_cons, List.length_cons, List.length_cons, ih]

theorem getElem?_readEach (s : Session) {lines : List String} {k : Nat} {line : String}
    (h : lines[k]? = some line) :
    (s.readEach lines).2[k]? = some ((s.before lines k).readLine line).2 := by
  induction lines generalizing s k with
  | nil => simp at h
  | cons first lines ih =>
    cases k with
    | zero =>
      rw [List.getElem?_cons_zero, Option.some.injEq] at h
      rw [h]
      rfl
    | succ k =>
      rw [List.getElem?_cons_succ] at h
      exact ih (s.readLine first).1 h

/-- A relation between the sections of two sessions holds after all lines if every line keeps it,
and so do equal answers. -/
theorem readEach_related {R : List Section → List Section → Prop} {s u : Session}
    {lines : List String} (hnumber : s.lineNumber = u.lineNumber) (hstart : R s.sections u.sections)
    (hline : ∀ line ∈ lines, ∀ n xs ys, R xs ys →
      R (dispatch (s.truncation.cut line) n xs).1 (dispatch (u.truncation.cut line) n ys).1 ∧
        (dispatch (s.truncation.cut line) n xs).2 = (dispatch (u.truncation.cut line) n ys).2) :
    R (s.readEach lines).1.sections (u.readEach lines).1.sections ∧
      (s.readEach lines).2 = (u.readEach lines).2 := by
  induction lines generalizing s u with
  | nil => exact ⟨hstart, rfl⟩
  | cons line lines ih =>
    obtain ⟨hR, he⟩ := hline line List.mem_cons_self s.lineNumber s.sections u.sections hstart
    have hnumber' : (s.readLine line).1.lineNumber = (u.readLine line).1.lineNumber :=
      congrArg (· + 1) hnumber
    have hR' : R (s.readLine line).1.sections (u.readLine line).1.sections := by
      unfold readLine
      rw [← hnumber]
      exact hR
    have he' : (s.readLine line).2 = (u.readLine line).2 := by
      unfold readLine
      rw [← hnumber]
      exact he
    obtain ⟨hfinal, hes⟩ := ih hnumber' hR' fun line' hmem =>
      hline line' (List.mem_cons_of_mem line hmem)
    rw [readEach_cons, readEach_cons]
    exact ⟨hfinal, by rw [he', hes]⟩

theorem get?_foldl_insert (sections : List Section) (d : Dictionary Json) (key : String) :
    Dictionary.get? (sections.foldl (fun a x => Dictionary.insert x.name x.artifact a) d) key =
      (((sections.filter fun x => x.name = key).getLast?).map Section.artifact).or
        (Dictionary.get? d key) :=
  Dictionary.get?_foldl_insert Section.name Section.artifact sections d key

/-- At a key of the artifact stands the last section of that name, or else what stood there before
any section was put in. -/
theorem field?_artifact (s : Session) (key : String) :
    s.artifact.field? key =
      (((s.sections.filter fun x => x.name = key).getLast?).map Section.artifact).or
        (Dictionary.get? s.assembled key) :=
  get?_foldl_insert s.sections s.assembled key

theorem readEach_header_steps {s : Session} {h : Header} {l : StepLog}
    (hs : s.sections = [.header h, .steps l]) (lines : List String) :
    (s.readEach lines).1.sections =
        [.header (h.readAll (lines.map s.truncation.cut)), .steps (l.readAll (s.numbered lines))] ∧
      ∀ e ∈ (s.readEach lines).2, e = none := by
  induction lines generalizing s h l with
  | nil => exact ⟨hs, by simp [readEach_nil]⟩
  | cons line lines ih =>
    -- a complete header is passed over, which comes to the same as giving it the line
    have hheader := (Section.header h).failure?_eq (s.truncation.cut line) s.lineNumber
    have hsteps := (Section.steps l).failure?_eq (s.truncation.cut line) s.lineNumber
    have hread : dispatch (s.truncation.cut line) s.lineNumber s.sections =
        ([.header (h.readLine (s.truncation.cut line)),
          .steps (l.readLine (s.truncation.cut line) s.lineNumber)], none) := by
      rw [hs, dispatch_cons_of_none hheader, dispatch_cons_of_none hsteps]
      rfl
    have hs' : (s.readLine line).1.sections =
        [.header (h.readLine (s.truncation.cut line)),
          .steps (l.readLine (s.truncation.cut line) s.lineNumber)] := congrArg Prod.fst hread
    have he' : (s.readLine line).2 = none := congrArg Prod.snd hread
    obtain ⟨hsections, hresults⟩ := ih hs'
    rw [readEach_cons]
    refine ⟨hsections, ?_⟩
    intro e he
    obtain rfl | he := List.mem_cons.mp he
    · exact he'
    · exact hresults e he

theorem readEach_structuredLog (url : Option String) (o : Options) (lines : List String) :
    ((ReportKind.structuredLog.session url o).readEach lines).1.sections =
      [.header (Header.empty.readAll (lines.map o.truncation.cut)),
        .steps ((StepLog.empty o.checkErrors o.maxStepErrors).readAll
          (lines.map o.truncation.cut).zipIdx)] :=
  (readEach_header_steps rfl lines).1

def structuredArtifact (url : Option String) (header : Header) (report : StepReport) : Json :=
  .ofFields [
    (urlKey, .ofOption .string url),
    ("header", (Section.header header).artifact),
    ("step_data", report.toJson)]

theorem artifact_structuredLog (url : Option String) (o : Options) (lines : List String) :
    ((ReportKind.structuredLog.session url o).readEach lines).1.artifact =
      structuredArtifact url (Header.empty.readAll (lines.map o.truncation.cut))
        ((StepLog.empty o.checkErrors o.maxStepErrors).readAll
          (lines.map o.truncation.cut).zipIdx).report := by
  obtain ⟨-, -, hassembled⟩ := readEach_frame (ReportKind.structuredLog.session url o) lines
  rw [artifact, takeArtifact, assemble, readEach_structuredLog, hassembled]
  rfl

theorem field?_header (url : Option String) (header : Header) (report : StepReport) :
    (structuredArtifact url header report).field? "header" =
      some (Section.header header).artifact := by
  simp [structuredArtifact, Json.ofFields, Json.field?, Dictionary.ofList, Dictionary.get?_insert]

end Session
end BuildLog
