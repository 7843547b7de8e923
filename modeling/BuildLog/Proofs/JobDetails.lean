import BuildLog.Proofs.SessionRun

namespace BuildLog

namespace DetailLine
open Text

/-- The detail that a line adds: that of its payload, if it has one that can be read. -/
def detail? (line : String) : Option Detail :=
  (payload? line).bind fun payload => (ofPayload payload).toOption

def cause? (line : String) : Option Json.Error :=
  (payload? line).bind fun payload =>
    match ofPayload payload with
    | .ok _ => none
    | .error e => some e

def failure? (line : String) (lineNumber : Nat) : Option Malformed :=
  (cause? line).map fun e => ⟨Truncation.resultMarker, lineNumber, e⟩

theorem read_eq (line : String) (n : Nat) :
    read line n =
      match failure? line n with
      | some e => .error e
      | none => .ok (detail? line) := by
  rw [read, failure?, cause?, detail?]
  cases payload? line with
  | none => rfl
  | some payload =>
    simp only [Option.bind_some]
    cases ofPayload payload <;> rfl

theorem detail?_eq_some_iff {line : String} {d : Detail} :
    detail? line = some d ↔
      ∃ payload, payload? line = some payload ∧ ofPayload payload = .ok d := by
  rw [detail?, Option.bind_eq_some_iff]
  refine exists_congr fun payload => and_congr_right fun _ => ?_
  cases ofPayload payload <;> simp [Except.toOption]

theorem detail?_eq_none_of_cause {line : String} {e : Json.Error} (h : cause? line = some e) :
    detail? line = none := by
  obtain ⟨payload, hp, hcause⟩ := Option.bind_eq_some_iff.mp h
  rw [detail?, hp, Option.bind_some]
  cases hread : ofPayload payload with
  | ok d => simp [hread] at hcause
  | error e => rfl

theorem detail?_eq_none_of_failure {line : String} {n : Nat} {e : Malformed}
    (h : failure? line n = some e) : detail? line = none := by
  obtain ⟨cause, hcause, -⟩ := Option.map_eq_some_iff.mp h
  exact detail?_eq_none_of_cause hcause

theorem payload?_eq_none_iff {line : String} :
    payload? line = none ↔ ¬ marker <:+: line.toList := by
  rw [payload?, Option.map_eq_none_iff, first?_eq_none_iff]
  constructor
  · rintro h ⟨l, r, hline⟩
    have hr : after? marker (marker ++ r) = none := by
      apply h
      rw [← hline, List.append_assoc]
      exact List.suffix_append l _
    rw [after?_eq_some_iff.mpr rfl] at hr
    contradiction
  · intro h r hr
    rw [Option.eq_none_iff_forall_ne_some]
    intro rest hrest
    rw [after?_eq_some_iff.mp hrest] at hr
    exact h ((List.prefix_append marker rest).isInfix.trans hr.isInfix)

theorem detail?_eq_none_iff {line : String} :
    detail? line = none ↔
      ¬ marker <:+: line.toList ∨
        ∃ payload e, payload? line = some payload ∧ ofPayload payload = .error e := by
  rw [← payload?_eq_none_iff, detail?]
  cases payload? line with
  | none => simp
  | some payload =>
    cases h : ofPayload payload with
    | ok d => simp [h, Except.toOption]
    | error e => simp [h, Except.toOption]

end DetailLine

theorem Section.readLine_details (ds : List Detail) (line : String) (n : Nat) :
    (details ds).readLine line n =
      (details (ds ++ (DetailLine.detail? line).toList), DetailLine.failure? line n) := by
  rw [readLine, DetailLine.read_eq]
  cases hf : DetailLine.failure? line n with
  | some e => simp [DetailLine.detail?_eq_none_of_failure hf]
  | none => cases DetailLine.detail? line <;> simp

theorem Section.readLine_of_payload {line : String} {payload : List Char}
    (h : DetailLine.payload? line = some payload) (ds : List Detail) (n : Nat) :
    (details ds).readLine line n =
      match DetailLine.ofPayload payload with
      | .ok d => (details (ds ++ [d]), none)
      | .error e => (details ds, some ⟨Truncation.resultMarker, n, e⟩) := by
  rw [readLine_details, DetailLine.detail?, DetailLine.failure?, DetailLine.cause?, h]
  simp only [Option.bind_some]
  cases DetailLine.ofPayload payload with
  | ok d => simp [Except.toOption]
  | error e => simp [Except.toOption]

namespace Session
open DetailLine

theorem readLine_details {s : Session} {ds : List Detail} (hs : s.sections = [.details ds])
    (line : String) :
    s.readLine line =
      ({ s with
          sections := [.details (ds ++ (detail? (s.truncation.cut line)).toList)]
          lineNumber := s.lineNumber + 1 },
        failure? (s.truncation.cut line) s.lineNumber) := by
  simp only [readLine, hs, dispatch_singleton, Section.readLine_details]

theorem readEach_details {s : Session} {ds : List Detail} (hs : s.sections = [.details ds])
    (lines : List String) :
    s.readEach lines =
      ({ s with
          sections :=
            [.details (ds ++ lines.filterMap fun line => detail? (s.truncation.cut line))]
          lineNumber := s.lineNumber + lines.length },
        (s.numbered lines).map fun x => failure? x.1 x.2) := by
  induction lines generalizing s ds with
  | nil => simp [readEach_nil, numbered, ← hs]
  | cons line lines ih =>
    rw [readEach_cons, readLine_details hs, ih rfl]
    simp only [numbered, List.filterMap_cons, List.map_cons, List.zipIdx_cons, List.length_cons,
      List.append_assoc, Nat.add_assoc, Nat.add_comm 1]
    cases detail? (s.truncation.cut line) <;> rfl

def passing (s : Session) (lines : List String) : List String :=
  ((lines.zip (s.readEach lines).2).filter fun x => x.2.isNone).map Prod.fst

/-- Whether a line fails depends on its text alone. -/
theorem passing_details {s : Session} {ds : List Detail} (hs : s.sections = [.details ds])
    (lines : List String) :
    s.passing lines = lines.filter fun line => (cause? (s.truncation.cut line)).isNone := by
  rw [passing, readEach_details hs, numbered]
  generalize s.lineNumber = n
  induction lines generalizing n with
  | nil => rfl
  | cons line lines ih =>
    have hline : (failure? (s.truncation.cut line) n).isNone =
        (cause? (s.truncation.cut line)).isNone := Option.isNone_map
    simp only [List.map_cons, List.zipIdx_cons, List.zip_cons_cons, List.filter_cons, hline]
    split
    · rw [List.map_cons, ih]
    · exact ih (n + 1)

theorem filterMap_passing {s : Session} {ds : List Detail} (hs : s.sections = [.details ds])
    (lines : List String) :
    (s.passing lines).filterMap (fun line => detail? (s.truncation.cut line)) =
      lines.filterMap fun line => detail? (s.truncation.cut line) := by
  rw [passing_details hs, List.filterMap_filter]
  congr 1
  funext line
  split
  · rfl
  · rename_i h
    rw [Option.isNone_iff_eq_none, ← ne_eq, Option.ne_none_iff_exists'] at h
    obtain ⟨e, he⟩ := h
    rw [detail?_eq_none_of_cause he]

theorem artifact_readEach_details {s : Session} {ds : List Detail}
    (hs : s.sections = [.details ds]) (lines : List String) :
    (s.readEach lines).1.artifact.field? "Job Info" =
      some (.array ((ds ++ lines.filterMap fun line =>
        detail? (s.truncation.cut line)).map Detail.toJson)) := by
  rw [field?_artifact, readEach_details hs]
  rfl

/-- The summary of a job has what the lines of the log add to it, in order: at most one detail a
line, and none if the line has no marker or a payload that cannot be read. So the summary of a log
in two parts is that of the first part followed by that of the second, and lines that fail could as
well be left out. A line that fails changes nothing but the number of lines read, whatever has been
read before. -/
theorem details_by_line (url : Option String) (o : Options) (lines : List String) :
    let s := ReportKind.jobInfo.session url o
    let details (lines : List String) : List Json :=
      (lines.filterMap fun line => detail? (o.truncation.cut line)).map Detail.toJson
    (s.readEach lines).1.artifact.field? "Job Info" = some (.array (details lines)) ∧
    (∀ line, detail? line = none ↔ ¬ marker <:+: line.toList ∨
      ∃ payload e, payload? line = some payload ∧ ofPayload payload = .error e) ∧
    (∀ rest, (s.readEach (lines ++ rest)).1.artifact.field? "Job Info" =
      some (.array (details lines ++ details rest))) ∧
    (s.readEach (s.passing lines)).1.artifact = (s.readEach lines).1.artifact ∧
    (∀ k line, lines[k]? = some line →
      (s.readEach lines).2[k]? = some (failure? (o.truncation.cut line) k)) ∧
    ∀ (t : Session) (ds : List Detail) (line : String) (e : Malformed),
      t.sections = [.details ds] → (t.readLine line).2 = some e →
      (t.readLine line).1 = { t with lineNumber := t.lineNumber + 1 } := by
  intro s details
  have hs : s.sections = [.details []] := rfl
  refine ⟨?_, fun line => detail?_eq_none_iff, ?_, ?_, ?_, ?_⟩
  · exact artifact_readEach_details hs lines
  · intro rest
    rw [artifact_readEach_details hs, List.filterMap_append, List.nil_append, List.map_append]
    rfl
  · simp only [artifact, takeArtifact, assemble, readEach_details hs]
    rw [filterMap_passing hs]
  · intro k line hline
    have hnumbered : (s.numbered lines)[k]? = some (o.truncation.cut line, k) := by
      rw [numbered, List.getElem?_zipIdx, List.getElem?_map, hline]
      exact congrArg (fun n => some (o.truncation.cut line, n)) (Nat.zero_add k)
    rw [readEach_details hs, List.getElem?_map, hnumbered]
    rfl
  · intro t ds line e ht he
    rw [readLine_details ht] at he ⊢
    rw [detail?_eq_none_of_failure he, Option.toList_none, List.append_nil, ← ht]

theorem details_of_four :
    let s := ReportKind.jobInfo.session none Options.standard
    let broken := "TinderboxPrint: TalosResult: \x7b"
    let lines := ["TinderboxPrint: a", "x", broken, "TinderboxPrint: b<br/>c"]
    (∃ ds : List Detail, ds.map Detail.title = [none, some "b"] ∧
      (s.readEach lines).1.artifact.field? "Job Info" = some (.array (ds.map Detail.toJson))) ∧
    (∃ e, (s.readEach lines).2[2]? = some (some e) ∧ e.lineNumber = 2) ∧
    (s.readEach ["TinderboxPrint: a", "x", "TinderboxPrint: b<br/>c"]).1.artifact =
      (s.readEach lines).1.artifact ∧
    (s.readLine broken).1 = { s with lineNumber := 1 } := by
  intro s broken lines
  obtain ⟨hdetails, -, -, hpassing, hresults, hframe⟩ := details_by_line none Options.standard lines
  have hfailure (n : Nat) :
      ∃ e, failure? (Options.standard.truncation.cut broken) n = some e ∧ e.lineNumber = n := by
    have hcause : (cause? (Options.standard.truncation.cut broken)).isSome = true := by
      decide +kernel
    obtain ⟨cause, hcause⟩ := Option.isSome_iff_exists.mp hcause
    exact ⟨⟨Truncation.resultMarker, n, cause⟩, by rw [failure?, hcause]; rfl, rfl⟩
  refine ⟨⟨_, ?_, hdetails⟩, ?_, ?_, ?_⟩
  · decide +kernel
  · obtain ⟨e, he, hn⟩ := hfailure 2
    exact ⟨e, (hresults 2 broken rfl).trans (congrArg some he), hn⟩
  · have hlines : s.passing lines = ["TinderboxPrint: a", "x", "TinderboxPrint: b<br/>c"] := by
      decide +kernel
    rw [← hlines]
    exact hpassing
  · obtain ⟨e, he, -⟩ := hfailure 0
    have hread : (s.readLine broken).2 = some e := by
      rw [readLine_details rfl]
      exact he
    exact hframe s [] broken e rfl hread

end Session
end BuildLog
