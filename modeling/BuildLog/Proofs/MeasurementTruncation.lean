import BuildLog.Proofs.DetailForms
import BuildLog.Proofs.SectionIndependence
import BuildLog.Proofs.TruncationLaws

namespace BuildLog
open Text

namespace Measurements

theorem marker_isInfix_of_payload? {line : String} {payload : List Char}
    (h : payload? line = some payload) : Truncation.dataMarker.toList <:+: line.toList := by
  obtain ⟨l, r, hline, hr⟩ := first?_eq_some h
  obtain ⟨rest, hrest, -⟩ := Option.bind_eq_some_iff.mp hr
  have hmarker : marker = Truncation.dataMarker.toList ++ ":".toList := String.toList_append
  rw [hline, after?_eq_some_iff.mp hrest, hmarker]
  exact ⟨l, ":".toList ++ rest, by simp⟩

theorem payload?_eq_none {line : String} (h : ¬ Truncation.dataMarker.toList <:+: line.toList) :
    payload? line = none := by
  cases hp : payload? line with
  | none => rfl
  | some payload => exact absurd (marker_isInfix_of_payload? hp) h

theorem payload?_cut {t : Truncation} (ht : Truncation.dataMarker ∈ t.markers) (line : String) :
    payload? (t.cut line) = payload? line := by
  by_cases h : Truncation.dataMarker.toList <:+: line.toList
  · rw [Truncation.cut_of_isInfix ht h]
  · rw [payload?_eq_none h, payload?_eq_none fun hcut => h (Truncation.isInfix_of_isInfix_cut hcut)]

theorem readLine_cut {t : Truncation} (ht : Truncation.dataMarker ∈ t.markers) (m : Measurements)
    (line : String) (n : Nat) : m.readLine (t.cut line) n = m.readLine line n := by
  rw [readLine, readLine, payload?_cut ht]

end Measurements

namespace DetailLine

theorem read_of_no_marker {line : String}
    (h : ¬ Truncation.resultMarker.toList <:+: line.toList) (n : Nat) :
    ∃ d, read line n = .ok d ∧ ∀ x ∈ d, x.form ≠ .measurement := by
  unfold read
  cases hp : payload? line with
  | none => exact ⟨none, rfl, by simp⟩
  | some payload =>
    have hunmarked : ¬ Truncation.resultMarker.toList <+: payload :=
      fun hbegins => h (hbegins.isInfix.trans (payload?_isInfix hp))
    refine ⟨some (ofText payload), ?_, ?_⟩
    · simp [ofPayload_of_unmarked hunmarked]
    · rintro _ ⟨⟩
      obtain ⟨hform | hform, -⟩ := form_value_ofText payload
      · simp [hform]
      · simp [hform]

end DetailLine

namespace Detail

/-- Whether a detail, as an artifact has it, is a measurement. -/
def showsMeasurement (j : Json) : Bool :=
  match j.field? "content_type" with
  | some (.string form) => form = DetailForm.measurement.name
  | _ => false

theorem field?_toJson (d : Detail) : d.toJson.field? "content_type" = some d.form.toJson := by
  obtain ⟨form, title, value, url⟩ := d
  cases title <;> cases url <;>
    simp [toJson, optionalField, Json.ofFields, Json.field?, Dictionary.ofList,
      Dictionary.get?_insert]

theorem showsMeasurement_toJson (d : Detail) :
    showsMeasurement d.toJson = decide (d.form = .measurement) := by
  rw [showsMeasurement, field?_toJson]
  cases d.form <;> decide

theorem filter_showsMeasurement (ds : List Detail) :
    (ds.map toJson).filter showsMeasurement =
      (ds.filter fun d => d.form = .measurement).map toJson := by
  have h : showsMeasurement ∘ toJson = fun d => decide (d.form = .measurement) :=
    funext showsMeasurement_toJson
  rw [List.filter_map, h]

end Detail

namespace Session

def SameMeasurements (xs ys : List Section) : Prop :=
  ∃ ds ds' : List Detail, xs = [.details ds] ∧ ys = [.details ds'] ∧
    (ds.filter fun d => d.form = .measurement) = ds'.filter fun d => d.form = .measurement

theorem dispatch_measurements_cut {t : Truncation} (ht : Truncation.dataMarker ∈ t.markers)
    (m : Measurements) (line : String) (n : Nat) :
    dispatch (t.cut line) n [.measurements m] = dispatch line n [.measurements m] := by
  rw [dispatch_singleton, dispatch_singleton, Section.readLine, Section.readLine,
    Measurements.readLine_cut ht]

/-- Cutting a line may change or drop a detail, but not a measurement and not a failure. -/
theorem dispatch_details_cut {t : Truncation} (ht : Truncation.resultMarker ∈ t.markers)
    {xs ys : List Section} (h : SameMeasurements xs ys) (line : String) (n : Nat) :
    SameMeasurements (dispatch (t.cut line) n xs).1 (dispatch line n ys).1 ∧
      (dispatch (t.cut line) n xs).2 = (dispatch line n ys).2 := by
  obtain ⟨ds, ds', rfl, rfl, hsame⟩ := h
  rw [dispatch_singleton, dispatch_singleton, Section.readLine, Section.readLine]
  dsimp only
  -- either nothing is cut, or neither the line nor what is left of it holds a measurement
  by_cases hmarker : Truncation.resultMarker.toList <:+: line.toList
  · rw [Truncation.cut_of_isInfix ht hmarker]
    cases DetailLine.read line n with
    | error e => exact ⟨⟨ds, ds', rfl, rfl, hsame⟩, rfl⟩
    | ok d =>
      cases d with
      | none => exact ⟨⟨ds, ds', rfl, rfl, hsame⟩, rfl⟩
      | some d =>
        refine ⟨⟨ds ++ [d], ds' ++ [d], rfl, rfl, ?_⟩, rfl⟩
        rw [List.filter_append, List.filter_append, hsame]
  · have hcut : ¬ Truncation.resultMarker.toList <:+: (t.cut line).toList :=
      fun h => hmarker (Truncation.isInfix_of_isInfix_cut h)
    obtain ⟨d, hd, hform⟩ := DetailLine.read_of_no_marker hcut n
    obtain ⟨d', hd', hform'⟩ := DetailLine.read_of_no_marker hmarker n
    have hgrow (es : List Detail) (e : Option Detail) (he : ∀ x ∈ e, x.form ≠ .measurement) :
        ((es ++ e.toList).filter fun d => d.form = .measurement) =
          es.filter fun d => d.form = .measurement := by
      have hnone : e.toList.filter (fun d => d.form = .measurement) = [] := by
        apply List.filter_eq_nil_iff.mpr
        intro x hx
        simpa using he x (Option.mem_toList.mp hx)
      rw [List.filter_append, hnone, List.append_nil]
    rw [hd, hd']
    have hfinal : SameMeasurements [.details (ds ++ d.toList)] [.details (ds' ++ d'.toList)] :=
      ⟨_, _, rfl, rfl, by rw [hgrow ds d hform, hgrow ds' d' hform', hsame]⟩
    cases d <;> cases d' <;> simpa using hfinal

theorem readEach_measurements_cut {s u : Session} {m : Measurements}
    (hs : s.sections = [.measurements m]) (hu : u.sections = [.measurements m])
    (hnumber : s.lineNumber = u.lineNumber) (ht : Truncation.dataMarker ∈ s.truncation.markers)
    {lines : List String} (hwhole : ∀ line ∈ lines, u.truncation.cut line = line) :
    (s.readEach lines).1.sections = (u.readEach lines).1.sections ∧
      (s.readEach lines).2 = (u.readEach lines).2 := by
  let R := fun xs ys : List Section => xs = ys ∧ ∃ m, xs = [.measurements m]
  have hstart : R s.sections u.sections := ⟨hs.trans hu.symm, m, hs⟩
  have hrun : R (s.readEach lines).1.sections (u.readEach lines).1.sections ∧
      (s.readEach lines).2 = (u.readEach lines).2 := by
    apply readEach_related hnumber hstart
    intro line hline n xs ys hxs
    obtain ⟨rfl, m', rfl⟩ := hxs
    rw [hwhole line hline, dispatch_measurements_cut ht, dispatch_singleton]
    exact ⟨⟨rfl, _, rfl⟩, rfl⟩
  exact ⟨hrun.1.1, hrun.2⟩

theorem readEach_details_cut {s u : Session} (hstart : SameMeasurements s.sections u.sections)
    (hnumber : s.lineNumber = u.lineNumber) (ht : Truncation.resultMarker ∈ s.truncation.markers)
    {lines : List String} (hwhole : ∀ line ∈ lines, u.truncation.cut line = line) :
    SameMeasurements (s.readEach lines).1.sections (u.readEach lines).1.sections ∧
      (s.readEach lines).2 = (u.readEach lines).2 := by
  apply readEach_related hnumber hstart
  intro line hline n xs ys hxs
  rw [hwhole line hline]
  exact dispatch_details_cut ht hxs line n

/-- With the marker of bulk measurements among those of a truncation, their report comes out as if
nothing were cut, line for line. With the marker of single measurements, the summary of a job has
the same measurements as if nothing were cut, and the same failures. -/
theorem measurements_survive_cut (url : Option String) (o : Options) (limit : Nat)
    (markers : List String) (whole : Truncation) (lines : List String)
    (hwhole : ∀ line ∈ lines, whole.cut line = line) :
    let cutting (kind : ReportKind) : Session :=
      kind.session url { o with truncation := Truncation.ofMarkers limit markers }
    let sparing (kind : ReportKind) : Session := kind.session url { o with truncation := whole }
    (Truncation.dataMarker ∈ markers →
      ((cutting .talosData).readEach lines).2 = ((sparing .talosData).readEach lines).2 ∧
      (∀ k, ((cutting .talosData).before lines k).sections.map Section.isComplete =
        ((sparing .talosData).before lines k).sections.map Section.isComplete) ∧
      ((cutting .talosData).readEach lines).1.artifact =
        ((sparing .talosData).readEach lines).1.artifact) ∧
    (Truncation.resultMarker ∈ markers →
      ((cutting .jobInfo).readEach lines).2 = ((sparing .jobInfo).readEach lines).2 ∧
      ∃ ds ds' : List Json,
        ((cutting .jobInfo).readEach lines).1.artifact.field? "Job Info" = some (.array ds) ∧
        ((sparing .jobInfo).readEach lines).1.artifact.field? "Job Info" = some (.array ds') ∧
        ds.filter Detail.showsMeasurement = ds'.filter Detail.showsMeasurement) := by
  intro cutting sparing
  constructor
  · intro hmarker
    have ht : Truncation.dataMarker ∈ (Truncation.ofMarkers limit markers).markers :=
      Truncation.mem_markers_ofMarkers hmarker (by decide)
    have hfront (k : Nat) := readEach_measurements_cut (s := cutting .talosData)
      (u := sparing .talosData) rfl rfl rfl ht
      fun line hline => hwhole line (List.mem_of_mem_take hline (i := k))
    obtain ⟨hsections, hresults⟩ := readEach_measurements_cut (s := cutting .talosData)
      (u := sparing .talosData) rfl rfl rfl ht hwhole
    refine ⟨hresults, ?_, ?_⟩
    · intro k
      exact congrArg (List.map Section.isComplete) (hfront k).1
    · have hassembled : ((cutting .talosData).readEach lines).1.assembled =
          ((sparing .talosData).readEach lines).1.assembled :=
        (readEach_frame _ lines).2.2.trans (readEach_frame (sparing .talosData) lines).2.2.symm
      simp only [artifact, takeArtifact, assemble, hsections, hassembled]
  · intro hmarker
    have ht : Truncation.resultMarker ∈ (Truncation.ofMarkers limit markers).markers :=
      Truncation.mem_markers_ofMarkers hmarker (by decide)
    obtain ⟨⟨ds, ds', hds, hds', hsame⟩, hresults⟩ := readEach_details_cut
      (s := cutting .jobInfo) (u := sparing .jobInfo) ⟨[], [], rfl, rfl, rfl⟩ rfl ht hwhole
    refine ⟨hresults, ds.map Detail.toJson, ds'.map Detail.toJson, ?_, ?_, ?_⟩
    · rw [field?_artifact, hds]
      rfl
    · rw [field?_artifact, hds']
      rfl
    · rw [Detail.filter_showsMeasurement, Detail.filter_showsMeasurement, hsame]

def longLines : List String :=
  ["TinderboxPrint: passed", "TALOSDATA: [1]", "TinderboxPrint: TalosResult: {}"]

theorem measurements_survive_longLines :
    let cutting (kind : ReportKind) : Session :=
      kind.session none ⟨true, 100, Truncation.ofMarkers 4 Truncation.defaultMarkers⟩
    let sparing (kind : ReportKind) : Session :=
      kind.session none ⟨true, 100, Truncation.ofMarkers 40 []⟩
    (∀ line ∈ longLines, (Truncation.ofMarkers 40 []).cut line = line) ∧
      ((cutting .talosData).readEach longLines).1.artifact =
        ((sparing .talosData).readEach longLines).1.artifact ∧
      ((cutting .jobInfo).readEach longLines).2 = ((sparing .jobInfo).readEach longLines).2 := by
  have hwhole : ∀ line ∈ longLines, (Truncation.ofMarkers 40 []).cut line = line := by
    decide +kernel
  have hdata : Truncation.dataMarker ∈ Truncation.defaultMarkers := by
    simp [Truncation.defaultMarkers]
  have hresult : Truncation.resultMarker ∈ Truncation.defaultMarkers := by
    simp [Truncation.defaultMarkers]
  have h := measurements_survive_cut none Options.standard 4 Truncation.defaultMarkers
    (Truncation.ofMarkers 40 []) longLines hwhole
  dsimp only at h ⊢
  exact ⟨hwhole, (h.1 hdata).2.2, (h.2 hresult).1⟩

end Session
end BuildLog
