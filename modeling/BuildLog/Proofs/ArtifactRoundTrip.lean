import BuildLog.Config
import BuildLog.Proofs.DetailForms
import BuildLog.Proofs.JobDetails
import BuildLog.Proofs.ParsedValues
import BuildLog.Proofs.ReportBounds

namespace BuildLog
open Json

theorem LoggedError.readsBack {e : LoggedError} (he : e.Fits) :
    ReadsBack LoggedError.read e.toJson e := by
  intro k hk
  have hrecord : Reads (record.read "ErrorLine") k (e.lineNumber, e.line, ()) := by
    refine Record.reads (by decide) _ ?_ ?_ ?_ hk
    · simp
    · simp only [List.forall_mem_cons, List.not_mem_nil, false_imp_iff, implies_true, and_true,
        record, Record.Takes, String.reduceEq, if_true, if_false]
      exact ⟨readsBack_readCount he, readsBack_readText e.line⟩
    · simp [record, Record.DefaultsBeyond]
  refine ⟨hrecord.starts, ?_⟩
  intro r hr
  simp only [LoggedError.read, hrecord.read hr, bind, Except.bind, pure, Except.pure]

theorem Outcome.readsBack (o : Outcome) : ReadsBack Outcome.read o.toJson o :=
  readsBack_readVariant (by decide) (by cases o <;> decide)

theorem head?_ne_of_string {s : String} {k : Json} (h : (Json.string s).Rearranged k) :
    (compactText k).head? ≠ some 'n' := by
  cases h with | refl
  rw [compactText_string]
  simp

theorem head?_ne_of_int {i : Int} {k : Json} (h : (Json.int i).Rearranged k) :
    (compactText k).head? ≠ some 'n' := by
  cases h with | refl
  obtain ⟨c, t, ht, hc⟩ := exists_cons_intText i
  rw [compactText_int, ht, List.head?_cons, ne_eq, Option.some.injEq]
  exact ne_of_isAsciiDigit hc (by decide) rfl

theorem readsBack_optionalText (x : Option String) :
    ReadsBack (readOptional readText) (ofOption .string x) x :=
  readsBack_readOptional fun s _ => ⟨readsBack_readText s, fun _ => head?_ne_of_string⟩

theorem readsBack_optionalCount {x : Option Nat} (hx : ∀ n, x = some n → FitsCount n) :
    ReadsBack (readOptional readCount) (ofOption (fun n => .int (n : Nat)) x) x :=
  readsBack_readOptional fun n hn => ⟨readsBack_readCount (hx n hn), fun _ => head?_ne_of_int⟩

theorem readsBack_optionalInt64 {x : Option Int} (hx : ∀ i, x = some i → FitsSigned i) :
    ReadsBack (readOptional readInt64) (ofOption .int x) x :=
  readsBack_readOptional fun i hi => ⟨readsBack_readInt64 (hx i hi), fun _ => head?_ne_of_int⟩

theorem Step.readsBack {s : Step} (hs : s.Fits) : ReadsBack Step.read s.toJson s := by
  intro k hk
  have hrecord : Reads (record.read "Step") k (s.name, s.order, s.started, s.startedLine,
      s.finished, s.finishedLine, s.duration, s.outcome, s.errors, s.errorCount, ()) := by
    refine Record.reads (by decide) _ ?_ ?_ ?_ hk
    · simp
    · simp only [List.forall_mem_cons, List.not_mem_nil, false_imp_iff, implies_true, and_true,
        record, Record.Takes, String.reduceEq, if_true, if_false]
      exact ⟨readsBack_readText s.name, readsBack_readCount hs.order,
        readsBack_readText s.started, readsBack_readCount hs.startedLine,
        readsBack_optionalText s.finished, readsBack_optionalCount hs.finishedLine,
        readsBack_optionalInt64 hs.duration, s.outcome.readsBack,
        readsBack_readList fun e he => LoggedError.readsBack (hs.errors e he),
        readsBack_readCount hs.errorCount⟩
    · simp [record, Record.DefaultsBeyond]
  refine ⟨hrecord.starts, ?_⟩
  intro r hr
  simp only [Step.read, hrecord.read hr, bind, Except.bind, pure, Except.pure]

theorem StepReport.readsBack {d : StepReport} (hd : d.Fits) :
    ReadsBack StepReport.read d.toJson d := by
  intro k hk
  have hrecord : Reads (record.read "StepData") k
      (d.steps, d.allErrors, d.errorsTruncated, ()) := by
    refine Record.reads (by decide) _ ?_ ?_ ?_ hk
    · simp
    · simp only [List.forall_mem_cons, List.not_mem_nil, false_imp_iff, implies_true, and_true,
        record, Record.Takes, String.reduceEq, if_true, if_false]
      exact ⟨readsBack_readList fun s hs => Step.readsBack (hd.steps s hs),
        readsBack_readList fun e he => LoggedError.readsBack (hd.allErrors e he),
        readsBack_readFlag d.errorsTruncated⟩
    · simp [record, Record.DefaultsBeyond]
  refine ⟨hrecord.starts, ?_⟩
  intro r hr
  simp only [StepReport.read, hrecord.read hr, bind, Except.bind, pure, Except.pure]

structure Config.Fits (c : Config) : Prop where
  maxLineLength : FitsCount c.maxLineLength
  maxStepErrors : FitsCount c.maxStepErrors

theorem Config.readsBack {c : Config} (hc : c.Fits) : ReadsBack Config.read c.toJson c := by
  intro k hk
  have hrecord : Reads (record.read "ParserConfig") k
      (c.maxLineLength, c.measurementMarkers, c.checkErrors, c.maxStepErrors, ()) := by
    refine Record.reads (by decide) _ ?_ ?_ ?_ hk
    · simp
    · simp only [List.forall_mem_cons, List.not_mem_nil, false_imp_iff, implies_true, and_true,
        record, Record.Takes, String.reduceEq, if_true, if_false]
      exact ⟨readsBack_readCount hc.maxLineLength,
        readsBack_readList fun s _ => readsBack_readText s, readsBack_readFlag c.checkErrors,
        readsBack_readCount hc.maxStepErrors⟩
    · simp [record, Record.DefaultsBeyond]
  refine ⟨hrecord.starts, ?_⟩
  intro r hr
  simp only [Config.read, hrecord.read hr, bind, Except.bind, pure, Except.pure]

/-- Whether the value of a detail has no doubles and leaves room for the detail's own level. -/
structure Detail.Fits (d : Detail) : Prop where
  wellFormed : d.value.WellFormed
  plain : Plain (maxDepth - 1) d.value

theorem DetailForm.readsBack (f : DetailForm) : ReadsBack DetailForm.read f.toJson f :=
  readsBack_readVariant (by decide) (by cases f <;> decide)

namespace Detail

theorem forall_mem_optionalField {P : String × Json → Prop} {name : String} {x : Option String} :
    (∀ f ∈ optionalField name x, P f) ↔ ∀ s, x = some s → P (name, .string s) := by
  cases x <;> simp [optionalField]

theorem readsBack_presentText {x : Option String} (s : String) (hs : x = some s) :
    ReadsBack (readOptional readText) (.string s) x := by
  subst hs
  exact readsBack_optionalText (some s)

theorem readsBack {d : Detail} (hd : d.Fits) : ReadsBack Detail.read d.toJson d := by
  intro k hk
  have hrecord : Reads (record.read "JobDetail") k (d.form, d.title, d.value, d.url, ()) := by
    refine Record.reads (by decide) _ ?_ ?_ ?_ hk
    · cases d.title <;> cases d.url <;> simp [optionalField]
    · simp only [List.cons_append, List.forall_mem_cons, List.forall_mem_append,
        forall_mem_optionalField, record, Record.Takes, String.reduceEq, if_true, if_false]
      exact ⟨d.form.readsBack, readsBack_presentText, readsBack_readValue hd.plain hd.wellFormed,
        readsBack_presentText⟩
    · -- a text that is left out is the default of its field
      cases d.title <;> cases d.url <;> simp [record, Record.DefaultsBeyond, optionalField]
  refine ⟨hrecord.starts, ?_⟩
  intro r hr
  simp only [Detail.read, hrecord.read hr, bind, Except.bind, pure, Except.pure]

end Detail

namespace DetailLine

theorem wellFormed_of_detail? {line : String} {d : Detail} (h : detail? line = some d) :
    d.value.WellFormed := by
  obtain ⟨payload, -, hd⟩ := detail?_eq_some_iff.mp h
  obtain ⟨text, j, -, hparse, rfl⟩ | rfl := ofPayload_cases hd
  · exact wellFormed_of_parse hparse
  · obtain ⟨-, value, hvalue⟩ := form_value_ofText payload
    rw [hvalue]
    exact .string value

end DetailLine

theorem Section.readAll_details (ds : List Detail) (lines : List (String × Nat)) :
    (Section.details ds).readAll lines =
      .details (ds ++ lines.filterMap fun x => DetailLine.detail? x.1) := by
  induction lines generalizing ds with
  | nil => rw [List.filterMap_nil, List.append_nil]; rfl
  | cons x lines ih =>
    have hfirst : ((details ds).readLine x.1 x.2).1 =
        details (ds ++ (DetailLine.detail? x.1).toList) := by
      rw [Section.readLine_details]
    have hrest := ih (ds ++ (DetailLine.detail? x.1).toList)
    unfold Section.readAll at hrest ⊢
    rw [List.foldl_cons, hfirst, hrest, List.append_assoc, List.filterMap_cons]
    cases DetailLine.detail? x.1 <;> rfl

/-- Whether every value within bounds reads back from its text on one line, in whatever order the
fields of its objects were written. -/
def RoundTrips {α : Type} (toJson : α → Json) (reader : Reader α) (bounds : α → Prop) : Prop :=
  ∀ a, bounds a → ∀ k, (toJson a).Rearranged k → readAll reader k.compact = .ok a

theorem roundTrips_of_readsBack {α : Type} {toJson : α → Json} {reader : Reader α}
    {bounds : α → Prop} (h : ∀ {a}, bounds a → ReadsBack reader (toJson a) a) :
    RoundTrips toJson reader bounds :=
  fun _ ha k hk => readAll_of_reads (h ha k hk)

/-- The artifacts survive their text, and so do those of every log: the report of its steps and
each of its details, if the value of the detail is plain. -/
theorem artifacts_round_trip :
    RoundTrips LoggedError.toJson LoggedError.read LoggedError.Fits ∧
    RoundTrips Step.toJson Step.read Step.Fits ∧
    RoundTrips StepReport.toJson StepReport.read StepReport.Fits ∧
    RoundTrips Detail.toJson Detail.read Detail.Fits ∧
    RoundTrips Config.toJson Config.read Config.Fits ∧
    (∀ (checksErrors : Bool) (maxErrors : Nat) (lines : List (String × Nat)),
      (∀ x ∈ lines, FitsCount x.2) → lines.length ≤ Nat.pow 2 64 →
      let log := (StepLog.empty checksErrors maxErrors).readAll lines
      readAll StepReport.read (Section.steps log).artifact.compact = .ok log.report) ∧
    (∀ lines : List (String × Nat), ∃ ds js,
      (Section.details []).readAll lines = .details ds ∧
      (Section.details ds).artifact = .array js ∧
      List.Forall₂ (fun d j => Plain (maxDepth - 1) d.value →
        readAll Detail.read j.compact = .ok d) ds js) := by
  refine ⟨roundTrips_of_readsBack LoggedError.readsBack, roundTrips_of_readsBack Step.readsBack,
    roundTrips_of_readsBack StepReport.readsBack, roundTrips_of_readsBack Detail.readsBack,
    roundTrips_of_readsBack Config.readsBack, ?_, ?_⟩
  · intro checksErrors maxErrors lines hlines hcount log
    have hfits : log.report.Fits := StepLog.fits_report checksErrors maxErrors hlines hcount
    exact readAll_of_reads (StepReport.readsBack hfits _ (.refl _))
  · intro lines
    refine ⟨_, _, Section.readAll_details [] lines, rfl, ?_⟩
    rw [List.nil_append, List.forall₂_map_right_iff, List.forall₂_same]
    intro d hd hplain
    obtain ⟨x, -, hx⟩ := List.mem_filterMap.mp hd
    have hfits : d.Fits := ⟨DetailLine.wellFormed_of_detail? hx, hplain⟩
    exact readAll_of_reads (Detail.readsBack hfits _ (.refl _))

def quotedError : LoggedError := ⟨3, "a \"b\" \\ \x01"⟩

def nestedDetail : Detail :=
  ⟨.measurement, none, .object [("mean", .int (-2)), ("runs", .array [.null, .bool true])],
    some "http://x"⟩

theorem fits_nestedDetail : nestedDetail.Fits where
  wellFormed := by
    have hascends : "mean" < "runs" := by decide
    refine .object (List.pairwise_pair.mpr hascends) ?_
    rw [List.forall_mem_cons, List.forall_mem_singleton]
    refine ⟨.int ⟨by decide, by decide⟩, .array ?_⟩
    rw [List.forall_mem_cons, List.forall_mem_singleton]
    exact ⟨.null, .bool true⟩
  plain := by
    refine .object ?_
    rw [List.forall_mem_cons, List.forall_mem_singleton]
    refine ⟨.int _ (-2), .array ?_⟩
    rw [List.forall_mem_cons, List.forall_mem_singleton]
    exact ⟨.null _, .bool _ true⟩

/-- Both are read back from the texts with their fields in the order of declaration. -/
theorem artifacts_round_trip_declared :
    readAll LoggedError.read
        "\x7b\"linenumber\":3,\"line\":\"a \\\"b\\\" \\\\ \\u0001\"\x7d" =
      .ok quotedError ∧
    readAll Detail.read ("\x7b\"content_type\":\"TalosResult\",\"value\":" ++
        "\x7b\"mean\":-2,\"runs\":[null,true]\x7d,\"url\":\"http://x\"\x7d") =
      .ok nestedDetail := by
  obtain ⟨herrors, -, -, hdetails, -⟩ := artifacts_round_trip
  refine ⟨?_, ?_⟩
  · have hfits : quotedError.Fits := by unfold LoggedError.Fits FitsCount; decide
    exact herrors quotedError hfits
      (.object [("linenumber", .int 3), ("line", .string quotedError.line)])
      (rearranged_ofFields (by decide) rfl (List.forall₂_same.mpr fun j _ => .refl j))
  · exact hdetails nestedDetail fits_nestedDetail
      (.object [("content_type", .string "TalosResult"), ("value", nestedDetail.value),
        ("url", .string "http://x")])
      (rearranged_ofFields (by decide) rfl (List.forall₂_same.mpr fun j _ => .refl j))

end BuildLog
