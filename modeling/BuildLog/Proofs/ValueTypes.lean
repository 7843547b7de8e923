import BuildLog.Proofs.ArtifactRoundTrip
import BuildLog.Proofs.FailingDetails
import BuildLog.Proofs.MeasurementTruncation

namespace BuildLog

def Json.IsObject (j : Json) : Prop := ∃ fields, j = .object fields

def Json.IsString (j : Json) : Prop := ∃ s, j = .string s

theorem Json.not_isObject_of_isString {j : Json} (h : j.IsString) : ¬ j.IsObject := by
  obtain ⟨s, rfl⟩ := h
  rintro ⟨fields, hfields⟩
  contradiction

namespace Detail

/-- Whether an entry of a summary has an object for its value exactly if it is a measurement, and a
string if it is none. -/
def IsTyped (entry : Json) : Prop :=
  ∃ form value, entry.field? "content_type" = some (.string form) ∧
    entry.field? "value" = some value ∧
    (value.IsObject ↔ form = DetailForm.measurement.name) ∧
    (form ≠ DetailForm.measurement.name → value.IsString)

theorem field?_value (d : Detail) : d.toJson.field? "value" = some d.value := by
  obtain ⟨form, title, value, url⟩ := d
  cases title <;> cases url <;>
    simp [toJson, optionalField, Json.ofFields, Json.field?, Dictionary.ofList,
      Dictionary.get?_insert]

theorem name_eq_measurement_iff {form : DetailForm} :
    form.name = DetailForm.measurement.name ↔ form = .measurement := by
  cases form <;> decide

theorem isTyped_toJson {d : Detail} :
    IsTyped d.toJson ↔ (d.value.IsObject ↔ d.form = .measurement) ∧
      (d.form ≠ .measurement → d.value.IsString) := by
  have hform : d.toJson.field? "content_type" = some (.string d.form.name) := field?_toJson d
  constructor
  · rintro ⟨form, value, hf, hv, hobject, hstring⟩
    rw [hform, Option.some.injEq, Json.string.injEq] at hf
    rw [field?_value, Option.some.injEq] at hv
    subst hf hv
    rw [ne_eq, name_eq_measurement_iff] at hstring
    rw [name_eq_measurement_iff] at hobject
    exact ⟨hobject, hstring⟩
  · rintro ⟨hobject, hstring⟩
    refine ⟨d.form.name, d.value, hform, field?_value d, ?_, ?_⟩
    · rwa [name_eq_measurement_iff]
    · rwa [ne_eq, name_eq_measurement_iff]

end Detail

namespace DetailLine

/-- Whether a line carries a measurement with the given value. -/
def Measures (line : String) (value : Json) : Prop :=
  ∃ payload text, IsPayload line payload ∧ IsMeasurement payload text ∧
    Json.parse (String.ofList text) = .ok value

theorem detail?_of_measures {line : String} {value : Json} (h : Measures line value) :
    detail? line = some ⟨.measurement, some Truncation.resultMarker, value, none⟩ := by
  obtain ⟨payload, text, hpayload, hm, hvalue⟩ := h
  refine detail?_eq_some_iff.mpr ⟨payload, payload?_of_isPayload hpayload, ?_⟩
  rw [ofPayload_of_isMeasurement hm, hvalue]
  rfl

theorem measures_or_isString {line : String} {d : Detail} (h : detail? line = some d) :
    (d.form = .measurement ∧ Measures line d.value) ∨
      (d.form ≠ .measurement ∧ d.value.IsString) := by
  obtain ⟨payload, hpayload, hd⟩ := detail?_eq_some_iff.mp h
  obtain ⟨text, j, hm, hj, rfl⟩ | rfl := ofPayload_cases hd
  · exact .inl ⟨rfl, payload, text, payload?_eq_some_iff.mp hpayload, hm, hj⟩
  · obtain ⟨hform, hvalue⟩ := form_value_ofText payload
    refine .inr ⟨?_, hvalue⟩
    obtain hform | hform := hform <;> simp [hform]

theorem isTyped_iff_of_detail? {line : String} {d : Detail} (h : detail? line = some d) :
    Detail.IsTyped d.toJson ↔ (d.form = .measurement → d.value.IsObject) := by
  rw [Detail.isTyped_toJson]
  obtain ⟨hform, -⟩ | ⟨hform, hstring⟩ := measures_or_isString h
  · simp [hform]
  · simp [hform, hstring, Json.not_isObject_of_isString hstring]

/-- The entries of a summary that are no measurements have strings for values, and each measurement
has the value of one that a line carries. So the values have the types that they should exactly if
every measurement on the lines that is JSON at all is an object. -/
theorem values_typed_iff_objects (lines : List (String × Nat)) :
    ∃ ds entries, (Section.details []).readAll lines = .details ds ∧
      (Section.details ds).artifact = .array entries ∧
      (∀ entry ∈ entries, ∃ form value,
        entry.field? "content_type" = some (.string form) ∧ entry.field? "value" = some value ∧
        (form ≠ DetailForm.measurement.name → value.IsString) ∧
        (form = DetailForm.measurement.name → ∃ x ∈ lines, Measures x.1 value)) ∧
      ((∀ entry ∈ entries, Detail.IsTyped entry) ↔
        ∀ x ∈ lines, ∀ value, Measures x.1 value → value.IsObject) := by
  have hread := Section.readAll_details [] lines
  rw [List.nil_append] at hread
  refine ⟨_, _, hread, rfl, ?_, ?_⟩
  · rw [List.forall_mem_map]
    intro d hd
    obtain ⟨x, hx, hline⟩ := List.mem_filterMap.mp hd
    refine ⟨d.form.name, d.value, Detail.field?_toJson d, Detail.field?_value d, ?_, ?_⟩
    · intro hother
      obtain ⟨hform, -⟩ | ⟨-, hstring⟩ := measures_or_isString hline
      · exact absurd (Detail.name_eq_measurement_iff.mpr hform) hother
      · exact hstring
    · intro hform
      obtain ⟨-, hvalue⟩ | ⟨hother, -⟩ := measures_or_isString hline
      · exact ⟨x, hx, hvalue⟩
      · exact absurd (Detail.name_eq_measurement_iff.mp hform) hother
  · rw [List.forall_mem_map]
    constructor
    · intro htyped x hx value hvalue
      have hd : detail? x.1 =
          some ⟨.measurement, some Truncation.resultMarker, value, none⟩ :=
        detail?_of_measures hvalue
      exact (isTyped_iff_of_detail? hd).mp (htyped _ (List.mem_filterMap.mpr ⟨x, hx, hd⟩)) rfl
    · intro hobjects d hd
      obtain ⟨x, hx, hline⟩ := List.mem_filterMap.mp hd
      rw [isTyped_iff_of_detail? hline]
      intro hform
      obtain ⟨-, hvalue⟩ | ⟨hother, -⟩ := measures_or_isString hline
      · exact hobjects x hx d.value hvalue
      · exact absurd hform hother

theorem measurement_of_array :
    ∃ entries,
      ((Section.details []).readAll [("TinderboxPrint: TalosResult: [1]", 0)]).artifact =
        .array entries ∧
      ¬ ∀ entry ∈ entries, Detail.IsTyped entry := by
  let line := "TinderboxPrint: TalosResult: [1]"
  have hparse : Json.parse "[1]" = .ok (.array [.int 1]) := rfl
  have hmeasures : Measures line (.array [.int 1]) := by
    refine ⟨"TalosResult: [1]".toList, "[1]".toList, ?_, ?_, hparse⟩
    · exact ⟨[], " TalosResult: [1]".toList, by decide, by decide, by decide⟩
    · exact ⟨[':'], " [1]".toList, by decide, by simp, by decide, by decide⟩
  have hd := detail?_of_measures hmeasures
  have hread : (Section.details []).readAll [(line, 0)] =
      .details [⟨.measurement, some Truncation.resultMarker, .array [.int 1], none⟩] := by
    rw [Section.readAll_details, List.filterMap_cons, hd]
    rfl
  refine ⟨_, congrArg Section.artifact hread, ?_⟩
  intro htyped
  obtain ⟨fields, hfields⟩ :=
    (isTyped_iff_of_detail? hd).mp (htyped _ (List.mem_singleton_self _)) rfl
  contradiction

end DetailLine
end BuildLog
