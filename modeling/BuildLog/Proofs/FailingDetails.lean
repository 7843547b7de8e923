import BuildLog.Proofs.DetailForms
import BuildLog.Proofs.JobDetails

namespace BuildLog.DetailLine
open Text

/-- Whether a text is what follows the first marker of a line, without the blanks around it. -/
def IsPayload (line : String) (payload : List Char) : Prop :=
  ∃ before rest, line.toList = before ++ (marker ++ rest) ∧ ¬ marker <:+: before ∧
    payload = trim rest

def IsBroken (text : List Char) : Prop := ∀ j, Json.parse (String.ofList text) ≠ .ok j

theorem payload?_of_isPayload {line : String} {payload : List Char} (h : IsPayload line payload) :
    payload? line = some payload :=
  payload?_eq_some_iff.mpr h

theorem IsPayload.unique {line : String} {p q : List Char} (hp : IsPayload line p)
    (hq : IsPayload line q) : p = q :=
  Option.some.inj ((payload?_of_isPayload hp).symm.trans (payload?_of_isPayload hq))

section Lines

variable {ds : List Detail} {line : String} {payload text : List Char}

theorem readLine_of_no_payload (ds : List Detail) (h : ¬ marker <:+: line.toList) (n : Nat) :
    (Section.details ds).readLine line n = (.details ds, none) := by
  have hpayload : payload? line = none := payload?_eq_none_iff.mpr h
  rw [Section.readLine_details, detail?, failure?, cause?, hpayload]
  simp

theorem readLine_of_isPayload {d : Detail} (ds : List Detail) (h : IsPayload line payload)
    (hd : ofPayload payload = .ok d) (n : Nat) :
    (Section.details ds).readLine line n = (.details (ds ++ [d]), none) := by
  rw [Section.readLine_of_payload (payload?_of_isPayload h), hd]

theorem readLine_of_broken (ds : List Detail) (h : IsPayload line payload)
    (hm : IsMeasurement payload text) (hbroken : IsBroken text) (n : Nat) :
    ∃ e, (Section.details ds).readLine line n =
      (.details ds, some ⟨Truncation.resultMarker, n, e⟩) := by
  rw [Section.readLine_of_payload (payload?_of_isPayload h), ofPayload_of_isMeasurement hm]
  cases hparse : Json.parse (String.ofList text) with
  | ok j => exact absurd hparse (hbroken j)
  | error e => exact ⟨e, rfl⟩

/-- A line fails exactly if it has a measurement that is no JSON. -/
theorem isSome_readLine_iff (ds : List Detail) (line : String) (n : Nat) :
    ((Section.details ds).readLine line n).2.isSome = true ↔
      ∃ payload text, IsPayload line payload ∧ IsMeasurement payload text ∧ IsBroken text := by
  constructor
  · intro hfails
    by_cases hmarker : marker <:+: line.toList
    · obtain ⟨payload, hpayload⟩ : ∃ payload, payload? line = some payload :=
        Option.ne_none_iff_exists'.mp fun hnone => payload?_eq_none_iff.mp hnone hmarker
      have hpayload : IsPayload line payload := payload?_eq_some_iff.mp hpayload
      by_cases hbegins : Truncation.resultMarker.toList <+: payload
      · obtain ⟨text, hm⟩ := exists_isMeasurement hbegins
        refine ⟨payload, text, hpayload, hm, ?_⟩
        intro j hj
        have hd := ofPayload_of_isMeasurement hm
        rw [hj] at hd
        rw [readLine_of_isPayload ds hpayload hd n] at hfails
        contradiction
      · rw [readLine_of_isPayload ds hpayload (ofPayload_of_unmarked hbegins) n] at hfails
        contradiction
    · rw [readLine_of_no_payload ds hmarker n] at hfails
      contradiction
  · rintro ⟨payload, text, hpayload, hm, hbroken⟩
    obtain ⟨e, he⟩ := readLine_of_broken ds hpayload hm hbroken n
    rw [he]
    rfl

end Lines

/-- A line fails exactly if its payload begins with the word for a measurement and goes on, after any
number of colons, with what is no JSON. To ask for at least one colon would come to the same except
for the lines that fail without. Every other payload adds a detail: a measurement if it begins with
the word, and else a link or html. A line that fails or has no marker adds nothing. -/
theorem details_fail_at_measurements (ds : List Detail) (line : String) (n : Nat) :
    let result := (Section.details ds).readLine line n
    let Fails (payload : List Char) : Prop :=
      IsPayload line payload ∧ ∃ text, IsMeasurement payload text ∧ IsBroken text
    let HasColon (payload : List Char) : Prop := "TalosResult:".toList <+: payload
    (result.2.isSome = true ↔ ∃ payload, Fails payload) ∧
    ((result.2.isSome = true ↔ ∃ payload, HasColon payload ∧ Fails payload) ↔
      ∀ payload, Fails payload → HasColon payload) ∧
    (∀ payload, IsPayload line payload → ¬ Truncation.resultMarker.toList <+: payload →
      ∃ d, result = (.details (ds ++ [d]), none) ∧ (d.form = .link ∨ d.form = .rawHtml)) ∧
    (∀ payload text j, IsPayload line payload → IsMeasurement payload text →
      Json.parse (String.ofList text) = .ok j →
      result = (.details (ds ++ [⟨.measurement, some Truncation.resultMarker, j, none⟩]), none)) ∧
    (∀ payload, Fails payload →
      ∃ e, result = (.details ds, some ⟨Truncation.resultMarker, n, e⟩)) ∧
    (¬ marker <:+: line.toList → result = (.details ds, none)) := by
  intro result Fails HasColon
  have hfails : result.2.isSome = true ↔ ∃ payload, Fails payload := by
    rw [isSome_readLine_iff]
    simp only [Fails, exists_and_left]
  refine ⟨hfails, ?_, ?_, ?_, ?_, fun h => readLine_of_no_payload ds h n⟩
  · rw [hfails]
    constructor
    · intro h payload hpayload
      obtain ⟨q, hcolon, hq⟩ := h.mp ⟨payload, hpayload⟩
      rwa [hpayload.1.unique hq.1]
    · intro h
      constructor
      · rintro ⟨payload, hpayload⟩
        exact ⟨payload, h payload hpayload, hpayload⟩
      · rintro ⟨payload, -, hpayload⟩
        exact ⟨payload, hpayload⟩
  · intro payload hpayload hplain
    exact ⟨ofText payload, readLine_of_isPayload ds hpayload (ofPayload_of_unmarked hplain) n,
      (form_value_ofText payload).1⟩
  · intro payload text j hpayload hm hj
    refine readLine_of_isPayload ds hpayload ?_ n
    rw [ofPayload_of_isMeasurement hm, hj]
    rfl
  · rintro payload ⟨hpayload, text, hm, hbroken⟩
    exact readLine_of_broken ds hpayload hm hbroken n

theorem details_fail_at_openArray :
    let read (line : String) := (Section.details []).readLine line 3
    (∃ e, read "a TinderboxPrint: TalosResult:: [1" =
      (.details [], some ⟨"TalosResult", 3, e⟩)) ∧
    (∃ d, read "TinderboxPrint: Talos<br/>Result: [" = (.details [d], none) ∧
      (d.form = .link ∨ d.form = .rawHtml)) ∧
    read "TinderboxPrint:TalosResult null" =
      (.details [⟨.measurement, some "TalosResult", .null, none⟩], none) := by
  intro read
  have hopen (j : Json) : Json.parse "[1" ≠ .ok j := by
    have herror : (Json.parse "[1").toOption.isSome = false := by decide +kernel
    intro hj
    rw [hj] at herror
    contradiction
  have hnull : Json.parse "null" = .ok .null := rfl
  refine ⟨?_, ?_, ?_⟩
  · obtain ⟨-, -, -, -, hfails, -⟩ :=
      details_fail_at_measurements [] "a TinderboxPrint: TalosResult:: [1" 3
    refine hfails "TalosResult:: [1".toList ⟨?_, "[1".toList, ?_, hopen⟩
    · exact ⟨"a ".toList, " TalosResult:: [1".toList, by decide, by decide, by decide⟩
    · exact ⟨"::".toList, " [1".toList, by decide, by simp, by decide, by decide⟩
  · obtain ⟨-, -, hadds, -⟩ :=
      details_fail_at_measurements [] "TinderboxPrint: Talos<br/>Result: [" 3
    refine hadds "Talos<br/>Result: [".toList ?_ (by decide)
    exact ⟨[], " Talos<br/>Result: [".toList, by decide, by decide, by decide⟩
  · obtain ⟨-, -, -, hadds, -⟩ :=
      details_fail_at_measurements [] "TinderboxPrint:TalosResult null" 3
    refine hadds "TalosResult null".toList "null".toList .null ?_ ?_ hnull
    · exact ⟨[], "TalosResult null".toList, by decide, by decide, by decide⟩
    · exact ⟨[], " null".toList, by decide, List.forall_mem_nil _, by decide, by decide⟩

theorem title_fails_without_colon :
    let line := "TinderboxPrint: TalosResultSummary<br/>ok"
    ¬ (((Section.details []).readLine line 0).2.isSome = true ↔
      ∃ payload, "TalosResult:".toList <+: payload ∧ IsPayload line payload ∧
        ∃ text, IsMeasurement payload text ∧ IsBroken text) := by
  intro line h
  have hfails : ((Section.details []).readLine line 0).2.isSome = true := by decide +kernel
  have hpayload : IsPayload line "TalosResultSummary<br/>ok".toList :=
    ⟨[], " TalosResultSummary<br/>ok".toList, by decide, by decide, by decide⟩
  obtain ⟨payload, hcolon, hother, -⟩ := h.mp hfails
  rw [← hpayload.unique hother] at hcolon
  exact absurd hcolon (by decide)

end BuildLog.DetailLine
