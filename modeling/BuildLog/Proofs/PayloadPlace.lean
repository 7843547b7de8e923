import BuildLog.Proofs.FirstPayload
import BuildLog.Proofs.PrettyText
import BuildLog.Proofs.TruncationLaws

namespace BuildLog
open Text

namespace Measurements

/-- Whether an array stands in a text after a marker that has the given text before it. It goes from
a bracket to a bracket without a line feed between them, and has blanks alone on either side: before
it up to the marker, and after it up to the end. -/
def ArrayAt (text before array : List Char) : Prop :=
  ∃ gap inside rest, text = before ++ (marker ++ (gap ++ (array ++ rest))) ∧
    array = '[' :: inside ++ [']'] ∧ '\n' ∉ inside ∧
    (∀ c ∈ gap, isBlank c = true) ∧ ∀ c ∈ rest, isBlank c = true

/-- Whether of all arrays that stand in a text after a marker this one has the leftmost marker. -/
def LeftmostArray (text array : List Char) : Prop :=
  ∃ before, ArrayAt text before array ∧
    ∀ before' array', ArrayAt text before' array' → before.length ≤ before'.length

theorem lastBracket?_eq_some_iff {s : List Char} :
    lastBracket? s = some () ↔ ∃ rest, s = ']' :: rest ∧ ∀ c ∈ rest, isBlank c = true := by
  unfold lastBracket?
  constructor
  · intro h
    split at h
    · rename_i rest
      split at h
      · rename_i hrest
        exact ⟨rest, rfl, List.all_eq_true.mp hrest⟩
      · contradiction
    · contradiction
  · rintro ⟨rest, rfl, hrest⟩
    exact if_pos (List.all_eq_true.mpr hrest)

theorem lastBracket?_of_blank {s : List Char} (h : ∀ c ∈ s, isBlank c = true) :
    lastBracket? s = none := by
  rw [Option.eq_none_iff_forall_ne_some]
  intro x hx
  obtain ⟨rest, rfl, -⟩ := lastBracket?_eq_some_iff.mp hx
  have hbracket : isBlank ']' = true := h ']' List.mem_cons_self
  contradiction

theorem arrayText?_eq_some_iff {s array : List Char} :
    arrayText? s = some array ↔
      ∃ inside rest, s = array ++ rest ∧ array = '[' :: inside ++ [']'] ∧ '\n' ∉ inside ∧
        ∀ c ∈ rest, isBlank c = true := by
  unfold arrayText?
  constructor
  · intro h
    split at h
    · rename_i r
      obtain ⟨⟨inside, x⟩, hx, rfl⟩ := Option.map_eq_some_iff.mp h
      obtain ⟨t, rfl, hinside, ht, -⟩ := longest?_eq_some_iff.mp hx
      obtain ⟨rest, rfl, hrest⟩ := lastBracket?_eq_some_iff.mp ht
      exact ⟨inside, rest, by simp, rfl, all_inLine_iff.mp hinside, hrest⟩
    · contradiction
  · rintro ⟨inside, rest, rfl, rfl, hinside, hrest⟩
    have hlongest : longest? inLine lastBracket? (inside ++ ']' :: rest) = some (inside, ()) := by
      refine longest?_eq_some_iff.mpr ⟨']' :: rest, rfl, all_inLine_iff.mpr hinside,
        lastBracket?_eq_some_iff.mpr ⟨rest, rfl, hrest⟩, ?_⟩
      -- only blanks come after the bracket, and none of them is another one
      intro m r hm hne _
      obtain ⟨d, m, rfl⟩ := List.exists_cons_of_ne_nil hne
      rw [List.cons_append, List.cons.injEq] at hm
      apply lastBracket?_of_blank
      intro c hc
      exact hrest c (by rw [hm.2]; exact List.mem_append_right m hc)
    simp [hlongest]

theorem arrayAfter_iff {s array : List Char} :
    ((after? marker s).bind fun r => arrayText? (trimStart r)) = some array ↔
      ArrayAt s [] array := by
  rw [Option.bind_eq_some_iff]
  constructor
  · rintro ⟨r, hr, harray⟩
    obtain ⟨inside, rest, hrest, hbrackets, hinside, hblank⟩ := arrayText?_eq_some_iff.mp harray
    refine ⟨r.takeWhile isBlank, inside, rest, ?_, hbrackets, hinside, ?_, hblank⟩
    · rw [List.nil_append, ← hrest, trimStart, List.takeWhile_append_dropWhile]
      exact after?_eq_some_iff.mp hr
    · exact List.all_eq_true.mp List.all_takeWhile
  · rintro ⟨gap, inside, rest, rfl, hbrackets, hinside, hgap, hblank⟩
    refine ⟨_, after?_append marker _, ?_⟩
    have htrim : trimStart (gap ++ (array ++ rest)) = array ++ rest := by
      rw [trimStart_append hgap, hbrackets]
      exact trimStart_cons (by decide) _
    rw [htrim]
    exact arrayText?_eq_some_iff.mpr ⟨inside, rest, rfl, hbrackets, hinside, hblank⟩

theorem arrayAt_append {before r array : List Char} :
    ArrayAt r [] array → ArrayAt (before ++ r) before array := by
  rintro ⟨gap, inside, rest, rfl, h⟩
  exact ⟨gap, inside, rest, rfl, h⟩

theorem exists_of_arrayAt {text before array : List Char} (h : ArrayAt text before array) :
    ∃ r, text = before ++ r ∧ ArrayAt r [] array := by
  obtain ⟨gap, inside, rest, rfl, h⟩ := h
  exact ⟨_, rfl, gap, inside, rest, rfl, h⟩

theorem payload?_eq_some_iff {line : String} {array : List Char} :
    payload? line = some array ↔ LeftmostArray line.toList array := by
  rw [payload?, first?_eq_map_shortest?, Option.map_eq_some_iff]
  constructor
  · rintro ⟨⟨before, a⟩, hshortest, rfl⟩
    obtain ⟨r, hline, -, hr, hfirst⟩ := shortest?_eq_some_iff_length.mp hshortest
    refine ⟨before, hline ▸ arrayAt_append (arrayAfter_iff.mp hr), ?_⟩
    intro before' array' harray'
    obtain ⟨r', hline', hr'⟩ := exists_of_arrayAt harray'
    by_contra hlt
    have hnone := hfirst before' r' hline' (by omega)
    rw [arrayAfter_iff.mpr hr'] at hnone
    contradiction
  · rintro ⟨before, harray, hfirst⟩
    obtain ⟨r, hline, hr⟩ := exists_of_arrayAt harray
    refine ⟨(before, array), shortest?_eq_some_iff_length.mpr ⟨r, hline, by simp,
      arrayAfter_iff.mpr hr, ?_⟩, rfl⟩
    intro before' r' hline' hlt
    rw [Option.eq_none_iff_forall_ne_some]
    intro array' harray'
    have hle := hfirst before' array' (hline' ▸ arrayAt_append (arrayAfter_iff.mp harray'))
    omega

theorem payload?_eq_none_iff {line : String} :
    payload? line = none ↔ ∀ before array, ¬ ArrayAt line.toList before array := by
  rw [payload?, first?_eq_none_iff]
  constructor
  · intro h before array harray
    obtain ⟨r, hline, hr⟩ := exists_of_arrayAt harray
    have hnone := h r (hline ▸ List.suffix_append before r)
    rw [arrayAfter_iff.mpr hr] at hnone
    contradiction
  · rintro h r ⟨before, hline⟩
    rw [Option.eq_none_iff_forall_ne_some]
    intro array harray
    exact h before array (hline ▸ arrayAt_append (arrayAfter_iff.mp harray))

theorem readLine_of_payload {m : Measurements} (hm : m.isComplete = false) {line : String}
    {array : List Char} (h : payload? line = some array) (n : Nat) :
    m.readLine line n =
      match Json.parseArray (String.ofList array) with
      | .ok records => (⟨records, true⟩, none)
      | .error e => (m, some ⟨Truncation.dataMarker, n, e⟩) := by
  rw [readLine, hm, h]
  rfl

theorem readLine_eq_self_iff {m : Measurements} (hm : m.isComplete = false) (line : String)
    (n : Nat) : m.readLine line n = (m, none) ↔ payload? line = none := by
  cases hp : payload? line with
  | none => simp [readLine, hm, hp]
  | some array =>
    rw [readLine_of_payload hm hp]
    cases Json.parseArray (String.ofList array) with
    | ok records =>
      simp only [reduceCtorEq, iff_false]
      intro h
      have hcomplete := congrArg (fun x => x.1.isComplete) h
      rw [hm] at hcomplete
      contradiction
    | error e => simp

end Measurements

namespace Json

/-- The text of an array goes from a bracket to a bracket on one line. -/
theorem exists_inside_compactText (js : List Json) :
    ∃ inside, compactText (array js) = '[' :: inside ++ [']'] ∧ '\n' ∉ inside := by
  obtain ⟨inside, hinside⟩ : ∃ inside, compactText (array js) = '[' :: inside ++ [']'] := by
    cases js with
    | nil => exact ⟨[], by rw [compactText]; rfl⟩
    | cons j js =>
      obtain ⟨s, hs⟩ := exists_compactElements js
      exact ⟨compactText j ++ s, by rw [compactText, hs]; simp⟩
  refine ⟨inside, hinside, ?_⟩
  have hfree := lineFeed_not_mem_compactText (array js)
  intro hmem
  rw [hinside] at hfree
  exact hfree (List.mem_append_left _ (List.mem_cons_of_mem '[' hmem))

theorem parseArray_of_rearranged {js : List Json} {k : Json} (hwell : (array js).WellFormed)
    (hplain : Plain maxDepth (array js)) (hk : (array js).Rearranged k) :
    parseArray k.compact = .ok js := by
  obtain ⟨ks, rfl, -⟩ := rearranged_array hk
  obtain ⟨inside, hinside, -⟩ := exists_inside_compactText ks
  have hparse : parse (array ks).compact = .ok (array js) :=
    readAll_of_reads (readsBack_readValue hplain hwell _ hk)
  have hbracket := parse_of_bracket (inside ++ [']'])
  rw [← List.cons_append, ← hinside] at hbracket
  change parse (array ks).compact = (parseArray (array ks).compact).map array at hbracket
  rw [hparse] at hbracket
  cases hread : parseArray (array ks).compact with
  | error e =>
    rw [hread] at hbracket
    contradiction
  | ok js' =>
    rw [hread] at hbracket
    obtain rfl : js = js' := Json.array.inj (Except.ok.inj hbracket)
    rfl

end Json

namespace Measurements

/-- Whether the text of a value is written on a line after the first marker of the line, with blanks
alone on either side. -/
def IsWritten (line : String) (j : Json) : Prop :=
  ∃ before gap rest, line.toList = before ++ (marker ++ (gap ++ (j.compact.toList ++ rest))) ∧
    ¬ marker <:+: before ∧ (∀ c ∈ gap, isBlank c = true) ∧ ∀ c ∈ rest, isBlank c = true

theorem marker_eq : marker = Truncation.dataMarker.toList ++ [':'] := String.toList_append

/-- The first marker of a text is the leftmost one that an array follows, if one follows it. -/
theorem leftmostArray_of_arrayAt {text before array : List Char} (h : ArrayAt text before array)
    (hbefore : ¬ marker <:+: before) : LeftmostArray text array := by
  refine ⟨before, h, ?_⟩
  intro before' array' h'
  obtain ⟨gap, inside, rest, rfl, -⟩ := h
  obtain ⟨gap', inside', rest', htext, -⟩ := h'
  have hlast : ':' ∉ Truncation.dataMarker.toList := by decide
  by_contra hlt
  obtain ⟨m, hm, -⟩ | ⟨m, hm, hword⟩ := List.append_eq_append_iff.mp htext
  · rw [hm, List.length_append] at hlt
    omega
  · have hne : m ≠ [] := by
      rintro rfl
      rw [hm, List.append_nil] at hlt
      omega
    have hbegins : marker <+: m ++ (marker ++ (gap ++ (array ++ rest))) :=
      ⟨_, hword⟩
    rw [marker_eq] at hbegins
    have hinside := isPrefix_of_append_last hlast hne hbegins
    rw [← marker_eq] at hinside
    exact hbefore (hm ▸ hinside.isInfix.trans (List.suffix_append before' m).isInfix)

theorem payload?_of_isWritten {line : String} {js : List Json}
    (h : IsWritten line (.array js)) :
    payload? line = some (Json.compactText (.array js)) := by
  obtain ⟨before, gap, rest, hline, hbefore, hgap, hrest⟩ := h
  obtain ⟨inside, hinside, hfree⟩ := Json.exists_inside_compactText js
  rw [Json.compact, String.toList_ofList] at hline
  exact payload?_eq_some_iff.mpr (leftmostArray_of_arrayAt
    ⟨gap, inside, rest, hline, hinside, hfree, hgap, hrest⟩ hbefore)

theorem marker_isInfix_of_isWritten {line : String} {j : Json} (h : IsWritten line j) :
    Truncation.dataMarker.toList <:+: line.toList := by
  obtain ⟨before, gap, rest, hline, -⟩ := h
  refine ⟨before, [':'] ++ (gap ++ (j.compact.toList ++ rest)), ?_⟩
  rw [hline, marker_eq]
  simp only [List.append_assoc]

theorem readLine_of_isWritten {m : Measurements} (hm : m.isComplete = false) {line : String}
    {records : List Json} {k : Json} (hwell : (Json.array records).WellFormed)
    (hplain : Json.Plain Json.maxDepth (.array records)) (hk : (Json.array records).Rearranged k)
    (hline : IsWritten line k) (n : Nat) : m.readLine line n = (⟨records, true⟩, none) := by
  have hparse := Json.parseArray_of_rearranged hwell hplain hk
  obtain ⟨ks, rfl, -⟩ := Json.rearranged_array hk
  rw [Json.compact] at hparse
  rw [readLine_of_payload hm (payload?_of_isWritten hline), hparse]

end Measurements

namespace Session
open Measurements

theorem readLine_of_isWritten {s : Session} {m : Measurements}
    (hs : s.sections = [.measurements m]) (hm : m.isComplete = false)
    (hmarkers : Truncation.dataMarker ∈ s.truncation.markers) {line : String}
    {records : List Json} {k : Json} (hwell : (Json.array records).WellFormed)
    (hplain : Json.Plain Json.maxDepth (.array records)) (hk : (Json.array records).Rearranged k)
    (hline : IsWritten line k) :
    s.readLine line =
      ({ s with sections := [.measurements ⟨records, true⟩], lineNumber := s.lineNumber + 1 },
        none) := by
  have hwhole : s.truncation.cut line = line :=
    Truncation.cut_of_isInfix hmarkers (marker_isInfix_of_isWritten hline)
  simp only [readLine, hwhole, hs, dispatch_singleton, Section.readLine,
    Measurements.readLine_of_isWritten hm hwell hplain hk hline]

end Session
end BuildLog
