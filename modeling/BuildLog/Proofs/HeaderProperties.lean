import BuildLog.Proofs.HeaderEnd

namespace BuildLog.Header
open Text

/-- Whether a line is a property: a key of lower-case letters, a colon and a space, and a value up
to the end of the line. The value may be empty, and may hold a colon and a space itself. -/
structure IsProperty (line key value : String) : Prop where
  named : key ≠ ""
  lowercase : ∀ c ∈ key.toList, 'a' ≤ c ∧ c ≤ 'z'
  oneLine : '\n' ∉ value.toList
  line_eq : line = key ++ ": " ++ value

/-- Whether the last property of that key among some lines has that value. -/
def IsLast (lines : List String) (key value : String) : Prop :=
  ∃ before line after, lines = before ++ line :: after ∧ IsProperty line key value ∧
    ∀ later ∈ after, ∀ other, ¬ IsProperty later key other

/-- The lines before the one that ends the header. -/
def leading (lines : List String) : List String := lines.takeWhile fun line => !isEnd line

theorem isEnd_iff {line : String} :
    isEnd line = true ↔ StepMarker.startedWord.toList <+: line.toList :=
  List.isPrefixOf_iff_prefix

theorem isLowercase_iff {c : Char} : isLowercase c = true ↔ 'a' ≤ c ∧ c ≤ 'z' := by
  rw [isLowercase, Bool.and_eq_true, decide_eq_true_eq, decide_eq_true_eq]

theorem property?_eq_some_iff {line key value : String} :
    property? line = some (key, value) ↔ IsProperty line key value := by
  unfold property?
  constructor
  · intro h
    dsimp only at h
    split at h
    · contradiction
    · rename_i hnamed
      split at h
      · contradiction
      · rename_i rest hrest
        rw [after?_eq_some_iff, drop_length_takeWhile] at hrest
        split at h
        · rename_i hvalue
          obtain ⟨rfl, rfl⟩ := Prod.mk.inj (Option.some.inj h)
          refine ⟨?_, ?_, ?_, ?_⟩
          · intro hkey
            have hempty := congrArg String.toList hkey
            rw [String.toList_ofList] at hempty
            exact hnamed (by rw [hempty]; rfl)
          · intro c hc
            rw [String.toList_ofList] at hc
            exact isLowercase_iff.mp (List.all_eq_true.mp List.all_takeWhile c hc)
          · rw [String.toList_ofList]
            exact all_inLine_iff.mp hvalue
          · apply String.toList_injective
            have hline := List.takeWhile_append_dropWhile (p := isLowercase) (l := line.toList)
            rw [hrest] at hline
            simp only [String.toList_append, String.toList_ofList, List.append_assoc]
            exact hline.symm
        · contradiction
  · rintro ⟨hnamed, hkey, hvalue, rfl⟩
    have hline : (key ++ ": " ++ value).toList = key.toList ++ ([':', ' '] ++ value.toList) := by
      simp
    have hlower : ∀ c ∈ key.toList, isLowercase c = true := fun c hc =>
      isLowercase_iff.mpr (hkey c hc)
    -- the colon is no letter, so that the letters in front are the key and nothing else
    have hcolon : ∀ c, ([':', ' '] ++ value.toList).head? = some c → isLowercase c = false := by
      intro c hc
      rw [← Option.some.inj hc]
      decide
    have hne : key.toList.isEmpty = false := by simpa using hnamed
    dsimp only
    rw [hline, takeWhile_of_run hlower hcolon, List.drop_left, hne, after?_append]
    simp only [all_inLine_iff.mpr hvalue, if_true, Bool.false_eq_true, if_false,
      String.ofList_toList]

theorem IsProperty.unique {line key value key' value' : String} (h : IsProperty line key value)
    (h' : IsProperty line key' value') : key = key' ∧ value = value' := by
  rw [← property?_eq_some_iff] at h h'
  rw [h] at h'
  exact Prod.mk.inj (Option.some.inj h')

theorem readLine_of_leading {h : Header} (hc : h.isComplete = false) {line : String}
    (hend : isEnd line = false) :
    h.readLine line =
      { h with
        properties :=
          (property? line).elim h.properties fun e => h.properties.insert e.1 e.2 } := by
  rw [readLine, if_neg (by simp [hc]), if_neg (by simp [hend])]
  cases property? line <;> rfl

theorem readAll_eq {h : Header} (hc : h.isComplete = false) (lines : List String) :
    h.readAll lines =
      ⟨((leading lines).filterMap property?).foldl (fun d e => d.insert e.1 e.2) h.properties,
        lines.any isEnd⟩ := by
  induction lines generalizing h with
  | nil =>
    obtain ⟨properties, complete⟩ := h
    obtain rfl : complete = false := hc
    rfl
  | cons line lines ih =>
    rw [readAll_cons]
    cases hend : isEnd line with
    | true =>
      rw [readLine_of_isEnd h hend, readAll_of_isComplete rfl, leading,
        List.takeWhile_cons_of_neg (by simp [hend]), List.any_cons, hend]
      rfl
    | false =>
      have hleading : leading (line :: lines) = line :: leading lines :=
        List.takeWhile_cons_of_pos (by simp [hend])
      have hstill : (h.readLine line).isComplete = false := by
        rw [readLine_of_leading hc hend, ← hc]
      rw [ih hstill, readLine_of_leading hc hend, hleading, List.filterMap_cons, List.any_cons,
        hend, Bool.false_or]
      cases property? line <;> rfl

theorem readAll_empty_eq (lines : List String) :
    empty.readAll lines =
      ⟨Dictionary.ofList ((leading lines).filterMap property?), lines.any isEnd⟩ :=
  readAll_eq rfl lines

/-- A further line tells the value of its own key and of no other one. -/
theorem isLast_concat_iff {lines : List String} {line key value : String} :
    IsLast (lines ++ [line]) key value ↔
      IsProperty line key value ∨
        (∀ other, ¬ IsProperty line key other) ∧ IsLast lines key value := by
  constructor
  · rintro ⟨before, found, after, hsplit, hfound, hlater⟩
    obtain rfl | ⟨after, last, rfl⟩ := List.eq_nil_or_concat after
    · obtain ⟨-, hline⟩ := List.append_inj' hsplit rfl
      obtain rfl := List.head_eq_of_cons_eq hline
      exact .inl hfound
    · rw [List.concat_eq_append] at hsplit hlater
      rw [← List.cons_append, ← List.append_assoc] at hsplit
      obtain ⟨rfl, hline⟩ := List.append_inj' hsplit rfl
      obtain rfl := List.head_eq_of_cons_eq hline
      refine .inr ⟨hlater line (by simp), before, found, after, rfl, hfound, ?_⟩
      exact fun later hmem => hlater later (List.mem_append_left _ hmem)
  · rintro (hline | ⟨hline, before, found, after, rfl, hfound, hlater⟩)
    · exact ⟨lines, line, [], rfl, hline, fun _ hmem => absurd hmem List.not_mem_nil⟩
    · refine ⟨before, found, after ++ [line], by simp, hfound, ?_⟩
      intro later hmem
      obtain hmem | hmem := List.mem_append.mp hmem
      · exact hlater later hmem
      · obtain rfl := List.mem_singleton.mp hmem
        exact hline

theorem get?_properties_iff {lines : List String} {key value : String} :
    Dictionary.get? (Dictionary.ofList (lines.filterMap property?)) key = some value ↔
      IsLast lines key value := by
  induction lines using List.reverseRecOn with
  | nil =>
    constructor
    · intro h
      cases h
    · rintro ⟨before, line, after, hsplit, -⟩
      simp at hsplit
  | append_singleton lines line ih =>
    rw [isLast_concat_iff, ← ih, Dictionary.ofList, List.filterMap_append, List.foldl_append,
      ← Dictionary.ofList]
    cases hline : property? line with
    | none =>
      have hno (k v : String) : ¬ IsProperty line k v := by
        rw [← property?_eq_some_iff, hline]
        exact (Option.some_ne_none _).symm
      simp [hline, hno]
    | some e =>
      obtain ⟨name, v⟩ := e
      have hname := property?_eq_some_iff.mp hline
      simp only [List.filterMap_cons, hline, List.filterMap_nil, List.foldl_cons, List.foldl_nil,
        Dictionary.get?_insert]
      by_cases hkey : name = key
      · subst hkey
        rw [if_pos rfl, Option.some.injEq]
        constructor
        · rintro rfl
          exact .inl hname
        · rintro (h | ⟨h, -⟩)
          · exact (hname.unique h).2
          · exact absurd hname (h v)
      · have hother (u : String) : ¬ IsProperty line key u := fun h => hkey (hname.unique h).1
        rw [if_neg hkey]
        simp [hother]

theorem isComplete_readAll_iff (lines : List String) :
    (empty.readAll lines).isComplete = true ↔
      ∃ line ∈ lines, StepMarker.startedWord.toList <+: line.toList := by
  rw [readAll_empty_eq, List.any_eq_true]
  simp only [isEnd_iff]

theorem get?_artifact (h : Header) (key : String) :
    Dictionary.get? (h.properties.map fun e => (e.1, Json.string e.2)) key =
      (h.get? key).map .string := by
  rw [get?, Dictionary.get?, Dictionary.get?, List.find?_map, Option.map_map, Option.map_map]
  rfl

/-- The header is complete once a line begins as the start of a step does. Its section has one entry
for each key among the properties before that line, with the value of the last one, and no other
entry. From that line on nothing changes it. -/
theorem header_has_last_properties (lines : List String) :
    ((empty.readAll lines).isComplete = true ↔
      ∃ line ∈ lines, StepMarker.startedWord.toList <+: line.toList) ∧
    (∃ entries : Dictionary Json,
      (Section.header (empty.readAll lines)).artifact = .object entries ∧
      entries.Ascends ∧ ∀ key j, entries.get? key = some j ↔
        ∃ value, j = .string value ∧
          IsLast (lines.takeWhile fun line => !isEnd line) key value) ∧
    (∀ line key value key' value', IsProperty line key value → IsProperty line key' value' →
      key = key' ∧ value = value') ∧
    ((∃ line ∈ lines, StepMarker.startedWord.toList <+: line.toList) →
      ∀ later, (empty.readAll lines).readAll later = empty.readAll lines) := by
  have hread : empty.readAll lines =
      ⟨Dictionary.ofList ((leading lines).filterMap property?), lines.any isEnd⟩ :=
    readAll_empty_eq lines
  have hcomplete := isComplete_readAll_iff lines
  refine ⟨hcomplete, ⟨_, rfl, ?_, ?_⟩, fun _ _ _ _ _ => IsProperty.unique, ?_⟩
  · have hascends : (empty.readAll lines).properties.Ascends := by
      rw [hread]
      exact Dictionary.ascends_ofList _
    rwa [Dictionary.Ascends, List.map_map]
  · intro key j
    rw [get?_artifact, Option.map_eq_some_iff, get?, hread]
    dsimp only
    refine exists_congr fun value => ?_
    rw [get?_properties_iff, and_comm, eq_comm]
    rfl
  · intro hend later
    exact readAll_of_isComplete (hcomplete.mpr hend) later

def repeatedKey : List String :=
  ["slave: a", "slave: b: c", "builder: ", "Slave: d", "========= Started", "slave: e"]

theorem header_has_repeatedKey :
    let h := empty.readAll repeatedKey
    h.isComplete = true ∧ (∀ later, h.readAll later = h) ∧
      ∃ entries : Dictionary Json, (Section.header h).artifact = .object entries ∧
        entries.get? "slave" = some (.string "b: c") ∧ entries.get? "Slave" = none := by
  intro h
  obtain ⟨hcomplete, ⟨entries, hentries, -, hget⟩, -, hstay⟩ :=
    header_has_last_properties repeatedKey
  have hend : ∃ line ∈ repeatedKey, StepMarker.startedWord.toList <+: line.toList :=
    ⟨"========= Started", by simp [repeatedKey], List.prefix_rfl⟩
  have hlast : IsLast (repeatedKey.takeWhile fun line => !isEnd line) "slave" "b: c" := by
    rw [← get?_properties_iff]
    decide +kernel
  refine ⟨hcomplete.mpr hend, hstay hend, entries, hentries, ?_, ?_⟩
  · exact (hget "slave" _).mpr ⟨"b: c", rfl, hlast⟩
  · rw [Option.eq_none_iff_forall_ne_some]
    intro j hj
    obtain ⟨value, -, before, line, after, -, hproperty, -⟩ := (hget "Slave" j).mp hj
    have hlower := hproperty.lowercase 'S' (by decide)
    exact absurd hlower.1 (by decide)

end BuildLog.Header
