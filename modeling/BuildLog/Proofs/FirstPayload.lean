import BuildLog.Proofs.SessionRun

namespace BuildLog

namespace Json

theorem skip_bracket (s : List Char) : skip ('[' :: s) = '[' :: s := rfl

theorem readValue_of_bracket (depth : Nat) (s : List Char) :
    readValue (depth + 1) ('[' :: s) =
      (readElements (readValue depth) s).map fun x => (array x.1, x.2) := by
  rw [readValue]
  simp only [readValueWith, skip_bracket]
  cases readElements (readValue depth) s <;> rfl

theorem parse_of_bracket (s : List Char) :
    parse (String.ofList ('[' :: s)) = (parseArray (String.ofList ('[' :: s))).map array := by
  have hvalue : readValue maxDepth ('[' :: s) =
      (readElements (readValue (maxDepth - 1)) s).map fun x => (array x.1, x.2) :=
    readValue_of_bracket (maxDepth - 1) s
  simp only [parse, parseArray, readAll, String.toList_ofList, hvalue, skip_bracket]
  cases readElements (readValue (maxDepth - 1)) s with
  | error e => rfl
  | ok x =>
    simp only [Except.map]
    cases skip x.2 <;> rfl

end Json

namespace Measurements
open Text

/-- The records of a line: its payload, if it has one that is a JSON array. -/
def records? (line : String) : Option (List Json) :=
  match (payload? line).map fun payload => Json.parse (String.ofList payload) with
  | some (.ok (.array records)) => some records
  | _ => none

def readAll (m : Measurements) (lines : List (String × Nat)) : Measurements :=
  lines.foldl (fun m x => (m.readLine x.1 x.2).1) m

theorem exists_bracket_of_payload? {line : String} {payload : List Char}
    (h : payload? line = some payload) : ∃ s, payload = '[' :: s := by
  obtain ⟨_, r, -, hr⟩ := first?_eq_some h
  obtain ⟨rest, -, htext⟩ := Option.bind_eq_some_iff.mp hr
  unfold arrayText? at htext
  split at htext
  · obtain ⟨x, -, rfl⟩ := Option.map_eq_some_iff.mp htext
    exact ⟨_, rfl⟩
  · exact absurd htext.symm (Option.some_ne_none _)

theorem parse_payload {line : String} {payload : List Char} (h : payload? line = some payload) :
    Json.parse (String.ofList payload) =
      (Json.parseArray (String.ofList payload)).map Json.array := by
  obtain ⟨s, rfl⟩ := exists_bracket_of_payload? h
  exact Json.parse_of_bracket s

theorem payload?_of_records? {line : String} {records : List Json}
    (h : records? line = some records) : ∃ payload, payload? line = some payload := by
  cases hp : payload? line with
  | none => simp [records?, hp] at h
  | some payload => exact ⟨payload, rfl⟩

theorem records?_of_payload? {line : String} {payload : List Char}
    (h : payload? line = some payload) :
    records? line = (Json.parseArray (String.ofList payload)).toOption := by
  rw [records?, h, Option.map_some, parse_payload h]
  cases Json.parseArray (String.ofList payload) <;> rfl

theorem readLine_empty (line : String) (n : Nat) :
    empty.readLine line n =
      match payload? line with
      | none => (empty, none)
      | some payload =>
        match Json.parseArray (String.ofList payload) with
        | .ok records => (⟨records, true⟩, none)
        | .error e => (empty, some ⟨Truncation.dataMarker, n, e⟩) := rfl

theorem readLine_of_no_payload {line : String} (h : payload? line = none) (n : Nat) :
    empty.readLine line n = (empty, none) := by
  rw [readLine_empty, h]

theorem readLine_of_malformed {line : String} {payload : List Char}
    (hp : payload? line = some payload) (hr : records? line = none) (n : Nat) :
    ∃ e, Json.parse (String.ofList payload) = .error e ∧
      empty.readLine line n = (empty, some ⟨Truncation.dataMarker, n, e⟩) := by
  rw [records?_of_payload? hp] at hr
  rw [parse_payload hp, readLine_empty, hp]
  cases h : Json.parseArray (String.ofList payload) with
  | error e => exact ⟨e, rfl, by simp only [h]⟩
  | ok records =>
    rw [h] at hr
    exact absurd hr (Option.some_ne_none records)

theorem readLine_of_records {line : String} {records : List Json}
    (h : records? line = some records) (n : Nat) :
    empty.readLine line n = (⟨records, true⟩, none) := by
  obtain ⟨payload, hp⟩ := payload?_of_records? h
  rw [records?_of_payload? hp] at h
  rw [readLine_empty, hp]
  cases hparse : Json.parseArray (String.ofList payload) with
  | error e =>
    rw [hparse] at h
    exact absurd h.symm (Option.some_ne_none records)
  | ok records' =>
    rw [hparse] at h
    obtain rfl : records' = records := Option.some.inj h
    simp only [hparse]

/-- Only a payload that is an array has an effect. -/
theorem readLine_empty_of_no_records {line : String} (h : records? line = none) (n : Nat) :
    (empty.readLine line n).1 = empty := by
  cases hp : payload? line with
  | none => rw [readLine_of_no_payload hp]
  | some payload =>
    obtain ⟨e, -, hread⟩ := readLine_of_malformed hp h n
    rw [hread]

theorem readAll_cons (m : Measurements) (x : String × Nat) (lines : List (String × Nat)) :
    m.readAll (x :: lines) = (m.readLine x.1 x.2).1.readAll lines := rfl

theorem readAll_append (m : Measurements) (lines rest : List (String × Nat)) :
    m.readAll (lines ++ rest) = (m.readAll lines).readAll rest := List.foldl_append

theorem readAll_of_isComplete {m : Measurements} (h : m.isComplete = true)
    (lines : List (String × Nat)) : m.readAll lines = m := by
  induction lines with
  | nil => rfl
  | cons x lines ih => rw [readAll_cons, readLine_of_isComplete h, ih]

theorem readAll_empty {lines : List (String × Nat)} (h : ∀ x ∈ lines, records? x.1 = none) :
    empty.readAll lines = empty := by
  induction lines with
  | nil => rfl
  | cons x lines ih =>
    have hx : records? x.1 = none := h x List.mem_cons_self
    rw [readAll_cons, readLine_empty_of_no_records hx]
    exact ih fun y hy => h y (List.mem_cons_of_mem x hy)

theorem readAll_of_first {front : List (String × Nat)} (h : ∀ y ∈ front, records? y.1 = none)
    {line : String} {records : List Json} (hline : records? line = some records) (n : Nat)
    (back : List (String × Nat)) :
    empty.readAll (front ++ (line, n) :: back) = ⟨records, true⟩ := by
  rw [readAll_append, readAll_empty h, readAll_cons, readLine_of_records hline]
  exact readAll_of_isComplete rfl back

theorem no_records_of_sublist {kept lines : List (String × Nat)}
    (hkept : (kept.map Prod.fst).Sublist (lines.map Prod.fst))
    (h : ∀ x ∈ lines, records? x.1 = none) : ∀ x ∈ kept, records? x.1 = none := by
  intro x hx
  obtain ⟨y, hy, hxy⟩ := List.mem_map.mp (hkept.subset (List.mem_map_of_mem hx))
  rw [← hxy]
  exact h y hy

/-- The records are those of the first line whose payload is a JSON array. A line before it fails
if it has a payload, under its own number, and leaves the measurements empty; a line after it does
not fail and changes nothing. Without such a line the measurements are never complete. Deleting
lines other than it, however the rest is numbered, leaves the report as it is. -/
theorem first_payload_wins (front : List (String × Nat))
    (hfront : ∀ x ∈ front, records? x.1 = none) :
    (∀ kept : List (String × Nat), (kept.map Prod.fst).Sublist (front.map Prod.fst) →
      (Section.measurements (empty.readAll kept)).isComplete = false ∧
        (Section.measurements (empty.readAll kept)).artifact = .array []) ∧
    ∀ (line : String) (n : Nat),
      (payload? line = none → (empty.readAll front).readLine line n = (empty, none)) ∧
      (∀ payload, payload? line = some payload → records? line = none →
        ∃ e, Json.parse (String.ofList payload) = .error e ∧
          (empty.readAll front).readLine line n =
            (empty, some ⟨Truncation.dataMarker, n, e⟩)) ∧
      ∀ records, records? line = some records →
        (empty.readAll front).readLine line n = (⟨records, true⟩, none) ∧
        ∀ back : List (String × Nat),
          (∀ later n', (empty.readAll (front ++ (line, n) :: back)).readLine later n' =
            (⟨records, true⟩, none)) ∧
          (Section.measurements (empty.readAll (front ++ (line, n) :: back))).artifact =
            .array records ∧
          ∀ (keptFront keptBack : List (String × Nat)) (n' : Nat),
            (keptFront.map Prod.fst).Sublist (front.map Prod.fst) →
            (keptBack.map Prod.fst).Sublist (back.map Prod.fst) →
            (Section.measurements
              (empty.readAll (keptFront ++ (line, n') :: keptBack))).artifact =
              (Section.measurements (empty.readAll (front ++ (line, n) :: back))).artifact := by
  refine ⟨?_, fun line n => ⟨?_, ?_, ?_⟩⟩
  · intro kept hkept
    rw [readAll_empty (no_records_of_sublist hkept hfront)]
    exact ⟨rfl, rfl⟩
  · intro hp
    rw [readAll_empty hfront]
    exact readLine_of_no_payload hp n
  · intro payload hp hr
    rw [readAll_empty hfront]
    exact readLine_of_malformed hp hr n
  · intro records hline
    refine ⟨?_, fun back => ⟨?_, ?_, ?_⟩⟩
    · rw [readAll_empty hfront]
      exact readLine_of_records hline n
    · intro later n'
      rw [readAll_of_first hfront hline]
      exact readLine_of_isComplete rfl later n'
    · rw [readAll_of_first hfront hline]
      rfl
    · intro keptFront keptBack n' hkept _
      rw [readAll_of_first hfront hline,
        readAll_of_first (no_records_of_sublist hkept hfront) hline]

theorem first_payload_of_four :
    let front := [("TALOSDATA: [oops]", 3)]
    let back := [("TALOSDATA: [2, 3]", 9), ("TALOSDATA: [oops]", 11)]
    (Section.measurements (empty.readAll front)).artifact = .array [] ∧
      ∃ record, records? "TALOSDATA: [1]" = some [record] ∧
        (Section.measurements
          (empty.readAll (front ++ ("TALOSDATA: [1]", 7) :: back))).artifact =
            .array [record] := by
  intro front back
  have hfront : ∀ x ∈ front, records? x.1 = none := by
    intro x hx
    obtain rfl := List.mem_singleton.mp hx
    rw [← Option.isNone_iff_eq_none]
    decide +kernel
  have hlength : (records? "TALOSDATA: [1]").map List.length = some 1 := by decide +kernel
  obtain ⟨records, hline, hone⟩ := Option.map_eq_some_iff.mp hlength
  obtain ⟨record, rfl⟩ := List.length_eq_one_iff.mp hone
  obtain ⟨hnever, hnext⟩ := first_payload_wins front hfront
  obtain ⟨-, hlater⟩ := (hnext "TALOSDATA: [1]" 7).2.2 _ hline
  exact ⟨(hnever front (List.Sublist.refl _)).2, record, hline, (hlater back).2.1⟩

end Measurements
end BuildLog
