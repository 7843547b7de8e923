import BuildLog.Proofs.FeedLines
import BuildLog.Proofs.SectionIndependence

namespace BuildLog
open Text

theorem Section.lineNumber_of_failure? {x : Section} {line : String} {n : Nat} {e : Malformed}
    (h : x.failure? line n = some e) : e.lineNumber = n := by
  rw [failure?_eq] at h
  cases x with
  | header hd => contradiction
  | steps l => contradiction
  | details ds =>
    rw [readLine, DetailLine.read] at h
    cases hp : DetailLine.payload? line with
    | none => simp [hp] at h
    | some payload =>
      cases hd : DetailLine.ofPayload payload with
      | ok d => simp [hp, hd] at h
      | error cause =>
        simp only [hp, hd, Option.some.injEq] at h
        rw [← h]
  | measurements m =>
    have h : (m.readLine line n).2 = some e := h
    rw [Measurements.readLine] at h
    split at h
    · contradiction
    · cases hp : Measurements.payload? line with
      | none => simp [hp] at h
      | some payload =>
        cases hr : Json.parseArray (String.ofList payload) with
        | ok records => simp [hp, hr] at h
        | error cause =>
          simp only [hp, hr, Option.some.injEq] at h
          rw [← h]

theorem Section.failure?_eq_none {x : Section} (h : x.name = "header" ∨ x.name = "step_data")
    (line : String) (n : Nat) : x.failure? line n = none := by
  rw [failure?_eq]
  cases x with
  | header hd => rfl
  | steps l => rfl
  | details ds => simp [name] at h
  | measurements m => simp [name] at h

namespace Session

theorem lineNumber_of_failure {s : Session} {line : String} {e : Malformed}
    (h : (s.readLine line).2 = some e) : e.lineNumber = s.lineNumber := by
  have hfirst : firstFailure? s.sections (s.truncation.cut line) s.lineNumber = some e :=
    (dispatch_snd _ _ _).symm.trans h
  obtain ⟨x, -, hx⟩ := List.exists_of_findSome?_eq_some hfirst
  exact Section.lineNumber_of_failure? hx

/-- Whether line `k` is the first of some lines, read one by one, that fails, and how. -/
structure FailsFirst (s : Session) (lines : List String) (k : Nat) (e : Malformed) : Prop where
  fails : ∃ line, lines[k]? = some line ∧ ((s.before lines k).readLine line).2 = some e
  passes : ∀ j line, j < k → lines[j]? = some line →
    ((s.before lines j).readLine line).2 = none

/-- What reading lines in a row comes to. If none of them fails all of them have been read and
counted. Otherwise the first one that fails is told by its number, and it is the last one that has
been read and counted. -/
structure StopsAtFailure (s : Session) (lines : List String) (after : Session)
    (failure : Option Malformed) : Prop where
  passed : failure = none → (∀ k e, ¬ s.FailsFirst lines k e) ∧
    after = (s.readEach lines).1 ∧ after.lineNumber = s.lineNumber + lines.length
  failed : ∀ e, failure = some e → ∃ k, s.FailsFirst lines k e ∧
    e.lineNumber = s.lineNumber + k ∧ after.lineNumber = s.lineNumber + k + 1 ∧
    after = s.before lines (k + 1)

theorem failsFirst_cons_of_failure {s : Session} {line : String} {e : Malformed}
    (h : (s.readLine line).2 = some e) (lines : List String) :
    s.FailsFirst (line :: lines) 0 e :=
  ⟨⟨line, rfl, h⟩, fun _ _ hj => absurd hj (Nat.not_lt_zero _)⟩

theorem failsFirst_cons_iff {s : Session} {line : String} (h : (s.readLine line).2 = none)
    {lines : List String} {k : Nat} {e : Malformed} :
    s.FailsFirst (line :: lines) (k + 1) e ↔ (s.readLine line).1.FailsFirst lines k e := by
  constructor
  · rintro ⟨hfails, hpasses⟩
    exact ⟨hfails, fun j other hj hother => hpasses (j + 1) other (Nat.succ_lt_succ hj) hother⟩
  · rintro ⟨hfails, hpasses⟩
    refine ⟨hfails, ?_⟩
    intro j other hj hother
    cases j with
    | zero =>
      obtain rfl := Option.some.inj hother
      exact h
    | succ j => exact hpasses j other (Nat.lt_of_succ_lt_succ hj) hother

theorem not_failsFirst_zero {s : Session} {line : String} (h : (s.readLine line).2 = none)
    (lines : List String) (e : Malformed) : ¬ s.FailsFirst (line :: lines) 0 e := by
  rintro ⟨⟨other, hother, hfails⟩, -⟩
  obtain rfl := Option.some.inj hother
  have hsame : (s.readLine line).2 = some e := hfails
  rw [h] at hsame
  contradiction

theorem stopsAtFailure_readLines (s : Session) (lines : List String) :
    s.StopsAtFailure lines (s.readLines lines).1 (s.readLines lines).2 := by
  induction lines generalizing s with
  | nil =>
    refine ⟨fun _ => ⟨?_, rfl, rfl⟩, nofun⟩
    rintro k e ⟨⟨line, hline, -⟩, -⟩
    simp at hline
  | cons line lines ih =>
    have hnumber : (s.readLine line).1.lineNumber = s.lineNumber + 1 := rfl
    cases h : (s.readLine line).2 with
    | some e =>
      rw [readLines_cons_of_failure h]
      refine ⟨nofun, ?_⟩
      rintro e' he
      obtain rfl := Option.some.inj he
      exact ⟨0, failsFirst_cons_of_failure h lines, lineNumber_of_failure h, rfl, rfl⟩
    | none =>
      obtain ⟨hpassed, hfailed⟩ := ih (s.readLine line).1
      rw [readLines_cons_of_none h]
      refine ⟨?_, ?_⟩
      · intro hnone
        obtain ⟨hno, hafter, hcount⟩ := hpassed hnone
        refine ⟨?_, hafter, ?_⟩
        · rintro (_ | k) e hfirst
          · exact not_failsFirst_zero h lines e hfirst
          · exact hno k e ((failsFirst_cons_iff h).mp hfirst)
        · rw [hcount, hnumber, List.length_cons]
          omega
      · intro e he
        obtain ⟨k, hfirst, hline, hcount, hafter⟩ := hfailed e he
        refine ⟨k + 1, (failsFirst_cons_iff h).mpr hfirst, ?_, ?_, hafter⟩
        · rw [hline, hnumber]
          omega
        · rw [hcount, hnumber]
          omega

theorem readLines_of_header_steps {s : Session}
    (h : ∀ x ∈ s.sections, x.name = "header" ∨ x.name = "step_data") (lines : List String) :
    (s.readLines lines).2 = none := by
  induction lines generalizing s with
  | nil => rfl
  | cons line lines ih =>
    have hnone : (s.readLine line).2 = none := by
      have hfirst := dispatch_snd s.sections (s.truncation.cut line) s.lineNumber
      refine hfirst.trans (List.findSome?_eq_none_iff.mpr ?_)
      exact fun x hx => Section.failure?_eq_none (h x hx) _ _
    -- the sections that have read a line still go by the same names
    have hnames : ∀ x ∈ (s.readLine line).1.sections,
        x.name = "header" ∨ x.name = "step_data" := by
      intro x hx
      have hname := List.mem_map_of_mem (f := Section.name) hx
      have hsame := names_dispatch s.sections (s.truncation.cut line) s.lineNumber
      have hsections : (s.readLine line).1.sections =
          (dispatch (s.truncation.cut line) s.lineNumber s.sections).1 := rfl
      rw [hsections, hsame] at hname
      obtain ⟨y, hy, hxy⟩ := List.mem_map.mp hname
      rw [← hxy]
      exact h y hy
    rw [readLines_cons_of_none hnone]
    exact ih hnames

/-- Bytes are read up to the first line that fails. That line is counted, no later one has been
read, and its number stands in the failure of the log as in that of the line. The same holds of
lines that are given as texts. Headers and steps never fail. -/
theorem failures_name_their_line (s : Session) (bytes : List UInt8) :
    let number (n : Nat) : String := String.ofList (Json.natText n)
    s.StopsAtFailure (decodedLines bytes) (s.feed bytes).1
      ((s.feed bytes).2.map FeedFailure.cause) ∧
    (∀ f, (s.feed bytes).2 = some f → f.lineNumber = f.cause.lineNumber ∧
      f.messages =
        ["Failed to parse log line " ++ number f.lineNumber,
          "Malformed " ++ f.cause.marker ++ " payload on line " ++ number f.lineNumber ++ ": " ++
            f.cause.cause.message,
          f.cause.cause.message]) ∧
    (∀ lines : List String,
      s.StopsAtFailure lines (s.readLines lines).1 (s.readLines lines).2) ∧
    ((∀ x ∈ s.sections, (∃ h, x = .header h) ∨ ∃ l, x = .steps l) →
      (s.feed bytes).2 = none ∧ ∀ lines, (s.readLines lines).2 = none) := by
  intro number
  have hfeed : s.feed bytes = s.readText (decodedLines bytes) := feed_eq_readText s bytes
  have hstops := stopsAtFailure_readLines s (decodedLines bytes)
  have hcause : (s.feed bytes).2.map FeedFailure.cause = (s.readLines (decodedLines bytes)).2 := by
    rw [hfeed, readText, Option.map_map]
    exact Option.map_id'
  have hafter : (s.feed bytes).1 = (s.readLines (decodedLines bytes)).1 := congrArg Prod.fst hfeed
  refine ⟨?_, ?_, stopsAtFailure_readLines s, ?_⟩
  · rw [hcause, hafter]
    exact hstops
  · intro f hf
    rw [hfeed, readText, Option.map_eq_some_iff] at hf
    obtain ⟨e, he, rfl⟩ := hf
    obtain ⟨k, -, hline, hcount, -⟩ := hstops.failed e he
    have hsame : (s.readLines (decodedLines bytes)).1.lineNumber - 1 = e.lineNumber := by
      rw [hcount, hline]
      omega
    refine ⟨hsame, ?_⟩
    rw [FeedFailure.messages, Malformed.message, ← hsame]
  · intro hsections
    have hnames : ∀ x ∈ s.sections, x.name = "header" ∨ x.name = "step_data" := by
      intro x hx
      obtain ⟨h, rfl⟩ | ⟨l, rfl⟩ := hsections x hx
      · exact .inl rfl
      · exact .inr rfl
    have hnone := readLines_of_header_steps hnames
    refine ⟨?_, hnone⟩
    rw [hfeed, readText, hnone, Option.map_none]

theorem failures_name_line_eight :
    let s : Session :=
      ⟨"", [.details [], .measurements .empty], Truncation.standard, 7, []⟩
    let bytes := asciiBytes "TinderboxPrint: a\r\nTALOSDATA: [x]\nTinderboxPrint: b"
    (s.feed bytes).1 = s.before (decodedLines bytes) 2 ∧ (s.feed bytes).1.lineNumber = 9 ∧
    (∃ f, (s.feed bytes).2 = some f ∧ f.cause.lineNumber = 8 ∧
      f.messages.head? = some "Failed to parse log line 8") ∧
    ∀ lines, ((start "" none [.header .empty] Truncation.standard).readLines lines).2 = none := by
  intro s bytes
  obtain ⟨hstops, hmessages, -, -⟩ := failures_name_their_line s bytes
  obtain ⟨-, -, -, hnever⟩ :=
    failures_name_their_line (start "" none [.header .empty] Truncation.standard) bytes
  have hfails : ((s.feed bytes).2.map fun f => f.cause.lineNumber) = some 8 := by
    rw [feed_eq_readText]
    decide +kernel
  obtain ⟨f, hf, hnumber⟩ := Option.map_eq_some_iff.mp hfails
  obtain ⟨k, -, hline, hcount, hafter⟩ :=
    hstops.failed f.cause (by rw [hf, Option.map_some])
  have hk : k = 1 := by
    have hstart : s.lineNumber = 7 := rfl
    omega
  subst hk
  obtain ⟨hsame, htexts⟩ := hmessages f hf
  refine ⟨hafter, hcount, ⟨f, hf, hnumber, ?_⟩, (hnever ?_).2⟩
  · rw [htexts, hsame, hnumber]
    rfl
  · intro x hx
    exact .inl ⟨.empty, List.mem_singleton.mp hx⟩

end Session
end BuildLog
