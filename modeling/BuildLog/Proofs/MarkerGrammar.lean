import BuildLog.Proofs.MarkerEnd
import BuildLog.Proofs.StepRun

namespace BuildLog.StepMarker
open Text

structure Started.Fits (m : Started) (line : String) : Prop where
  oneLine : '\n' ∉ line.toList
  written : line = m.render
  results : ∀ r, m.results = some r → r.Legible

structure Finished.Fits (m : Finished) (line : String) : Prop where
  oneLine : '\n' ∉ line.toList
  written : line = m.render
  results : m.results.Legible

/-- Whether a start marker is preferred to another that fits: its name is no longer, and with the
same name it has results if the other has, with an elapsed time that is no longer. -/
def Started.Leads (m m' : Started) : Prop :=
  m.name.length ≤ m'.name.length ∧
    (m'.name = m.name → m'.results.isSome = m.results.isSome ∧
      ∀ r r', m.results = some r → m'.results = some r' → r.elapsed.length ≤ r'.elapsed.length)

def Finished.Leads (m m' : Finished) : Prop :=
  m.name.length ≤ m'.name.length ∧
    (m'.name = m.name → m.results.elapsed.length ≤ m'.results.elapsed.length)

structure Written (word line : String) (m : Started) : Prop where
  oneLine : '\n' ∉ line.toList
  text : line.toList = (word ++ " ").toList ++
    (m.name.toList ++ (endText m.results m.time.toList ++ closing.toList))
  results : ∀ r, m.results = some r → r.Legible

theorem startedWord_append : startedWord ++ " " = "========= Started " := by decide +kernel

theorem finishedWord_append : finishedWord ++ " " = "========= Finished " := by decide +kernel

theorem toList_render_started (m : Started) :
    m.render.toList = (startedWord ++ " ").toList ++
      (m.name.toList ++ (endText m.results m.time.toList ++ closing.toList)) := by
  have hresults : (m.results.elim "" Results.render).toList =
      m.results.elim [] (fun r => r.render.toList) := by
    cases m.results <;> rfl
  rw [startedWord_append]
  unfold Started.render endText closing
  simp only [String.toList_append, hresults]
  simp only [List.append_assoc]

theorem toList_render_finished (m : Finished) :
    m.render.toList = (finishedWord ++ " ").toList ++
      (m.name.toList ++ (endText (some m.results) m.time.toList ++ closing.toList)) := by
  rw [finishedWord_append]
  unfold Finished.render endText closing
  simp only [String.toList_append, Option.elim_some]
  simp only [List.append_assoc]

theorem Started.fits_iff {m : Started} {line : String} :
    m.Fits line ↔ Written startedWord line m := by
  constructor
  · rintro ⟨hline, rfl, hresults⟩
    exact ⟨hline, toList_render_started m, hresults⟩
  · rintro ⟨hline, htext, hresults⟩
    exact ⟨hline, String.toList_inj.mp (htext.trans (toList_render_started m).symm), hresults⟩

def Finished.parts (m : Finished) : Started := ⟨m.name, some m.results, m.time⟩

theorem Finished.parts_injective {m m' : Finished} (h : m.parts = m'.parts) : m = m' := by
  obtain ⟨name, results, time⟩ := m
  obtain ⟨name', results', time'⟩ := m'
  simpa only [parts, Started.mk.injEq, Option.some.injEq, Finished.mk.injEq] using h

theorem Finished.leads_parts {m m' : Finished} (h : m.Leads m') : m.parts.Leads m'.parts := by
  refine ⟨h.1, fun hname => ⟨rfl, ?_⟩⟩
  rintro r r' ⟨⟩ ⟨⟩
  exact h.2 hname

theorem Finished.fits_iff {m : Finished} {line : String} :
    m.Fits line ↔ Written finishedWord line m.parts := by
  constructor
  · rintro ⟨hline, rfl, hresults⟩
    refine ⟨hline, toList_render_finished m, ?_⟩
    rintro r ⟨⟩
    exact hresults
  · rintro ⟨hline, htext, hresults⟩
    refine ⟨hline, String.toList_inj.mp (htext.trans (toList_render_finished m).symm), ?_⟩
    exact hresults m.results rfl

theorem Written.endText_eq {word line : String} {m m' : Started} (h : Written word line m)
    (h' : Written word line m') (hname : m'.name = m.name) :
    endText m.results m.time.toList = endText m'.results m'.time.toList := by
  have htext := h.text.symm.trans h'.text
  rw [hname, List.append_cancel_left_eq, List.append_cancel_left_eq,
    List.append_cancel_right_eq] at htext
  exact htext

theorem Written.name_eq {word line : String} {m m' : Started} (h : Written word line m)
    (h' : Written word line m') (hlength : m'.name.length = m.name.length) : m'.name = m.name := by
  have htext := h'.text.symm.trans h.text
  rw [List.append_cancel_left_eq] at htext
  apply String.toList_inj.mp
  apply List.append_inj_left htext
  rw [String.length_toList, String.length_toList, hlength]

/-- A line has one marker with a name and an elapsed time of given lengths. -/
theorem Written.unique {word line : String} {m m' : Started} (h : Written word line m)
    (h' : Written word line m') (hname : m'.name.length = m.name.length)
    (helapsed : ∀ r r', m.results = some r → m'.results = some r' →
      r'.elapsed.length = r.elapsed.length) : m' = m := by
  have hsame := h.name_eq h' hname
  have hend := h.endText_eq h' hsame
  have hkind := endText_kind hend
  obtain ⟨name, results, time⟩ := m
  obtain ⟨name', results', time'⟩ := m'
  dsimp only at hsame hend hkind helapsed
  cases results with
  | none =>
    obtain rfl : results' = none := by simpa using hkind
    have htime : time' = time := by
      rw [endText, endText, List.append_cancel_left_eq, List.append_cancel_left_eq] at hend
      exact (String.toList_inj.mp hend).symm
    rw [hsame, htime]
  | some r =>
    obtain ⟨r', rfl⟩ := Option.isSome_iff_exists.mp (hkind.trans rfl)
    have hcode : r.code = r'.code :=
      code_eq_of_endText (h.results r rfl) (h'.results r' rfl) hend
    rw [endText_some, endText_some, resultsText_append, resultsText_append, hcode,
      List.append_cancel_left_eq, List.append_cancel_left_eq, List.append_cancel_left_eq] at hend
    obtain ⟨he, ht⟩ := List.append_inj hend (by
      rw [String.length_toList, String.length_toList, helapsed r r' rfl rfl])
    rw [List.cons.injEq, List.append_cancel_left_eq] at ht
    obtain ⟨code, elapsed⟩ := r
    obtain ⟨code', elapsed'⟩ := r'
    obtain rfl : code = code' := hcode
    obtain rfl : elapsed = elapsed' := String.toList_inj.mp he
    rw [hsame, String.toList_inj.mp ht.2]

theorem Written.eq_of_leads {word line : String} {m m' : Started} (h : Written word line m)
    (h' : Written word line m') (hl : m.Leads m') (hl' : m'.Leads m) : m' = m := by
  have hlength : m'.name.length = m.name.length := Nat.le_antisymm hl'.1 hl.1
  have hsame := h.name_eq h' hlength
  apply h.unique h' hlength
  intro r r' hr hr'
  exact Nat.le_antisymm ((hl'.2 hsame.symm).2 r' r hr' hr) ((hl.2 hsame).2 r r' hr hr')

section
variable {α : Type} {k : List Char → Option α}

def named? (word line : String) (k : List Char → Option α) : Option (List Char × α) := do
  let s ← after? (word ++ " ").toList (← body? line)
  shortest? inLine k s

theorem named?_reads {word line : String} {name : List Char} {a : α}
    (h : named? word line k = some (name, a)) :
    '\n' ∉ line.toList ∧ ∃ r, k r = some a ∧
      line.toList = (word ++ " ").toList ++ (name ++ (r ++ closing.toList)) ∧
      ∀ name' r', line.toList = (word ++ " ").toList ++ (name' ++ (r' ++ closing.toList)) →
        name'.length < name.length → k r' = none := by
  simp only [named?, Option.bind_eq_bind, Option.bind_eq_some_iff] at h
  obtain ⟨body, hbody, s, hs, hname⟩ := h
  obtain ⟨hline, htext⟩ := body?_eq_some_iff.mp hbody
  rw [after?_eq_some_iff] at hs
  obtain ⟨r, rfl, -, hr, hfirst⟩ := shortest?_eq_some_iff_length.mp hname
  refine ⟨hline, r, hr, ?_, ?_⟩
  · rw [htext, hs]
    simp only [List.append_assoc]
  · intro name' r' hline' hlt
    apply hfirst name' r' _ hlt
    rw [htext, hs] at hline'
    simp only [← List.append_assoc, List.append_cancel_right_eq] at hline'
    simpa only [List.append_assoc, List.append_cancel_left_eq] using hline'

theorem named?_isSome {word line : String} {name r : List Char} (hline : '\n' ∉ line.toList)
    (htext : line.toList = (word ++ " ").toList ++ (name ++ (r ++ closing.toList)))
    (hr : (k r).isSome = true) : (named? word line k).isSome = true := by
  have hbody : body? line = some ((word ++ " ").toList ++ (name ++ r)) := by
    refine body?_eq_some_iff.mpr ⟨hline, ?_⟩
    rw [htext]
    simp only [List.append_assoc]
  have hname : name.all inLine = true := by
    apply all_inLine_iff.mpr
    intro hmem
    apply hline
    rw [htext]
    simp [hmem]
  rw [named?, hbody]
  dsimp only [Option.bind_eq_bind, Option.bind_some]
  rw [after?_eq_some_iff.mpr rfl]
  exact shortest?_isSome hname hr

end

theorem started?_eq_map (line : String) :
    started? line = (named? startedWord line startedEnd?).map fun x =>
      ⟨String.ofList x.1, x.2.1, String.ofList x.2.2⟩ := by
  unfold started? named?
  cases body? line with
  | none => rfl
  | some b =>
    dsimp only [Option.bind_eq_bind, Option.bind_some]
    cases after? (startedWord ++ " ").toList b with
    | none => rfl
    | some s =>
      dsimp only [Option.bind_some]
      cases shortest? inLine startedEnd? s <;> rfl

theorem finished?_eq_map (line : String) :
    finished? line = (named? finishedWord line (results? time?)).map fun x =>
      ⟨String.ofList x.1, ⟨String.ofList x.2.1, String.ofList x.2.2.1⟩, String.ofList x.2.2.2⟩ := by
  unfold finished? named?
  cases body? line with
  | none => rfl
  | some b =>
    dsimp only [Option.bind_eq_bind, Option.bind_some]
    cases after? (finishedWord ++ " ").toList b with
    | none => rfl
    | some s =>
      dsimp only [Option.bind_some]
      cases shortest? inLine (results? time?) s <;> rfl

/-- No marker that the line may stand for has a shorter name than the one that is read, as long as
something is read after every such name. -/
theorem name_le_of_written {α : Type} {k : List Char → Option α} {word line : String}
    {name : List Char} {m : Started}
    (hfirst : ∀ name' r', line.toList = (word ++ " ").toList ++ (name' ++ (r' ++ closing.toList)) →
      name'.length < name.length → k r' = none)
    (h : Written word line m) (hread : (k (endText m.results m.time.toList)).isSome = true) :
    name.length ≤ m.name.length := by
  apply Nat.not_lt.mp
  intro hlt
  rw [← String.length_toList] at hlt
  rw [hfirst _ _ h.text hlt] at hread
  contradiction

theorem started?_reads {line : String} {m : Started} (h : started? line = some m) :
    m.Fits line ∧ ∀ m', m'.Fits line → m.Leads m' := by
  rw [started?_eq_map, Option.map_eq_some_iff] at h
  obtain ⟨⟨name, results, time⟩, hread, rfl⟩ := h
  obtain ⟨hline, r, hr, htext, hfirst⟩ := named?_reads hread
  obtain ⟨hlegible, rfl, hleast⟩ := startedEnd?_reads hr
  have hwritten : Written startedWord line ⟨String.ofList name, results, String.ofList time⟩ := by
    refine ⟨hline, ?_, hlegible⟩
    rw [htext, String.toList_ofList, String.toList_ofList]
  refine ⟨Started.fits_iff.mpr hwritten, ?_⟩
  intro m' hm'
  have hwritten' := Started.fits_iff.mp hm'
  refine ⟨?_, ?_⟩
  · rw [String.length_ofList]
    exact name_le_of_written hfirst hwritten' (startedEnd?_isSome hwritten'.results _)
  · intro hname
    have hend := hwritten.endText_eq hwritten' hname
    refine ⟨endText_kind hend, ?_⟩
    intro r r' hr hr'
    dsimp only at hend
    rw [hr', String.toList_ofList] at hend
    exact hleast r r' m'.time.toList hr (hwritten'.results r' hr') hend

theorem finished?_reads {line : String} {m : Finished} (h : finished? line = some m) :
    m.Fits line ∧ ∀ m', m'.Fits line → m.Leads m' := by
  rw [finished?_eq_map, Option.map_eq_some_iff] at h
  obtain ⟨⟨name, code, elapsed, time⟩, hread, rfl⟩ := h
  obtain ⟨hline, s, hs, htext, hfirst⟩ := named?_reads hread
  obtain ⟨r, rfl, rfl⟩ : ∃ r : Results, code = r.code.toList ∧ elapsed = r.elapsed.toList :=
    ⟨⟨String.ofList code, String.ofList elapsed⟩, String.toList_ofList.symm,
      String.toList_ofList.symm⟩
  obtain ⟨hlegible, rfl, hleast⟩ := results?_time?_reads hs
  dsimp only
  rw [String.ofList_toList, String.ofList_toList]
  have hwritten : Written finishedWord line ⟨String.ofList name, some r, String.ofList time⟩ := by
    refine ⟨hline, ?_, ?_⟩
    · rw [htext, String.toList_ofList, String.toList_ofList]
    · rintro r' ⟨⟩
      exact hlegible
  refine ⟨Finished.fits_iff.mpr hwritten, ?_⟩
  intro m' hm'
  have hwritten' := Finished.fits_iff.mp hm'
  refine ⟨?_, ?_⟩
  · rw [String.length_ofList]
    exact name_le_of_written hfirst hwritten' (results?_time?_isSome hm'.results _)
  · intro hname
    have hend := hwritten.endText_eq hwritten' hname
    dsimp only at hend
    rw [String.toList_ofList] at hend
    exact hleast m'.results m'.time.toList hm'.results hend

theorem started?_isSome {line : String} {m : Started} (h : m.Fits line) :
    (started? line).isSome = true := by
  have hwritten := Started.fits_iff.mp h
  rw [started?_eq_map, Option.isSome_map]
  exact named?_isSome h.oneLine hwritten.text (startedEnd?_isSome h.results _)

theorem finished?_isSome {line : String} {m : Finished} (h : m.Fits line) :
    (finished? line).isSome = true := by
  have hwritten := Finished.fits_iff.mp h
  rw [finished?_eq_map, Option.isSome_map]
  exact named?_isSome h.oneLine hwritten.text (results?_time?_isSome h.results _)

theorem started?_eq_some_iff {line : String} {m : Started} :
    started? line = some m ↔ m.Fits line ∧ ∀ m', m'.Fits line → m.Leads m' := by
  refine ⟨started?_reads, ?_⟩
  rintro ⟨hm, hleads⟩
  obtain ⟨m', hm'⟩ := Option.isSome_iff_exists.mp (started?_isSome hm)
  obtain ⟨hfits, hleads'⟩ := started?_reads hm'
  have heq : m' = m := (Started.fits_iff.mp hm).eq_of_leads (Started.fits_iff.mp hfits)
    (hleads m' hfits) (hleads' m hm)
  rw [hm', heq]

theorem finished?_eq_some_iff {line : String} {m : Finished} :
    finished? line = some m ↔ m.Fits line ∧ ∀ m', m'.Fits line → m.Leads m' := by
  refine ⟨finished?_reads, ?_⟩
  rintro ⟨hm, hleads⟩
  obtain ⟨m', hm'⟩ := Option.isSome_iff_exists.mp (finished?_isSome hm)
  obtain ⟨hfits, hleads'⟩ := finished?_reads hm'
  have heq : m'.parts = m.parts := (Finished.fits_iff.mp hm).eq_of_leads
    (Finished.fits_iff.mp hfits) (Finished.leads_parts (hleads m' hfits))
    (Finished.leads_parts (hleads' m hm))
  rw [hm', Finished.parts_injective heq]

/-- A start marker needs no results, as they can be taken for the end of its name. -/
theorem exists_started_fits_iff (line : String) :
    (∃ m : Started, m.Fits line) ↔ '\n' ∉ line.toList ∧ ∃ n t : String,
      line = "========= Started " ++ n ++ " (at " ++ t ++ ") =========" := by
  constructor
  · rintro ⟨m, hline, rfl, -⟩
    refine ⟨hline, m.name ++ m.results.elim "" Results.render, m.time, ?_⟩
    unfold Started.render
    simp only [String.append_assoc]
  · rintro ⟨hline, n, t, rfl⟩
    refine ⟨⟨n, none, t⟩, hline, ?_, nofun⟩
    have hempty : "========= Started " ++ n ++ "" = "========= Started " ++ n := String.append_empty
    unfold Started.render
    simp only [Option.elim_none, hempty]

theorem exists_finished_fits_iff (line : String) :
    (∃ m : Finished, m.Fits line) ↔ '\n' ∉ line.toList ∧ ∃ n d e t : String,
      d ≠ "" ∧ (∀ c ∈ d.toList, isDecimalDigit c = true) ∧ '\n' ∉ e.toList ∧
        line = "========= Finished " ++ n ++ " (results: " ++ d ++ ", elapsed: " ++ e ++
          ") (at " ++ t ++ ") =========" := by
  have hbracket : ")" ++ " (at " = ") (at " := by decide +kernel
  constructor
  · rintro ⟨m, hline, rfl, hcode, hdigits, helapsed⟩
    refine ⟨hline, m.name, m.results.code, m.results.elapsed, m.time, hcode, hdigits, helapsed, ?_⟩
    unfold Finished.render Results.render
    simp only [← hbracket, String.append_assoc]
  · rintro ⟨hline, n, d, e, t, hcode, hdigits, helapsed, rfl⟩
    refine ⟨⟨n, ⟨d, e⟩, t⟩, hline, ?_, hcode, hdigits, helapsed⟩
    unfold Finished.render Results.render
    simp only [← hbracket, String.append_assoc]

/-- A name is over where a time begins. -/
theorem not_isInfix_name {line : String} {m : Started} (h : started? line = some m) :
    ¬ " (at ".toList <:+: m.name.toList := by
  rintro ⟨a, b, hname⟩
  obtain ⟨hfits, hleads⟩ := started?_reads h
  have hwritten := Started.fits_iff.mp hfits
  -- otherwise the name could end there, and the time go on with what follows
  let m' : Started := ⟨String.ofList a, none, String.ofList (b ++ endText m.results m.time.toList)⟩
  have hend : endText m'.results m'.time.toList =
      " (at ".toList ++ (b ++ endText m.results m.time.toList) :=
    congrArg (" (at ".toList ++ ·) String.toList_ofList
  have hname' : m'.name.toList = a := String.toList_ofList
  have hwritten' : Written startedWord line m' := by
    refine ⟨hfits.oneLine, ?_, nofun⟩
    rw [hwritten.text, hend, ← hname, hname']
    simp only [List.append_assoc]
  obtain ⟨hle, -⟩ := hleads m' (Started.fits_iff.mpr hwritten')
  have hlonger : a.length < m.name.toList.length := by
    have hpos : 0 < " (at ".toList.length := by decide +kernel
    rw [← hname, List.length_append, List.length_append]
    omega
  rw [String.length_toList] at hlonger
  rw [String.length_ofList] at hle
  exact absurd hlonger (Nat.not_lt.mpr hle)

/-- A line is a start marker if it has a name and a time between the fixed words. The shortest name
is read that leaves a time, or results and a time, and with results the shortest elapsed time. A
finish marker is read in the same way but must have results, and no line is both. -/
theorem markers_by_shortest_split (line : String) :
    ((started? line).isSome = true ↔ '\n' ∉ line.toList ∧ ∃ n t : String,
      line = "========= Started " ++ n ++ " (at " ++ t ++ ") =========") ∧
    (∀ m, started? line = some m ↔ m.Fits line ∧ ∀ m', m'.Fits line → m.Leads m') ∧
    (∀ m, started? line = some m → ¬ " (at ".toList <:+: m.name.toList) ∧
    ((finished? line).isSome = true ↔ '\n' ∉ line.toList ∧ ∃ n d e t : String,
      d ≠ "" ∧ (∀ c ∈ d.toList, isDecimalDigit c = true) ∧ '\n' ∉ e.toList ∧
        line = "========= Finished " ++ n ++ " (results: " ++ d ++ ", elapsed: " ++ e ++
          ") (at " ++ t ++ ") =========") ∧
    (∀ m, finished? line = some m ↔ m.Fits line ∧ ∀ m', m'.Fits line → m.Leads m') ∧
    ¬ ((started? line).isSome = true ∧ (finished? line).isSome = true) := by
  refine ⟨?_, fun m => started?_eq_some_iff, fun m => not_isInfix_name, ?_,
    fun m => finished?_eq_some_iff, ?_⟩
  · rw [← exists_started_fits_iff]
    constructor
    · intro h
      obtain ⟨m, hm⟩ := Option.isSome_iff_exists.mp h
      exact ⟨m, (started?_reads hm).1⟩
    · rintro ⟨m, hm⟩
      exact started?_isSome hm
  · rw [← exists_finished_fits_iff]
    constructor
    · intro h
      obtain ⟨m, hm⟩ := Option.isSome_iff_exists.mp h
      exact ⟨m, (finished?_reads hm).1⟩
    · rintro ⟨m, hm⟩
      exact finished?_isSome hm
  · rintro ⟨hstart, hfinish⟩
    have hnot := StepLog.isStart_of_isFinish hfinish
    rw [StepLog.isStart, hstart] at hnot
    contradiction

def manyCuts : String :=
  "========= Started a (results: 1, elapsed: b) (results: 2, elapsed: c) (at x) (at y) ========="

theorem shortest_split_manyCuts :
    let m : Started := ⟨"a", some ⟨"1", "b) (results: 2, elapsed: c"⟩, "x) (at y"⟩
    let m' : Started := ⟨"a (results: 1, elapsed: b)", some ⟨"2", "c"⟩, "x) (at y"⟩
    started? manyCuts = some m ∧ m'.Fits manyCuts ∧ m.Leads m' ∧
      ¬ " (at ".toList <:+: m.name.toList ∧ finished? manyCuts = none := by
  intro m m'
  have hread : started? manyCuts = some m := by decide +kernel
  have hfits : m'.Fits manyCuts := by
    refine ⟨by decide +kernel, by decide +kernel, ?_⟩
    rintro r ⟨⟩
    exact ⟨by decide +kernel, List.all_eq_true.mp (by decide +kernel), by decide +kernel⟩
  obtain ⟨-, hcut, hname, -, -, hboth⟩ := markers_by_shortest_split manyCuts
  refine ⟨hread, hfits, ((hcut m).mp hread).2 m' hfits, hname m hread, ?_⟩
  cases hfinish : finished? manyCuts with
  | none => rfl
  | some f => exact absurd ⟨by rw [hread]; rfl, by rw [hfinish]; rfl⟩ hboth

end BuildLog.StepMarker
