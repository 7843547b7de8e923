import BuildLog.Proofs.MarkerGrammar
import BuildLog.Proofs.StepSpans

namespace BuildLog

namespace StepMarker
open Text

/-- A name that nothing can end early. The blank belongs to the word that follows every name. -/
structure ClearName (name : String) : Prop where
  oneLine : '\n' ∉ name.toList
  time : ¬ " (at ".toList <:+: (name ++ " ").toList
  results : ¬ " (results: ".toList <:+: name.toList

/-- Results in ASCII digits whose elapsed time nothing can end early. -/
structure Results.Clear (r : Results) : Prop where
  code : r.code ≠ ""
  digits : ∀ c ∈ r.code.toList, isAsciiDigit c = true
  oneLine : '\n' ∉ r.elapsed.toList
  elapsed : ¬ ") (at ".toList <:+: r.elapsed.toList

structure Started.Clear (m : Started) : Prop where
  name : ClearName m.name
  results : ∀ r, m.results = some r → r.Clear
  time : '\n' ∉ m.time.toList

theorem Results.Clear.legible {r : Results} (h : r.Clear) : r.Legible := by
  refine ⟨h.code, ?_, h.oneLine⟩
  intro c hc
  rw [isDecimalDigit, h.digits c hc, Bool.true_or]

/-- A word with one blank at either end begins in front of a blank only if it ends there, too. -/
theorem blank_word_cases {m u r s : List Char} (hm : ' ' ∉ m) (hu : u ≠ [])
    (h : ' ' :: m ++ ' ' :: r = u ++ ' ' :: s) :
    ' ' :: m ++ [' '] <+: u ∨ u = ' ' :: m ∧ r = s := by
  have hword : ' ' :: m <+: u ++ ' ' :: s := ⟨' ' :: r, h⟩
  obtain ⟨v, rfl⟩ := isPrefix_of_append_head hm hu hword
  rw [List.append_assoc, List.append_cancel_left_eq] at h
  cases v with
  | nil =>
    rw [List.nil_append, List.cons.injEq] at h
    exact .inr ⟨List.append_nil _, h.2⟩
  | cons c v =>
    rw [List.cons_append, List.cons.injEq] at h
    refine .inl ⟨v, ?_⟩
    rw [← h.1, List.append_assoc]
    rfl

theorem timeWord : " (at ".toList = ' ' :: "(at".toList ++ [' '] := by decide

theorem resultsWord : " (results: ".toList = ' ' :: "(results:".toList ++ [' '] := by
  decide

theorem exists_endText (results : Option Results) (time : List Char) :
    ∃ s, endText results time = ' ' :: '(' :: s := by
  have htime : " (at ".toList = ' ' :: '(' :: "at ".toList := by decide
  have hresults : " (results: ".toList = ' ' :: '(' :: "results: ".toList := by decide
  cases results with
  | none => exact ⟨"at ".toList ++ time, congrArg (· ++ time) htime⟩
  | some r =>
    rw [endText_some, resultsText_append, hresults]
    exact ⟨_, rfl⟩

section Inside

variable {name : String} {name' u s : List Char}

theorem ClearName.no_time_inside (h : ClearName name) (hu : name.toList = name' ++ u) (hne : u ≠ [])
    (time : List Char) : endText none time ≠ u ++ ' ' :: s := by
  intro hend
  rw [endText, Option.elim_none, List.nil_append, timeWord, List.append_assoc,
    List.singleton_append] at hend
  have hword : " (at ".toList <+: u ++ [' '] := by
    rw [timeWord]
    obtain hbegins | ⟨rfl, -⟩ := blank_word_cases (by decide) hne hend
    · exact hbegins.trans (List.prefix_append u [' '])
    · exact List.prefix_rfl
  have hblank : u ++ [' '] <:+: (name ++ " ").toList := by
    rw [String.toList_append, hu, List.append_assoc]
    exact (List.suffix_append name' _).isInfix
  exact h.time (hword.isInfix.trans hblank)

/-- No results begin inside a clear name, as no code begins with the bracket after the name. -/
theorem ClearName.no_results_inside (h : ClearName name) (hu : name.toList = name' ++ u)
    (hne : u ≠ []) {r : Results} (hr : r.Legible) (time : List Char) :
    endText (some r) time ≠ u ++ ' ' :: '(' :: s := by
  intro hend
  rw [endText_some, resultsText_append, resultsWord, List.append_assoc,
    List.singleton_append] at hend
  obtain hbegins | ⟨-, hcode⟩ := blank_word_cases (by decide) hne hend
  · have hinside : u <:+: name.toList := hu ▸ (List.suffix_append name' u).isInfix
    exact h.results ((resultsWord ▸ hbegins).isInfix.trans hinside)
  · cases hdigits : r.code.toList with
    | nil => exact hr.code (String.toList_eq_nil_iff.mp hdigits)
    | cons c ds =>
      rw [hdigits, List.cons_append, List.cons.injEq] at hcode
      have hc := hr.digits c (by rw [hdigits]; exact List.mem_cons_self)
      rw [hcode.1] at hc
      exact absurd hc (by decide)

end Inside

theorem ClearName.length_le {name : String} (h : ClearName name) {results results' : Option Results}
    {name' time time' : List Char} (hresults' : ∀ r, results' = some r → r.Legible)
    (hsame : name.toList ++ endText results time = name' ++ endText results' time') :
    name.length ≤ name'.length := by
  obtain ⟨s, hs⟩ := exists_endText results time
  rw [hs] at hsame
  rw [← String.length_toList]
  obtain ⟨u, hu, -⟩ | ⟨u, hu, hend⟩ := List.append_eq_append_iff.mp hsame
  · rw [hu, List.length_append]
    exact Nat.le_add_right _ _
  · by_cases hne : u = []
    · rw [hu, hne, List.append_nil]
    · cases results' with
      | none => exact absurd hend (h.no_time_inside hu hne time')
      | some r => exact absurd hend (h.no_results_inside hu hne (hresults' r rfl) time')

theorem Results.Clear.elapsed_le {r r' : Results} (h : r.Clear) (h' : r'.Legible)
    {time time' : List Char} (hsame : endText (some r) time = endText (some r') time') :
    r.elapsed.length ≤ r'.elapsed.length := by
  have hcode := code_eq_of_endText h.legible h' hsame
  rw [endText_some, endText_some, resultsText_append, resultsText_append, hcode,
    List.append_cancel_left_eq, List.append_cancel_left_eq, List.append_cancel_left_eq] at hsame
  rw [← String.length_toList, ← String.length_toList]
  obtain ⟨u, hu, -⟩ | ⟨u, hu, hend⟩ := List.append_eq_append_iff.mp hsame
  · rw [hu, List.length_append]
    exact Nat.le_add_right _ _
  · by_cases hne : u = []
    · rw [hu, hne, List.append_nil]
    have hword : ") (at ".toList = ')' :: " (at ".toList := by decide
    have hlooks : ')' :: " (at ".toList <+: u ++ ')' :: (" (at ".toList ++ time) :=
      ⟨time', hend⟩
    have hbegins := isPrefix_of_append_head (by decide) hne hlooks
    have hinside : u <:+: r.elapsed.toList := hu ▸ (List.suffix_append _ u).isInfix
    exact absurd (hword ▸ hbegins.isInfix.trans hinside) h.elapsed

/-- Of all markers that a line may stand for, a clear one is preferred. -/
theorem Written.leads_of_clear {word line : String} {m m' : Started} (h : Written word line m)
    (hm : m.Clear) (h' : Written word line m') : m.Leads m' := by
  refine ⟨?_, ?_⟩
  · have hsame := h.text.symm.trans h'.text
    rw [List.append_cancel_left_eq, ← List.append_assoc, ← List.append_assoc,
      List.append_cancel_right_eq] at hsame
    have hle := hm.name.length_le h'.results hsame
    rwa [String.length_toList] at hle
  · intro hname
    have hend := h.endText_eq h' hname
    refine ⟨endText_kind hend, ?_⟩
    intro r r' hr hr'
    rw [hr, hr'] at hend
    exact (hm.results r hr).elapsed_le (h'.results r' hr') hend

theorem Results.Clear.not_mem_render {r : Results} (h : r.Clear) : '\n' ∉ r.render.toList := by
  have hcode : '\n' ∉ r.code.toList := fun hmem => absurd (h.digits _ hmem) (by decide)
  rw [toList_render]
  unfold resultsText
  simp only [List.mem_append (a := '\n'), not_or]
  exact ⟨by decide, hcode, by decide, h.oneLine, by decide⟩

theorem Started.Clear.written {m : Started} (h : m.Clear) {word line : String}
    (hword : '\n' ∉ (word ++ " ").toList)
    (hline : line.toList = (word ++ " ").toList ++
      (m.name.toList ++ (endText m.results m.time.toList ++ closing.toList))) :
    Written word line m := by
  refine ⟨?_, hline, fun r hr => (h.results r hr).legible⟩
  have hresults : '\n' ∉ m.results.elim [] (fun r => r.render.toList) := by
    cases hr : m.results with
    | none => exact List.not_mem_nil
    | some r => exact (h.results r hr).not_mem_render
  rw [hline, endText]
  simp only [List.mem_append (a := '\n'), not_or]
  exact ⟨hword, h.name.oneLine, ⟨hresults, by decide, h.time⟩, by decide⟩

theorem started?_render {m : Started} (h : m.Clear) : started? m.render = some m := by
  have hwritten : Written startedWord m.render m :=
    h.written (by decide) (toList_render_started m)
  refine started?_eq_some_iff.mpr ⟨Started.fits_iff.mpr hwritten, ?_⟩
  intro m' hm'
  exact hwritten.leads_of_clear h (Started.fits_iff.mp hm')

theorem finished?_render {m : Finished} (h : m.parts.Clear) : finished? m.render = some m := by
  have hwritten : Written finishedWord m.render m.parts :=
    h.written (by decide) (toList_render_finished m)
  refine finished?_eq_some_iff.mpr ⟨Finished.fits_iff.mpr hwritten, ?_⟩
  intro m' hm'
  have hleads := hwritten.leads_of_clear h (Finished.fits_iff.mp hm')
  exact ⟨hleads.1, fun hname => (hleads.2 hname).2 _ _ rfl rfl⟩

end StepMarker

namespace Outcome

/-- A code in ASCII digits counts as the number that it denotes, of whatever length. -/
theorem ofDigits_of_ascii {code : String} (h : ∀ c ∈ code.toList, Text.isAsciiDigit c = true) :
    ofDigits code = ofCode (Nat.ofDigitChars 10 code.toList 0) := by
  have hall : code.toList.all Text.isAsciiDigit = true := List.all_eq_true.mpr h
  rw [ofDigits, if_pos hall]
  rfl

theorem ofCode_eq_unknown_iff (n : Nat) : ofCode n = unknown ↔ 6 < n := by
  match n with
  | 0 | 1 | 2 | 3 | 4 | 5 | 6 => decide
  | n + 7 => exact iff_of_true rfl (by omega)

end Outcome

namespace StepSpan
open StepLog

theorem ofLines_of_no_start {lines : List (String × Nat)}
    (h : ∀ x ∈ lines, isStart x.1 = false) : ofLines lines = [] := by
  rw [← List.length_eq_zero_iff, length_ofLines, List.countP_eq_zero]
  intro x hx
  rw [h x hx]
  exact Bool.false_ne_true

theorem untilStart_of_no_start {lines : List (String × Nat)}
    (h : ∀ x ∈ lines, isStart x.1 = false) : untilStart lines = lines := by
  rw [untilStart, List.takeWhile_eq_self_iff]
  intro x hx
  rw [h x hx]
  rfl

theorem finishIn?_append_finish {lines : List (String × Nat)}
    (h : ∀ x ∈ lines, isFinish x.1 = false) {x : String × Nat} {m : StepMarker.Finished}
    (hx : StepMarker.finished? x.1 = some m) : finishIn? (lines ++ [x]) = some (m, x.2) := by
  induction lines with
  | nil => exact finishIn?_cons_finish hx []
  | cons y lines ih =>
    have hy : StepMarker.finished? y.1 = none := by
      have hnot := h y List.mem_cons_self
      simpa [isFinish] using hnot
    rw [List.cons_append, finishIn?_cons_none hy]
    exact ih fun z hz => h z (List.mem_cons_of_mem y hz)

/-- A start marker, lines that are no markers, and a finish marker are one step more. -/
theorem steps_readAll_marked (l : StepLog) {x y : String × Nat} {m : StepMarker.Started}
    {f : StepMarker.Finished} {lines : List (String × Nat)}
    (hx : StepMarker.started? x.1 = some m) (hy : StepMarker.finished? y.1 = some f)
    (hlines : ∀ z ∈ lines, isStart z.1 = false ∧ isFinish z.1 = false) :
    ∃ s : Step, (l.readAll (x :: (lines ++ [y]))).steps = l.steps ++ [s.finish f y.2] ∧
      s.name = m.name ∧ s.started = m.time ∧ s.startedLine = x.2 := by
  have hstart : ∀ z ∈ lines ++ [y], isStart z.1 = false := by
    rw [List.forall_mem_append, List.forall_mem_singleton]
    exact ⟨fun z hz => (hlines z hz).1, isStart_of_isFinish (isFinish_of_some hy)⟩
  have hfinish : finishIn? (lines ++ [y]) = some (f, y.2) :=
    finishIn?_append_finish (fun z hz => (hlines z hz).2) hy
  rw [steps_readAll, ← stepsAfter_start l hx, stepsAfter, untilStart_of_no_start hstart,
    ofLines_of_no_start hstart, List.mapIdx_nil, List.append_nil]
  simp only [StepLog.start, Option.map_some, Option.toList_some, carry, hfinish]
  exact ⟨_, rfl, rfl, rfl, rfl⟩

/-- The step between two markers that were written from clear parts has these parts: the name, both
times and line numbers, and the outcome of the number that the code denotes. All other steps stay
what they were, whatever has been read before. -/
theorem rendered_step_reads_back (l : StepLog) (name started finished : String)
    (results? : Option StepMarker.Results) (results : StepMarker.Results)
    (between : List (String × Nat)) (startLine finishLine : Nat)
    (hstarted : StepMarker.Started.Clear ⟨name, results?, started⟩)
    (hresults : results.Clear) (hfinished : '\n' ∉ finished.toList)
    (hbetween : ∀ x ∈ between, isStart x.1 = false ∧ isFinish x.1 = false) :
    let startMarker := StepMarker.Started.render ⟨name, results?, started⟩
    let finishMarker := StepMarker.Finished.render ⟨name, results, finished⟩
    let code := Nat.ofDigitChars 10 results.code.toList 0
    ∃ s : Step,
      (l.readAll ((startMarker, startLine) :: (between ++ [(finishMarker, finishLine)]))).steps =
        l.steps ++ [s] ∧
      s.name = name ∧ s.started = started ∧ s.startedLine = startLine ∧
      s.finished = some finished ∧ s.finishedLine = some finishLine ∧
      s.duration = duration? started finished ∧
      s.outcome = Outcome.ofCode code ∧ (s.outcome = .unknown ↔ 6 < code) := by
  intro startMarker finishMarker code
  have hstart : StepMarker.started? startMarker = some ⟨name, results?, started⟩ :=
    StepMarker.started?_render hstarted
  have hfinish : StepMarker.finished? finishMarker = some ⟨name, results, finished⟩ := by
    apply StepMarker.finished?_render
    refine ⟨hstarted.name, ?_, hfinished⟩
    rintro r ⟨⟩
    exact hresults
  obtain ⟨s, hsteps, hname, htime, hline⟩ :=
    steps_readAll_marked l (x := (startMarker, startLine)) (y := (finishMarker, finishLine))
      hstart hfinish hbetween
  have houtcome : (s.finish ⟨name, results, finished⟩ finishLine).outcome = Outcome.ofCode code :=
    Outcome.ofDigits_of_ascii hresults.digits
  refine ⟨s.finish ⟨name, results, finished⟩ finishLine, hsteps, hname, htime, hline, rfl, rfl, ?_,
    houtcome, ?_⟩
  · rw [Step.finish, htime]
  · rw [houtcome]
    exact Outcome.ofCode_eq_unknown_iff code

def misleading : StepMarker.Started × StepMarker.Finished :=
  (⟨"compile (results:", some ⟨"7", "1) (at"⟩, "2013-06-05 12:48:37"⟩,
    ⟨"compile (results:", ⟨"00000000006", "2 secs) (results: 1"⟩, "2013-06-05 12:49:39.5"⟩)

theorem rendered_step_misleading :
    let log := (StepLog.empty true 1).readAll [("========= Started a (at b) =========", 0)]
    let startMarker :=
      "========= Started compile (results: (results: 7, elapsed: 1) (at) " ++
        "(at 2013-06-05 12:48:37) ========="
    let finishMarker :=
      "========= Finished compile (results: (results: 00000000006, " ++
        "elapsed: 2 secs) (results: 1) (at 2013-06-05 12:49:39.5) ========="
    ∃ s : Step,
      (log.readAll [(startMarker, 3), ("error: no such file", 4), (finishMarker, 9)]).steps =
        log.steps ++ [s] ∧
      s.name = "compile (results:" ∧ s.startedLine = 3 ∧ s.finishedLine = some 9 ∧
      s.duration = some 62 ∧ s.outcome = .userCancel := by
  intro log startMarker finishMarker
  have hstarted : misleading.1.Clear := by
    refine ⟨⟨by decide, ?_, ?_⟩, ?_, by decide⟩
    · exact Text.occurs_iff.not.mp (by decide)
    · exact Text.occurs_iff.not.mp (by decide)
    · rintro r ⟨⟩
      exact ⟨by decide, List.all_eq_true.mp (by decide), by decide,
        Text.occurs_iff.not.mp (by decide)⟩
  have hresults : misleading.2.results.Clear :=
    ⟨by decide, List.all_eq_true.mp (by decide), by decide,
      Text.occurs_iff.not.mp (by decide)⟩
  have hbetween : ∀ x ∈ [("error: no such file", 4)],
      isStart x.1 = false ∧ isFinish x.1 = false := by
    rw [List.forall_mem_singleton]
    decide +kernel
  have hstart : startMarker = misleading.1.render := by decide
  have hfinish : finishMarker = misleading.2.render := by decide
  obtain ⟨s, hsteps, hname, -, hstartLine, -, hfinishLine, hduration, houtcome, -⟩ :=
    rendered_step_reads_back log "compile (results:" "2013-06-05 12:48:37"
      "2013-06-05 12:49:39.5" misleading.1.results misleading.2.results _ 3 9 hstarted hresults
      (by decide) hbetween
  refine ⟨s, ?_, hname, hstartLine, hfinishLine, ?_, ?_⟩
  · rw [hstart, hfinish]
    exact hsteps
  · rw [hduration]
    decide
  · rw [houtcome]
    decide

end StepSpan
end BuildLog
