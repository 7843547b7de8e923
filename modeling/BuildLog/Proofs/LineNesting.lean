import BuildLog.Proofs.SessionRun

namespace BuildLog

def Step.lineNumbers (s : Step) : List Nat :=
  s.startedLine :: s.errors.map LoggedError.lineNumber ++ s.finishedLine.toList

namespace StepLog

def lineNumbers (l : StepLog) : List Nat := l.steps.flatMap Step.lineNumbers

/-- A log whose steps have a finish line if they are finished, which the open one is not. -/
structure Placed (l : StepLog) : Prop where
  current : ∀ s, l.current = some s → s.finishedLine = none
  steps : ∀ s ∈ l.steps, s.isFinished = s.finishedLine.isSome

theorem placed_empty (checksErrors : Bool) (maxErrors : Nat) :
    (empty checksErrors maxErrors).Placed :=
  ⟨by simp [empty], by simp [empty, steps]⟩

/-- A log stays placed when one step is added to the closed ones or put in the place of the last. -/
theorem placed_of_last {l l' : StepLog} {front : List Step} {s : Step} (h : l.Placed)
    (hfront : ∀ t ∈ front, t ∈ l.steps) (hsteps : l'.steps = front ++ [s])
    (hs : s.isFinished = s.finishedLine.isSome)
    (hcur : ∀ t, l'.current = some t → t.finishedLine = none) : l'.Placed := by
  refine ⟨hcur, ?_⟩
  rw [hsteps]
  intro t ht
  obtain ht | ht := List.mem_append.mp ht
  · exact h.steps t (hfront t ht)
  · rw [List.mem_singleton.mp ht]
    exact hs

theorem mem_steps_of_closed {l : StepLog} : ∀ s ∈ l.closed, s ∈ l.steps :=
  fun _ hs => List.mem_append_left _ hs

theorem placed_readLine {l : StepLog} (h : l.Placed) (line : String) (n : Nat) :
    (l.readLine line n).Placed := by
  refine readLine_cases l line n ?_ ?_ ?_ ?_ ?_
  · intro m _
    apply placed_of_last h (fun _ => id) (steps_start l m n) rfl
    intro t ht
    rw [← Option.some.inj ht]
    rfl
  · exact fun _ _ => h
  · intro s m _ _ _
    apply placed_of_last h mem_steps_of_closed (steps_finish l s m n) rfl
    intro t ht
    contradiction
  · intro s _ hcur _ _
    have hmem : s ∈ l.steps := by simp [steps_of_current hcur]
    apply placed_of_last h mem_steps_of_closed (steps_addError l s line n) (h.steps s hmem)
    intro t ht
    rw [addError_eq] at ht
    rw [← Option.some.inj ht]
    exact h.current s hcur
  · exact fun _ _ _ _ _ => h

theorem placed_readAll {l : StepLog} (h : l.Placed) (lines : List (String × Nat)) :
    (l.readAll lines).Placed :=
  readAll_induction (motive := Placed) (fun _ line n h => placed_readLine h line n) h lines

theorem lineNumbers_of_steps {l l' : StepLog} {front : List Step} {s s' : Step} {added : List Nat}
    (hsteps : l.steps = front ++ [s]) (hsteps' : l'.steps = front ++ [s'])
    (hs : s'.lineNumbers = s.lineNumbers ++ added) :
    l'.lineNumbers = l.lineNumbers ++ added := by
  simp [lineNumbers, hsteps, hsteps', hs]

/-- A line puts its number behind all others, or it puts it nowhere. -/
theorem lineNumbers_readLine {l : StepLog} (h : l.Placed) (line : String) (n : Nat) :
    ∃ added, (l.readLine line n).lineNumbers = l.lineNumbers ++ added ∧ added.Sublist [n] := by
  refine readLine_cases (motive := fun l' => ∃ added, l'.lineNumbers = l.lineNumbers ++ added ∧
    added.Sublist [n]) l line n ?_ ?_ ?_ ?_ ?_
  · intro m _
    refine ⟨[n], ?_, List.Sublist.refl _⟩
    simp [lineNumbers, steps_start, Step.lineNumbers, Step.start]
  · exact fun _ _ => ⟨[], (List.append_nil _).symm, List.nil_sublist _⟩
  · intro s m _ hcur _
    refine ⟨[n], ?_, List.Sublist.refl _⟩
    apply lineNumbers_of_steps (steps_of_current hcur) (steps_finish l s m n)
    simp [Step.lineNumbers, Step.finish, h.current s hcur]
  · intro s _ hcur _ _
    -- an error that finds no room leaves no number behind
    refine ⟨if s.errors.length < l.maxErrors then [n] else [], ?_, ?_⟩
    · apply lineNumbers_of_steps (steps_of_current hcur) (steps_addError l s line n)
      unfold Step.addError
      split <;> simp [Step.lineNumbers, h.current s hcur]
    · split
      · exact List.Sublist.refl _
      · exact List.nil_sublist _
  · exact fun _ _ _ _ _ => ⟨[], (List.append_nil _).symm, List.nil_sublist _⟩

theorem lineNumbers_readAll {l : StepLog} (h : l.Placed) (lines : List (String × Nat)) :
    ∃ added, (l.readAll lines).lineNumbers = l.lineNumbers ++ added ∧
      added.Sublist (lines.map Prod.snd) := by
  induction lines generalizing l with
  | nil => exact ⟨[], (List.append_nil _).symm, List.Sublist.refl _⟩
  | cons x lines ih =>
    obtain ⟨first, hfirst, hone⟩ := lineNumbers_readLine h x.1 x.2
    obtain ⟨others, hothers, hrest⟩ := ih (placed_readLine h x.1 x.2)
    refine ⟨first ++ others, ?_, hone.append hrest⟩
    rw [readAll_cons, hothers, hfirst, List.append_assoc]

theorem lineNumbers_readAll_empty (checksErrors : Bool) (maxErrors : Nat)
    (lines : List (String × Nat)) :
    ((empty checksErrors maxErrors).readAll lines).lineNumbers.Sublist (lines.map Prod.snd) := by
  obtain ⟨added, hadded, hsub⟩ := lineNumbers_readAll (placed_empty checksErrors maxErrors) lines
  rw [hadded]
  exact hsub

theorem lineNumbers_step_of_mem {l : StepLog} {s : Step} (hs : s ∈ l.steps) {n : Nat}
    (hn : n ∈ s.lineNumbers) : n ∈ l.lineNumbers :=
  List.mem_flatMap.mpr ⟨s, hs, hn⟩

theorem lt_next_of_ascends {l : StepLog} (h : l.lineNumbers.Pairwise (· < ·)) {k : Nat}
    {s t : Step} (hs : l.steps[k]? = some s) (ht : l.steps[k + 1]? = some t) :
    ∀ n ∈ s.lineNumbers, n < t.startedLine := by
  intro n hn
  obtain ⟨-, hbetween⟩ := List.pairwise_flatMap.mp h
  obtain ⟨hk, rfl⟩ := List.getElem?_eq_some_iff.mp hs
  obtain ⟨hk', rfl⟩ := List.getElem?_eq_some_iff.mp ht
  have hapart := List.pairwise_iff_getElem.mp hbetween k (k + 1) hk hk' (Nat.lt_succ_self k)
  exact hapart n hn _ List.mem_cons_self

theorem nested_of_ascends {l : StepLog} (h : l.lineNumbers.Pairwise (· < ·)) {s : Step}
    (hs : s ∈ l.steps) :
    (∀ n, s.finishedLine = some n → s.startedLine < n) ∧
      ∀ e ∈ s.errors, s.startedLine < e.lineNumber ∧
        ∀ n, s.finishedLine = some n → e.lineNumber < n := by
  have hstep : s.lineNumbers.Pairwise (· < ·) := (List.pairwise_flatMap.mp h).1 s hs
  obtain ⟨hstart, hrest⟩ := List.pairwise_cons.mp hstep
  obtain ⟨-, -, hcross⟩ := List.pairwise_append.mp hrest
  have herror : ∀ e ∈ s.errors, e.lineNumber ∈ s.errors.map LoggedError.lineNumber :=
    fun e he => List.mem_map_of_mem he
  have hfinish : ∀ n, s.finishedLine = some n → n ∈ s.finishedLine.toList :=
    fun n hn => Option.mem_toList.mpr hn
  refine ⟨?_, ?_⟩
  · intro n hn
    exact hstart n (List.mem_append_right _ (hfinish n hn))
  · intro e he
    refine ⟨hstart _ (List.mem_append_left _ (herror e he)), ?_⟩
    intro n hn
    exact hcross _ (herror e he) n (hfinish n hn)

theorem allErrors_sublist (l : StepLog) :
    (l.report.allErrors.map LoggedError.lineNumber).Sublist l.lineNumbers := by
  have hstep (s : Step) : (s.errors.map LoggedError.lineNumber).Sublist s.lineNumbers :=
    (List.sublist_append_left _ _).cons _
  have hall : l.report.allErrors.map LoggedError.lineNumber =
      l.steps.flatMap fun s => s.errors.map LoggedError.lineNumber := List.map_flatMap
  rw [hall, lineNumbers]
  induction l.steps with
  | nil => exact List.Sublist.refl _
  | cons s steps ih =>
    rw [List.flatMap_cons, List.flatMap_cons]
    exact (hstep s).append ih

end StepLog

namespace Session
open StepLog

/-- In the report of a structured log steps come one after the other: a step is over, with all its
errors, before the next one starts. Its errors lie after its start and before its finish, all errors
together ascend, and no number has been reached that the session has not counted. -/
theorem lineNumbers_nest (url : Option String) (o : Options) (lines : List String) :
    let final := ((ReportKind.structuredLog.session url o).readEach lines).1
    let log := (StepLog.empty o.checkErrors o.maxStepErrors).readAll
      (lines.map o.truncation.cut).zipIdx
    Section.steps log ∈ final.sections ∧
    final.artifact.field? "step_data" = some log.report.toJson ∧
    (∀ k s t, log.report.steps[k]? = some s → log.report.steps[k + 1]? = some t →
      s.startedLine < t.startedLine ∧
      (∀ n, s.finishedLine = some n → n < t.startedLine) ∧
      ∀ e ∈ s.errors, e.lineNumber < t.startedLine) ∧
    (∀ s ∈ log.report.steps,
      (s.isFinished = true → ∃ n, s.finishedLine = some n ∧ s.startedLine < n) ∧
      ∀ e ∈ s.errors, s.startedLine < e.lineNumber ∧
        ∀ n, s.finishedLine = some n → e.lineNumber < n) ∧
    (log.report.allErrors.map LoggedError.lineNumber).Pairwise (· < ·) ∧
    (∀ s ∈ log.report.steps, s.startedLine < final.lineNumber ∧
      ∀ n, s.finishedLine = some n → n < final.lineNumber) ∧
    ∀ e ∈ log.report.allErrors, e.lineNumber < final.lineNumber := by
  intro final log
  let seen := (lines.map o.truncation.cut).zipIdx
  have hsections : final.sections =
      [.header (Header.empty.readAll (lines.map o.truncation.cut)), .steps log] :=
    readEach_structuredLog url o lines
  have hplaced : log.Placed :=
    placed_readAll (placed_empty o.checkErrors o.maxStepErrors) seen
  have hnumbers : seen.map Prod.snd = List.range' 0 lines.length := by
    rw [List.zipIdx_map_snd, List.length_map]
  have hsub : log.lineNumbers.Sublist (List.range' 0 lines.length) :=
    hnumbers ▸ lineNumbers_readAll_empty o.checkErrors o.maxStepErrors seen
  have hascends : log.lineNumbers.Pairwise (· < ·) :=
    (List.pairwise_lt_range' (s := 0) (n := lines.length)).sublist hsub
  have hcount : final.lineNumber = lines.length := by
    rw [lineNumber_readEach]
    exact Nat.zero_add _
  have hpast : ∀ n ∈ log.lineNumbers, n < final.lineNumber := by
    intro n hn
    rw [hcount]
    simpa using hsub.subset hn
  refine ⟨?_, ?_, ?_, ?_, ?_, ?_, ?_⟩
  · simp [hsections]
  · rw [field?_artifact, hsections]
    rfl
  · intro k s t hs ht
    have hlt := lt_next_of_ascends hascends hs ht
    refine ⟨hlt _ List.mem_cons_self, ?_, ?_⟩
    · intro n hn
      apply hlt n
      simp [Step.lineNumbers, hn]
    · intro e he
      apply hlt
      simp only [Step.lineNumbers, List.cons_append, List.mem_cons, List.mem_append]
      exact .inr (.inl (List.mem_map_of_mem he))
  · intro s hs
    obtain ⟨hfinish, herrors⟩ := nested_of_ascends hascends hs
    refine ⟨?_, herrors⟩
    intro hfinished
    rw [hplaced.steps s hs] at hfinished
    obtain ⟨n, hn⟩ := Option.isSome_iff_exists.mp hfinished
    exact ⟨n, hn, hfinish n hn⟩
  · exact hascends.sublist (allErrors_sublist log)
  · intro s hs
    have hin : ∀ n ∈ s.lineNumbers, n < final.lineNumber :=
      fun n hn => hpast n (lineNumbers_step_of_mem hs hn)
    refine ⟨hin _ List.mem_cons_self, ?_⟩
    intro n hn
    apply hin n
    simp [Step.lineNumbers, hn]
  · intro e he
    exact hpast _ ((allErrors_sublist log).subset (List.mem_map_of_mem he))

def errorInEach : List String :=
  ["builder: b", "========= Started a (at 1) =========", "abort: first",
    "========= Finished a (results: 0, elapsed: 0 secs) (at 2) =========",
    "abort: outside", "========= Started b (at 3) =========", "abort: last"]

theorem lineNumbers_errorInEach :
    let final := ((ReportKind.structuredLog.session none Options.standard).readEach errorInEach).1
    let log := (StepLog.empty true 100).readAll
      (errorInEach.map Truncation.standard.cut).zipIdx
    ∃ s t e, log.report.steps = [s, t] ∧ s.isFinished = true ∧ e ∈ s.errors ∧
      s.startedLine < e.lineNumber ∧
      (∃ n, s.finishedLine = some n ∧ e.lineNumber < n ∧ n < t.startedLine) ∧
      log.report.allErrors.length = 2 ∧
      t.startedLine < final.lineNumber := by
  intro final log
  let s : Step := ⟨"a", 0, "1", 1, some "2", some 3, none, .success, [⟨2, "abort: first"⟩], 1⟩
  let t : Step := ⟨"b", 1, "3", 5, none, none, none, .unknown, [⟨6, "abort: last"⟩], 1⟩
  let e : LoggedError := ⟨2, "abort: first"⟩
  have hsteps : log.report.steps = [s, t] := by decide +kernel
  have hs : log.report.steps[0]? = some s := by rw [hsteps]; rfl
  have ht : log.report.steps[1]? = some t := by rw [hsteps]; rfl
  have hmem : s ∈ log.report.steps := List.mem_of_getElem? hs
  have he : e ∈ s.errors := List.mem_singleton.mpr rfl
  obtain ⟨-, -, hapart, hnested, -, hbound, -⟩ :=
    lineNumbers_nest none Options.standard errorInEach
  obtain ⟨-, hfinish, -⟩ := hapart 0 s t hs ht
  obtain ⟨hfinished, herrors⟩ := hnested s hmem
  obtain ⟨n, hn, -⟩ := hfinished rfl
  obtain ⟨hafter, hbefore⟩ := herrors e he
  refine ⟨s, t, e, hsteps, rfl, he, hafter, ⟨n, hn, hbefore n hn, hfinish n hn⟩, ?_, ?_⟩
  · decide +kernel
  · exact (hbound t (List.mem_of_getElem? ht)).1

end Session
end BuildLog
