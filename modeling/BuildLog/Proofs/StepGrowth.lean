import BuildLog.Proofs.StepRun
import Mathlib.Data.List.Infix

namespace BuildLog

namespace Step

/-- What may become of a step that is open: its start stays, errors come on. -/
structure Grows (s s' : Step) : Prop where
  name : s'.name = s.name
  order : s'.order = s.order
  started : s'.started = s.started
  startedLine : s'.startedLine = s.startedLine
  errors : s.errors <+: s'.errors
  errorCount : s.errorCount ≤ s'.errorCount

theorem grows_refl (s : Step) : s.Grows s :=
  ⟨rfl, rfl, rfl, rfl, List.prefix_rfl, Nat.le_refl _⟩

theorem Grows.trans {s s' s'' : Step} (h : s.Grows s') (h' : s'.Grows s'') : s.Grows s'' where
  name := h'.name.trans h.name
  order := h'.order.trans h.order
  started := h'.started.trans h.started
  startedLine := h'.startedLine.trans h.startedLine
  errors := h.errors.trans h'.errors
  errorCount := h.errorCount.trans h'.errorCount

theorem grows_finish (s : Step) (m : StepMarker.Finished) (n : Nat) : s.Grows (s.finish m n) :=
  ⟨rfl, rfl, rfl, rfl, List.prefix_rfl, Nat.le_refl _⟩

theorem grows_addError (s : Step) (maxErrors : Nat) (line : String) (n : Nat) :
    s.Grows (s.addError maxErrors line n) := by
  refine ⟨rfl, rfl, rfl, rfl, ?_, Nat.le_succ _⟩
  unfold addError
  split
  · exact List.prefix_append _ _
  · exact List.prefix_rfl

end Step

namespace StepLog

/-- The step that is open has no finish yet, and without one the last step has. -/
structure Tidy (l : StepLog) : Prop where
  current : ∀ s, l.current = some s → s.isFinished = false
  last : l.current = none → ∀ s, l.closed.getLast? = some s → s.isFinished = true

theorem tidy_empty (checksErrors : Bool) (maxErrors : Nat) : (empty checksErrors maxErrors).Tidy :=
  ⟨by simp [empty], by simp [empty]⟩

theorem tidy_of_open {l : StepLog} {s : Step} (hcur : l.current = some s)
    (hs : s.isFinished = false) : l.Tidy := by
  constructor
  · intro s' hs'
    rw [hcur] at hs'
    exact Option.some.inj hs' ▸ hs
  · intro hnone
    simp [hcur] at hnone

theorem tidy_readLine {l : StepLog} (h : l.Tidy) (line : String) (n : Nat) :
    (l.readLine line n).Tidy := by
  refine readLine_cases l line n ?_ ?_ ?_ ?_ ?_
  · intro m _
    exact tidy_of_open (s := Step.start m.name l.steps.length m.time n) rfl rfl
  · exact fun _ _ => h
  · intro s m _ _ _
    rw [finish_eq]
    refine ⟨by simp, ?_⟩
    intro _ s' hs'
    rw [List.getLast?_concat, Option.some.injEq] at hs'
    rw [← hs']
    rfl
  · intro s _ hcur _ _
    rw [addError_eq]
    exact tidy_of_open rfl (h.current s hcur)
  · exact fun _ _ _ _ _ => h

theorem tidy_readAll {l : StepLog} (h : l.Tidy) (lines : List (String × Nat)) :
    (l.readAll lines).Tidy :=
  readAll_induction (motive := Tidy) (fun _ line n h => tidy_readLine h line n) h lines

theorem current_eq_some_iff {l : StepLog} (h : l.Tidy) {s : Step} :
    l.current = some s ↔ l.steps.getLast? = some s ∧ s.isFinished = false := by
  cases hcur : l.current with
  | some s' =>
    rw [steps_of_current hcur, List.getLast?_concat, Option.some.injEq]
    constructor
    · rintro rfl
      exact ⟨rfl, h.current s' hcur⟩
    · exact And.left
  | none =>
    have hsteps : l.steps = l.closed := by simp [steps, hcur]
    rw [hsteps]
    constructor
    · intro hs
      contradiction
    · rintro ⟨hlast, hs⟩
      rw [h.last hcur s hlast] at hs
      contradiction

/-- What a log may become when more lines are read. -/
structure Extends (l l' : StepLog) : Prop where
  closed : l.closed <+: l'.closed
  current : ∀ s, l.current = some s → ∃ s', l'.steps[l.closed.length]? = some s' ∧ s.Grows s'
  truncated : l.errorsTruncated = true → l'.errorsTruncated = true

theorem getElem?_of_prefix {α : Type} {xs ys : List α} (h : xs <+: ys) {k : Nat} {x : α}
    (hx : xs[k]? = some x) : ys[k]? = some x := by
  obtain ⟨hk, rfl⟩ := List.getElem?_eq_some_iff.mp hx
  exact List.prefix_iff_getElem?.mp h k hk

theorem getElem?_steps_cases {l : StepLog} {k : Nat} {s : Step} (h : l.steps[k]? = some s) :
    l.closed[k]? = some s ∨ k = l.closed.length ∧ l.current = some s := by
  by_cases hk : k < l.closed.length
  · rw [steps, List.getElem?_append_left hk] at h
    exact .inl h
  · rw [steps, List.getElem?_append_right (by omega)] at h
    cases hcur : l.current with
    | none => simp [hcur] at h
    | some s' =>
      rw [hcur, Option.toList_some, List.getElem?_singleton] at h
      split at h
      · exact .inr ⟨by omega, h⟩
      · contradiction

theorem closed_prefix_steps {l l' : StepLog} (h : l.Extends l') : l.closed <+: l'.steps :=
  h.closed.trans (List.prefix_append _ _)

theorem exists_grown {l l' : StepLog} (h : l.Extends l') {k : Nat} {s : Step}
    (hs : l.steps[k]? = some s) : ∃ s', l'.steps[k]? = some s' ∧ s.Grows s' := by
  obtain hs | ⟨rfl, hcur⟩ := getElem?_steps_cases hs
  · exact ⟨s, getElem?_of_prefix (closed_prefix_steps h) hs, s.grows_refl⟩
  · exact h.current s hcur

theorem extends_refl (l : StepLog) : l.Extends l := by
  refine ⟨List.prefix_rfl, ?_, id⟩
  intro s hcur
  refine ⟨s, ?_, s.grows_refl⟩
  rw [steps_of_current hcur]
  exact List.getElem?_concat_length

theorem Extends.trans {l l' l'' : StepLog} (h : l.Extends l') (h' : l'.Extends l'') :
    l.Extends l'' := by
  refine ⟨h.closed.trans h'.closed, ?_, h'.truncated ∘ h.truncated⟩
  intro s hcur
  -- the open step may be closed by now, so it is looked up among all steps
  obtain ⟨s', hs', hgrows⟩ := h.current s hcur
  obtain ⟨s'', hs'', hgrows'⟩ := exists_grown h' hs'
  exact ⟨s'', hs'', hgrows.trans hgrows'⟩

theorem extends_start (l : StepLog) (m : StepMarker.Started) (n : Nat) :
    l.Extends (l.start m n) := by
  refine ⟨List.prefix_append _ _, ?_, id⟩
  intro s hcur
  refine ⟨s, ?_, s.grows_refl⟩
  rw [steps_start, steps_of_current hcur, List.append_assoc, List.getElem?_append_right (by omega)]
  simp

/-- A log extends another if in the place of the open step there is one that has grown from it. -/
theorem extends_of_current {l l' : StepLog} {s s' : Step} (hcur : l.current = some s)
    (hgrows : s.Grows s') (hclosed : l.closed <+: l'.closed) (hsteps : l'.steps = l.closed ++ [s'])
    (htruncated : l.errorsTruncated = true → l'.errorsTruncated = true) : l.Extends l' := by
  refine ⟨hclosed, ?_, htruncated⟩
  intro s₀ hs₀
  obtain rfl : s = s₀ := Option.some.inj (hcur.symm.trans hs₀)
  refine ⟨s', ?_, hgrows⟩
  rw [hsteps]
  exact List.getElem?_concat_length

theorem extends_finish {l : StepLog} {s : Step} (hcur : l.current = some s)
    (m : StepMarker.Finished) (n : Nat) : l.Extends (l.finish s m n) :=
  extends_of_current hcur (s.grows_finish m n) (List.prefix_append _ _) (steps_finish l s m n) id

theorem extends_addError {l : StepLog} {s : Step} (hcur : l.current = some s) (line : String)
    (n : Nat) : l.Extends (l.addError s line n) := by
  apply extends_of_current hcur (s.grows_addError l.maxErrors line n) _ (steps_addError l s line n)
  · rw [addError_eq]
    intro h
    rw [h, Bool.true_or]
  · rw [addError_eq]

theorem extends_readLine (l : StepLog) (line : String) (n : Nat) :
    l.Extends (l.readLine line n) := by
  refine readLine_cases l line n ?_ ?_ ?_ ?_ ?_
  · exact fun m _ => extends_start l m n
  · exact fun _ _ => extends_refl l
  · exact fun s m _ hcur _ => extends_finish hcur m n
  · exact fun s _ hcur _ _ => extends_addError hcur line n
  · exact fun _ _ _ _ _ => extends_refl l

theorem extends_readAll (l : StepLog) (lines : List (String × Nat)) :
    l.Extends (l.readAll lines) :=
  readAll_induction (motive := l.Extends) (fun l' line n h => h.trans (extends_readLine l' line n))
    (extends_refl l) lines

/-- The errors on record stay in front: no closed step takes more, and the open step only adds to
the end of its own. -/
theorem allErrors_prefix {l l' : StepLog} (h : l.Extends l') :
    l.report.allErrors <+: l'.report.allErrors := by
  obtain ⟨later, hlater⟩ := closed_prefix_steps h
  have herrors : l.report.allErrors =
      l.closed.flatMap Step.errors ++ l.current.toList.flatMap Step.errors := List.flatMap_append
  have herrors' : l'.report.allErrors =
      l.closed.flatMap Step.errors ++ later.flatMap Step.errors := by
    rw [← List.flatMap_append, hlater]
    rfl
  rw [herrors, herrors', List.prefix_append_right_inj]
  cases hcur : l.current with
  | none => exact List.nil_prefix
  | some s =>
    -- the first of the steps that were not closed before is what the open step has become
    obtain ⟨s', hs', hgrows⟩ := h.current s hcur
    rw [← hlater, List.getElem?_append_right (Nat.le_refl _), Nat.sub_self] at hs'
    cases later with
    | nil => contradiction
    | cons s'' later =>
      obtain rfl : s'' = s' := Option.some.inj hs'
      rw [Option.toList_some, List.flatMap_singleton, List.flatMap_cons]
      exact hgrows.errors.trans (List.prefix_append _ _)

/-- Of an earlier and a later report of a log, the later one has every step of the earlier one in
its place: unchanged, unless it is the last and not finished, and that one only grows. The errors on
record are a front of the later ones, and once some are left out of the record that is so for
good. -/
theorem reports_only_grow (checksErrors : Bool) (maxErrors : Nat)
    (lines more : List (String × Nat)) :
    let log := (empty checksErrors maxErrors).readAll lines
    let earlier := log.report
    let later := (log.readAll more).report
    (∀ s, log.current = some s ↔ earlier.steps.getLast? = some s ∧ s.isFinished = false) ∧
    (∀ (k : Nat) (s : Step), earlier.steps[k]? = some s →
      k + 1 < earlier.steps.length ∨ s.isFinished = true → later.steps[k]? = some s) ∧
    (∀ (k : Nat) (s : Step), earlier.steps[k]? = some s →
      ∃ s', later.steps[k]? = some s' ∧ s.Grows s') ∧
    earlier.allErrors <+: later.allErrors ∧
    (earlier.errorsTruncated = true → later.errorsTruncated = true) := by
  intro log earlier later
  have htidy : log.Tidy := tidy_readAll (tidy_empty checksErrors maxErrors) lines
  have hextends : log.Extends (log.readAll more) := extends_readAll log more
  refine ⟨fun s => current_eq_some_iff htidy, ?_, ?_, allErrors_prefix hextends,
    hextends.truncated⟩
  · intro k s hs hclosed
    obtain hs | ⟨rfl, hcur⟩ := getElem?_steps_cases hs
    · exact getElem?_of_prefix (closed_prefix_steps hextends) hs
    · -- the open step is the last one and has no finish
      have hlength : earlier.steps.length = log.closed.length + 1 := by
        simp [earlier, report, steps_of_current hcur]
      obtain hlast | hfinished := hclosed
      · omega
      · rw [htidy.current s hcur] at hfinished
        contradiction
  · intro k s hs
    exact exists_grown hextends hs

def halfway : List (String × Nat) :=
  [("========= Started a (at 1) =========", 5),
    ("========= Finished a (results: 0, elapsed: 0 secs) (at 1) =========", 6),
    ("========= Started b (at 2) =========", 7), ("abort: first", 8)]

theorem reports_grow_halfway :
    let log := (empty true 1).readAll halfway
    let later := (log.readAll [("abort: second", 3)]).report
    ∃ s t, log.report.steps = [s, t] ∧ s.isFinished = true ∧ t.isFinished = false ∧
      log.current = some t ∧ later.steps[0]? = some s ∧
      ∃ t', later.steps[1]? = some t' ∧ t.Grows t' ∧ t'.errorCount = 2 ∧
        later.errorsTruncated = true := by
  intro log later
  let s : Step := ⟨"a", 0, "1", 5, some "1", some 6, none, .success, [], 0⟩
  let t : Step := ⟨"b", 1, "2", 7, none, none, none, .unknown, [⟨8, "abort: first"⟩], 1⟩
  have hlog : log = ⟨true, 1, [s], some t, false⟩ := by decide +kernel
  have hs : log.report.steps[0]? = some s := by rw [hlog]; rfl
  have ht : log.report.steps[1]? = some t := by rw [hlog]; rfl
  have hlast : log.report.steps.getLast? = some t := by rw [hlog]; rfl
  obtain ⟨hopen, hstay, hgrow, -, -⟩ := reports_only_grow true 1 halfway [("abort: second", 3)]
  obtain ⟨t', ht', hgrows⟩ := hgrow 1 t ht
  have hcount : (later.steps[1]?.map Step.errorCount, later.errorsTruncated) = (some 2, true) := by
    dsimp only [later]
    rw [hlog]
    decide +kernel
  rw [ht', Option.map_some, Prod.mk.injEq, Option.some.injEq] at hcount
  refine ⟨s, t, ?_, rfl, rfl, (hopen t).mpr ⟨hlast, rfl⟩, hstay 0 s hs (.inr rfl), t', ht', hgrows,
    hcount⟩
  rw [hlog]
  rfl

end StepLog
end BuildLog
