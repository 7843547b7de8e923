import BuildLog.Proofs.RecordFields
import BuildLog.Proofs.StepRun

namespace BuildLog
open Text

namespace Timestamp

structure Bounded (t : Timestamp) : Prop where
  day_ge : -100000000 ≤ t.day
  day_le : t.day ≤ 100000000
  second_lt : t.second < 86400
  nanosecond_lt : t.nanosecond < 2000000000

theorem decimalValue_lt {ds : List Char} (h : ∀ c ∈ ds, isAsciiDigit c = true) (n : Nat) :
    ds.foldl (fun n c => 10 * n + (c.toNat - 48)) n < (n + 1) * Nat.pow 10 ds.length := by
  induction ds generalizing n with
  | nil => simp
  | cons c ds ih =>
    obtain ⟨hc, hds⟩ := List.forall_mem_cons.mp h
    have hdigit : c.toNat ≤ 57 := by
      simp only [isAsciiDigit, Bool.and_eq_true, decide_eq_true_eq] at hc
      exact hc.2
    have hpow : Nat.pow 10 (ds.length + 1) = Nat.pow 10 ds.length * 10 := rfl
    have hstep : 10 * n + (c.toNat - 48) + 1 ≤ (n + 1) * 10 := by omega
    rw [List.foldl_cons, List.length_cons, hpow]
    calc ds.foldl (fun n c => 10 * n + (c.toNat - 48)) (10 * n + (c.toNat - 48))
        < (10 * n + (c.toNat - 48) + 1) * Nat.pow 10 ds.length := ih hds _
      _ ≤ (n + 1) * 10 * Nat.pow 10 ds.length := Nat.mul_le_mul_right _ hstep
      _ = (n + 1) * (Nat.pow 10 ds.length * 10) := by rw [Nat.mul_assoc, Nat.mul_comm 10]

theorem fraction?_lt {s r : List Char} {n : Nat} (h : fraction? s = some (n, r)) :
    n < 1000000000 := by
  unfold fraction? at h
  split at h
  · rename_i t
    dsimp only at h
    split at h
    · contradiction
    · obtain ⟨rfl, -⟩ := Prod.mk.inj (Option.some.inj h)
      have hdigits : ∀ c ∈ (t.takeWhile isAsciiDigit).take 9, isAsciiDigit c = true :=
        fun c hc => List.all_eq_true.mp List.all_takeWhile c (List.mem_of_mem_take hc)
      have hlength : ((t.takeWhile isAsciiDigit).take 9).length ≤ 9 := List.length_take_le ..
      have hvalue := decimalValue_lt hdigits 0
      -- fewer than nine digits are scaled up to nine
      have hscale : ∀ k ≤ 9, Nat.pow 10 k * Nat.pow 10 (9 - k) = 1000000000 := by decide
      rw [Nat.zero_add, Nat.one_mul] at hvalue
      rw [← hscale _ hlength]
      exact Nat.mul_lt_mul_of_pos_right hvalue (Nat.pow_pos (by decide))
  · cases h
    decide

theorem daysBefore_le {year : Int} {month : Nat} (h : month ≤ 12) :
    daysBefore year month ≤ 366 := by
  unfold daysBefore monthLengths
  cases isLeapYear year <;> revert month <;> decide

theorem monthLength_le {year : Int} {k length : Nat} (h : (monthLengths year)[k]? = some length) :
    k < 12 ∧ length ≤ 31 := by
  have hk : k < 12 := (List.getElem?_eq_some_iff.mp h).1
  have hall : ∀ n ∈ monthLengths year, n ≤ 31 := by
    unfold monthLengths
    cases isLeapYear year <;> decide
  exact ⟨hk, hall length (List.mem_of_getElem? h)⟩

theorem bounded_of_ofFields? {year : Int} {month day hour minute second nanosecond : Nat}
    (hnano : nanosecond < 1000000000) {t : Timestamp}
    (h : ofFields? year month day hour minute second nanosecond = some t) : t.Bounded := by
  unfold ofFields? at h
  split at h
  · contradiction
  · rename_i length hlength
    have hmonth : (monthLengths year)[month - 1]? = some length := by
      split at hlength
      · contradiction
      · exact hlength
    obtain ⟨hk, hlong⟩ := monthLength_le hmonth
    split at h
    · rename_i hfields
      simp only [Bool.and_eq_true, decide_eq_true_eq, inRange] at hfields
      obtain ⟨⟨⟨⟨⟨⟨hyear, hyear'⟩, hday⟩, hday'⟩, hhour⟩, hminute⟩, hsecond⟩ := hfields
      have hbefore : daysBefore year month ≤ 366 := daysBefore_le (by omega)
      cases h
      refine ⟨?_, ?_, ?_, ?_⟩
      · simp only [dayNumber]
        omega
      · simp only [dayNumber]
        omega
      · dsimp only
        omega
      · dsimp only
        omega
    · contradiction

theorem bounded_of_read? {text : String} {t : Timestamp} (h : read? text = some t) :
    t.Bounded := by
  simp only [read?, bind, Option.bind_eq_some_iff] at h
  obtain ⟨_, _, _, _, _, _, _, _, _, _, _, _, _, _, _, _, _, _, _, _, x, hx, h⟩ := h
  split at h
  · exact bounded_of_ofFields? (fraction?_lt hx) h
  · contradiction

theorem fitsSigned_secondsBetween {a b : Timestamp} (ha : a.Bounded) (hb : b.Bounded) :
    Json.FitsSigned (a.secondsBetween b) := by
  obtain ⟨ha1, ha2, ha3, ha4⟩ := ha
  obtain ⟨hb1, hb2, hb3, hb4⟩ := hb
  have hleaps : -1 ≤ leapsBetween a b ∧ leapsBetween a b ≤ 1 := by
    unfold leapsBetween
    split
    · decide
    · split <;> decide
  have hnano : (nanosecondsBetween a b).natAbs ≤ 20000000000000 * 1000000000 := by
    unfold nanosecondsBetween
    omega
  have habs : (a.secondsBetween b).natAbs ≤ 20000000000000 := by
    rw [secondsBetween, Int.natAbs_tdiv]
    exact Nat.div_le_of_le_mul (by rw [Nat.mul_comm]; exact hnano)
  have hpow : Int.pow 2 63 = 9223372036854775808 := rfl
  unfold Json.FitsSigned
  omega

end Timestamp

def LoggedError.Fits (e : LoggedError) : Prop := Json.FitsCount e.lineNumber

/-- Whether a step can be among those of the given number of lines, with other numbers that fit 64
bits. -/
structure Step.Within (s : Step) (count : Nat) : Prop where
  order : s.order < count
  startedLine : Json.FitsCount s.startedLine
  finishedLine : ∀ n, s.finishedLine = some n → Json.FitsCount n
  duration : ∀ i, s.duration = some i → Json.FitsSigned i
  errors : ∀ e ∈ s.errors, e.Fits
  errorCount : s.errorCount < count

def Step.Fits (s : Step) : Prop := s.Within (Nat.pow 2 64)

structure StepReport.Fits (d : StepReport) : Prop where
  steps : ∀ s ∈ d.steps, s.Fits
  allErrors : ∀ e ∈ d.allErrors, e.Fits

theorem Step.within_of_le {s : Step} {count limit : Nat} (h : s.Within count)
    (hle : count ≤ limit) : s.Within limit :=
  { h with
    order := Nat.lt_of_lt_of_le h.order hle
    errorCount := Nat.lt_of_lt_of_le h.errorCount hle }

namespace StepLog

/-- Whether the steps can be those of the given number of lines. -/
structure Within (l : StepLog) (count : Nat) : Prop where
  length : l.steps.length ≤ count
  steps : ∀ s ∈ l.steps, s.Within count

theorem within_of_le {l : StepLog} {count limit : Nat} (h : l.Within count)
    (hle : count ≤ limit) : l.Within limit :=
  ⟨Nat.le_trans h.length hle, fun s hs => Step.within_of_le (h.steps s hs) hle⟩

/-- The last step may become one of the next count. -/
theorem within_of_last {l l' : StepLog} {s s' : Step} {count : Nat} (h : l.Within count)
    (hl : l.steps = l.closed ++ [s]) (hl' : l'.steps = l.closed ++ [s'])
    (hs : s.Within count → s'.Within (count + 1)) : l'.Within (count + 1) := by
  obtain ⟨hlength, hsteps⟩ := h
  rw [hl, List.length_append, List.length_singleton] at hlength
  rw [hl, List.forall_mem_append, List.forall_mem_singleton] at hsteps
  refine ⟨?_, ?_⟩
  · rw [hl', List.length_append, List.length_singleton]
    omega
  · rw [hl', List.forall_mem_append, List.forall_mem_singleton]
    exact ⟨fun x hx => Step.within_of_le (hsteps.1 x hx) (Nat.le_succ count), hs hsteps.2⟩

theorem fitsSigned_of_duration? {started finished : String} {i : Int}
    (h : duration? started finished = some i) : Json.FitsSigned i := by
  unfold duration? at h
  split at h
  · rename_i a b ha hb
    cases h
    exact Timestamp.fitsSigned_secondsBetween (Timestamp.bounded_of_read? ha)
      (Timestamp.bounded_of_read? hb)
  · contradiction

theorem within_readLine {l : StepLog} {count : Nat} (h : l.Within count) (line : String) {n : Nat}
    (hn : Json.FitsCount n) : (l.readLine line n).Within (count + 1) := by
  have hpass : l.Within (count + 1) := within_of_le h (Nat.le_succ count)
  refine readLine_cases (motive := fun l' => l'.Within (count + 1)) l line n ?_ ?_ ?_ ?_ ?_
  · intro m _
    have hstart : (Step.start m.name l.steps.length m.time n).Within (count + 1) := by
      refine ⟨Nat.lt_succ_of_le h.length, hn, ?_, ?_, ?_, Nat.succ_pos count⟩
      · intro k hk
        contradiction
      · intro i hi
        contradiction
      · intro e he
        contradiction
    refine ⟨?_, ?_⟩
    · rw [steps_start, List.length_append, List.length_singleton]
      exact Nat.succ_le_succ h.length
    · rw [steps_start, List.forall_mem_append, List.forall_mem_singleton]
      exact ⟨hpass.steps, hstart⟩
  · exact fun _ _ => hpass
  · intro s m _ hcur _
    refine within_of_last h (steps_of_current hcur) (steps_finish l s m n) ?_
    intro hs
    have hs' : s.Within (count + 1) := Step.within_of_le hs (Nat.le_succ count)
    refine { hs' with finishedLine := ?_, duration := ?_ }
    · intro k hk
      cases hk
      exact hn
    · intro i hi
      exact fitsSigned_of_duration? hi
  · intro s _ hcur _ _
    refine within_of_last h (steps_of_current hcur) (steps_addError l s line n) ?_
    intro hs
    have hs' : s.Within (count + 1) := Step.within_of_le hs (Nat.le_succ count)
    have herrors : ∀ e ∈ s.errors ++ [⟨n, line⟩], e.Fits :=
      List.forall_mem_append.mpr ⟨hs.errors, List.forall_mem_singleton.mpr hn⟩
    refine { hs' with errors := ?_, errorCount := Nat.succ_lt_succ hs.errorCount }
    unfold Step.addError
    split
    · exact herrors
    · exact hs.errors
  · exact fun _ _ _ _ _ => hpass

theorem within_readAll {l : StepLog} {count : Nat} (h : l.Within count)
    {lines : List (String × Nat)} (hlines : ∀ x ∈ lines, Json.FitsCount x.2) :
    (l.readAll lines).Within (count + lines.length) := by
  induction lines generalizing l count with
  | nil => exact h
  | cons x lines ih =>
    obtain ⟨hx, hlines⟩ := List.forall_mem_cons.mp hlines
    have hrest := ih (within_readLine h x.1 hx) hlines
    rw [readAll_cons, List.length_cons, Nat.add_comm lines.length, ← Nat.add_assoc]
    exact hrest

theorem fits_report (checksErrors : Bool) (maxErrors : Nat) {lines : List (String × Nat)}
    (hlines : ∀ x ∈ lines, Json.FitsCount x.2) (hcount : lines.length ≤ Nat.pow 2 64) :
    ((StepLog.empty checksErrors maxErrors).readAll lines).report.Fits := by
  have hempty : (StepLog.empty checksErrors maxErrors).Within 0 :=
    ⟨Nat.le_refl 0, fun s hs => nomatch hs⟩
  have hwithin := within_readAll hempty hlines
  rw [Nat.zero_add] at hwithin
  have hfits := within_of_le hwithin hcount
  refine ⟨hfits.steps, ?_⟩
  intro e he
  obtain ⟨s, hs, hes⟩ := List.mem_flatMap.mp he
  exact (hfits.steps s hs).errors e hes

end StepLog
end BuildLog
