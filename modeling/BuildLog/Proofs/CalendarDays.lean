import BuildLog.Timestamp
import Mathlib.Logic.Function.Iterate

namespace BuildLog

structure Date where
  year : Nat
  month : Nat
  day : Nat
deriving DecidableEq

namespace Date

/-- Every fourth year is a leap year, but of the full centuries only every fourth one. -/
def isLeap (year : Nat) : Bool := year % 4 = 0 && (year % 100 ≠ 0 || year % 400 = 0)

def monthLength (year : Nat) : (month : Nat) → Nat
  | 2 => if isLeap year then 29 else 28
  | 4 | 6 | 9 | 11 => 30
  | _ => 31

structure Valid (d : Date) : Prop where
  month_pos : 1 ≤ d.month
  month_le : d.month ≤ 12
  day_pos : 1 ≤ d.day
  day_le : d.day ≤ monthLength d.year d.month

instance (d : Date) : Decidable d.Valid :=
  decidable_of_iff (1 ≤ d.month ∧ d.month ≤ 12 ∧ 1 ≤ d.day ∧ d.day ≤ monthLength d.year d.month)
    ⟨fun ⟨hmonth, hmonth', hday, hday'⟩ => ⟨hmonth, hmonth', hday, hday'⟩,
      fun ⟨hmonth, hmonth', hday, hday'⟩ => ⟨hmonth, hmonth', hday, hday'⟩⟩

def next (d : Date) : Date :=
  if d.day < monthLength d.year d.month then ⟨d.year, d.month, d.day + 1⟩
  else if d.month < 12 then ⟨d.year, d.month + 1, 1⟩
  else ⟨d.year + 1, 1, 1⟩

/-- Whether day `e` is `n` days after day `d`, or as many days before it if `n` is negative. -/
def IsAfter (d e : Date) (n : Int) : Prop :=
  ∃ k : Nat, (n = k ∧ next^[k] d = e) ∨ (n = -(k : Int) ∧ next^[k] e = d)

def first : Date := ⟨0, 1, 1⟩

def number (d : Date) : Int := Timestamp.dayNumber d.year d.month d.day

theorem monthLength_pos (year month : Nat) : 1 ≤ monthLength year month := by
  unfold monthLength
  split <;> try split
  all_goals omega

theorem month_cases {month : Nat} (hpos : 1 ≤ month) (hle : month ≤ 12) :
    month ∈ [1, 2, 3, 4, 5, 6, 7, 8, 9, 10, 11, 12] := by
  simp only [List.mem_cons, List.not_mem_nil, or_false]
  omega

theorem isLeapYear_eq (year : Nat) : Timestamp.isLeapYear year = isLeap year := by
  unfold Timestamp.isLeapYear isLeap
  rw [Bool.eq_iff_iff]
  simp only [Bool.and_eq_true, Bool.or_eq_true, beq_iff_eq, bne_iff_ne, decide_eq_true_eq]
  omega

theorem getElem?_monthLengths (year : Nat) {month : Nat} (hpos : 1 ≤ month) (hle : month ≤ 12) :
    (Timestamp.monthLengths year)[month - 1]? = some (monthLength year month) := by
  unfold Timestamp.monthLengths
  rw [isLeapYear_eq]
  have hmonth := month_cases hpos hle
  simp only [List.mem_cons, List.not_mem_nil, or_false] at hmonth
  obtain rfl | rfl | rfl | rfl | rfl | rfl | rfl | rfl | rfl | rfl | rfl | rfl := hmonth <;> rfl

theorem daysBefore_succ (year : Nat) {month : Nat} (hpos : 1 ≤ month) (hle : month ≤ 12) :
    Timestamp.daysBefore year (month + 1) =
      Timestamp.daysBefore year month + monthLength year month := by
  have hlength := getElem?_monthLengths year hpos hle
  obtain ⟨m, rfl⟩ : ∃ m, month = m + 1 := ⟨month - 1, by omega⟩
  rw [Nat.add_sub_cancel] at hlength
  rw [Timestamp.daysBefore, Timestamp.daysBefore, Nat.add_sub_cancel, Nat.add_sub_cancel,
    List.take_add_one, hlength, List.foldl_append]
  rfl

theorem daysBefore_thirteen (year : Nat) :
    Timestamp.daysBefore year 13 = if isLeap year then 366 else 365 := by
  unfold Timestamp.daysBefore Timestamp.monthLengths
  rw [isLeapYear_eq]
  cases isLeap year <;> rfl

theorem valid_next {d : Date} (h : d.Valid) : d.next.Valid := by
  obtain ⟨hmonth, hmonth', hday, hday'⟩ := h
  unfold next
  split
  · rename_i hlt
    exact ⟨hmonth, hmonth', by dsimp only; omega, hlt⟩
  · split
    · rename_i hlt
      exact ⟨by dsimp only; omega, hlt, Nat.le_refl 1, monthLength_pos _ _⟩
    · exact ⟨Nat.le_refl 1, Nat.le_add_left 1 11, Nat.le_refl 1, monthLength_pos _ _⟩

theorem number_next {d : Date} (h : d.Valid) : d.next.number = d.number + 1 := by
  obtain ⟨hmonth, hmonth', hday, hday'⟩ := h
  unfold next
  split
  · simp only [number, Timestamp.dayNumber]
    omega
  · rename_i hlast
    have hlength : d.day = monthLength d.year d.month := by omega
    have hmonths := daysBefore_succ d.year hmonth hmonth'
    split
    · simp only [number, Timestamp.dayNumber, hmonths]
      omega
    · -- the year is over after the days of its twelve months
      have hdecember : d.month = 12 := by omega
      have hjanuary : Timestamp.daysBefore (d.year + 1 : Nat) 1 = 0 := rfl
      rw [hdecember, daysBefore_thirteen] at hmonths
      rw [hdecember] at hlength
      simp only [number, Timestamp.dayNumber, hdecember, hjanuary, hlength]
      cases hleap : isLeap d.year with
      | true =>
        rw [if_pos hleap] at hmonths
        simp only [isLeap, Bool.and_eq_true, Bool.or_eq_true, decide_eq_true_eq] at hleap
        omega
      | false =>
        rw [if_neg (by simp [hleap])] at hmonths
        simp only [isLeap, Bool.and_eq_false_iff, Bool.or_eq_false_iff,
          decide_eq_false_iff_not] at hleap
        omega

theorem valid_iterate {d : Date} (h : d.Valid) (n : Nat) : (next^[n] d).Valid := by
  induction n with
  | zero => exact h
  | succ n ih =>
    rw [Function.iterate_succ_apply']
    exact valid_next ih

theorem number_iterate {d : Date} (h : d.Valid) (n : Nat) :
    (next^[n] d).number = d.number + n := by
  induction n with
  | zero => simp
  | succ n ih =>
    rw [Function.iterate_succ_apply', number_next (valid_iterate h n), ih]
    omega

theorem number_of_isAfter {d e : Date} (hd : d.Valid) (he : e.Valid) {n : Int}
    (h : d.IsAfter e n) : e.number - d.number = n := by
  obtain ⟨k, ⟨rfl, rfl⟩ | ⟨rfl, rfl⟩⟩ := h
  · rw [number_iterate hd]
    omega
  · rw [number_iterate he]
    omega

theorem IsAfter.symm {d e : Date} {n : Int} (h : d.IsAfter e n) : e.IsAfter d (-n) := by
  obtain ⟨k, ⟨rfl, hk⟩ | ⟨rfl, hk⟩⟩ := h
  · exact ⟨k, .inr ⟨rfl, hk⟩⟩
  · exact ⟨k, .inl ⟨Int.neg_neg _, hk⟩⟩

theorem next_day {year month day : Nat} (h : day < monthLength year month) :
    next ⟨year, month, day⟩ = ⟨year, month, day + 1⟩ :=
  if_pos h

theorem next_month (year : Nat) {month : Nat} (h : month < 12) :
    next ⟨year, month, monthLength year month⟩ = ⟨year, month + 1, 1⟩ := by
  rw [next, if_neg (Nat.lt_irrefl _), if_pos h]

theorem next_year (year : Nat) : next ⟨year, 12, 31⟩ = ⟨year + 1, 1, 1⟩ := rfl

theorem exists_previous {d : Date} (h : d.Valid) (hne : d ≠ first) :
    ∃ e : Date, e.Valid ∧ e.next = d ∧
      (e.year < d.year ∨ e.year = d.year ∧
        (e.month < d.month ∨ e.month = d.month ∧ e.day < d.day)) := by
  obtain ⟨year, month, day⟩ := d
  obtain ⟨hmonth, hmonth', hday, hday'⟩ := h
  obtain ⟨month, rfl⟩ : ∃ m, month = m + 1 := Nat.exists_eq_add_of_le' hmonth
  obtain ⟨day, rfl⟩ : ∃ d, day = d + 1 := Nat.exists_eq_add_of_le' hday
  obtain rfl | hlater := Nat.eq_zero_or_pos day
  · obtain rfl | hlater := Nat.eq_zero_or_pos month
    · have hyear : year ≠ 0 := by
        rintro rfl
        exact hne rfl
      obtain ⟨year, rfl⟩ := Nat.exists_eq_add_one_of_ne_zero hyear
      refine ⟨⟨year, 12, 31⟩, ?_, next_year year, .inl (Nat.lt_succ_self year)⟩
      exact ⟨Nat.le_add_left 1 11, Nat.le_refl 12, Nat.le_add_left 1 30, Nat.le_refl 31⟩
    · refine ⟨⟨year, month, monthLength year month⟩, ?_, next_month year hmonth',
        .inr ⟨rfl, .inl (Nat.lt_succ_self month)⟩⟩
      exact ⟨hlater, Nat.le_of_succ_le hmonth', monthLength_pos year month, Nat.le_refl _⟩
  · refine ⟨⟨year, month + 1, day⟩, ?_, next_day hday',
      .inr ⟨rfl, .inr ⟨rfl, Nat.lt_succ_self day⟩⟩⟩
    exact ⟨hmonth, hmonth', hlater, Nat.le_of_succ_le hday'⟩

/-- Counting from the first day gets to every day. -/
theorem exists_iterate_first {d : Date} (h : d.Valid) : ∃ n, next^[n] first = d := by
  by_cases hne : d = first
  · exact ⟨0, hne.symm⟩
  · obtain ⟨e, he, hnext, hearlier⟩ := exists_previous h hne
    obtain ⟨n, hn⟩ := exists_iterate_first he
    refine ⟨n + 1, ?_⟩
    rw [Function.iterate_succ_apply', hn, hnext]
termination_by (d.year, d.month, d.day)
decreasing_by
  simp only [Prod.lex_def]
  exact hearlier

theorem exists_isAfter {d e : Date} (hd : d.Valid) (he : e.Valid) : ∃ n, d.IsAfter e n := by
  obtain ⟨i, hi⟩ := exists_iterate_first hd
  obtain ⟨j, hj⟩ := exists_iterate_first he
  obtain ⟨k, rfl⟩ | ⟨k, rfl⟩ :=
    (Nat.le_total i j).imp Nat.exists_eq_add_of_le Nat.exists_eq_add_of_le
  · rw [Nat.add_comm, Function.iterate_add_apply, hi] at hj
    exact ⟨k, k, .inl ⟨rfl, hj⟩⟩
  · rw [Nat.add_comm, Function.iterate_add_apply, hj] at hi
    exact ⟨-(k : Int), k, .inr ⟨rfl, hi⟩⟩

end Date
end BuildLog
