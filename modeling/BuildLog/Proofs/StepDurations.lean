import BuildLog.Proofs.ReportBounds
import BuildLog.Proofs.TimestampText
import Mathlib.Data.Rat.Floor

namespace BuildLog
open Text

/-- The digits of a timestamp `YYYY-MM-DD HH:MM:SS` and those of a fraction of a second, if there is
one. -/
structure Stamp where
  year : List Char
  month : List Char
  day : List Char
  hour : List Char
  minute : List Char
  second : List Char
  fraction : List Char
deriving DecidableEq

/-- The integer next to a number on the side of zero. -/
def towardZero (q : ℚ) : ℤ := if 0 ≤ q then ⌊q⌋ else ⌈q⌉

namespace Stamp

def fractionText (s : Stamp) : List Char := if s.fraction = [] then [] else '.' :: s.fraction

def text (s : Stamp) : String :=
  String.ofList (s.year ++ '-' :: (s.month ++ '-' :: (s.day ++ ' ' :: (s.hour ++ ':' ::
    (s.minute ++ ':' :: (s.second ++ s.fractionText))))))

def date (s : Stamp) : Date :=
  ⟨decimalValue s.year, decimalValue s.month, decimalValue s.day⟩

def timeOfDay (s : Stamp) : ℚ :=
  decimalValue s.hour * 3600 + decimalValue s.minute * 60 + decimalValue s.second +
    decimalValue s.fraction / 10 ^ s.fraction.length

structure Valid (s : Stamp) : Prop where
  year_length : s.year.length = 4
  month_length : s.month.length = 2
  day_length : s.day.length = 2
  hour_length : s.hour.length = 2
  minute_length : s.minute.length = 2
  second_length : s.second.length = 2
  fraction_length : s.fraction.length ≤ 9
  digits : ∀ ds ∈ [s.year, s.month, s.day, s.hour, s.minute, s.second, s.fraction], ∀ c ∈ ds,
    isAsciiDigit c = true
  date : s.date.Valid
  hour_lt : decimalValue s.hour < 24
  minute_lt : decimalValue s.minute < 60
  second_lt : decimalValue s.second < 60

def nanosecond (s : Stamp) : Nat := decimalValue s.fraction * Nat.pow 10 (9 - s.fraction.length)

def timestamp (s : Stamp) : Timestamp :=
  ⟨s.date.number, decimalValue s.hour * 3600 + decimalValue s.minute * 60 + decimalValue s.second,
    s.nanosecond⟩

theorem isDigits_of_length {ds : List Char} {n : Nat} (hlength : ds.length = n + 1)
    (hds : ∀ c ∈ ds, isAsciiDigit c = true) : Timestamp.IsDigits ds :=
  ⟨List.ne_nil_of_length_eq_add_one hlength, hds⟩

theorem isNumber_of_two {ds : List Char} (hlength : ds.length = 2)
    (hds : ∀ c ∈ ds, isAsciiDigit c = true) : Timestamp.IsNumber ds (decimalValue ds) :=
  ⟨[], ds, rfl, List.forall_mem_nil _, isDigits_of_length hlength hds, Nat.le_of_eq hlength, rfl⟩

theorem isFraction_fractionText {s : Stamp} (h : s.Valid) :
    Timestamp.IsFraction s.fractionText s.nanosecond := by
  unfold fractionText nanosecond
  have hkept : s.fraction.take 9 = s.fraction := List.take_of_length_le h.fraction_length
  split
  · rename_i hnone
    rw [hnone]
    exact .none
  · rename_i hsome
    have hfraction := Timestamp.IsFraction.digits ⟨hsome, h.digits s.fraction (by simp)⟩
    rwa [hkept] at hfraction

theorem isWritten_text {s : Stamp} (h : s.Valid) :
    Timestamp.IsWritten s.text.toList (decimalValue s.year) (decimalValue s.month)
      (decimalValue s.day) (decimalValue s.hour) (decimalValue s.minute) (decimalValue s.second)
      s.nanosecond := by
  refine ⟨s.year, s.month, s.day, ' ' :: s.hour, s.minute, s.second, s.fractionText, ?_, ?_,
    isNumber_of_two h.month_length (h.digits _ (by simp)),
    isNumber_of_two h.day_length (h.digits _ (by simp)), ?_,
    isNumber_of_two h.minute_length (h.digits _ (by simp)),
    isNumber_of_two h.second_length (h.digits _ (by simp)), isFraction_fractionText h, ?_⟩
  · rw [text, String.toList_ofList, List.cons_append]
  · exact .plain (List.forall_mem_nil _)
      (isDigits_of_length h.year_length (h.digits _ (by simp))) (Nat.le_of_eq h.year_length)
  · refine ⟨[' '], s.hour, rfl, ?_, isDigits_of_length h.hour_length (h.digits _ (by simp)),
      Nat.le_of_eq h.hour_length, rfl⟩
    exact List.forall_mem_singleton.mpr (by decide)
  · intro hdigit
    exact absurd hdigit (by simp [isAsciiDigit])

theorem read?_text {s : Stamp} (h : s.Valid) : Timestamp.read? s.text = some s.timestamp := by
  have hyear : decimalValue s.year < 10000 := by
    have hlt := Timestamp.decimalValue_lt (h.digits s.year (by simp)) 0
    rw [h.year_length] at hlt
    exact hlt
  obtain ⟨hmonth, hmonth', hday, hday'⟩ := h.date
  have hlength := Date.getElem?_monthLengths s.date.year hmonth hmonth'
  have hrange : Timestamp.inRange (decimalValue s.year) = true := by
    simp only [Timestamp.inRange, Bool.and_eq_true, decide_eq_true_eq]
    omega
  have hsecond := h.second_lt
  have hleap : decimalValue s.second / 60 = 0 := Nat.div_eq_of_lt hsecond
  simp only [date] at hmonth hmonth' hday hday' hlength
  have hne : ¬ decimalValue s.month = 0 := by omega
  rw [Timestamp.read?_of_isWritten (isWritten_text h), Timestamp.ofFields?, if_neg hne, hlength]
  simp [hrange, hday, hday', h.hour_lt, h.minute_lt, Nat.le_of_lt hsecond, hleap, timestamp,
    Date.number, date]

theorem towardZero_neg (q : ℚ) : towardZero (-q) = -towardZero q := by
  unfold towardZero
  obtain hq | rfl | hq := lt_trichotomy q 0
  · rw [if_pos (by linarith), if_neg (by linarith), Int.floor_neg]
  · simp
  · rw [if_neg (by linarith), if_pos (by linarith), Int.ceil_neg]

theorem towardZero_div (n : ℤ) (d : ℕ) : towardZero ((n : ℚ) / d) = n.tdiv d := by
  have hnonneg {m : ℤ} (hm : 0 ≤ m) : towardZero ((m : ℚ) / d) = m.tdiv d := by
    have hq : (0 : ℚ) ≤ (m : ℚ) / d := div_nonneg (Int.cast_nonneg hm) (Nat.cast_nonneg d)
    rw [towardZero, if_pos hq, Rat.floor_intCast_div_natCast, Int.tdiv_eq_ediv_of_nonneg hm]
  obtain hn | hn := le_total 0 n
  · exact hnonneg hn
  · have hopposite := hnonneg (Int.neg_nonneg_of_nonpos hn)
    rw [Int.cast_neg, neg_div, towardZero_neg, Int.neg_tdiv] at hopposite
    exact neg_injective hopposite

theorem towardZero_of_abs_lt_one {q : ℚ} (h : |q| < 1) : towardZero q = 0 := by
  obtain ⟨hlow, hhigh⟩ := abs_lt.mp h
  unfold towardZero
  split
  · rename_i hnonneg
    exact Int.floor_eq_zero_iff.mpr ⟨hnonneg, hhigh⟩
  · rename_i hneg
    rw [Int.ceil_eq_zero_iff]
    exact ⟨hlow, by linarith⟩

/-- The nanoseconds of a fraction are those of its digits, however many there are. -/
theorem nanosecond_eq {s : Stamp} (h : s.Valid) :
    (s.nanosecond : ℚ) / 1000000000 = decimalValue s.fraction / 10 ^ s.fraction.length := by
  have hscale : (10 : ℚ) ^ (9 - s.fraction.length) * 10 ^ s.fraction.length = 1000000000 := by
    rw [← pow_add, Nat.sub_add_cancel h.fraction_length]
    norm_num
  rw [div_eq_div_iff (by norm_num) (by positivity), ← hscale, nanosecond, Nat.cast_mul]
  have hpow : ((Nat.pow 10 (9 - s.fraction.length) : ℕ) : ℚ) = 10 ^ (9 - s.fraction.length) :=
    Nat.cast_pow 10 _
  rw [hpow]
  ring

/-- No leap second is counted, as none of the two times is in one. -/
theorem leapsBetween_timestamp {a b : Stamp} (ha : a.Valid) (hb : b.Valid) :
    Timestamp.leapsBetween a.timestamp b.timestamp = 0 := by
  have hbefore {s : Stamp} (h : s.Valid) : ¬ 1000000000 ≤ s.timestamp.nanosecond :=
    Nat.not_le.mpr (Timestamp.fraction?_lt
      (Timestamp.fraction?_eq_some_iff.mpr (isFraction_fractionText h)))
  simp [Timestamp.leapsBetween, hbefore ha, hbefore hb]

theorem nanosecondsBetween_eq {a b : Stamp} (ha : a.Valid) (hb : b.Valid) {n : ℤ}
    (hn : a.date.IsAfter b.date n) :
    (Timestamp.nanosecondsBetween a.timestamp b.timestamp : ℚ) / 1000000000 =
      86400 * n + (b.timeOfDay - a.timeOfDay) := by
  have hdays := Date.number_of_isAfter ha.date hb.date hn
  rw [timeOfDay, timeOfDay, ← nanosecond_eq ha, ← nanosecond_eq hb, ← hdays,
    Timestamp.nanosecondsBetween, leapsBetween_timestamp ha hb]
  simp only [timestamp]
  push_cast
  ring

theorem duration?_text {a b : Stamp} (ha : a.Valid) (hb : b.Valid) {n : ℤ}
    (hn : a.date.IsAfter b.date n) :
    StepLog.duration? a.text b.text =
      some (towardZero (86400 * n + (b.timeOfDay - a.timeOfDay))) := by
  have hquotient := towardZero_div (Timestamp.nanosecondsBetween a.timestamp b.timestamp) 1000000000
  rw [Nat.cast_ofNat, nanosecondsBetween_eq ha hb hn] at hquotient
  rw [StepLog.duration?, read?_text ha, read?_text hb, hquotient]
  rfl

theorem duration?_of_not_accepts {started finished : String}
    (h : ¬ Timestamp.Accepts started ∨ ¬ Timestamp.Accepts finished) :
    StepLog.duration? started finished = none := by
  rw [← Timestamp.read?_isSome_iff, ← Timestamp.read?_isSome_iff, Option.not_isSome_iff_eq_none,
    Option.not_isSome_iff_eq_none] at h
  rw [StepLog.duration?]
  obtain h | h := h
  · rw [h]
  · rw [h]
    split <;> simp_all

/-- The seconds between two timestamps are those of the days and of the times of day between them,
rounded toward zero, whichever comes first; there are none if they are less than a second apart.
There is no duration if one of the texts is no timestamp. -/
theorem durations_exact :
    (∀ a b : Stamp, a.Valid → b.Valid →
      (∃ n, a.date.IsAfter b.date n) ∧
      ∀ n, a.date.IsAfter b.date n →
        let exact : ℚ := 86400 * n + (b.timeOfDay - a.timeOfDay)
        StepLog.duration? a.text b.text = some (towardZero exact) ∧
        StepLog.duration? b.text a.text = some (-towardZero exact) ∧
        (|exact| < 1 → StepLog.duration? a.text b.text = some 0)) ∧
    ∀ started finished : String,
      ¬ Timestamp.Accepts started ∨ ¬ Timestamp.Accepts finished →
      StepLog.duration? started finished = none := by
  refine ⟨?_, fun _ _ => duration?_of_not_accepts⟩
  intro a b ha hb
  refine ⟨Date.exists_isAfter ha.date hb.date, ?_⟩
  intro n hn exact
  have hforth : StepLog.duration? a.text b.text = some (towardZero exact) :=
    duration?_text ha hb hn
  have hback : StepLog.duration? b.text a.text = some (-towardZero exact) := by
    have hopposite : 86400 * ((-n : ℤ) : ℚ) + (a.timeOfDay - b.timeOfDay) = -exact := by
      dsimp only [exact]
      push_cast
      ring
    rw [duration?_text hb ha hn.symm, hopposite, towardZero_neg]
  refine ⟨hforth, hback, ?_⟩
  intro hshort
  rw [hforth, towardZero_of_abs_lt_one hshort]

def beforeLeapDay : Stamp :=
  ⟨"2000".toList, "02".toList, "28".toList, "23".toList, "59".toList, "59".toList, "9".toList⟩

def afterLeapDay : Stamp :=
  ⟨"2000".toList, "03".toList, "01".toList, "00".toList, "00".toList, "00".toList, "25".toList⟩

theorem durations_over_leapDay :
    StepLog.duration? "2000-02-28 23:59:59.9" "2000-03-01 00:00:00.25" = some 86400 ∧
      StepLog.duration? "2000-03-01 00:00:00.25" "2000-02-28 23:59:59.9" = some (-86400) ∧
      StepLog.duration? "2000-02-30 00:00:00" "2000-03-01 00:00:00.25" = none := by
  obtain ⟨hexact, hnone⟩ := durations_exact
  have hbefore : beforeLeapDay.Valid := by
    constructor
    case digits => simp [beforeLeapDay, isAsciiDigit]
    all_goals decide
  have hafter : afterLeapDay.Valid := by
    constructor
    case digits => simp [afterLeapDay, isAsciiDigit]
    all_goals decide
  have hdays : beforeLeapDay.date.IsAfter afterLeapDay.date 2 := ⟨2, .inl ⟨rfl, by decide⟩⟩
  obtain ⟨-, hdurations⟩ := hexact beforeLeapDay afterLeapDay hbefore hafter
  obtain ⟨hforth, hback, -⟩ := hdurations 2 hdays
  have hseconds : (86400 : ℚ) * (2 : ℤ) + (afterLeapDay.timeOfDay - beforeLeapDay.timeOfDay) =
      8640035 / 100 := by
    have hlate : beforeLeapDay.timeOfDay = (23 : ℕ) * 3600 + (59 : ℕ) * 60 + (59 : ℕ) +
        (9 : ℕ) / 10 ^ 1 := rfl
    have hearly : afterLeapDay.timeOfDay = (0 : ℕ) * 3600 + (0 : ℕ) * 60 + (0 : ℕ) +
        (25 : ℕ) / 10 ^ 2 := rfl
    rw [hlate, hearly]
    norm_num
  have hwhole : towardZero (8640035 / 100) = 86400 := by
    have hdivision := towardZero_div 8640035 100
    rwa [Int.cast_ofNat, Nat.cast_ofNat] at hdivision
  rw [hseconds, hwhole] at hforth hback
  refine ⟨hforth, hback, hnone _ _ (.inl ?_)⟩
  rw [← Timestamp.read?_isSome_iff]
  decide +kernel

end Stamp
end BuildLog
