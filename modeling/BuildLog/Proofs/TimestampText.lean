import BuildLog.Proofs.CalendarDays
import BuildLog.Text.Scan.Lemmas

namespace BuildLog.Timestamp
open Text

def IsGap (blanks : List Char) : Prop := ∀ c ∈ blanks, isBlank c = true

def IsDigits (ds : List Char) : Prop := ds ≠ [] ∧ ∀ c ∈ ds, isAsciiDigit c = true

def IsNumber (t : List Char) (n : Nat) : Prop :=
  ∃ blanks ds, t = blanks ++ ds ∧ IsGap blanks ∧ IsDigits ds ∧ ds.length ≤ 2 ∧ decimalValue ds = n

/-- Whether a text is a year after blanks. A year of more than four digits has a sign. -/
inductive IsYear : List Char → Int → Prop where
  | plain {blanks ds : List Char} (hblanks : IsGap blanks) (hds : IsDigits ds)
    (hlength : ds.length ≤ 4) : IsYear (blanks ++ ds) (decimalValue ds)
  | plus {blanks ds : List Char} (hblanks : IsGap blanks) (hds : IsDigits ds) :
    IsYear (blanks ++ '+' :: ds) (decimalValue ds)
  | minus {blanks ds : List Char} (hblanks : IsGap blanks) (hds : IsDigits ds) :
    IsYear (blanks ++ '-' :: ds) (-(decimalValue ds : Int))

inductive IsFraction : List Char → Nat → Prop where
  | none : IsFraction [] 0
  | digits {ds : List Char} (hds : IsDigits ds) :
    IsFraction ('.' :: ds) (decimalValue (ds.take 9) * Nat.pow 10 (9 - (ds.take 9).length))

/-- Whether a text has the form of a timestamp with these fields. No hour follows directly on the
one digit of a day. -/
def IsWritten (text : List Char) (year : Int) (month day hour minute second nanosecond : Nat) :
    Prop :=
  ∃ y mo d h mi s f : List Char,
    text = y ++ '-' :: (mo ++ '-' :: (d ++ (h ++ ':' :: (mi ++ ':' :: (s ++ f))))) ∧
    IsYear y year ∧ IsNumber mo month ∧ IsNumber d day ∧ IsNumber h hour ∧ IsNumber mi minute ∧
    IsNumber s second ∧ IsFraction f nanosecond ∧
    (h.head?.any isAsciiDigit = true → d.countP isAsciiDigit = 2)

/-- Whether there is such a day, in a year that can be told, and such a time of day. Every minute
may have a leap second. -/
structure IsTime (year : Int) (month day hour minute second : Nat) : Prop where
  year_ge : -262143 ≤ year
  year_le : year ≤ 262142
  exists_month : 1 ≤ month ∧ ∃ length, (monthLengths year)[month - 1]? = some length ∧ day ≤ length
  day_pos : 1 ≤ day
  hour_lt : hour < 24
  minute_lt : minute < 60
  second_le : second ≤ 60

def Accepts (text : String) : Prop :=
  ∃ year month day hour minute second nanosecond,
    IsWritten text.toList year month day hour minute second nanosecond ∧
      IsTime year month day hour minute second

theorem not_isBlank_of_isAsciiDigit {c : Char} (h : isAsciiDigit c = true) : isBlank c = false := by
  simp only [isAsciiDigit, Bool.and_eq_true, decide_eq_true_eq] at h
  have hlow : 48 ≤ c.toNat := h.1
  have hhigh : c.toNat ≤ 57 := h.2
  exact isBlank_eq_false_of_ascii (by omega) (by omega)

theorem digits?_eq_some_iff {most n : Nat} {s r : List Char} :
    digits? most s = some (n, r) ↔
      ∃ ds, s = ds ++ r ∧ IsDigits ds ∧ ds.length ≤ most ∧ decimalValue ds = n ∧
        (ds.length = most ∨ ∀ c, r.head? = some c → isAsciiDigit c = false) := by
  constructor
  · intro h
    unfold digits? at h
    dsimp only at h
    split at h
    · contradiction
    · rename_i hne
      obtain ⟨hn, hr⟩ := Prod.mk.inj (Option.some.inj h)
      have htake := List.takeWhile_append_dropWhile (p := isAsciiDigit) (l := s.take most)
      generalize hds : (s.take most).takeWhile isAsciiDigit = ds at hne hn hr htake
      have hprefix : ds <+: s := by
        rw [← hds]
        exact (List.takeWhile_prefix _).trans (List.take_prefix most s)
      have hs : s = ds ++ r := by
        rw [← hr]
        exact (List.prefix_iff_eq_append.mp hprefix).symm
      have hlength : ds.length ≤ most := by
        have hle := congrArg List.length htake
        rw [List.length_append, List.length_take] at hle
        omega
      have hdigits : ∀ c ∈ ds, isAsciiDigit c = true := by
        rw [← hds]
        exact List.all_eq_true.mp List.all_takeWhile
      refine ⟨ds, hs, ⟨fun hnil => hne (by rw [hnil]; rfl), hdigits⟩, hlength, hn, ?_⟩
      -- what comes next has been looked at if there was room for it
      obtain heq | hlt := Nat.eq_or_lt_of_le hlength
      · exact .inl heq
      · refine .inr fun c hc => of_head?_dropWhile (s := s.take most) ?_
        rw [hs, List.take_append, List.take_of_length_le hlength, List.append_cancel_left_eq]
          at htake
        rw [hs, List.take_append, List.take_of_length_le hlength, htake, List.head?_take, if_neg]
        · exact hc
        · omega
  · rintro ⟨ds, rfl, ⟨hne, hds⟩, hlength, rfl, hstop⟩
    have htake : ((ds ++ r).take most).takeWhile isAsciiDigit = ds := by
      rw [List.take_append, List.take_of_length_le hlength]
      apply takeWhile_of_run hds
      intro c hc
      rw [List.head?_take] at hc
      split at hc
      · contradiction
      · rename_i hroom
        exact hstop.resolve_left (by omega) c hc
    have hempty : ds.isEmpty = false := by simpa using hne
    simp only [digits?, htake, hempty, List.drop_left, Bool.false_eq_true, if_false]

theorem trimStart_digits {blanks ds : List Char} (hblanks : IsGap blanks) (hds : IsDigits ds)
    (r : List Char) : trimStart (blanks ++ (ds ++ r)) = ds ++ r := by
  obtain ⟨c, ds, rfl⟩ := List.exists_cons_of_ne_nil hds.1
  rw [trimStart_append hblanks, List.cons_append,
    trimStart_cons (not_isBlank_of_isAsciiDigit (hds.2 c List.mem_cons_self))]

theorem exists_gap (s : List Char) : ∃ blanks, IsGap blanks ∧ s = blanks ++ trimStart s :=
  ⟨s.takeWhile isBlank, List.all_eq_true.mp List.all_takeWhile,
    (List.takeWhile_append_dropWhile).symm⟩

theorem countP_append_digits {blanks ds : List Char} (hblanks : IsGap blanks) (hds : IsDigits ds) :
    (blanks ++ ds).countP isAsciiDigit = ds.length := by
  have hnone : blanks.countP isAsciiDigit = 0 := by
    rw [List.countP_eq_zero]
    intro c hc hdigit
    have hblank := hblanks c hc
    rw [not_isBlank_of_isAsciiDigit hdigit] at hblank
    contradiction
  rw [List.countP_append, hnone, Nat.zero_add, List.countP_eq_length]
  exact hds.2

theorem field?_eq_some_iff {s r : List Char} {n : Nat} :
    field? s = some (n, r) ↔
      ∃ t, s = t ++ r ∧ IsNumber t n ∧
        (t.countP isAsciiDigit = 2 ∨ ∀ c, r.head? = some c → isAsciiDigit c = false) := by
  rw [field?, digits?_eq_some_iff]
  constructor
  · rintro ⟨ds, hs, hds, hlength, hn, hstop⟩
    obtain ⟨blanks, hblanks, hsplit⟩ := exists_gap s
    refine ⟨blanks ++ ds, ?_, ⟨blanks, ds, rfl, hblanks, hds, hlength, hn⟩, ?_⟩
    · rw [hsplit, hs, List.append_assoc]
    · rw [countP_append_digits hblanks hds]
      exact hstop
  · rintro ⟨_, rfl, ⟨blanks, ds, rfl, hblanks, hds, hlength, hn⟩, hstop⟩
    rw [countP_append_digits hblanks hds] at hstop
    rw [List.append_assoc, trimStart_digits hblanks hds]
    exact ⟨ds, rfl, hds, hlength, hn, hstop⟩

theorem field?_of_isNumber {t : List Char} {n : Nat} (h : IsNumber t n) {r : List Char}
    (hr : ∀ c, r.head? = some c → isAsciiDigit c = false) : field? (t ++ r) = some (n, r) :=
  field?_eq_some_iff.mpr ⟨t, rfl, h, .inr hr⟩

theorem field?_trimStart (s : List Char) : field? (trimStart s) = field? s := by
  obtain ⟨blanks, hblanks, hsplit⟩ := exists_gap s
  have htwice := trimStart_append hblanks (trimStart s)
  rw [← hsplit] at htwice
  rw [field?, field?, ← htwice]

theorem isYear_of_year? {s r : List Char} {year : Int} (h : year? s = some (year, r)) :
    ∃ t, s = t ++ r ∧ IsYear t year := by
  obtain ⟨blanks, hblanks, hsplit⟩ := exists_gap s
  unfold year? at h
  split at h
  · rename_i rest hrest
    obtain ⟨⟨n, r'⟩, hdigits, heq⟩ := Option.map_eq_some_iff.mp h
    obtain ⟨rfl, rfl⟩ := Prod.mk.inj heq
    obtain ⟨ds, hs, hds, -, rfl, -⟩ := digits?_eq_some_iff.mp hdigits
    refine ⟨blanks ++ '-' :: ds, ?_, .minus hblanks hds⟩
    rw [hsplit, hrest, hs, List.append_assoc, List.cons_append]
  · rename_i rest hrest
    obtain ⟨⟨n, r'⟩, hdigits, heq⟩ := Option.map_eq_some_iff.mp h
    obtain ⟨rfl, rfl⟩ := Prod.mk.inj heq
    obtain ⟨ds, hs, hds, -, rfl, -⟩ := digits?_eq_some_iff.mp hdigits
    refine ⟨blanks ++ '+' :: ds, ?_, .plus hblanks hds⟩
    rw [hsplit, hrest, hs, List.append_assoc, List.cons_append]
  · obtain ⟨⟨n, r'⟩, hdigits, heq⟩ := Option.map_eq_some_iff.mp h
    obtain ⟨rfl, rfl⟩ := Prod.mk.inj heq
    obtain ⟨ds, hs, hds, hlength, rfl, -⟩ := digits?_eq_some_iff.mp hdigits
    refine ⟨blanks ++ ds, ?_, .plain hblanks hds hlength⟩
    rw [hsplit, hs, List.append_assoc]

theorem year?_of_isYear {t : List Char} {year : Int} (h : IsYear t year) {r : List Char}
    (hr : ∀ c, r.head? = some c → isAsciiDigit c = false) : year? (t ++ r) = some (year, r) := by
  have hread {most : Nat} {ds : List Char} (hds : IsDigits ds) (hlength : ds.length ≤ most) :
      digits? most (ds ++ r) = some (decimalValue ds, r) :=
    digits?_eq_some_iff.mpr ⟨ds, rfl, hds, hlength, rfl, .inr hr⟩
  cases h with
  | @plain blanks ds hblanks hds hlength =>
    have htrim : trimStart (blanks ++ ds ++ r) = ds ++ r := by
      rw [List.append_assoc, trimStart_digits hblanks hds]
    have hdigits := hread hds hlength
    obtain ⟨c, ds, rfl⟩ := List.exists_cons_of_ne_nil hds.1
    have hc : isAsciiDigit c = true := hds.2 c List.mem_cons_self
    -- a digit is no sign
    unfold year?
    rw [htrim]
    split
    · rename_i rest hsign
      obtain rfl := List.head_eq_of_cons_eq hsign
      exact absurd hc (by decide)
    · rename_i rest hsign
      obtain rfl := List.head_eq_of_cons_eq hsign
      exact absurd hc (by decide)
    · rw [hdigits]
      rfl
  | @plus blanks ds hblanks hds =>
    have htrim : trimStart (blanks ++ '+' :: ds ++ r) = '+' :: (ds ++ r) := by
      rw [List.append_assoc, trimStart_append hblanks]
      exact trimStart_cons (by decide) _
    have hlength : ds.length ≤ (ds ++ r).length := by simp
    simp only [year?, htrim, hread hds hlength, Option.map_some]
  | @minus blanks ds hblanks hds =>
    have htrim : trimStart (blanks ++ '-' :: ds ++ r) = '-' :: (ds ++ r) := by
      rw [List.append_assoc, trimStart_append hblanks]
      exact trimStart_cons (by decide) _
    have hlength : ds.length ≤ (ds ++ r).length := by simp
    simp only [year?, htrim, hread hds hlength, Option.map_some]

theorem fraction?_eq_some_iff {s : List Char} {n : Nat} :
    fraction? s = some (n, []) ↔ IsFraction s n := by
  constructor
  · intro h
    unfold fraction? at h
    split at h
    · rename_i r
      dsimp only at h
      split at h
      · contradiction
      · rename_i hne
        obtain ⟨rfl, hrest⟩ := Prod.mk.inj (Option.some.inj h)
        have hall : r.takeWhile isAsciiDigit = r := by
          have hsplit := List.takeWhile_append_dropWhile (p := isAsciiDigit) (l := r)
          rwa [← drop_length_takeWhile, hrest, List.append_nil] at hsplit
        rw [hall] at hne ⊢
        refine .digits ⟨fun hnil => hne (by rw [hnil]; rfl), ?_⟩
        rw [← hall]
        exact List.all_eq_true.mp List.all_takeWhile
    · obtain ⟨rfl, rfl⟩ := Prod.mk.inj (Option.some.inj h)
      exact .none
  · rintro (_ | @⟨ds, hne, hds⟩)
    · rfl
    · have hall : ds.takeWhile isAsciiDigit = ds := by
        have hrun := takeWhile_of_run (r := []) hds nofun
        rwa [List.append_nil] at hrun
      have hempty : ds.isEmpty = false := by simpa using hne
      simp only [fraction?, hall, hempty, List.drop_length, Bool.false_eq_true, if_false]

theorem isWritten_of_read? {text : String} {t : Timestamp} (h : read? text = some t) :
    ∃ year month day hour minute second nanosecond,
      IsWritten text.toList year month day hour minute second nanosecond ∧
        ofFields? year month day hour minute second nanosecond = some t := by
  simp only [read?, bind, Option.bind_eq_some_iff] at h
  obtain ⟨⟨year, s₁⟩, hyear, r₁, hr₁, ⟨month, s₂⟩, hmonth, r₂, hr₂, ⟨day, s₃⟩, hday, ⟨hour, s₄⟩,
    hhour, r₄, hr₄, ⟨minute, s₅⟩, hminute, r₅, hr₅, ⟨second, s₆⟩, hsecond, ⟨nanosecond, s₇⟩,
    hfraction, h⟩ := h
  dsimp only at hr₁ hr₂ hhour hr₄ hr₅ hfraction h
  rw [after?_eq_some_iff] at hr₁ hr₂ hr₄ hr₅
  rw [field?_trimStart] at hhour
  split at h
  · rename_i hend
    rw [List.isEmpty_iff.mp hend, fraction?_eq_some_iff] at hfraction
    obtain ⟨y, htext, hy⟩ := isYear_of_year? hyear
    obtain ⟨mo, rfl, hmo, -⟩ := field?_eq_some_iff.mp hmonth
    obtain ⟨d, rfl, hd, hcut⟩ := field?_eq_some_iff.mp hday
    obtain ⟨ho, rfl, hho, -⟩ := field?_eq_some_iff.mp hhour
    obtain ⟨mi, rfl, hmi, -⟩ := field?_eq_some_iff.mp hminute
    obtain ⟨se, rfl, hse, -⟩ := field?_eq_some_iff.mp hsecond
    refine ⟨year, month, day, hour, minute, second, nanosecond,
      ⟨y, mo, d, ho, mi, se, s₆, ?_, hy, hmo, hd, hho, hmi, hse, hfraction, ?_⟩, h⟩
    · rw [htext, hr₁, hr₂, hr₄, hr₅]
      rfl
    · intro hdigit
      obtain ⟨c, hc, hdigit⟩ := (Option.any_eq_true _ _).mp hdigit
      refine hcut.resolve_right fun hnone => ?_
      have hhead : (ho ++ s₄).head? = some c := by
        rw [List.head?_append, hc, Option.some_or]
      rw [hnone c hhead] at hdigit
      contradiction
  · contradiction

theorem read?_of_isWritten {text : String} {year : Int}
    {month day hour minute second nanosecond : Nat}
    (h : IsWritten text.toList year month day hour minute second nanosecond) :
    read? text = ofFields? year month day hour minute second nanosecond := by
  obtain ⟨y, mo, d, ho, mi, se, f, htext, hy, hmo, hd, hho, hmi, hse, hf, hcut⟩ := h
  -- every sign between two numbers ends the first one
  have hdash (r : List Char) : ∀ c, ('-' :: r).head? = some c → isAsciiDigit c = false := by
    intro c hc
    rw [← Option.some.inj hc]
    decide
  have hcolon (r : List Char) : ∀ c, (':' :: r).head? = some c → isAsciiDigit c = false := by
    intro c hc
    rw [← Option.some.inj hc]
    decide
  have hfraction : ∀ c, f.head? = some c → isAsciiDigit c = false := by
    cases hf with
    | none => exact nofun
    | digits hds =>
      intro c hc
      rw [← Option.some.inj hc]
      decide
  have hday (r : List Char) : field? (d ++ (ho ++ ':' :: r)) = some (day, ho ++ ':' :: r) := by
    refine field?_eq_some_iff.mpr ⟨d, rfl, hd, ?_⟩
    by_cases hdigit : ho.head?.any isAsciiDigit = true
    · exact .inl (hcut hdigit)
    · refine .inr fun c hc => ?_
      cases ho with
      | nil => exact hcolon r c hc
      | cons a ho =>
        obtain rfl := Option.some.inj hc
        simpa using hdigit
  have hread := fraction?_eq_some_iff.mpr hf
  simp only [read?, htext, year?_of_isYear hy (hdash _), after?_singleton,
    field?_of_isNumber hmo (hdash _), hday, field?_trimStart, field?_of_isNumber hho (hcolon _),
    field?_of_isNumber hmi (hcolon _), field?_of_isNumber hse hfraction, hread, bind,
    Option.bind_some, List.isEmpty_nil, if_true]

theorem ofFields?_isSome_iff {year : Int} {month day hour minute second nanosecond : Nat} :
    (ofFields? year month day hour minute second nanosecond).isSome = true ↔
      IsTime year month day hour minute second := by
  unfold ofFields?
  constructor
  · intro h
    split at h
    · contradiction
    · rename_i length hlength
      split at h
      · rename_i hfields
        simp only [Bool.and_eq_true, decide_eq_true_eq, inRange] at hfields
        obtain ⟨⟨⟨⟨⟨⟨hyear, hyear'⟩, hday⟩, hday'⟩, hhour⟩, hminute⟩, hsecond⟩ := hfields
        split at hlength
        · contradiction
        · exact ⟨hyear, hyear', ⟨by omega, length, hlength, hday'⟩, hday, hhour, hminute, hsecond⟩
      · contradiction
  · rintro ⟨hyear, hyear', ⟨hmonth, length, hlength, hday'⟩, hday, hhour, hminute, hsecond⟩
    have hne : ¬ month = 0 := by omega
    simp [hne, hlength, inRange, hyear, hyear', hday, hday', hhour, hminute, hsecond]

/-- A text is read as a timestamp if it is one. -/
theorem read?_isSome_iff {text : String} : (read? text).isSome = true ↔ Accepts text := by
  constructor
  · intro h
    obtain ⟨t, ht⟩ := Option.isSome_iff_exists.mp h
    obtain ⟨year, month, day, hour, minute, second, nanosecond, hwritten, hfields⟩ :=
      isWritten_of_read? ht
    refine ⟨year, month, day, hour, minute, second, nanosecond, hwritten, ?_⟩
    have hsome : (ofFields? year month day hour minute second nanosecond).isSome = true := by
      rw [hfields]
      rfl
    exact ofFields?_isSome_iff.mp hsome
  · rintro ⟨year, month, day, hour, minute, second, nanosecond, hwritten, htime⟩
    rw [read?_of_isWritten hwritten]
    exact ofFields?_isSome_iff.mpr htime

end BuildLog.Timestamp
