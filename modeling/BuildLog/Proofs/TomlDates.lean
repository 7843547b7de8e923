import BuildLog.Proofs.CalendarDays
import BuildLog.Proofs.TomlNumbers

namespace BuildLog.Toml
open Text

/-- What stands for a date, of a year below 10000. -/
def IsDate (w : List Char) : Prop :=
  ∃ (date : Date) (y m d : List Char), w = y ++ '-' :: (m ++ '-' :: d) ∧ date.Valid ∧
    Fixed 10 4 y date.year ∧ Fixed 10 2 m date.month ∧ Fixed 10 2 d date.day

/-- What may follow hour and minute: seconds, of which a leap second is the sixtieth, and a fraction
of a second. -/
inductive IsSeconds : List Char → Prop
  | none : IsSeconds []
  | whole {w : List Char} {n : Nat} (hw : Fixed 10 2 w n) (hn : n ≤ 60) : IsSeconds (':' :: w)
  | fraction {w u : List Char} {n f : Nat} (hw : Fixed 10 2 w n) (hn : n ≤ 60)
    (hu : Digits 10 u f) (hplain : '_' ∉ u) : IsSeconds (':' :: (w ++ '.' :: u))

def IsTime (w : List Char) : Prop :=
  ∃ (hour minute : Nat) (h m s : List Char), w = h ++ ':' :: (m ++ s) ∧ Fixed 10 2 h hour ∧
    hour < 24 ∧ Fixed 10 2 m minute ∧ minute < 60 ∧ IsSeconds s

inductive IsZone : List Char → Prop
  | none : IsZone []
  | universal {c : Char} (hc : c = 'Z' ∨ c = 'z') : IsZone [c]
  | offset {c : Char} {h m : List Char} {hour minute : Nat} (hc : c = '+' ∨ c = '-')
    (hh : Fixed 10 2 h hour) (hhour : hour < 24) (hm : Fixed 10 2 m minute)
    (hminute : minute < 60) : IsZone (c :: (h ++ ':' :: m))

inductive IsDatetime : List Char → Prop
  | date {w : List Char} (hw : IsDate w) : IsDatetime w
  | time {w : List Char} (hw : IsTime w) : IsDatetime w
  | both {w u z : List Char} {c : Char} (hw : IsDate w) (hc : c = 'T' ∨ c = 't' ∨ c = ' ')
    (hu : IsTime u) (hz : IsZone z) : IsDatetime (w ++ c :: (u ++ z))

namespace Fixed

variable {k n : Nat} {w : List Char}

theorem isAsciiDigit_of_mem (h : Fixed 10 k w n) : ∀ c ∈ w, isAsciiDigit c = true :=
  h.digits.isAsciiDigit_of_mem h.plain

theorem read (h : Fixed 10 k w n) (r : List Char) : fixedDigits? k (w ++ r) = some (n, r) := by
  have hall : w.all isAsciiDigit = true := List.all_eq_true.mpr h.isAsciiDigit_of_mem
  have hvalue : decimalValue w = n :=
    h.digits.foldl_eq h.plain fun hd hc => (Digits.decimal_digit hd hc).2
  unfold fixedDigits?
  rw [← h.length, List.take_left, List.drop_left]
  simp only [hall, decide_true, Bool.and_self, if_true, hvalue]

end Fixed

theorem date?_of_isDate {w : List Char} (h : IsDate w) (r : List Char) :
    date? (w ++ r) = some r := by
  obtain ⟨date, y, m, d, rfl, hvalid, hy, hm, hd⟩ := h
  have hmonth : date.month ≠ 0 := Nat.ne_zero_of_lt hvalid.month_pos
  have hlength := Date.getElem?_monthLengths date.year hvalid.month_pos hvalid.month_le
  simp only [List.append_assoc, List.cons_append, date?, hy.read, hm.read, hd.read,
    after?_singleton, bind, Option.bind, if_neg hmonth, hlength, hvalid.day_pos, hvalid.day_le,
    decide_true, Bool.and_self, if_true]

theorem IsZone.of_head? {z : List Char} (h : IsZone z) {c : Char} (hc : z.head? = some c) :
    c ≠ ':' ∧ c ≠ '.' ∧ isAsciiDigit c = false := by
  cases h with
  | none => contradiction
  | universal h =>
    obtain rfl := Option.some.inj hc
    rcases h with rfl | rfl <;> decide
  | offset h =>
    obtain rfl := Option.some.inj hc
    rcases h with rfl | rfl <;> decide

theorem secondFraction?_of_head? {r : List Char} (hr : ∀ c, r.head? = some c → c ≠ '.') :
    secondFraction? r = some r := by
  unfold secondFraction?
  split
  · exact absurd rfl (hr _ rfl)
  · rfl

theorem secondFraction?_of_digits {u r : List Char} {f : Nat} (hu : Digits 10 u f)
    (hplain : '_' ∉ u) (hr : ∀ c, r.head? = some c → isAsciiDigit c = false) :
    secondFraction? ('.' :: (u ++ r)) = some r := by
  have hdrop : (u ++ r).dropWhile isAsciiDigit = r :=
    dropWhile_of_run (hu.isAsciiDigit_of_mem hplain) hr
  obtain ⟨c, _, u, rfl, hc, -⟩ := hu.read_decimal
  rw [List.cons_append] at hdrop ⊢
  rw [secondFraction?, Json.startsWithDigit, if_pos hc, hdrop]

theorem time?_of_isTime {w : List Char} (h : IsTime w) {r : List Char}
    (hr : ∀ c, r.head? = some c → c ≠ ':' ∧ c ≠ '.' ∧ isAsciiDigit c = false) :
    time? (w ++ r) = some r := by
  obtain ⟨hour, minute, h, m, s, rfl, hh, hhour, hm, hminute, hs⟩ := h
  have hinside : ¬ (24 ≤ hour || 60 ≤ minute) = true := by
    simp only [Bool.or_eq_true, decide_eq_true_eq]
    omega
  simp only [List.append_assoc, List.cons_append, time?, hh.read, hm.read, after?_singleton, bind,
    Option.bind, if_neg hinside]
  cases hs with
  | none =>
    rw [List.nil_append]
    split
    · exact absurd rfl (hr _ rfl).1
    · rfl
  | whole hw hn =>
    simp only [List.cons_append, hw.read, if_neg (Nat.not_lt_of_le hn)]
    exact secondFraction?_of_head? fun c hc => (hr c hc).2.1
  | fraction hw hn hu hplain =>
    simp only [List.cons_append, List.append_assoc, hw.read, if_neg (Nat.not_lt_of_le hn)]
    exact secondFraction?_of_digits hu hplain fun c hc => (hr c hc).2.2

theorem isOffset_of_isZone {z : List Char} (h : IsZone z) : isOffset z = true := by
  cases h with
  | none => rfl
  | universal hc => rcases hc with rfl | rfl <;> rfl
  | @offset c h m hour minute hc hh hhour hm hminute =>
    have hread := hm.read []
    rw [List.append_nil] at hread
    unfold isOffset
    rcases hc with rfl | rfl <;> simp [hh.read, hread, hhour, hminute]

theorem fixedDigits?_eq_none {k : Nat} {w t : List Char} {c : Char} (hw : w.length < k)
    (hc : isAsciiDigit c = false) : fixedDigits? k (w ++ c :: t) = none := by
  obtain ⟨n, hn⟩ := Nat.exists_eq_add_one_of_ne_zero (Nat.sub_ne_zero_of_lt hw)
  unfold fixedDigits?
  rw [List.take_append, hn, List.take_succ_cons]
  simp [hc]

theorem isDatetime_of {w : List Char} (h : IsDatetime w) : isDatetime w = true := by
  cases h with
  | date hw =>
    have hread := date?_of_isDate hw []
    rw [List.append_nil] at hread
    simp only [isDatetime, hread]
  | time hw =>
    have hread := time?_of_isTime hw (r := []) nofun
    rw [List.append_nil] at hread
    have hdate : date? w = none := by
      obtain ⟨_, _, h, _, _, rfl, hh, -⟩ := hw
      have hlength : h.length < 4 := by
        rw [hh.length]
        decide
      simp only [date?, fixedDigits?_eq_none hlength (by rfl : isAsciiDigit ':' = false), bind,
        Option.bind]
    simp only [isDatetime, hdate, hread, beq_self_eq_true]
  | both hw hc hu hz =>
    simp only [isDatetime, date?_of_isDate hw, time?_of_isTime hu fun c => hz.of_head?,
      isOffset_of_isZone hz, Bool.and_true]
    rcases hc with rfl | rfl | rfl <;> rfl

theorem IsDatetime.exists_split {s : List Char} (h : IsDatetime s) :
    ∃ w c t, s = w ++ c :: t ∧ w ≠ [] ∧ (∀ d ∈ w, isAsciiDigit d = true) ∧
      (c = '-' ∨ c = ':') := by
  have hdigits {k n : Nat} {w : List Char} (hw : Fixed 10 (k + 1) w n) :
      w ≠ [] ∧ ∀ d ∈ w, isAsciiDigit d = true := by
    refine ⟨?_, hw.isAsciiDigit_of_mem⟩
    rintro rfl
    exact Nat.succ_ne_zero k hw.length.symm
  cases h with
  | date hw =>
    obtain ⟨_, y, _, _, rfl, -, hy, -⟩ := hw
    exact ⟨y, '-', _, rfl, (hdigits hy).1, (hdigits hy).2, .inl rfl⟩
  | time hw =>
    obtain ⟨_, _, h, _, _, rfl, hh, -⟩ := hw
    exact ⟨h, ':', _, rfl, (hdigits hh).1, (hdigits hh).2, .inr rfl⟩
  | both hw _ _ _ =>
    obtain ⟨_, y, _, _, rfl, -, hy, -⟩ := hw
    rw [List.append_assoc, List.cons_append]
    exact ⟨y, '-', _, rfl, (hdigits hy).1, (hdigits hy).2, .inl rfl⟩

/-- A sign after the first digits makes no float. -/
theorem isFloat_eq_false {w t : List Char} {c : Char} (hne : w ≠ [])
    (hw : ∀ d ∈ w, isNumeral d = true) (hc : c = '-' ∨ c = ':') :
    isFloat (w ++ c :: t) = false := by
  have htake : (w ++ c :: t).takeWhile isNumeral = w := by
    apply takeWhile_of_run hw
    intro d hd
    obtain rfl := Option.some.inj hd
    rcases hc with rfl | rfl <;> rfl
  have hscientific : scientific? (w ++ c :: t) = none := by
    simp only [scientific?, htake, List.drop_left]
    cases decimal? w with
    | none => rfl
    | some n => rcases hc with rfl | rfl <;> rfl
  obtain ⟨b, w, rfl⟩ := List.exists_cons_of_ne_nil hne
  have hb := hw b List.mem_cons_self
  have hword {a : Char} (ha : isNumeral a = false) (u : List Char) :
      b :: (w ++ c :: t) ≠ a :: u :=
    fun heq => ne_of_isNumeral hb ha (List.cons.inj heq).1
  rw [List.cons_append] at hscientific ⊢
  simp only [isFloat, sign_of_isNumeral hb, hword (by rfl : isNumeral 'i' = false),
    hword (by rfl : isNumeral 'n' = false), hscientific, decide_false, Bool.or_false,
    Option.isSome_none]

theorem ofBare?_of_isDatetime {s : List Char} (h : IsDatetime s) :
    ofBare? s = some (.datetime (String.ofList s)) := by
  have hread := isDatetime_of h
  have hword {word : List Char} (hnone : isDatetime word = false) : s ≠ word := by
    rintro rfl
    rw [hnone] at hread
    contradiction
  obtain ⟨w, c, t, rfl, hne, hw, hc⟩ := h.exists_split
  have hnumeral : ∀ d ∈ w, isNumeral d = true := fun d hd => by
    rw [isNumeral, hw d hd, Bool.true_or]
  have hsign : isNumeral c = false ∧ c ∉ ['x', 'o', 'b'] := by
    rcases hc with rfl | rfl <;> decide
  have hinteger : integer? (w ++ c :: t) = none :=
    integer?_eq_none (s := []) (by decide) hne hnumeral hsign.1 hsign.2
  have hfloat : isFloat (w ++ c :: t) = false := isFloat_eq_false hne hnumeral hc
  rw [ofBare?, if_neg (hword rfl), if_neg (hword rfl), hinteger]
  simp only [hfloat, Bool.false_eq_true, if_false, hread, if_true]

theorem Fixed.isBareChar_of_mem {base k n : Nat} {w : List Char} (h : Fixed base k w n) :
    ∀ c ∈ w, isBareChar c = true :=
  h.digits.isBareChar_of_mem

theorem IsDate.isBareChar_of_mem {w : List Char} (h : IsDate w) :
    ∀ c ∈ w, isBareChar c = true := by
  obtain ⟨_, y, m, d, rfl, -, hy, hm, hd⟩ := h
  have hsign : isBareChar '-' = true := rfl
  simp only [List.forall_mem_append, List.forall_mem_cons]
  exact ⟨hy.isBareChar_of_mem, hsign, hm.isBareChar_of_mem, hsign, hd.isBareChar_of_mem⟩

theorem IsSeconds.isBareChar_of_mem {w : List Char} (h : IsSeconds w) :
    ∀ c ∈ w, isBareChar c = true := by
  have hcolon : isBareChar ':' = true := rfl
  have hdot : isBareChar '.' = true := rfl
  cases h with
  | none => exact List.forall_mem_nil _
  | whole hw _ => exact List.forall_mem_cons.mpr ⟨hcolon, hw.isBareChar_of_mem⟩
  | fraction hw _ hu _ =>
    simp only [List.forall_mem_append, List.forall_mem_cons]
    exact ⟨hcolon, hw.isBareChar_of_mem, hdot, hu.isBareChar_of_mem⟩

theorem IsTime.exists_cons {w : List Char} (h : IsTime w) :
    ∃ c u, w = c :: u ∧ isAsciiDigit c = true ∧ ∀ d ∈ w, isBareChar d = true := by
  obtain ⟨_, _, h, m, s, rfl, hh, -, hm, -, hs⟩ := h
  have hcolon : isBareChar ':' = true := rfl
  have hall : ∀ d ∈ h ++ ':' :: (m ++ s), isBareChar d = true := by
    simp only [List.forall_mem_append, List.forall_mem_cons]
    exact ⟨hh.isBareChar_of_mem, hcolon, hm.isBareChar_of_mem, hs.isBareChar_of_mem⟩
  obtain ⟨c, _, u, rfl, hc, -⟩ := hh.digits.read_decimal
  exact ⟨c, _, rfl, hc, hall⟩

theorem IsZone.isBareChar_of_mem {z : List Char} (h : IsZone z) :
    ∀ c ∈ z, isBareChar c = true := by
  have hcolon : isBareChar ':' = true := rfl
  cases h with
  | none => exact List.forall_mem_nil _
  | universal hc =>
    rw [List.forall_mem_singleton]
    rcases hc with rfl | rfl <;> rfl
  | offset hc hh _ hm _ =>
    simp only [List.forall_mem_append, List.forall_mem_cons]
    refine ⟨?_, hh.isBareChar_of_mem, hcolon, hm.isBareChar_of_mem⟩
    rcases hc with rfl | rfl <;> rfl

/-- A space belongs to the value between a date and a digit. -/
theorem bareToken_of_isDate {w u r : List Char} {c : Char} (hw : IsDate w)
    (hu : ∀ d ∈ c :: u, isBareChar d = true) (hc : isAsciiDigit c = true) (hr : ValueOver r) :
    bareToken (w ++ ' ' :: (c :: u ++ r)) = (w ++ ' ' :: c :: u, r) := by
  have hdate := date?_of_isDate hw []
  rw [List.append_nil] at hdate
  have hfirst : (w ++ ' ' :: c :: (u ++ r)).takeWhile isBareChar = w :=
    takeWhile_of_run hw.isBareChar_of_mem fun d hd => by rw [← Option.some.inj hd]; rfl
  have hmore : (c :: (u ++ r)).takeWhile isBareChar = c :: u := takeWhile_of_run hu hr.not_bare
  have hrest : (c :: (u ++ r)).drop (c :: u).length = r := List.drop_left
  rw [List.cons_append]
  unfold bareToken
  simp only [hfirst, List.drop_left, hdate, hc, hmore, hrest, beq_self_eq_true, Bool.and_self,
    if_true]

theorem bareToken_of_isDatetime {w r : List Char} (h : IsDatetime w) (hr : ValueOver r) :
    bareToken (w ++ r) = (w, r) := by
  cases h with
  | date hw => exact bareToken_of_forall hw.isBareChar_of_mem hr
  | time hw =>
    obtain ⟨_, _, -, -, hall⟩ := hw.exists_cons
    exact bareToken_of_forall hall hr
  | @both w u z c hw hc hu hz =>
    obtain ⟨d, v, rfl, hd, hall⟩ := hu.exists_cons
    have hmore : ∀ b ∈ d :: v ++ z, isBareChar b = true :=
      List.forall_mem_append.mpr ⟨hall, hz.isBareChar_of_mem⟩
    rcases hc with rfl | rfl | rfl
    · exact bareToken_of_forall (List.forall_mem_append.mpr
        ⟨hw.isBareChar_of_mem, List.forall_mem_cons.mpr ⟨rfl, hmore⟩⟩) hr
    · exact bareToken_of_forall (List.forall_mem_append.mpr
        ⟨hw.isBareChar_of_mem, List.forall_mem_cons.mpr ⟨rfl, hmore⟩⟩) hr
    · rw [List.append_assoc, List.cons_append]
      exact bareToken_of_isDate hw hmore hd hr

end BuildLog.Toml
