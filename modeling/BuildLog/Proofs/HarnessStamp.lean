import BuildLog.FailureLine
import BuildLog.Proofs.ScanLanguages

namespace BuildLog.FailureLine
open Text

def digitPair : Language Char := oneOf isDecimalDigit * oneOf isDecimalDigit

def clock : Language Char := digitPair * only ":" * digitPair * only ":" * digitPair

def stamp : Language Char :=
  clock * someOf (· = ' ') * anyOf ["DEBUG", "INFO", "WARNING", "ERROR", "CRITICAL", "FATAL"] *
    only " -" * someOf (· = ' ')

/-- Whether a text is the message of a line: the line without trailing blanks, and then without the
one stamp that it begins with, if it begins with one. All spaces of a stamp belong to it. -/
def IsMessage (line t : List Char) : Prop :=
  ∃ s blanks, line = s ++ blanks ∧ (∀ c ∈ blanks, isBlank c = true) ∧
    (∀ c, s.getLast? = some c → isBlank c = false) ∧
    ((∃ p ∈ stamp, s = p ++ t ∧ t.head? ≠ some ' ') ∨ (s = t ∧ ∀ p ∈ stamp, ¬ p <+: s))

theorem isSpace_iff {c : Char} : isSpace c = true ↔ c = ' ' := by
  rw [isSpace, decide_eq_true_eq]

theorem mem_digitPair_iff {s : List Char} :
    s ∈ digitPair ↔ ∃ a b, s = [a, b] ∧ isDecimalDigit a = true ∧ isDecimalDigit b = true := by
  constructor
  · rintro ⟨_, ⟨a, ha, rfl⟩, _, ⟨b, hb, rfl⟩, rfl⟩
    exact ⟨a, b, rfl, ha, hb⟩
  · rintro ⟨a, b, rfl, ha, hb⟩
    exact ⟨[a], ⟨a, ha, rfl⟩, [b], ⟨b, hb, rfl⟩, rfl⟩

theorem mem_clock_iff {t : List Char} :
    t ∈ clock ↔ ∃ h h' m m' s s', t = [h, h', ':', m, m', ':', s, s'] ∧
      [h, h', m, m', s, s'].all isDecimalDigit = true := by
  have hcolon : ":".toList = [':'] := rfl
  constructor
  · rintro ⟨_, ⟨_, ⟨_, ⟨_, hhours, _, rfl, rfl⟩, _, hminutes, rfl⟩, _, rfl, rfl⟩, _, hseconds, rfl⟩
    obtain ⟨h, h', rfl, hh⟩ := mem_digitPair_iff.mp hhours
    obtain ⟨m, m', rfl, hm⟩ := mem_digitPair_iff.mp hminutes
    obtain ⟨s, s', rfl, hs⟩ := mem_digitPair_iff.mp hseconds
    exact ⟨h, h', m, m', s, s', by simp [hcolon], by simp [hh, hm, hs]⟩
  · rintro ⟨h, h', m, m', s, s', rfl, hdigits⟩
    simp only [List.all_cons, List.all_nil, Bool.and_true, Bool.and_eq_true] at hdigits
    obtain ⟨hh, hh', hm, hm', hs, hs'⟩ := hdigits
    have hhours : [h, h'] ∈ digitPair := mem_digitPair_iff.mpr ⟨h, h', rfl, hh, hh'⟩
    have hminutes : [m, m'] ∈ digitPair := mem_digitPair_iff.mpr ⟨m, m', rfl, hm, hm'⟩
    have hseconds : [s, s'] ∈ digitPair := mem_digitPair_iff.mpr ⟨s, s', rfl, hs, hs'⟩
    exact ⟨_, ⟨_, ⟨_, ⟨_, hhours, _, rfl, rfl⟩, _, hminutes, rfl⟩, _, rfl, rfl⟩, _, hseconds, rfl⟩

theorem mem_someOf_isSpace_iff {s : List Char} :
    s ∈ someOf isSpace ↔ ∃ r, s = ' ' :: r ∧ ∀ c ∈ r, isSpace c = true := by
  rw [mem_someOf]
  constructor
  · rintro ⟨hne, hs⟩
    obtain ⟨c, r, rfl⟩ := List.exists_cons_of_ne_nil hne
    obtain ⟨hc, hr⟩ := List.forall_mem_cons.mp (List.all_eq_true.mp hs)
    obtain rfl := isSpace_iff.mp hc
    exact ⟨r, rfl, hr⟩
  · rintro ⟨r, rfl, hr⟩
    exact ⟨List.cons_ne_nil _ _, List.all_eq_true.mpr (List.forall_mem_cons.mpr ⟨rfl, hr⟩)⟩

theorem stamp_eq :
    stamp = clock * someOf isSpace * anyOf levels * only " -" * someOf isSpace := rfl

theorem mem_stamp_iff {p : List Char} :
    p ∈ stamp ↔ ∃ t gap level tail, p = t ++ ' ' :: (gap ++ (level ++ (" - ".toList ++ tail))) ∧
      t ∈ clock ∧ (∀ c ∈ gap, isSpace c = true) ∧ level ∈ anyOf levels ∧
      ∀ c ∈ tail, isSpace c = true := by
  have hdash : " - ".toList = " -".toList ++ [' '] := rfl
  rw [stamp_eq]
  constructor
  · rintro ⟨_, ⟨_, ⟨_, ⟨t, ht, _, hbefore, rfl⟩, level, hlevel, rfl⟩, _, rfl, rfl⟩, _, hafter, rfl⟩
    obtain ⟨gap, rfl, hgap⟩ := mem_someOf_isSpace_iff.mp hbefore
    obtain ⟨tail, rfl, htail⟩ := mem_someOf_isSpace_iff.mp hafter
    exact ⟨t, gap, level, tail, by simp [hdash], ht, hgap, hlevel, htail⟩
  · rintro ⟨t, gap, level, tail, rfl, ht, hgap, hlevel, htail⟩
    have hbefore : ' ' :: gap ∈ someOf isSpace := mem_someOf_isSpace_iff.mpr ⟨gap, rfl, hgap⟩
    have hafter : ' ' :: tail ∈ someOf isSpace := mem_someOf_isSpace_iff.mpr ⟨tail, rfl, htail⟩
    refine ⟨_, ⟨_, ⟨_, ⟨t, ht, _, hbefore, rfl⟩, level, hlevel, rfl⟩, _, rfl, rfl⟩, _, hafter, ?_⟩
    simp [hdash]

theorem afterLevel?_eq_some_iff {s t : List Char} :
    afterLevel? s = some t ↔
      ∃ level ∈ anyOf levels, ∃ r, s = level ++ (" - ".toList ++ r) ∧ t = r.dropWhile isSpace := by
  constructor
  · intro h
    obtain ⟨level, hlevel, hread⟩ := List.exists_of_findSome?_eq_some h
    split at hread
    · rename_i r hr
      rw [after?_eq_some_iff, String.toList_append, List.append_assoc] at hr
      exact ⟨level.toList, ⟨level, hlevel, rfl⟩, r, hr, (Option.some.inj hread).symm⟩
    · contradiction
  · rintro ⟨_, ⟨level, hlevel, rfl⟩, r, rfl, rfl⟩
    -- no other level goes on as this one does
    simp only [levels, List.mem_cons, List.not_mem_nil, or_false] at hlevel
    obtain rfl | rfl | rfl | rfl | rfl | rfl := hlevel <;>
      simp [afterLevel?, levels, String.toList_append, after?]

theorem isSpace_of_head?_level {level r : List Char} (hlevel : level ∈ anyOf levels) {c : Char}
    (hc : (level ++ r).head? = some c) : isSpace c = false := by
  have hheads : ∀ level ∈ levels, level.toList.head?.any (fun c => !isSpace c) = true := by decide
  obtain ⟨v, hv, rfl⟩ := hlevel
  have hhead := hheads v hv
  cases hlist : v.toList with
  | nil =>
    rw [hlist] at hhead
    contradiction
  | cons d s =>
    rw [hlist] at hhead hc
    obtain rfl : d = c := by simpa using hc
    simpa using hhead

theorem afterStamp?_clock {t gap level : List Char} (ht : t ∈ clock)
    (hgap : ∀ c ∈ gap, isSpace c = true) (hlevel : level ∈ anyOf levels) (r : List Char) :
    afterStamp? (t ++ ' ' :: (gap ++ (level ++ r))) = afterLevel? (level ++ r) := by
  obtain ⟨h, h', m, m', s, s', rfl, hdigits⟩ := mem_clock_iff.mp ht
  have hskip : (gap ++ (level ++ r)).dropWhile isSpace = level ++ r :=
    dropWhile_of_run hgap fun c => isSpace_of_head?_level hlevel
  simp only [List.cons_append, List.nil_append, afterStamp?, hdigits, if_true, hskip]

theorem afterStamp?_append {p : List Char} (hp : p ∈ stamp) (r : List Char) :
    afterStamp? (p ++ r) = some (r.dropWhile isSpace) := by
  obtain ⟨t, gap, level, tail, rfl, ht, hgap, hlevel, htail⟩ := mem_stamp_iff.mp hp
  have hread : afterLevel? (level ++ (" - ".toList ++ (tail ++ r))) =
      some ((tail ++ r).dropWhile isSpace) :=
    afterLevel?_eq_some_iff.mpr ⟨level, hlevel, _, rfl, rfl⟩
  simp only [List.cons_append, List.append_assoc]
  rw [afterStamp?_clock ht hgap hlevel, hread, List.dropWhile_append_of_pos htail]

theorem exists_stamp_of_afterStamp? {s t : List Char} (h : afterStamp? s = some t) :
    ∃ p ∈ stamp, s = p ++ t ∧ t.head? ≠ some ' ' := by
  unfold afterStamp? at h
  split at h
  · rename_i a a' b b' d d' r
    split at h
    · rename_i hdigits
      obtain ⟨level, hlevel, u, hu, rfl⟩ := afterLevel?_eq_some_iff.mp h
      refine ⟨_, mem_stamp_iff.mpr ⟨_, r.takeWhile isSpace, level, u.takeWhile isSpace, rfl,
        mem_clock_iff.mpr ⟨a, a', b, b', d, d', rfl, hdigits⟩,
        List.all_eq_true.mp List.all_takeWhile, hlevel, List.all_eq_true.mp List.all_takeWhile⟩,
        ?_, ?_⟩
      · simp only [List.cons_append, List.nil_append, List.append_assoc,
          List.takeWhile_append_dropWhile, ← hu]
      · intro hhead
        have hspace := of_head?_dropWhile hhead
        contradiction
    · contradiction
  · contradiction

theorem afterStamp?_eq_none_iff {s : List Char} :
    afterStamp? s = none ↔ ∀ p ∈ stamp, ¬ p <+: s := by
  constructor
  · rintro h p hp ⟨r, rfl⟩
    rw [afterStamp?_append hp] at h
    contradiction
  · intro h
    rw [Option.eq_none_iff_forall_ne_some]
    intro t ht
    obtain ⟨p, hp, rfl, -⟩ := exists_stamp_of_afterStamp? ht
    exact h p hp (List.prefix_append p t)

theorem afterStamp?_of_bare {p t : List Char} (hp : p ∈ stamp) (ht : t.head? ≠ some ' ') :
    afterStamp? (p ++ t) = some t := by
  rw [afterStamp?_append hp]
  cases t with
  | nil => rfl
  | cons c t =>
    have hc : c ≠ ' ' := by simpa using ht
    rw [List.dropWhile_cons_of_neg fun hspace => hc (isSpace_iff.mp hspace)]

theorem trimEnd_of_last {s : List Char} (h : ∀ c, s.getLast? = some c → isBlank c = false) :
    trimEnd s = s := by
  obtain rfl | ⟨l, d, rfl⟩ := List.eq_nil_or_concat s
  · rfl
  · rw [List.concat_eq_append] at h ⊢
    exact trimEnd_append_cons (h d (by simp)) l []

theorem isBlank_of_getLast?_trimEnd {s : List Char} {c : Char}
    (h : (trimEnd s).getLast? = some c) : isBlank c = false := by
  rw [trimEnd, List.getLast?_reverse] at h
  exact of_head?_dropWhile h

theorem message_eq (line : List Char) :
    message line = (afterStamp? (trimEnd line)).getD (trimEnd line) := rfl

/-- Every line has one message. -/
theorem isMessage_iff {line t : List Char} : IsMessage line t ↔ t = message line := by
  constructor
  · rintro ⟨s, blanks, rfl, hblanks, hlast, h⟩
    have htrim : trimEnd (s ++ blanks) = s := by
      rw [trimEnd_append hblanks, trimEnd_of_last hlast]
    rw [message_eq, htrim]
    obtain ⟨p, hp, rfl, ht⟩ | ⟨rfl, hnone⟩ := h
    · rw [afterStamp?_of_bare hp ht]
      rfl
    · rw [afterStamp?_eq_none_iff.mpr hnone]
      rfl
  · rintro rfl
    obtain ⟨blanks, hline, hblanks⟩ := exists_blank_end line
    refine ⟨trimEnd line, blanks, hline, hblanks, fun c => isBlank_of_getLast?_trimEnd, ?_⟩
    rw [message_eq]
    cases hstamp : afterStamp? (trimEnd line) with
    | none => exact .inr ⟨rfl, afterStamp?_eq_none_iff.mp hstamp⟩
    | some t => exact .inl (exists_stamp_of_afterStamp? hstamp)

end BuildLog.FailureLine
