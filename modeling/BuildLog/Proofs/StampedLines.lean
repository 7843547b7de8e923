import BuildLog.Proofs.FailureLanguage

namespace BuildLog.FailureLine
open Text

def isLower (c : Char) : Bool := 'a' ≤ c && c ≤ 'z'

/-- The characters that no stamp of the level has. -/
def isForeign (level : List Char) (c : Char) : Bool :=
  !(isDecimalDigit c || [':', ' ', '-'].contains c || level.contains c)

theorem digit_or_colon_of_mem_clock {t : List Char} (ht : t ∈ clock) :
    ∀ c ∈ t, isDecimalDigit c = true ∨ c = ':' := by
  obtain ⟨h, h', m, m', s, s', rfl, hdigits⟩ := mem_clock_iff.mp ht
  simp only [List.all_cons, List.all_nil, Bool.and_true, Bool.and_eq_true] at hdigits
  simp [hdigits]

theorem isDecimalDigit_of_isLower {c : Char} (h : isLower c = true) : isDecimalDigit c = false := by
  simp only [isLower, Bool.and_eq_true, decide_eq_true_eq, Char.le_def, UInt32.le_iff_toNat_le] at h
  obtain ⟨hlow, hhigh⟩ := h
  change 97 ≤ c.toNat at hlow
  change c.toNat ≤ 122 at hhigh
  have hascii : isAsciiDigit c = false := by
    simp only [isAsciiDigit, Bool.and_eq_false_iff, decide_eq_false_iff_not, Char.le_def,
      UInt32.le_iff_toNat_le]
    right
    change ¬ c.toNat ≤ 57
    omega
  have hscripts : ¬ 0x660 ≤ c.toNat := by omega
  simp [isDecimalDigit, hascii, hscripts]

theorem isForeign_of_isLower {level : List Char} (hlevel : level ∈ anyOf levels) {c : Char}
    (hc : isLower c = true) : isForeign level c = true := by
  have hupper : ∀ level ∈ levels, level.toList.any isLower = false := by decide
  have hmarks : [':', ' ', '-'].any isLower = false := by decide
  have hword : level.any isLower = false := by
    obtain ⟨v, hv, rfl⟩ := hlevel
    exact hupper v hv
  have hnot : ∀ s : List Char, s.any isLower = false → s.contains c = false := by
    intro s hs
    rw [List.contains_eq_mem, decide_eq_false_iff_not]
    intro hmem
    exact List.any_eq_false.mp hs c hmem hc
  rw [isForeign, isDecimalDigit_of_isLower hc, hnot _ hmarks, hnot _ hword]
  rfl

theorem needs_openings : Needs isLower openings := by
  refine needs_add (needs_add (needs_add (needs_add (needs_add ?_ ?_) ?_) ?_) ?_) ?_
  · exact needs_anyOf (by decide)
  · exact needs_mul_right _ (needs_mul_left (needs_only (by decide)) _)
  · exact needs_mul_right _ (needs_only (by decide))
  · exact needs_mul_right _ (needs_only (by decide))
  · exact needs_mul_left (needs_only (by decide)) _
  · exact needs_mul_right _ (needs_mul_left (needs_only (by decide)) _)

theorem mem_statuses_or_any_isLower {w : List Char} (hw : w ∈ innerFailures) :
    w ∈ statuses ∨ w.any isLower = true := by
  obtain (((hw | hw) | hw) | hw) | hw := hw
  · exact .inr (needs_mul_left (needs_only (by decide)) _ w hw)
  · exact .inr (needs_mul_right _ (needs_mul_right _ (needs_only (by decide))) w hw)
  · exact .inr (needs_mul_left (needs_only (by decide)) _ w hw)
  · exact .inl hw
  · exact .inr (needs_mul_left (needs_only (by decide)) _ w hw)

section Alone

variable {t gap level : List Char} (ht : t ∈ clock) (hgap : ∀ c ∈ gap, isSpace c = true)
  (hlevel : level ∈ anyOf levels)

include ht hgap in
theorem isForeign_of_mem_trimmed :
    ∀ c ∈ t ++ ' ' :: (gap ++ (level ++ " -".toList)), isForeign level c = false := by
  intro c hc
  simp only [List.mem_append, List.mem_cons] at hc
  rw [isForeign, Bool.not_eq_false', Bool.or_eq_true, Bool.or_eq_true]
  obtain hc | rfl | hc | hc | hc := hc
  · obtain hdigit | rfl := digit_or_colon_of_mem_clock ht c hc
    · exact .inl (.inl hdigit)
    · exact .inl (.inr rfl)
  · exact .inl (.inr rfl)
  · obtain rfl := isSpace_iff.mp (hgap c hc)
    exact .inl (.inr rfl)
  · exact .inr (List.contains_iff_mem.mpr hc)
  · have hmarks : " -".toList.all [':', ' ', '-'].contains = true := by decide
    exact .inl (.inr (List.all_eq_true.mp hmarks c hc))

include ht hgap hlevel in
/-- A status needs a digit after letters, and a stamp has all digits before them. -/
theorem not_isInfix_of_mem_statuses {w : List Char} (hw : w ∈ statuses) :
    ¬ w <:+: t ++ ' ' :: (gap ++ (level ++ " -".toList)) := by
  obtain ⟨_, rfl, _, ⟨x, hx, v, -, rfl⟩, rfl⟩ := hw
  have hletter : 'E' ∉ t := by
    intro hmem
    obtain h | h := digit_or_colon_of_mem_clock ht _ hmem
    · exact absurd h (by decide)
    · exact absurd h (by decide)
  have hdigits : ∀ d, isAsciiDigit d = true → d ∉ ' ' :: (gap ++ (level ++ " -".toList)) := by
    have hlevels : ∀ level ∈ levels, level.toList.any isAsciiDigit = false := by decide
    obtain ⟨u, hu, rfl⟩ := hlevel
    intro d hd hmem
    simp only [List.mem_append, List.mem_cons] at hmem
    obtain rfl | hmem | hmem | hmem := hmem
    · exact absurd hd (by decide)
    · obtain rfl := isSpace_iff.mp (hgap d hmem)
      exact absurd hd (by decide)
    · exact List.any_eq_false.mp (hlevels u hu) d hmem hd
    · have hdash : " -".toList.any isAsciiDigit = false := by decide
      exact List.any_eq_false.mp hdash d hmem hd
  obtain rfl | rfl := hx
  · exact not_isInfix_append (u := "RROR ".toList) hletter (hdigits '4' (by decide))
  · exact not_isInfix_append (u := "RROR ".toList) hletter (hdigits '5' (by decide))

include ht hgap hlevel in
theorem isFailureMessage_trimmed :
    isFailureMessage (t ++ ' ' :: (gap ++ (level ++ " -".toList))) = false := by
  have hforeign : ∀ c ∈ t ++ ' ' :: (gap ++ (level ++ " -".toList)), isForeign level c = false :=
    isForeign_of_mem_trimmed ht hgap
  have hlower : ∀ c ∈ t ++ ' ' :: (gap ++ (level ++ " -".toList)), isLower c = false := by
    intro c hc
    rw [Bool.eq_false_iff]
    intro hletter
    exact absurd (isForeign_of_isLower hlevel hletter) (by simp [hforeign c hc])
  rw [Bool.eq_false_iff, Ne, isFailureMessage_iff]
  rintro ⟨-, ⟨w, hw, hin⟩ | ⟨w, hw, hin⟩ | ⟨w, hw, hin⟩⟩
  · -- level by level, as no character of FATAL ERROR is foreign to all of them
    have hwords : ∀ level ∈ levels, ∀ w ∈ failureWords, w.any (isForeign level.toList) = true := by
      decide +kernel
    rw [mem_fixedFailures_iff] at hw
    obtain ⟨v, hv, rfl⟩ := hlevel
    exact not_isInfix_of_any (hwords v hv w hw) hforeign hin
  · exact not_isInfix_of_any (needs_openings w hw) hlower hin.isInfix
  · obtain hw | hw := mem_statuses_or_any_isLower hw
    · exact not_isInfix_of_mem_statuses ht hgap hlevel hw hin
    · exact not_isInfix_of_any hw hlower hin

end Alone

theorem isFailureMessage_of_stamp {p b : List Char} (hp : p ∈ stamp)
    (hb : ∀ c ∈ b, isBlank c = true) : isFailureMessage (message (p ++ b)) = false := by
  obtain ⟨t, gap, level, tail, rfl, ht, hgap, hlevel, htail⟩ := mem_stamp_iff.mp hp
  have hblanks : ∀ c ∈ ' ' :: tail ++ b, isBlank c = true := by
    intro c hc
    rw [List.mem_append, List.mem_cons] at hc
    obtain (rfl | hc) | hc := hc
    · decide
    · obtain rfl := isSpace_iff.mp (htail c hc)
      decide
    · exact hb c hc
  have htrim : trimEnd (t ++ ' ' :: (gap ++ (level ++ (" - ".toList ++ tail))) ++ b) =
      t ++ ' ' :: (gap ++ (level ++ " -".toList)) := by
    have hend : trimEnd (' ' :: tail ++ b) = [] := trimEnd_append hblanks []
    have h := trimEnd_append_cons (c := '-') (by decide) (t ++ ' ' :: (gap ++ (level ++ [' '])))
      (' ' :: tail ++ b)
    rw [hend] at h
    simpa using h
  have hnone : afterStamp? (t ++ ' ' :: (gap ++ (level ++ " -".toList))) = none := by
    have hlevels : ∀ level ∈ levels, afterLevel? (level.toList ++ " -".toList) = none := by
      decide +kernel
    rw [afterStamp?_clock ht hgap hlevel]
    obtain ⟨v, hv, rfl⟩ := hlevel
    exact hlevels v hv
  rw [message_eq, htrim, hnone]
  exact isFailureMessage_trimmed ht hgap hlevel

theorem message_append_blanks (s : List Char) {w : List Char} (hw : ∀ c ∈ w, isBlank c = true) :
    message (s ++ w) = message s := by
  rw [message_eq, message_eq, trimEnd_append hw]

theorem message_append_of_stamp {p s : List Char} (hp : p ∈ stamp) (hspace : s.head? ≠ some ' ')
    (hs : ¬ ∀ c ∈ s, isBlank c = true) (hone : ∀ q ∈ stamp, ¬ q <+: s) :
    message (p ++ s) = message s := by
  obtain ⟨l, c, t, rfl, hl, hc⟩ := (blank_or_exists_first s).resolve_left hs
  have htrim : trimEnd (l ++ c :: t) = l ++ c :: trimEnd t := trimEnd_append_cons hc l t
  have hlong : trimEnd (p ++ (l ++ c :: t)) = p ++ (l ++ c :: trimEnd t) := by
    rw [← List.append_assoc, trimEnd_append_cons hc, List.append_assoc]
  have hbare : afterStamp? (p ++ (l ++ c :: trimEnd t)) = some (l ++ c :: trimEnd t) := by
    apply afterStamp?_of_bare hp
    cases l with
    | nil => exact hspace
    | cons d l => exact hspace
  have hnone : afterStamp? (l ++ c :: trimEnd t) = none := by
    rw [afterStamp?_eq_none_iff, ← htrim]
    intro q hq hpre
    exact hone q hq (hpre.trans (trimEnd_isPrefix _))
  rw [message_eq, message_eq, hlong, htrim, hbare, hnone]
  rfl

theorem isFailureMessage_stamp_append {p s : List Char} (hp : p ∈ stamp)
    (hspace : s.head? ≠ some ' ') (hone : ∀ q ∈ stamp, ¬ q <+: s) :
    isFailureMessage (message (p ++ s)) = isFailureMessage (message s) := by
  by_cases hs : ∀ c ∈ s, isBlank c = true
  · have hempty : message s = [] := message_append_blanks [] hs
    have hnil : isFailureMessage [] = false := by decide +kernel
    rw [isFailureMessage_of_stamp hp hs, hempty, hnil]
  · rw [message_append_of_stamp hp hspace hs hone]

/-- Neither the one stamp in front of a line nor blanks at its end count. The line may be empty or
blank, and it may not begin with a space, which would belong to the stamp. -/
theorem stamps_and_blanks_never_count :
    (∀ p s w : String, p.toList ∈ stamp → s.toList.head? ≠ some ' ' →
      (∀ q ∈ stamp, ¬ q <+: s.toList) → (∀ c ∈ w.toList, isBlank c = true) →
      isFailure (p ++ s ++ w) = isFailure s) ∧
    ∀ s w : String, (∀ c ∈ w.toList, isBlank c = true) → isFailure (s ++ w) = isFailure s := by
  refine ⟨fun p s w hp hspace hone hw => ?_, fun s w hw => ?_⟩
  · rw [isFailure, isFailure, String.toList_append, String.toList_append, message_append_blanks _ hw]
    exact isFailureMessage_stamp_append hp hspace hone
  · rw [isFailure, isFailure, String.toList_append, message_append_blanks _ hw]

theorem stamps_and_blanks_make :
    let p := "12:34:56     INFO -  "
    let s := "make: *** [check] Error 1"
    p.toList ∈ stamp ∧ s.toList.head? ≠ some ' ' ∧ (∀ q ∈ stamp, ¬ q <+: s.toList) ∧
      isFailure (p ++ s ++ " \t") = isFailure s ∧ isFailure s = true ∧
      isFailure (p ++ "\t" ++ " ") = isFailure "\t" ∧ isFailure "\t" = false := by
  have hp : "12:34:56     INFO -  ".toList ∈ stamp :=
    mem_stamp_iff.mpr ⟨"12:34:56".toList, "    ".toList, "INFO".toList, " ".toList, rfl,
      mem_clock_iff.mpr ⟨'1', '2', '3', '4', '5', '6', rfl, by decide⟩,
      List.all_eq_true.mp (by decide), ⟨"INFO", by decide, rfl⟩, List.all_eq_true.mp (by decide)⟩
  have hmake : ∀ q ∈ stamp, ¬ q <+: "make: *** [check] Error 1".toList :=
    afterStamp?_eq_none_iff.mp (by decide)
  have htab : ∀ q ∈ stamp, ¬ q <+: "\t".toList := afterStamp?_eq_none_iff.mp (by decide)
  refine ⟨hp, by decide, hmake, ?_, by decide +kernel, ?_, by decide +kernel⟩
  · have hblanks := List.all_eq_true.mp (rfl : " \t".toList.all isBlank = true)
    exact stamps_and_blanks_never_count.1 _ _ _ hp (by decide) hmake hblanks
  · have hblanks := List.all_eq_true.mp (rfl : " ".toList.all isBlank = true)
    exact stamps_and_blanks_never_count.1 _ _ _ hp (by decide) htab hblanks

end BuildLog.FailureLine
