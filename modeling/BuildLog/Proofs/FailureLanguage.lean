import BuildLog.Proofs.HarnessStamp

namespace BuildLog.FailureLine
open Text Computability

def digits : Language Char := someOf isDecimalDigit

def processNumbers : Language Char := optional (only "[" * digits * only "]")

def makeStops : Language Char := processNumbers * only ": ***"

def harmless : Language Char := anyOf ["TEST-INFO ", "TEST-PASS "]

def fixedFailures : Language Char :=
  anyOf ["TEST-UNEXPECTED-", "fatal error", "FATAL ERROR", "REFTEST ERROR", "PROCESS-CRASH",
    "Assertion failure:", "Assertion failed:", "###!!! ABORT:", "E/GeckoLinker",
    "SUMMARY: AddressSanitizer", "SUMMARY: LeakSanitizer", "Automation Error:",
    "command timed out:", "wget: unable ", "TEST-VALGRIND-ERROR"]

def isLetterOrDot (c : Char) : Bool := c.isAlpha || c = '.'

def openings : Language Char :=
  anyOf ["error: ", "remoteFailed:", "rm: cannot ", "abort:",
    "The web-page 'stop build' button was pressed", "[taskcluster] Error:"] +
  optional (only "g") * (only "make" * makeStops) +
  someOf isLetterOrDot * only "Error: " +
  (oneOf isLetterOrDot)∗ * only "Exception: " +
  only "Output exceeded " * (digits * only " bytes") +
  (oneOf (· ≠ '\n'))∗ *
    (only ".js: line " * (digits * (only ", col " * (digits * only ", Error -"))))

def statuses : Language Char := only "ERROR " * ((only "4" + only "5") * (digitPair * only ":"))

def innerFailures : Language Char :=
  only " error(" * ((oneOf isDecimalDigit)∗ * only "):") +
  only ":" * (digits * only ": error:") +
  only " error " * (optional (only "R") * (only "C" * ((oneOf isDecimalDigit)∗ * only ":"))) +
  statuses +
  only "mozmake." * ((only "exe" + only "EXE") * makeStops)

theorem accepts_accept : Accepts accept 1 := by
  intro s
  simp [accept, Language.mem_one]

theorem accepts_word_end (w : String) : Accepts (word w.toList accept) (only w) := by
  have h := accepts_word w accepts_accept
  rwa [mul_one] at h

theorem accepts_processNumber {k : List Char → Bool} {L : Language Char} (h : Accepts k L) :
    Accepts (processNumber k) (processNumbers * L) := by
  apply accepts_optional _ h
  rw [mul_assoc, mul_assoc]
  exact accepts_word "[" (accepts_run1 _ (accepts_word "]" h))

theorem accepts_twoDigits {k : List Char → Bool} {L : Language Char} (h : Accepts k L) :
    Accepts (twoDigits k) (digitPair * L) := by
  intro s
  rw [exists_mul_isPrefix_iff]
  constructor
  · intro hs
    unfold twoDigits at hs
    split at hs
    · rename_i a b r
      simp only [Bool.and_eq_true] at hs
      exact ⟨[a, b], mem_digitPair_iff.mpr ⟨a, b, rfl, hs.1⟩, r, rfl, (h r).mp hs.2⟩
    · contradiction
  · rintro ⟨w, hw, r, rfl, hr⟩
    obtain ⟨a, b, rfl, ha, hb⟩ := mem_digitPair_iff.mp hw
    simp [twoDigits, ha, hb, (h r).mpr hr]

theorem accepts_stop : Accepts (processNumber (word ": ***".toList accept)) makeStops :=
  accepts_processNumber (accepts_word_end ": ***")

theorem accepts_makeStop :
    Accepts makeStop (optional (only "g") * (only "make" * makeStops)) :=
  accepts_optional (accepts_word "g" (accepts_word "make" accepts_stop))
    (accepts_word "make" accepts_stop)

theorem isNameChar_eq : isNameChar = isLetterOrDot := by
  funext c
  have hupper : c.isUpper = ('A' ≤ c && c ≤ 'Z') := Bool.decide_and _ _
  exact congrArg (fun b => b || ('a' ≤ c && c ≤ 'z') || c = '.') hupper.symm

theorem accepts_namedError : Accepts namedError (someOf isLetterOrDot * only "Error: ") := by
  rw [← isNameChar_eq]
  exact accepts_run1 _ (accepts_word_end "Error: ")

theorem accepts_namedException :
    Accepts namedException ((oneOf isLetterOrDot)∗ * only "Exception: ") := by
  rw [← isNameChar_eq]
  exact accepts_run _ (accepts_word_end "Exception: ")

theorem accepts_outputExceeded :
    Accepts outputExceeded (only "Output exceeded " * (digits * only " bytes")) :=
  accepts_word _ (accepts_run1 _ (accepts_word_end " bytes"))

theorem accepts_scriptError :
    Accepts scriptError ((oneOf (· ≠ '\n'))∗ *
      (only ".js: line " * (digits * (only ", col " * (digits * only ", Error -"))))) :=
  accepts_run _ (accepts_word _ (accepts_run1 _ (accepts_word _ (accepts_run1 _
    (accepts_word_end ", Error -")))))

theorem accepts_opensFailure : Accepts opensFailure openings := by
  have hwords : Accepts (fun s => failureOpenings.any (·.isPrefixOf s))
      (anyOf ["error: ", "remoteFailed:", "rm: cannot ", "abort:",
        "The web-page 'stop build' button was pressed", "[taskcluster] Error:"]) :=
    accepts_anyOf _
  exact accepts_or (accepts_or (accepts_or (accepts_or (accepts_or hwords accepts_makeStop)
    accepts_namedError) accepts_namedException) accepts_outputExceeded) accepts_scriptError

theorem accepts_numberedError :
    Accepts numberedError (only " error(" * ((oneOf isDecimalDigit)∗ * only "):")) :=
  accepts_word _ (accepts_run _ (accepts_word_end "):"))

theorem accepts_compilerError : Accepts compilerError (only ":" * (digits * only ": error:")) :=
  accepts_word _ (accepts_run1 _ (accepts_word_end ": error:"))

theorem accepts_codedError :
    Accepts codedError (only " error " *
      (optional (only "R") * (only "C" * ((oneOf isDecimalDigit)∗ * only ":")))) := by
  have hcode := accepts_word "C" (accepts_run isDecimalDigit (accepts_word_end ":"))
  exact accepts_word _ (accepts_optional (accepts_word "R" hcode) hcode)

theorem accepts_statusError : Accepts statusError statuses := by
  have hstatus := accepts_twoDigits (accepts_word_end ":")
  rw [statuses, add_mul]
  exact accepts_word _ (accepts_or (accepts_word "4" hstatus) (accepts_word "5" hstatus))

theorem accepts_windowsMakeStop :
    Accepts windowsMakeStop (only "mozmake." * ((only "exe" + only "EXE") * makeStops)) := by
  rw [add_mul]
  exact accepts_word _ (accepts_or (accepts_word "exe" accepts_stop)
    (accepts_word "EXE" accepts_stop))

theorem accepts_holdsFailure : Accepts holdsFailure innerFailures :=
  accepts_or (accepts_or (accepts_or (accepts_or accepts_numberedError accepts_compilerError)
    accepts_codedError) accepts_statusError) accepts_windowsMakeStop

theorem mem_harmless_iff {w : List Char} : w ∈ harmless ↔ w ∈ harmlessWords := mem_anyOf

theorem mem_fixedFailures_iff {w : List Char} : w ∈ fixedFailures ↔ w ∈ failureWords := mem_anyOf

theorem isFailureMessage_iff {t : List Char} :
    isFailureMessage t = true ↔
      (∀ w ∈ harmless, ¬ w <:+: t) ∧
        ((∃ w ∈ fixedFailures, w <:+: t) ∨ (∃ w ∈ openings, w <+: t) ∨
          ∃ w ∈ innerFailures, w <:+: t) := by
  rw [isFailureMessage, Bool.and_eq_true, Bool.or_eq_true, Bool.or_eq_true, Bool.not_eq_true',
    List.any_eq_false, List.any_eq_true, accepts_opensFailure t,
    anywhere_iff_of_accepts accepts_holdsFailure, or_assoc]
  simp only [occurs_iff, mem_harmless_iff, mem_fixedFailures_iff]

/-- A line is a failure exactly if its one message is: it holds none of the harmless texts, and it
holds a fixed failure, begins as a failure does, or holds a failure of the other forms. -/
theorem failures_by_language (line : String) :
    ∃ t, (∀ u, IsMessage line.toList u ↔ u = t) ∧
      (isFailure line = true ↔
        (∀ w ∈ harmless, ¬ w <:+: t) ∧
          ((∃ w ∈ fixedFailures, w <:+: t) ∨ (∃ w ∈ openings, w <+: t) ∨
            ∃ w ∈ innerFailures, w <:+: t)) :=
  ⟨message line.toList, fun _ => isMessage_iff, isFailureMessage_iff⟩

theorem failures_by_language_make :
    let line := "12:34:56     INFO -  make[٣]: *** [check] Error 1\t"
    let message := "make[٣]: *** [check] Error 1"
    IsMessage line.toList message.toList ∧ "make[٣]: ***".toList ∈ openings ∧
      isFailure line = true ∧ isFailure "PROCESS-CRASH TEST-INFO " = true ∧
      isFailure "PROCESS-CRASH TEST-INFO |" = false := by
  have hat {line : String} {u : List Char} (hu : IsMessage line.toList u) :
      isFailure line = true ↔ (∀ w ∈ harmless, ¬ w <:+: u) ∧
        ((∃ w ∈ fixedFailures, w <:+: u) ∨ (∃ w ∈ openings, w <+: u) ∨
          ∃ w ∈ innerFailures, w <:+: u) := by
    obtain ⟨t, hone, hfailure⟩ := failures_by_language line
    rwa [← (hone u).mp hu] at hfailure
  have hlast (d : Char) {s : List Char} (hd : s.getLast? = some d) (hblank : isBlank d = false) :
      ∀ c, s.getLast? = some c → isBlank c = false := by
    intro c hc
    rw [hd] at hc
    rwa [← Option.some.inj hc]
  have hstamp : "12:34:56     INFO -  ".toList ∈ stamp :=
    mem_stamp_iff.mpr ⟨"12:34:56".toList, "    ".toList, "INFO".toList, " ".toList, rfl,
      mem_clock_iff.mpr ⟨'1', '2', '3', '4', '5', '6', rfl, by decide⟩,
      List.all_eq_true.mp (by decide), ⟨"INFO", by decide, rfl⟩, List.all_eq_true.mp (by decide)⟩
  have hmake : "make[٣]: ***".toList ∈ openings := by
    have hnumber : "[٣]".toList ∈ processNumbers :=
      .inr ⟨_, ⟨_, rfl, ['٣'], mem_someOf.mpr (by decide +kernel), rfl⟩, _, rfl, rfl⟩
    exact .inl (.inl (.inl (.inl (.inr
      ⟨[], .inl rfl, _, ⟨_, rfl, _, ⟨_, hnumber, _, rfl, rfl⟩, rfl⟩, rfl⟩))))
  have hline : IsMessage "12:34:56     INFO -  make[٣]: *** [check] Error 1\t".toList
      "make[٣]: *** [check] Error 1".toList :=
    ⟨_, ['\t'], rfl, List.forall_mem_singleton.mpr rfl, hlast '1' rfl rfl,
      .inl ⟨_, hstamp, rfl, by decide⟩⟩
  have hcrash : IsMessage "PROCESS-CRASH TEST-INFO ".toList "PROCESS-CRASH TEST-INFO".toList :=
    ⟨_, [' '], rfl, List.forall_mem_singleton.mpr rfl, hlast 'O' rfl rfl,
      .inr ⟨rfl, afterStamp?_eq_none_iff.mp (by decide)⟩⟩
  have hinfo : IsMessage "PROCESS-CRASH TEST-INFO |".toList "PROCESS-CRASH TEST-INFO |".toList :=
    ⟨_, [], rfl, List.forall_mem_nil _, hlast '|' rfl rfl,
      .inr ⟨rfl, afterStamp?_eq_none_iff.mp (by decide)⟩⟩
  refine ⟨hline, hmake, (hat hline).mpr ⟨?_, .inr (.inl ⟨_, hmake, by decide⟩)⟩,
    (hat hcrash).mpr ⟨?_, .inl ⟨_, ⟨"PROCESS-CRASH", by decide, rfl⟩, by decide⟩⟩, ?_⟩
  · simp only [mem_harmless_iff]
    decide
  · simp only [mem_harmless_iff]
    decide
  · rw [Bool.eq_false_iff, Ne, hat hinfo]
    rintro ⟨hharmless, -⟩
    exact hharmless _ ⟨"TEST-INFO ", by decide, rfl⟩ (by decide)

end BuildLog.FailureLine
