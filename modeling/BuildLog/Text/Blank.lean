namespace BuildLog.Text

/-- The 25 characters with the White_Space property. -/
def isBlank (c : Char) : Bool :=
  let n := c.toNat
  (9 ≤ n && n ≤ 13) || n == 0x20 || n == 0x85 || n == 0xA0 || n == 0x1680 ||
    (0x2000 ≤ n && n ≤ 0x200A) || n == 0x2028 || n == 0x2029 || n == 0x202F || n == 0x205F ||
    n == 0x3000

def trimStart (s : List Char) : List Char := s.dropWhile isBlank

def trimEnd (s : List Char) : List Char := (s.reverse.dropWhile isBlank).reverse

def trim (s : List Char) : List Char := trimEnd (trimStart s)

theorem trimEnd_isPrefix (s : List Char) : trimEnd s <+: s := by
  have h := List.dropWhile_suffix isBlank (l := s.reverse)
  rw [trimEnd, ← List.reverse_suffix, List.reverse_reverse]
  exact h

theorem trim_isInfix (s : List Char) : trim s <:+: s := by
  have hend : trim s <+: trimStart s := trimEnd_isPrefix (trimStart s)
  have hstart : trimStart s <:+ s := List.dropWhile_suffix isBlank
  exact hend.isInfix.trans hstart.isInfix

theorem trimStart_append {l : List Char} (hl : ∀ c ∈ l, isBlank c = true) (s : List Char) :
    trimStart (l ++ s) = trimStart s :=
  List.dropWhile_append_of_pos hl

theorem trimStart_cons {c : Char} (hc : isBlank c = false) (s : List Char) :
    trimStart (c :: s) = c :: s :=
  List.dropWhile_cons_of_neg (by simp [hc])

theorem trimEnd_append {r : List Char} (hr : ∀ c ∈ r, isBlank c = true) (s : List Char) :
    trimEnd (s ++ r) = trimEnd s := by
  have hreverse : ∀ c ∈ r.reverse, isBlank c = true := fun c hc => hr c (List.mem_reverse.mp hc)
  rw [trimEnd, List.reverse_append, List.dropWhile_append_of_pos hreverse]
  rfl

theorem trimEnd_append_cons {c : Char} (hc : isBlank c = false) (l s : List Char) :
    trimEnd (l ++ c :: s) = l ++ c :: trimEnd s := by
  have hstop : (c :: l.reverse).dropWhile isBlank = c :: l.reverse := trimStart_cons hc l.reverse
  have hreverse : (l ++ c :: s).reverse = s.reverse ++ c :: l.reverse := by simp
  rw [trimEnd, hreverse, List.dropWhile_append, hstop]
  split
  · rename_i hempty
    have htrim : trimEnd s = [] := by
      rw [trimEnd, List.isEmpty_iff.mp hempty]
      rfl
    simp [htrim]
  · simp [trimEnd]

/-- A text is blank, or some character of it is the first that is no blank. -/
theorem blank_or_exists_first (s : List Char) :
    (∀ c ∈ s, isBlank c = true) ∨
      ∃ l c t, s = l ++ c :: t ∧ (∀ d ∈ l, isBlank d = true) ∧ isBlank c = false := by
  induction s with
  | nil => exact .inl (List.forall_mem_nil _)
  | cons a s ih =>
    cases ha : isBlank a with
    | false => exact .inr ⟨[], a, s, rfl, List.forall_mem_nil _, ha⟩
    | true =>
      obtain hs | ⟨l, c, t, rfl, hl, hc⟩ := ih
      · exact .inl (List.forall_mem_cons.mpr ⟨ha, hs⟩)
      · exact .inr ⟨a :: l, c, t, rfl, List.forall_mem_cons.mpr ⟨ha, hl⟩, hc⟩

/-- It does not matter which end is trimmed first. -/
theorem trim_eq_trimStart_trimEnd (s : List Char) : trim s = trimStart (trimEnd s) := by
  obtain hs | ⟨l, c, t, rfl, hl, hc⟩ := blank_or_exists_first s
  · have hstart : trimStart s = [] := by
      have h := trimStart_append hs []
      rwa [List.append_nil] at h
    have hend : trimEnd s = [] := trimEnd_append hs []
    rw [trim, hstart, hend]
    rfl
  · rw [trim, trimStart_append hl, trimStart_cons hc, trimEnd_append_cons hc, trimStart_append hl,
      trimStart_cons hc]
    exact trimEnd_append_cons hc [] t

theorem trim_surround {l r : List Char} (hl : ∀ c ∈ l, isBlank c = true)
    (hr : ∀ c ∈ r, isBlank c = true) (s : List Char) : trim (l ++ (s ++ r)) = trim s := by
  rw [trim, trimStart_append hl, ← trim, trim_eq_trimStart_trimEnd, trimEnd_append hr,
    ← trim_eq_trimStart_trimEnd]

theorem exists_blank_end (s : List Char) :
    ∃ r, s = trimEnd s ++ r ∧ ∀ c ∈ r, isBlank c = true := by
  refine ⟨(s.reverse.takeWhile isBlank).reverse, ?_, ?_⟩
  · rw [trimEnd, ← List.reverse_append, List.takeWhile_append_dropWhile, List.reverse_reverse]
  · intro c hc
    exact List.all_eq_true.mp List.all_takeWhile c (List.mem_reverse.mp hc)

theorem trim_trimEnd (s : List Char) : trim (trimEnd s) = trim s := by
  obtain ⟨r, hs, hr⟩ := exists_blank_end s
  have h := trim_surround (List.forall_mem_nil _) hr (trimEnd s)
  rw [List.nil_append, ← hs] at h
  exact h.symm

def startsBare (s : List Char) : Bool := s.head?.any fun c => !isBlank c

def endsBare (s : List Char) : Bool := s.getLast?.any fun c => !isBlank c

theorem startsBare_append {s : List Char} (h : startsBare s = true) (t : List Char) :
    startsBare (s ++ t) = true := by
  cases s with
  | nil => contradiction
  | cons c s => exact h

theorem endsBare_append {t : List Char} (h : endsBare t = true) (s : List Char) :
    endsBare (s ++ t) = true := by
  obtain rfl | ⟨l, d, rfl⟩ := List.eq_nil_or_concat t
  · contradiction
  · rw [List.concat_eq_append] at h ⊢
    simpa [endsBare, ← List.append_assoc] using h

theorem endsBare_of_forall {s : List Char} (hne : s ≠ []) (h : ∀ c ∈ s, isBlank c = false) :
    endsBare s = true := by
  obtain ⟨l, d, rfl⟩ := (List.eq_nil_or_concat s).resolve_left hne
  simp [endsBare, h d (by simp)]

theorem trim_of_bare {s : List Char} (hstart : startsBare s = true) (hend : endsBare s = true) :
    trim s = s := by
  cases s with
  | nil => rfl
  | cons c t =>
    obtain ⟨l, d, hl⟩ := (List.eq_nil_or_concat (c :: t)).resolve_left (by simp)
    rw [List.concat_eq_append] at hl
    have hc : isBlank c = false := by simpa [startsBare] using hstart
    have hd : isBlank d = false := by simpa [endsBare, hl] using hend
    rw [trim, trimStart_cons hc, hl]
    exact trimEnd_append_cons hd l []

theorem isBlank_eq_false_of_ascii {c : Char} (hlow : 0x21 ≤ c.toNat) (hhigh : c.toNat ≤ 0x7E) :
    isBlank c = false := by
  unfold isBlank
  simp only [Bool.or_eq_false_iff, Bool.and_eq_false_iff, decide_eq_false_iff_not,
    beq_eq_false_iff_ne]
  omega

end BuildLog.Text
