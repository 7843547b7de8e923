import BuildLog.Proofs.JsonValues

namespace BuildLog.Json
open Text

/-- Where a character of a text stands: between strings, in a string, or in a string after a
backslash that is not escaped itself. -/
inductive Position where
  | outside
  | inside
  | escaped
deriving DecidableEq

def Position.next : Position → Char → Position
  | outside, c => if c = '"' then inside else outside
  | inside, c => if c = '"' then outside else if c = '\\' then escaped else inside
  | escaped, _ => inside

def dropBlanks : Position → List Char → List Char
  | _, [] => []
  | p, c :: s =>
    if p = .outside && isSpace c then dropBlanks p s else c :: dropBlanks (p.next c) s

/-- Whether a character outside of strings is no blank and opens no string. -/
def isPlain (c : Char) : Bool := !isSpace c && c ≠ '"'

theorem isPlain_iff {c : Char} : isPlain c = true ↔ isSpace c = false ∧ c ≠ '"' := by
  simp [isPlain]

theorem dropBlanks_plain {t : List Char} (ht : ∀ c ∈ t, isPlain c = true) (s : List Char) :
    dropBlanks .outside (t ++ s) = t ++ dropBlanks .outside s := by
  induction t with
  | nil => rfl
  | cons c t ih =>
    obtain ⟨hc, ht⟩ := List.forall_mem_cons.mp ht
    obtain ⟨hspace, hquote⟩ := isPlain_iff.mp hc
    have hnext : Position.outside.next c = .outside := if_neg hquote
    rw [List.cons_append, dropBlanks, hspace, hnext, ih ht]
    rfl

theorem dropBlanks_word {t : List Char} (ht : t.all isPlain = true) (s : List Char) :
    dropBlanks .outside (t ++ s) = t ++ dropBlanks .outside s :=
  dropBlanks_plain (List.all_eq_true.mp ht) s

theorem dropBlanks_blank {t : List Char} (ht : ∀ c ∈ t, isSpace c = true) (s : List Char) :
    dropBlanks .outside (t ++ s) = dropBlanks .outside s := by
  induction t with
  | nil => rfl
  | cons c t ih =>
    obtain ⟨hspace, ht⟩ := List.forall_mem_cons.mp ht
    rw [List.cons_append, dropBlanks, ih ht]
    simp [hspace]

theorem dropBlanks_escapedChar (c : Char) (s : List Char) :
    dropBlanks .inside (escapedChar c ++ s) = escapedChar c ++ dropBlanks .inside s := by
  unfold escapedChar
  split
  · rfl
  · rfl
  · rfl
  · rfl
  · rfl
  · rfl
  · rfl
  · rename_i hquote hbackslash _ _ _ _ _
    split
    · rename_i hc
      -- the digits of a control character neither close the string nor escape what follows
      have hdigits : ∀ n < 32, ∀ d ∈ [n / 16, n % 16],
          Nat.digitChar d ≠ '"' ∧ Nat.digitChar d ≠ '\\' := by
        decide +kernel
      have h := hdigits c.toNat hc
      rw [List.forall_mem_cons, List.forall_mem_singleton] at h
      simp [dropBlanks, Position.next, h.1.1, h.1.2, h.2.1, h.2.2]
    · have hq : c ≠ '"' := hquote
      have hb : c ≠ '\\' := hbackslash
      simp [dropBlanks, Position.next, hq, hb]

theorem dropBlanks_stringText (t : String) (s : List Char) :
    dropBlanks .outside (stringText t ++ s) = stringText t ++ dropBlanks .outside s := by
  have hinside (cs : List Char) :
      dropBlanks .inside (cs.flatMap escapedChar ++ '"' :: s) =
        cs.flatMap escapedChar ++ '"' :: dropBlanks .outside s := by
    induction cs with
    | nil => rfl
    | cons c cs ih =>
      rw [List.flatMap_cons, List.append_assoc, dropBlanks_escapedChar, ih, List.append_assoc]
  have hopen (r : List Char) : dropBlanks .outside ('"' :: r) = '"' :: dropBlanks .inside r := rfl
  rw [stringText, List.cons_append, List.cons_append, List.append_assoc, List.singleton_append,
    hopen, hinside, List.cons_append, List.append_assoc, List.singleton_append]

theorem isPlain_natText {n : Nat} {c : Char} (h : c ∈ natText n) : isPlain c = true := by
  have hdigit : isAsciiDigit c = true := isAsciiDigit_of_mem_natText h
  exact isPlain_iff.mpr
    ⟨isSpace_of_isAsciiDigit (.inr hdigit), ne_of_isAsciiDigit (.inr hdigit) (by decide) rfl⟩

theorem isPlain_intText {i : Int} {c : Char} (h : c ∈ intText i) : isPlain c = true := by
  unfold intText at h
  split at h
  · obtain rfl | h := List.mem_cons.mp h
    · decide
    · exact isPlain_natText h
  · exact isPlain_natText h

theorem isPlain_replicate_zero {n : Nat} {c : Char} (h : c ∈ List.replicate n '0') :
    isPlain c = true := by
  rw [List.eq_of_mem_replicate h]
  decide

theorem mem_of_mem_dropZeros {ds : List Char} {c : Char} (h : c ∈ (dropZeros ds).1) : c ∈ ds := by
  unfold dropZeros at h
  exact List.mem_reverse.mp ((List.dropWhile_sublist _).mem (List.mem_reverse.mp h))

theorem isPlain_decimalText {ds : List Char} (hds : ∀ c ∈ ds, isPlain c = true) (k : Int) :
    ∀ c ∈ decimalText ds k, isPlain c = true := by
  have htake (n : Nat) : ∀ c ∈ ds.take n, isPlain c = true :=
    fun c hc => hds c (List.mem_of_mem_take hc)
  have hdrop (n : Nat) : ∀ c ∈ ds.drop n, isPlain c = true :=
    fun c hc => hds c (List.mem_of_mem_drop hc)
  have hzeros (n : Nat) : ∀ c ∈ List.replicate n '0', isPlain c = true :=
    fun c hc => isPlain_replicate_zero hc
  have hzero : isPlain '0' = true := rfl
  have hpoint : isPlain '.' = true := rfl
  unfold decimalText
  extract_lets leading whole mantissa
  split
  · split
    · rw [List.forall_mem_append, List.forall_mem_append, List.forall_mem_cons,
        List.forall_mem_singleton]
      exact ⟨⟨hds, hzeros _⟩, hpoint, hzero⟩
    · split
      · rw [List.forall_mem_append, List.forall_mem_cons]
        exact ⟨htake whole, hpoint, hdrop whole⟩
      · rw [List.forall_mem_append, List.forall_mem_cons, List.forall_mem_cons]
        exact ⟨⟨hzero, hpoint, hzeros _⟩, hds⟩
  · have hmantissa : ∀ c ∈ mantissa, isPlain c = true := by
      cases ds with
      | nil => exact hds
      | cons d r =>
        obtain ⟨hd, hr⟩ := List.forall_mem_cons.mp hds
        cases r with
        | nil => exact hds
        | cons d' r => exact List.forall_mem_cons.mpr ⟨hd, List.forall_mem_cons.mpr ⟨hpoint, hr⟩⟩
    have hsign : isPlain (if leading < 0 then '-' else '+') = true := by
      split <;> decide
    rw [List.forall_mem_append, List.forall_mem_cons, List.forall_mem_cons]
    exact ⟨hmantissa, rfl, hsign, fun c hc => isPlain_natText hc⟩

theorem isPlain_doubleText (x : Double) : ∀ c ∈ doubleText x, isPlain c = true := by
  have hdigits (n : Nat) : ∀ c ∈ (dropZeros (natText n)).1, isPlain c = true :=
    fun c hc => isPlain_natText (mem_of_mem_dropZeros hc)
  have hzero : ∀ c ∈ ['0', '.', '0'], isPlain c = true := List.all_eq_true.mp rfl
  have hminus : isPlain '-' = true := rfl
  have htext (d : Nat) (k : Int) : ∀ c ∈ (if d = 0 then ['0', '.', '0'] else
      decimalText (dropZeros (natText d)).1 (k + (dropZeros (natText d)).2)), isPlain c = true := by
    split
    · exact hzero
    · exact isPlain_decimalText (hdigits d) _
  unfold doubleText
  dsimp only
  split
  · exact List.forall_mem_cons.mpr ⟨hminus, htext _ _⟩
  · exact htext _ _

theorem dropBlanks_scalarText (j : Json) (s : List Char) :
    dropBlanks .outside (scalarText j ++ s) = scalarText j ++ dropBlanks .outside s := by
  cases j with
  | null => exact dropBlanks_word rfl s
  | bool b => cases b <;> exact dropBlanks_word rfl s
  | int i => exact dropBlanks_plain (fun c hc => isPlain_intText hc) s
  | double x => exact dropBlanks_plain (isPlain_doubleText x) s
  | string t => exact dropBlanks_stringText t s
  | array js => exact dropBlanks_word (t := ['[', ']']) rfl s
  | object fs => exact dropBlanks_word (t := ['{', '}']) rfl s

theorem dropBlanks_newLine (level : Nat) (s : List Char) :
    dropBlanks .outside (newLine level ++ s) = dropBlanks .outside s := by
  apply dropBlanks_blank
  intro c hc
  obtain rfl | hc := List.mem_cons.mp hc
  · rfl
  · rw [List.eq_of_mem_replicate hc]
    rfl

theorem dropBlanks_cons {c : Char} (h : isPlain c = true) (s : List Char) :
    dropBlanks .outside (c :: s) = c :: dropBlanks .outside s :=
  dropBlanks_plain (t := [c]) (List.forall_mem_singleton.mpr h) s

mutual
theorem dropBlanks_prettyText (level : Nat) (j : Json) (s : List Char) :
    dropBlanks .outside (prettyText level j ++ s) = compactText j ++ dropBlanks .outside s := by
  match j with
  | array [] => exact dropBlanks_word (t := ['[', ']']) rfl s
  | array (j :: js) =>
    rw [prettyText, compactText]
    simp only [List.cons_append, List.append_assoc]
    rw [dropBlanks_cons rfl, dropBlanks_newLine, dropBlanks_prettyText,
      dropBlanks_prettyElements]
  | object [] => exact dropBlanks_word (t := ['{', '}']) rfl s
  | object (f :: fs) =>
    rw [prettyText, compactText]
    simp only [List.cons_append, List.append_assoc]
    rw [dropBlanks_cons rfl, dropBlanks_newLine, dropBlanks_prettyField,
      dropBlanks_prettyFields]
  | null => exact dropBlanks_scalarText null s
  | bool b => exact dropBlanks_scalarText (bool b) s
  | int i => exact dropBlanks_scalarText (int i) s
  | double x => exact dropBlanks_scalarText (double x) s
  | string t => exact dropBlanks_scalarText (string t) s

theorem dropBlanks_prettyElements (level : Nat) (js : List Json) (s : List Char) :
    dropBlanks .outside (prettyElements level js ++ s) =
      compactElements js ++ dropBlanks .outside s := by
  match js with
  | [] =>
    rw [prettyElements, List.append_assoc, dropBlanks_newLine]
    exact dropBlanks_word (t := [']']) rfl s
  | j :: js =>
    rw [prettyElements, compactElements]
    simp only [List.cons_append, List.append_assoc]
    rw [dropBlanks_cons rfl, dropBlanks_newLine, dropBlanks_prettyText,
      dropBlanks_prettyElements]

theorem dropBlanks_prettyField (level : Nat) (f : String × Json) (s : List Char) :
    dropBlanks .outside (prettyField level f ++ s) = compactField f ++ dropBlanks .outside s := by
  match f with
  | (name, j) =>
    have hblank (r : List Char) : dropBlanks .outside (' ' :: r) = dropBlanks .outside r := rfl
    rw [prettyField, compactField]
    simp only [List.cons_append, List.append_assoc]
    rw [dropBlanks_stringText, dropBlanks_cons rfl, hblank, dropBlanks_prettyText]

theorem dropBlanks_prettyFields (level : Nat) (fs : List (String × Json)) (s : List Char) :
    dropBlanks .outside (prettyFields level fs ++ s) =
      compactFields fs ++ dropBlanks .outside s := by
  match fs with
  | [] =>
    rw [prettyFields, List.append_assoc, dropBlanks_newLine]
    exact dropBlanks_word (t := ['}']) rfl s
  | f :: fs =>
    rw [prettyFields, compactFields]
    simp only [List.cons_append, List.append_assoc]
    rw [dropBlanks_cons rfl, dropBlanks_newLine, dropBlanks_prettyField,
      dropBlanks_prettyFields]
end

def unspaced (text : String) : String := String.ofList (dropBlanks .outside text.toList)

/-- The indented text is the one on one line with blanks between the tokens. -/
theorem unspaced_pretty (j : Json) : unspaced j.pretty = j.compact := by
  have h := dropBlanks_prettyText 0 j []
  rw [List.append_nil, dropBlanks, List.append_nil] at h
  rw [unspaced, pretty, String.toList_ofList, h, compact]

theorem ne_lineFeed_of_isPlain {c : Char} (h : isPlain c = true) : '\n' ≠ c := by
  rintro rfl
  contradiction

theorem lineFeed_not_mem_escapedChar (c : Char) : '\n' ∉ escapedChar c := by
  unfold escapedChar
  split
  · decide
  · decide
  · decide
  · decide
  · decide
  · decide
  · decide
  · rename_i hnewLine _ _
    split
    · rename_i hc
      have hdigits : ∀ n < 32, '\n' ≠ Nat.digitChar (n / 16) ∧ '\n' ≠ Nat.digitChar (n % 16) := by
        decide +kernel
      have h := hdigits c.toNat hc
      simp [h.1, h.2]
    · exact fun h => hnewLine (List.mem_singleton.mp h).symm

theorem lineFeed_not_mem_stringText (t : String) : '\n' ∉ stringText t := by
  intro h
  obtain h | h := List.mem_append.mp h
  · obtain h | h := List.mem_cons.mp h
    · contradiction
    · obtain ⟨c, -, hc⟩ := List.mem_flatMap.mp h
      exact lineFeed_not_mem_escapedChar c hc
  · contradiction

theorem lineFeed_not_mem_scalarText (j : Json) : '\n' ∉ scalarText j := by
  cases j with
  | null => decide
  | bool b => cases b <;> decide
  | int i => exact fun h => ne_lineFeed_of_isPlain (isPlain_intText h) rfl
  | double x => exact fun h => ne_lineFeed_of_isPlain (isPlain_doubleText x _ h) rfl
  | string t => exact lineFeed_not_mem_stringText t
  | array js => exact (by decide : '\n' ∉ ['[', ']'])
  | object fs => exact (by decide : '\n' ∉ ['{', '}'])

mutual
theorem lineFeed_not_mem_compactText (j : Json) : '\n' ∉ compactText j := by
  match j with
  | array [] => decide
  | array (j :: js) =>
    rw [compactText, List.mem_append, List.mem_cons, not_or, not_or]
    exact ⟨⟨by decide, lineFeed_not_mem_compactText j⟩, lineFeed_not_mem_compactElements js⟩
  | object [] => decide
  | object (f :: fs) =>
    rw [compactText, List.mem_append, List.mem_cons, not_or, not_or]
    exact ⟨⟨by decide, lineFeed_not_mem_compactField f⟩, lineFeed_not_mem_compactFields fs⟩
  | null => exact lineFeed_not_mem_scalarText null
  | bool b => exact lineFeed_not_mem_scalarText (bool b)
  | int i => exact lineFeed_not_mem_scalarText (int i)
  | double x => exact lineFeed_not_mem_scalarText (double x)
  | string t => exact lineFeed_not_mem_scalarText (string t)

theorem lineFeed_not_mem_compactElements (js : List Json) : '\n' ∉ compactElements js := by
  match js with
  | [] => decide
  | j :: js =>
    rw [compactElements, List.mem_append, List.mem_cons, not_or, not_or]
    exact ⟨⟨by decide, lineFeed_not_mem_compactText j⟩, lineFeed_not_mem_compactElements js⟩

theorem lineFeed_not_mem_compactField (f : String × Json) : '\n' ∉ compactField f := by
  match f with
  | (name, j) =>
    rw [compactField, List.mem_append, List.mem_cons, not_or, not_or]
    exact ⟨lineFeed_not_mem_stringText name, by decide, lineFeed_not_mem_compactText j⟩

theorem lineFeed_not_mem_compactFields (fs : List (String × Json)) : '\n' ∉ compactFields fs := by
  match fs with
  | [] => decide
  | f :: fs =>
    rw [compactFields, List.mem_append, List.mem_cons, not_or, not_or]
    exact ⟨⟨by decide, lineFeed_not_mem_compactField f⟩, lineFeed_not_mem_compactFields fs⟩
end

end BuildLog.Json
