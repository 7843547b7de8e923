import BuildLog.Json.Skip
import BuildLog.Proofs.JsonValues

namespace BuildLog.Json
open Text

theorem passString_escapedChar (f : Char) (fuel : List Char) (c : Char) (s : List Char) :
    passString (f :: fuel) (escapedChar c ++ s) = passString fuel s := by
  unfold escapedChar
  split
  · rfl
  · rfl
  · rfl
  · rfl
  · rfl
  · rfl
  · rfl
  · split
    · rename_i hc
      have hunit := readHexUnit_control hc s
      simp only [List.cons_append, List.nil_append, passString, hunit, bind, Except.bind]
    · rename_i hquote hbackslash _ _ _ _ _ hc
      rw [List.singleton_append, passString, if_neg hc]
      · exact hquote
      · exact fun h => absurd h hbackslash
      · exact fun _ h => absurd h hbackslash
      · exact fun _ _ h => absurd h hbackslash

theorem passString_flatMap {cs fuel : List Char} (hfuel : cs.length < fuel.length) (r : List Char) :
    passString fuel (cs.flatMap escapedChar ++ '"' :: r) = .ok ((), r) := by
  induction cs generalizing fuel with
  | nil =>
    obtain ⟨f, fuel, rfl⟩ := List.exists_cons_of_length_pos hfuel
    rfl
  | cons c cs ih =>
    obtain ⟨f, fuel, rfl⟩ := List.exists_cons_of_length_pos (Nat.zero_lt_of_lt hfuel)
    rw [List.flatMap_cons, List.append_assoc, passString_escapedChar,
      ih (Nat.lt_of_succ_lt_succ hfuel)]

theorem passString_of_text (s : String) (r : List Char) :
    passString (s.toList.flatMap escapedChar ++ '"' :: r)
      (s.toList.flatMap escapedChar ++ '"' :: r) = .ok ((), r) := by
  apply passString_flatMap
  have h := length_le_flatMap_escapedChar s.toList
  rw [List.length_append, List.length_cons]
  omega

/-- Whether the text is passed over as a number without a sign and begins with a digit. -/
structure IsNumber (s : List Char) : Prop where
  starts : ∃ c t, s = c :: t ∧ isAsciiDigit c = true
  pass : ∀ {r : List Char}, endsHere r = true → passNumber (s ++ r) = .ok ((), r)

theorem passFraction_of_endsHere {r : List Char} (h : endsHere r = true) :
    passFraction r = .ok ((), r) := by
  cases r with
  | nil => rfl
  | cons c r =>
    simp only [endsHere, Bool.or_eq_true, decide_eq_true_eq] at h
    obtain (rfl | rfl) | rfl := h <;> rfl

theorem dropWhile_digits {ds r : List Char} (hds : ∀ c ∈ ds, isAsciiDigit c = true)
    (hr : startsWithDigit r = false) : (ds ++ r).dropWhile isAsciiDigit = r := by
  rw [List.dropWhile_append_of_pos hds]
  cases r with
  | nil => rfl
  | cons c r => exact List.dropWhile_cons_of_neg (by simpa [startsWithDigit] using hr)

/-- Whether the text may follow the whole part of a number: nothing, a fraction or an exponent. -/
structure IsTail (t : List Char) : Prop where
  ends : ∀ {r : List Char}, endsHere r = true → startsWithDigit (t ++ r) = false
  pass : ∀ {r : List Char}, endsHere r = true → passFraction (t ++ r) = .ok ((), r)

theorem isTail_nil : IsTail [] := ⟨startsWithDigit_of_endsHere, passFraction_of_endsHere⟩

theorem isTail_exponent {sign : Char} (hsign : sign = '+' ∨ sign = '-') (n : Nat) :
    IsTail ('e' :: sign :: natText n) := by
  refine ⟨fun _ => rfl, ?_⟩
  intro r hr
  obtain ⟨c, ds, hds, hc⟩ := exists_cons_natText n
  have hdrop : (natText n ++ r).dropWhile isAsciiDigit = r :=
    dropWhile_digits (fun c => isAsciiDigit_of_mem_natText) (startsWithDigit_of_endsHere hr)
  rw [hds, List.cons_append] at hdrop
  rw [hds]
  obtain rfl | rfl := hsign <;>
    simp only [List.cons_append, passFraction, passExponent, startsWithDigit, hc, hdrop, if_true]

theorem isTail_fraction {ds t : List Char} (hne : ds ≠ [])
    (hds : ∀ d ∈ ds, isAsciiDigit d = true)
    (ht : t = [] ∨ ∃ sign n, (sign = '+' ∨ sign = '-') ∧ t = 'e' :: sign :: natText n) :
    IsTail ('.' :: ds ++ t) := by
  refine ⟨fun _ => rfl, ?_⟩
  intro r hr
  obtain ⟨c, ds, rfl⟩ := List.exists_cons_of_ne_nil hne
  have hc : isAsciiDigit c = true := hds c List.mem_cons_self
  obtain rfl | ⟨sign, n, hsign, rfl⟩ := ht
  · have hdrop := dropWhile_digits hds (startsWithDigit_of_endsHere hr)
    rw [List.cons_append] at hdrop
    simp only [List.append_nil, List.cons_append, passFraction, startsWithDigit, hc, hdrop, if_true]
    cases r with
    | nil => rfl
    | cons d r =>
      simp only [endsHere, Bool.or_eq_true, decide_eq_true_eq] at hr
      obtain (rfl | rfl) | rfl := hr <;> rfl
  · have hexponent := (isTail_exponent hsign n).pass hr
    have hdrop := dropWhile_digits (r := 'e' :: sign :: (natText n ++ r)) hds rfl
    rw [List.cons_append] at hdrop
    simp only [List.append_assoc, List.cons_append, passFraction, startsWithDigit, hc, hdrop,
      if_true] at hexponent ⊢
    exact hexponent

/-- Digits with no zero in front, and what may follow the whole part. -/
theorem isNumber_of_isTail {ds t : List Char} (hne : ds ≠ []) (hzero : ds.head? ≠ some '0')
    (hds : ∀ d ∈ ds, isAsciiDigit d = true) (ht : IsTail t) : IsNumber (ds ++ t) := by
  obtain ⟨c, ds, rfl⟩ := List.exists_cons_of_ne_nil hne
  have hdigit : isAsciiDigit c = true := hds c List.mem_cons_self
  refine ⟨⟨c, ds ++ t, rfl, hdigit⟩, ?_⟩
  intro r hr
  have hdrop := dropWhile_digits hds (ht.ends hr)
  rw [List.cons_append] at hdrop
  rw [List.append_assoc, List.cons_append, passNumber, startsWithDigit, if_pos hdigit, hdrop]
  · exact ht.pass hr
  · intro s h
    rw [(List.cons.inj h).1] at hzero
    exact hzero rfl

theorem isNumber_zero {t : List Char} (ht : IsTail t) : IsNumber ('0' :: t) := by
  refine ⟨⟨'0', t, rfl, rfl⟩, ?_⟩
  intro r hr
  rw [List.cons_append, passNumber, ht.ends hr, if_neg Bool.false_ne_true]
  exact ht.pass hr

theorem isNumber_natText (n : Nat) : IsNumber (natText n) := by
  by_cases hn : 0 < n
  · have h := isNumber_of_isTail Nat.toDigits_ne_nil (head?_natText_ne_zero hn)
      (fun c => isAsciiDigit_of_mem_natText) isTail_nil
    rwa [List.append_nil] at h
  · obtain rfl : n = 0 := by omega
    exact isNumber_zero isTail_nil

theorem isTail_digits {ds : List Char} (hne : ds ≠ []) (hds : ∀ d ∈ ds, isAsciiDigit d = true) :
    IsTail ('.' :: ds) := by
  have h := isTail_fraction hne hds (.inl rfl)
  rwa [List.append_nil] at h

theorem isTail_pointZero : IsTail ['.', '0'] :=
  isTail_digits (List.cons_ne_nil '0' []) (by simp [isAsciiDigit])

theorem isNumber_decimalText {ds : List Char} (hne : ds ≠ []) (hzero : ds.head? ≠ some '0')
    (hds : ∀ d ∈ ds, isAsciiDigit d = true) (k : Int) : IsNumber (decimalText ds k) := by
  have hlength : 0 < ds.length := List.length_pos_iff.mpr hne
  have hzeros {n : Nat} : ∀ d ∈ List.replicate n '0', isAsciiDigit d = true := by
    intro d hd
    rw [List.eq_of_mem_replicate hd]
    rfl
  unfold decimalText
  simp only
  split
  · split
    · -- the point stands after all digits
      apply isNumber_of_isTail _ _ _ isTail_pointZero
      · simp [hne]
      · rw [List.head?_append_of_ne_nil _ hne]
        exact hzero
      · exact List.forall_mem_append.mpr ⟨hds, hzeros⟩
    · split
      · -- it stands between two digits
        generalize hwhole : (k + ds.length - 1 + 1).toNat = whole
        have hpos : 0 < whole := by omega
        have hless : whole < ds.length := by omega
        have hdrop : ds.drop whole ≠ [] := by
          intro h
          have := List.drop_eq_nil_iff.mp h
          omega
        have htail := isTail_digits hdrop fun d hd => hds d (List.mem_of_mem_drop hd)
        apply isNumber_of_isTail _ _ (fun d hd => hds d (List.mem_of_mem_take hd)) htail
        · simp [hne]
          omega
        · rw [List.head?_take, if_neg (by omega)]
          exact hzero
      · -- it stands before all digits
        apply isNumber_zero (isTail_digits _ _)
        · simp [hne]
        · exact List.forall_mem_append.mpr ⟨hzeros, hds⟩
  · -- the number has an exponent
    have hsign (n : Int) :
        (if n < 0 then '-' else '+') = '+' ∨ (if n < 0 then '-' else '+') = '-' := by
      split
      · exact .inr rfl
      · exact .inl rfl
    split
    · contradiction
    · exact isNumber_of_isTail hne hzero hds (isTail_exponent (hsign _) _)
    · rename_i d r hr _
      have htail := isTail_fraction hr (fun d hd => hds d (List.mem_cons_of_mem _ hd))
        (.inr ⟨_, (k + (d :: r).length - 1).natAbs, hsign (k + (d :: r).length - 1), rfl⟩)
      have hfirst : ∀ c ∈ [d], isAsciiDigit c = true :=
        List.forall_mem_singleton.mpr (hds d List.mem_cons_self)
      exact @isNumber_of_isTail [d] _ (List.cons_ne_nil d []) hzero hfirst htail

theorem dropZeros_digits {n : Nat} (hn : 0 < n) :
    (dropZeros (natText n)).1 ≠ [] ∧ (dropZeros (natText n)).1.head? ≠ some '0' ∧
      ∀ d ∈ (dropZeros (natText n)).1, isAsciiDigit d = true := by
  have hzero := head?_natText_ne_zero hn
  have hall : ∀ d ∈ natText n, isAsciiDigit d = true := fun d => isAsciiDigit_of_mem_natText
  obtain ⟨c, ds, hds, -⟩ := exists_cons_natText n
  rw [hds] at hzero hall ⊢
  have hc : c ≠ '0' := by simpa using hzero
  have hkept : ∃ r, (dropZeros (c :: ds)).1 = c :: r ∧ r <+: ds := by
    have hlast : [c].dropWhile (· = '0') = [c] := List.dropWhile_cons_of_neg (by simpa using hc)
    rw [dropZeros, List.reverse_cons, List.dropWhile_append, hlast]
    split
    · exact ⟨[], rfl, List.nil_prefix⟩
    · refine ⟨(ds.reverse.dropWhile (· = '0')).reverse, by simp, ?_⟩
      rw [← List.reverse_suffix, List.reverse_reverse]
      exact List.dropWhile_suffix _
  obtain ⟨r, hr, hfront⟩ := hkept
  rw [hr]
  refine ⟨List.cons_ne_nil c r, hzero, ?_⟩
  intro d hd
  apply hall
  obtain rfl | hd := List.mem_cons.mp hd
  · exact List.mem_cons_self
  · exact List.mem_cons_of_mem c (hfront.subset hd)

/-- A number's text is that of a number without a sign, or the same after a minus sign. -/
theorem doubleText_cases (x : Double) :
    ∃ s, IsNumber s ∧ (doubleText x = s ∨ doubleText x = '-' :: s) := by
  have hnumber : IsNumber (if x.shortest.1 = 0 then ['0', '.', '0']
      else decimalText (dropZeros (natText x.shortest.1)).1
        (x.shortest.2 + (dropZeros (natText x.shortest.1)).2)) := by
    split
    · exact isNumber_zero isTail_pointZero
    · rename_i hn
      obtain ⟨hne, hzero, hds⟩ := dropZeros_digits (Nat.pos_of_ne_zero hn)
      exact isNumber_decimalText hne hzero hds _
  refine ⟨_, hnumber, ?_⟩
  cases h : x.isNegative <;> simp [doubleText, h]

theorem passScalar_number {s r : List Char} (h : IsNumber s) (hr : endsHere r = true) :
    passScalar (s ++ r) = .ok ((), r) := by
  obtain ⟨⟨c, t, rfl, hc⟩, hpass⟩ := h
  have hne {d : Char} (hd : isAsciiDigit d = false) : c ≠ d := by
    rintro rfl
    rw [hc] at hd
    contradiction
  have hnumber := hpass hr
  rw [List.cons_append] at hnumber ⊢
  rw [passScalar, if_pos hc, hnumber]
  all_goals exact hne rfl

theorem compactText_double (x : Double) : compactText (double x) = doubleText x := by
  simp only [compactText, scalarText]

theorem startsHere_of_digit {c : Char} (hc : c = '-' ∨ isAsciiDigit c = true) (s : List Char) :
    startsHere (c :: s) = true := by
  have harray : c ≠ ']' := ne_of_isAsciiDigit hc (by decide) rfl
  have hobject : c ≠ '}' := ne_of_isAsciiDigit hc (by decide) rfl
  simp [startsHere, isSpace_of_isAsciiDigit hc, harray, hobject]

theorem startsHere_compactText (j : Json) : startsHere (compactText j) = true := by
  cases j with
  | null => rw [compactText_null]; rfl
  | bool b => exact (readsScalar_bool b).starts
  | int i =>
    obtain ⟨c, t, ht, hc⟩ := exists_cons_intText i
    rw [compactText_int, ht]
    exact startsHere_of_digit hc t
  | double x =>
    obtain ⟨s, hs, htext⟩ := doubleText_cases x
    obtain ⟨c, t, rfl, hc⟩ := hs.starts
    rw [compactText_double]
    obtain htext | htext := htext <;> rw [htext]
    · exact startsHere_of_digit (.inr hc) t
    · exact startsHere_of_digit (.inl rfl) (c :: t)
  | string s => exact (readsScalar_string s).starts
  | array js => cases js <;> rfl
  | object fs => cases fs <;> rfl

/-- Whether the text of a value is passed over, whatever follows it. -/
def Passes (item : Reader Unit) (j : Json) : Prop :=
  ∀ r : List Char, endsHere r = true → item (compactText j ++ r) = .ok ((), r)

section Parts

variable {item : Reader Unit}

theorem passMore_compactElements {js : List Json} (h : ∀ j ∈ js, Passes item j)
    {fuel : List Char} (hfuel : js.length < fuel.length) (r : List Char) (atEnd atOther : Defect) :
    passMore item ']' atEnd atOther fuel (compactElements js ++ r) = .ok ((), r) := by
  induction js generalizing fuel with
  | nil =>
    obtain ⟨f, fuel, rfl⟩ := List.exists_cons_of_length_pos hfuel
    rfl
  | cons j js ih =>
    obtain ⟨f, fuel, rfl⟩ := List.exists_cons_of_length_pos (Nat.zero_lt_of_lt hfuel)
    obtain ⟨hj, hjs⟩ := List.forall_mem_cons.mp h
    have hitem := hj _ (endsHere_compactElements js r)
    rw [compactElements, List.cons_append, List.cons_append, List.append_assoc, passMore,
      skip_cons rfl]
    simp only [hitem, bind, Except.bind, if_true]
    exact ih hjs (Nat.lt_of_succ_lt_succ hfuel)

theorem passParts_compactElements {js : List Json} (h : ∀ j ∈ js, Passes item j) (r : List Char) :
    ∃ t, compactText (array js) ++ r = '[' :: t ∧
      passParts item ']' .endOfArray .expectedArrayCommaOrEnd t = .ok ((), r) := by
  cases js with
  | nil => exact ⟨']' :: r, rfl, rfl⟩
  | cons j js =>
    obtain ⟨hj, hjs⟩ := List.forall_mem_cons.mp h
    refine ⟨compactText j ++ (compactElements js ++ r), by simp [compactText], ?_⟩
    have hitem := hj _ (endsHere_compactElements js r)
    have hfuel : js.length < (compactElements js ++ r).length := by
      have hlength := length_lt_compactElements js
      rw [List.length_append]
      omega
    have hmore := passMore_compactElements hjs hfuel r .endOfArray .expectedArrayCommaOrEnd
    have hskip := skip_of_startsHere (startsHere_compactText j) (compactElements js ++ r)
    obtain ⟨c, t, ht, -, hclose, -⟩ := exists_cons_of_startsHere (startsHere_compactText j)
    rw [passParts, hskip]
    rw [ht, List.cons_append] at hitem ⊢
    simp only [if_neg hclose, hitem, bind, Except.bind]
    exact hmore

theorem passField_compactField (name : String) {j : Json} (h : Passes item j) {r : List Char}
    (hr : endsHere r = true) :
    passField item (compactField (name, j) ++ r) = .ok ((), r) := by
  have hname := passString_of_text name (':' :: (compactText j ++ r))
  have htext : compactField (name, j) ++ r =
      '"' :: (name.toList.flatMap escapedChar ++ '"' :: ':' :: (compactText j ++ r)) := by
    simp [compactField, stringText]
  rw [htext, passField, skip_cons rfl]
  simp only [hname, bind, Except.bind]
  exact h r hr

theorem passMore_compactFields {fs : List (String × Json)} (h : ∀ f ∈ fs, Passes item f.2)
    {fuel : List Char} (hfuel : fs.length < fuel.length) (r : List Char) (atEnd atOther : Defect) :
    passMore (passField item) '}' atEnd atOther fuel (compactFields fs ++ r) = .ok ((), r) := by
  induction fs generalizing fuel with
  | nil =>
    obtain ⟨f, fuel, rfl⟩ := List.exists_cons_of_length_pos hfuel
    rfl
  | cons f fs ih =>
    obtain ⟨_, fuel, rfl⟩ := List.exists_cons_of_length_pos (Nat.zero_lt_of_lt hfuel)
    obtain ⟨hf, hfs⟩ := List.forall_mem_cons.mp h
    obtain ⟨name, j⟩ := f
    have hfield := passField_compactField name hf (endsHere_compactFields fs r)
    rw [compactFields, List.cons_append, List.cons_append, List.append_assoc, passMore,
      skip_cons rfl]
    simp only [hfield, bind, Except.bind, if_true]
    exact ih hfs (Nat.lt_of_succ_lt_succ hfuel)

theorem passParts_compactFields {fs : List (String × Json)} (h : ∀ f ∈ fs, Passes item f.2)
    (r : List Char) :
    ∃ t, compactText (object fs) ++ r = '{' :: t ∧
      passParts (passField item) '}' .endOfObject .expectedObjectCommaOrEnd t = .ok ((), r) := by
  cases fs with
  | nil => exact ⟨'}' :: r, rfl, rfl⟩
  | cons f fs =>
    obtain ⟨hf, hfs⟩ := List.forall_mem_cons.mp h
    obtain ⟨name, j⟩ := f
    refine ⟨compactField (name, j) ++ (compactFields fs ++ r), by simp [compactText], ?_⟩
    have hfield := passField_compactField name hf (endsHere_compactFields fs r)
    have hfuel : fs.length < (compactFields fs ++ r).length := by
      have hlength := length_lt_compactFields fs
      rw [List.length_append]
      omega
    have hmore := passMore_compactFields hfs hfuel r .endOfObject .expectedObjectCommaOrEnd
    obtain ⟨t, ht, -⟩ := readString_compactField name j (compactFields fs ++ r)
    rw [passParts, ht, skip_cons rfl]
    rw [ht] at hfield
    simp only [hfield, bind, Except.bind]
    exact hmore

end Parts

theorem passValue_scalar {c : Char} (hspace : isSpace c = false) (harray : c ≠ '[')
    (hobject : c ≠ '{') (depth s : List Char) : passValue depth (c :: s) = passScalar (c :: s) := by
  cases depth with
  | nil => rw [passValue, skip_cons hspace]
  | cons f depth =>
    rw [passValue, skip_cons hspace]
    split
    · rename_i heq
      exact absurd (List.cons.inj heq).1 harray
    · rename_i heq
      exact absurd (List.cons.inj heq).1 hobject
    · rfl

theorem passValue_number {s r : List Char} (h : IsNumber s) (hr : endsHere r = true)
    (depth : List Char) : passValue depth (s ++ r) = .ok ((), r) := by
  have hpass := passScalar_number h hr
  obtain ⟨c, t, rfl, hc⟩ := h.starts
  rw [List.cons_append] at hpass ⊢
  rw [passValue_scalar (isSpace_of_isAsciiDigit (.inr hc))
    (ne_of_isAsciiDigit (.inr hc) (by decide) rfl) (ne_of_isAsciiDigit (.inr hc) (by decide) rfl)]
  exact hpass

theorem passValue_negative {s r : List Char} (h : IsNumber s) (hr : endsHere r = true)
    (depth : List Char) : passValue depth ('-' :: s ++ r) = .ok ((), r) := by
  rw [List.cons_append, passValue_scalar rfl (by decide) (by decide)]
  exact h.pass hr

theorem length_lt_compactArray {js : List Json} {j : Json} (hj : j ∈ js) :
    (compactText j).length < (compactText (array js)).length := by
  have hmore {js : List Json} (hj : j ∈ js) :
      (compactText j).length < (compactElements js).length := by
    induction js with
    | nil => contradiction
    | cons k js ih =>
      rw [compactElements, List.length_append, List.length_cons]
      obtain rfl | hj := List.mem_cons.mp hj
      · omega
      · have h := ih hj
        omega
  have h := hmore hj
  cases js with
  | nil => contradiction
  | cons k js => simpa [compactText, compactElements] using h

theorem length_lt_compactObject {fs : List (String × Json)} {f : String × Json} (hf : f ∈ fs) :
    (compactText f.2).length < (compactText (object fs)).length := by
  have hmore {fs : List (String × Json)} (hf : f ∈ fs) :
      (compactText f.2).length < (compactFields fs).length := by
    induction fs with
    | nil => contradiction
    | cons g fs ih =>
      rw [compactFields, List.length_append, List.length_cons]
      obtain rfl | hf := List.mem_cons.mp hf
      · rw [compactField, List.length_append, List.length_cons]
        omega
      · have h := ih hf
        omega
  have h := hmore hf
  cases fs with
  | nil => contradiction
  | cons g fs => simpa [compactText, compactFields] using h

theorem passes_passValue {j : Json} {depth : List Char}
    (h : (compactText j).length ≤ depth.length) : Passes (passValue depth) j := by
  induction depth generalizing j with
  | nil =>
    obtain ⟨c, t, ht, -⟩ := exists_cons_of_startsHere (startsHere_compactText j)
    rw [ht] at h
    exact absurd h (Nat.not_succ_le_zero _)
  | cons f depth ih =>
    intro r hr
    cases j with
    | null =>
      rw [compactText_null]
      exact passValue_scalar rfl (by decide) (by decide) _ _
    | bool b =>
      rw [compactText_bool]
      cases b <;> exact passValue_scalar rfl (by decide) (by decide) _ _
    | int i =>
      rw [compactText_int, intText]
      split
      · exact passValue_negative (isNumber_natText _) hr _
      · exact passValue_number (isNumber_natText _) hr _
    | double x =>
      obtain ⟨s, hs, htext⟩ := doubleText_cases x
      rw [compactText_double]
      obtain htext | htext := htext <;> rw [htext]
      · exact passValue_number hs hr _
      · exact passValue_negative hs hr _
    | string s =>
      rw [compactText_string, List.cons_append, List.cons_append, List.append_assoc,
        List.singleton_append, passValue_scalar rfl (by decide) (by decide)]
      exact passString_of_text s r
    | array js =>
      have hitems : ∀ j ∈ js, Passes (passValue depth) j := by
        intro j hj
        have hlength := length_lt_compactArray hj
        rw [List.length_cons] at h
        exact ih (Nat.le_of_lt_succ (Nat.lt_of_lt_of_le hlength h))
      obtain ⟨t, ht, hparts⟩ := passParts_compactElements hitems r
      rw [ht, passValue, skip_cons rfl]
      exact hparts
    | object fs =>
      have hfields : ∀ f ∈ fs, Passes (passValue depth) f.2 := by
        intro f hf
        have hlength := length_lt_compactObject hf
        rw [List.length_cons] at h
        exact ih (Nat.le_of_lt_succ (Nat.lt_of_lt_of_le hlength h))
      obtain ⟨t, ht, hparts⟩ := passParts_compactFields hfields r
      rw [ht, passValue, skip_cons rfl]
      exact hparts

/-- Nothing is left of the text of a value that nobody asked for. -/
theorem passes_pass (j : Json) : Passes pass j := by
  intro r hr
  exact passes_passValue (List.prefix_append (compactText j) r).length_le r hr

end BuildLog.Json
