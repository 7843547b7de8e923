import BuildLog.Json.Reader

namespace BuildLog.Json
open Text

/-- Whether a value can be over in front of the text: nothing follows, a comma, or a closing
bracket. -/
def endsHere : List Char → Bool
  | [] => true
  | c :: _ => c = ',' || c = ']' || c = '}'

theorem isAsciiDigit_of_isDigit {c : Char} (h : c.isDigit = true) : isAsciiDigit c = true := by
  simp only [Char.isDigit, Bool.and_eq_true, decide_eq_true_eq] at h
  simp only [isAsciiDigit, Bool.and_eq_true, decide_eq_true_eq]
  exact h

theorem isAsciiDigit_of_mem_natText {n : Nat} {c : Char} (h : c ∈ natText n) :
    isAsciiDigit c = true :=
  isAsciiDigit_of_isDigit (Nat.isDigit_of_mem_toDigits (by decide) (by decide) h)

theorem exists_cons_natText (n : Nat) : ∃ c ds, natText n = c :: ds ∧ isAsciiDigit c = true := by
  obtain ⟨c, ds, hds⟩ : ∃ c ds, natText n = c :: ds :=
    List.exists_cons_of_ne_nil Nat.toDigits_ne_nil
  refine ⟨c, ds, hds, isAsciiDigit_of_mem_natText (n := n) ?_⟩
  rw [hds]
  exact List.mem_cons_self

theorem head?_natText_ne_zero {n : Nat} (hn : 0 < n) : (natText n).head? ≠ some '0' := by
  induction n using Nat.strongRecOn with
  | ind n ih =>
    unfold natText at ih ⊢
    by_cases h : n < 10
    · rw [Nat.toDigits_of_lt_base h, List.head?_cons, ne_eq, Option.some.injEq,
        Nat.digitChar_eq_zero]
      omega
    · have hfront := ih (n / 10) (by omega) (by omega)
      obtain ⟨c, ds, hds⟩ : ∃ c ds, Nat.toDigits 10 (n / 10) = c :: ds :=
        List.exists_cons_of_ne_nil Nat.toDigits_ne_nil
      rw [Nat.toDigits_of_base_le (by decide) (by omega), hds, List.cons_append]
      rw [hds] at hfront
      exact hfront

theorem startsWithDigit_of_endsHere {r : List Char} (h : endsHere r = true) :
    startsWithDigit r = false := by
  cases r with
  | nil => rfl
  | cons c r =>
    simp only [endsHere, Bool.or_eq_true, decide_eq_true_eq] at h
    obtain (rfl | rfl) | rfl := h <;> rfl

theorem le_ofDigitChars (ds : List Char) (n : Nat) : n ≤ Nat.ofDigitChars 10 ds n := by
  induction ds generalizing n with
  | nil => exact Nat.le_of_eq Nat.ofDigitChars_nil.symm
  | cons c ds ih =>
    rw [Nat.ofDigitChars_cons]
    have h := ih (10 * n + (c.toNat - '0'.toNat))
    omega

theorem gather_digits {limit n count : Nat} {ds r : List Char}
    (hds : ∀ c ∈ ds, isAsciiDigit c = true) (hr : startsWithDigit r = false)
    (hlimit : Nat.ofDigitChars 10 ds n ≤ limit) :
    gather limit n count (ds ++ r) = (Nat.ofDigitChars 10 ds n, count + ds.length, r) := by
  induction ds generalizing n count with
  | nil =>
    cases r with
    | nil => rfl
    | cons c r =>
      rw [startsWithDigit] at hr
      simp [gather, hr, Nat.ofDigitChars_nil]
  | cons c ds ih =>
    rw [Nat.ofDigitChars_cons] at hlimit ⊢
    have hm : 10 * n + (c.toNat - '0'.toNat) ≤ limit := Nat.le_trans (le_ofDigitChars ds _) hlimit
    have hc : isAsciiDigit c = true := hds c List.mem_cons_self
    rw [List.cons_append, gather, if_pos (by simpa [hc] using hm), List.length_cons,
      Nat.add_comm ds.length, ← Nat.add_assoc]
    exact ih (fun d hd => hds d (List.mem_cons_of_mem c hd)) hlimit

theorem gather_natText {n : Nat} (hn : n ≤ significandLimit) {r : List Char}
    (hr : startsWithDigit r = false) :
    gather significandLimit 0 0 (natText n ++ r) = (n, (natText n).length, r) := by
  have hvalue : Nat.ofDigitChars 10 (natText n) 0 = n := Nat.ofDigitChars_ten_toDigits
  rw [gather_digits (fun c => isAsciiDigit_of_mem_natText) hr (by rw [hvalue]; exact hn), hvalue,
    Nat.zero_add]

theorem readUnsigned_natText {negative : Bool} {n : Nat} {i : Int} (hn : n ≤ significandLimit)
    (hi : integer? negative n = some i) {r : List Char} (hr : endsHere r = true) :
    readUnsigned negative (natText n ++ r) = .ok (int i, r) := by
  have hdigit := startsWithDigit_of_endsHere hr
  have hgather := gather_natText hn hdigit
  obtain ⟨c, ds, hds, hc⟩ := exists_cons_natText n
  -- a leading zero is the only digit
  have hzero : (c = '0' && startsWithDigit (ds ++ r)) = false := by
    by_cases h : 0 < n
    · have hhead := head?_natText_ne_zero h
      rw [hds, List.head?_cons, ne_eq, Option.some.injEq] at hhead
      simp [hhead]
    · obtain rfl : n = 0 := by omega
      obtain rfl : ds = [] := by
        rw [natText, Nat.toDigits_zero, List.cons.injEq] at hds
        exact hds.2.symm
      rw [List.nil_append, hdigit, Bool.and_false]
  rw [hds, List.cons_append] at hgather ⊢
  rw [readUnsigned]
  simp only [hc, hzero, hgather, hdigit, hi, Bool.not_true, Bool.false_eq_true, if_false]
  cases r with
  | nil => rfl
  | cons d r =>
    simp only [endsHere, Bool.or_eq_true, decide_eq_true_eq] at hr
    obtain (rfl | rfl) | rfl := hr <;> rfl

theorem readScalar_of_digit {c : Char} (hc : isAsciiDigit c = true) (s : List Char) :
    readScalar (c :: s) = readUnsigned false (c :: s) := by
  have hne {d : Char} (hd : isAsciiDigit d = false) : c ≠ d := by
    rintro rfl
    rw [hc] at hd
    contradiction
  unfold readScalar
  split <;> rename_i heq <;> simp only [List.cons.injEq, reduceCtorEq] at heq
  · exact absurd heq.1 (hne rfl)
  · exact absurd heq.1 (hne rfl)
  · exact absurd heq.1 (hne rfl)
  · exact absurd heq.1 (hne rfl)
  · exact absurd heq.1 (hne rfl)
  · obtain ⟨rfl, rfl⟩ := heq
    rw [if_pos hc]

/-- Whether an integer can be kept as one: it fits 64 bits, with or without a sign. -/
def FitsWord (i : Int) : Prop := -Int.pow 2 63 ≤ i ∧ i < Int.pow 2 64

theorem readScalar_intText {i : Int} (hi : FitsWord i) {r : List Char} (hr : endsHere r = true) :
    readScalar (intText i ++ r) = .ok (int i, r) := by
  have hlow : -9223372036854775808 ≤ i := hi.1
  have hhigh : i < 18446744073709551616 := hi.2
  have hlimit : significandLimit = 18446744073709551615 := rfl
  unfold intText
  split
  · rename_i hneg
    have hinteger : integer? true i.natAbs = some i := by
      have hfits : i.natAbs ≤ 9223372036854775808 := by omega
      have hpos : 0 < i.natAbs := by omega
      have hpow : Nat.pow 2 63 = 9223372036854775808 := rfl
      simp only [integer?, Bool.not_true, Bool.false_eq_true, if_false, hpow, hpos, hfits,
        decide_true, Bool.and_self, if_true, Option.some.injEq]
      omega
    exact readUnsigned_natText (by omega) hinteger hr
  · have hinteger : integer? false i.natAbs = some i := by
      simp only [integer?, Bool.not_false, if_true, Option.some.injEq]
      omega
    have hread := readUnsigned_natText (by omega) hinteger hr
    obtain ⟨c, ds, hds, hc⟩ := exists_cons_natText i.natAbs
    rw [hds, List.cons_append] at hread ⊢
    rw [readScalar_of_digit hc, hread]

theorem escapedChar_ne_nil (c : Char) : escapedChar c ≠ [] := by
  unfold escapedChar
  split <;> try split
  all_goals exact List.cons_ne_nil _ _

theorem readHexUnit_control {n : Nat} (hn : n < 32) (r : List Char) :
    readHexUnit ('0' :: '0' :: Nat.digitChar (n / 16) :: Nat.digitChar (n % 16) :: r) =
      .ok (n, r) := by
  have hdigits : ∀ n < 32,
      byteCount ['0', '0', Nat.digitChar (n / 16), Nat.digitChar (n % 16)] = 4 ∧
      ['0', '0', Nat.digitChar (n / 16), Nat.digitChar (n % 16)].mapM hexValue? =
        some [0, 0, n / 16, n % 16] := by
    decide +kernel
  obtain ⟨hcount, hvalues⟩ := hdigits n hn
  have hvalue : 16 * (n / 16) + n % 16 = n := Nat.div_add_mod n 16
  unfold readHexUnit
  simp only [List.take_succ_cons, List.take_zero, hcount, hvalues, Nat.lt_irrefl, if_false,
    List.drop_succ_cons, List.drop_zero]
  simp [hvalue]

theorem readEscape_control {c : Char} (hc : c.toNat < 0x20) (r : List Char) :
    readEscape ('u' :: '0' :: '0' :: Nat.digitChar (c.toNat / 16) :: Nat.digitChar (c.toNat % 16) ::
      r) = .ok (c, r) := by
  have hlow : ¬ (0xDC00 ≤ c.toNat && c.toNat ≤ 0xDFFF) = true := by
    simp only [Bool.and_eq_true, decide_eq_true_eq]
    omega
  have hhigh : (c.toNat < 0xD800 || 0xDBFF < c.toNat) = true := by
    simp only [Bool.or_eq_true, decide_eq_true_eq]
    omega
  rw [readEscape, readUnit, readHexUnit_control hc]
  simp only [bind, Except.bind]
  rw [if_neg hlow, if_pos hhigh, Char.ofNat_toNat]
  rfl

theorem readStringChars_escapedChar (f : Char) (fuel : List Char) (c : Char) (s : List Char) :
    readStringChars (f :: fuel) (escapedChar c ++ s) =
      (readStringChars fuel s).map fun x => (c :: x.1, x.2) := by
  have hescape {t : List Char} (h : readEscape t = .ok (c, s)) :
      readStringChars (f :: fuel) ('\\' :: t) =
        (readStringChars fuel s).map fun x => (c :: x.1, x.2) := by
    rw [readStringChars, h]
    simp only [bind, Except.bind]
    cases readStringChars fuel s <;> rfl
  unfold escapedChar
  split
  · exact hescape rfl
  · exact hescape rfl
  · exact hescape rfl
  · exact hescape rfl
  · exact hescape rfl
  · exact hescape rfl
  · exact hescape rfl
  · split
    · rename_i hc
      exact hescape (readEscape_control hc s)
    · rename_i hquote hbackslash _ _ _ _ _ hc
      rw [List.singleton_append, readStringChars]
      · rw [if_neg hc]
        simp only [bind, Except.bind]
        cases readStringChars fuel s <;> rfl
      · exact hquote
      · exact hbackslash

theorem readStringChars_flatMap {cs fuel : List Char} (hfuel : cs.length < fuel.length)
    (r : List Char) :
    readStringChars fuel (cs.flatMap escapedChar ++ '"' :: r) = .ok (cs, r) := by
  induction cs generalizing fuel with
  | nil =>
    obtain ⟨f, fuel, rfl⟩ := List.exists_cons_of_length_pos hfuel
    rfl
  | cons c cs ih =>
    obtain ⟨f, fuel, rfl⟩ := List.exists_cons_of_length_pos (Nat.zero_lt_of_lt hfuel)
    have hrest := ih (Nat.lt_of_succ_lt_succ hfuel)
    rw [List.flatMap_cons, List.append_assoc, readStringChars_escapedChar, hrest]
    rfl

theorem length_le_flatMap_escapedChar (cs : List Char) :
    cs.length ≤ (cs.flatMap escapedChar).length := by
  induction cs with
  | nil => exact Nat.le_refl 0
  | cons c cs ih =>
    have hc : 0 < (escapedChar c).length := List.length_pos_iff.mpr (escapedChar_ne_nil c)
    rw [List.flatMap_cons, List.length_append, List.length_cons]
    omega

theorem readString_of_text (s : String) (r : List Char) :
    readString (s.toList.flatMap escapedChar ++ '"' :: r) = .ok (s, r) := by
  have hfuel : s.toList.length < (s.toList.flatMap escapedChar ++ '"' :: r).length := by
    have h := length_le_flatMap_escapedChar s.toList
    rw [List.length_append, List.length_cons]
    omega
  rw [readString, readStringChars_flatMap hfuel]
  simp only [bind, Except.bind, String.ofList_toList]
  rfl

end BuildLog.Json
