import BuildLog.Text.Scan.Lemmas
import BuildLog.Toml.Range
import Mathlib.Algebra.Order.Field.Power
import Mathlib.Data.Rat.Floor
import Mathlib.Tactic.FieldSimp
import Mathlib.Tactic.Positivity

namespace BuildLog.Toml
open Text

/-- Whether the character is the digit `d`. The letters among the digits may be of either case. -/
def IsDigit (c : Char) (d : Nat) : Prop :=
  "0123456789abcdef".toList[d]? = some c ∨ "0123456789ABCDEF".toList[d]? = some c

/-- Digits to a base, and their value. An underscore may stand between two digits. -/
inductive Digits (base : Nat) : List Char → Nat → Prop
  | one {c : Char} {d : Nat} (hd : d < base) (hc : IsDigit c d) : Digits base [c] d
  | next {w : List Char} {n d : Nat} {c : Char} (hw : Digits base w n) (hd : d < base)
    (hc : IsDigit c d) : Digits base (w ++ [c]) (base * n + d)
  | apart {w : List Char} {n d : Nat} {c : Char} (hw : Digits base w n) (hd : d < base)
    (hc : IsDigit c d) : Digits base (w ++ ['_', c]) (base * n + d)

/-- Exactly `k` digits to a base, and their value. -/
structure Fixed (base k : Nat) (w : List Char) (n : Nat) : Prop where
  digits : Digits base w n
  plain : '_' ∉ w
  length : w.length = k

/-- Decimal digits without a zero in front of others. -/
def IsDecimal (w : List Char) (n : Nat) : Prop :=
  Digits 10 w n ∧ (w.head? = some '0' → w = ['0'])

inductive Signed (number : List Char → Nat → Prop) : List Char → Int → Prop
  | bare {w : List Char} {n : Nat} (h : number w n) : Signed number w n
  | plus {w : List Char} {n : Nat} (h : number w n) : Signed number ('+' :: w) n
  | minus {w : List Char} {n : Nat} (h : number w n) : Signed number ('-' :: w) (-n)

/-- What stands for an integer. Only decimal digits have a sign. -/
inductive IsInteger : List Char → Int → Prop
  | decimal {w : List Char} {i : Int} (h : Signed IsDecimal w i) : IsInteger w i
  | based {letter : Char} {base n : Nat} {w : List Char}
    (hbase : (letter, base) ∈ [('x', 16), ('o', 8), ('b', 2)]) (h : Digits base w n) :
    IsInteger ('0' :: letter :: w) n

/-- What stands for a number with a fraction, an exponent, or both. -/
inductive IsMagnitude : List Char → ℚ → Prop
  | fraction {w u : List Char} {n f : Nat} (hw : IsDecimal w n) (hu : Digits 10 u f) :
    IsMagnitude (w ++ '.' :: u) (n + f / 10 ^ u.countP (· ≠ '_'))
  | exponent {w x : List Char} {n : Nat} {c : Char} {e : Int} (hw : IsDecimal w n)
    (hc : c = 'e' ∨ c = 'E') (hx : Signed (Digits 10) x e) :
    IsMagnitude (w ++ c :: x) (n * 10 ^ e)
  | both {w u x : List Char} {n f : Nat} {c : Char} {e : Int} (hw : IsDecimal w n)
    (hu : Digits 10 u f) (hc : c = 'e' ∨ c = 'E') (hx : Signed (Digits 10) x e) :
    IsMagnitude (w ++ '.' :: (u ++ c :: x)) ((n + f / 10 ^ u.countP (· ≠ '_')) * 10 ^ e)

def signs : List (List Char) := [[], ['+'], ['-']]

/-- What stands for a float. One that is not written as infinite rounds to a finite double. -/
inductive IsFloat : List Char → Prop
  | special {s w : List Char} (hs : s ∈ signs)
    (hw : w ∈ [['i', 'n', 'f'], ['n', 'a', 'n']]) : IsFloat (s ++ w)
  | finite {s w : List Char} {q : ℚ} (hs : s ∈ signs) (hw : IsMagnitude w q)
    (hq : q < 2 ^ 1024 - 2 ^ 970) : IsFloat (s ++ w)

theorem digits?_append {p : Char → Bool} {w ds t vs : List Char} (hw : digits? p w = some ds)
    (ht : ∀ b, p b = true → digits? p (b :: t) = some (b :: vs)) :
    digits? p (w ++ t) = some (ds ++ vs) := by
  fun_induction digits? p w generalizing ds with
  | case1 => contradiction
  | case2 b hb =>
    obtain rfl := Option.some.inj hw
    exact ht b hb
  | case3 => contradiction
  | case4 b r hb ih =>
    obtain ⟨ds, hds, rfl⟩ := Option.map_eq_some_iff.mp hw
    simp [digits?, hb, ih hds]
  | case5 => contradiction
  | case6 b r hnil hunder hb ih =>
    obtain ⟨ds, hds, rfl⟩ := Option.map_eq_some_iff.mp hw
    have hread := ih hds
    cases r with
    | nil => contradiction
    | cons d r =>
      have hd : d ≠ '_' := fun h => hunder r (by rw [h])
      rw [List.cons_append] at hread
      rw [List.cons_append, List.cons_append, digits?, if_pos hb, hread, Option.map_some,
        List.cons_append]
      · exact List.cons_ne_nil _ _
      · exact fun _ h => hd (List.cons.inj h).1
  | case7 => contradiction

theorem of_digits? {p : Char → Bool} {w ds : List Char} (h : digits? p w = some ds) :
    ∀ c ∈ w, p c = true ∨ c = '_' := by
  fun_induction digits? p w generalizing ds with
  | case1 => contradiction
  | case2 b hb => simp [hb]
  | case3 => contradiction
  | case4 b r hb ih =>
    obtain ⟨ds, hds, -⟩ := Option.map_eq_some_iff.mp h
    simpa [hb] using ih hds
  | case5 => contradiction
  | case6 b r _ _ hb ih =>
    obtain ⟨ds, hds, -⟩ := Option.map_eq_some_iff.mp h
    simpa [hb] using ih hds
  | case7 => contradiction

theorem digits?_eq_none {p : Char → Bool} {w : List Char} {c : Char} (hc : c ∈ w)
    (hp : p c = false) (hne : c ≠ '_') : digits? p w = none := by
  apply Option.eq_none_iff_forall_ne_some.mpr
  intro ds h
  rcases of_digits? h c hc with hdigit | hunder
  · rw [hp] at hdigit
    contradiction
  · exact hne hunder

theorem IsDigit.of_all {P : Char → Nat → Bool} {c : Char} {d : Nat} (h : IsDigit c d)
    (hlower : "0123456789abcdef".toList.zipIdx.all (fun x => P x.1 x.2) = true)
    (hupper : "0123456789ABCDEF".toList.zipIdx.all (fun x => P x.1 x.2) = true) :
    P c d = true := by
  rcases h with h | h
  · exact List.all_eq_true.mp hlower (c, d) (List.mem_zipIdx_iff_getElem?.mpr h)
  · exact List.all_eq_true.mp hupper (c, d) (List.mem_zipIdx_iff_getElem?.mpr h)

theorem IsDigit.of_all_below {P : Char → Nat → Bool} {base : Nat} {c : Char} {d : Nat}
    (h : IsDigit c d) (hd : d < base)
    (hlower : "0123456789abcdef".toList.zipIdx.all (fun x => base ≤ x.2 || P x.1 x.2) = true)
    (hupper : "0123456789ABCDEF".toList.zipIdx.all (fun x => base ≤ x.2 || P x.1 x.2) = true) :
    P c d = true := by
  have hall := h.of_all (P := fun c d => base ≤ d || P c d) hlower hupper
  rw [Bool.or_eq_true, decide_eq_true_eq] at hall
  exact hall.resolve_left (Nat.not_le_of_lt hd)

namespace Digits

variable {base n : Nat} {w : List Char}

/-- The digits are read without the underscores. -/
theorem read (h : Digits base w n) {p : Char → Bool} (value : Char → Nat) (hp : p '_' = false)
    (hdigit : ∀ {c d}, d < base → IsDigit c d → p c = true ∧ value c = d) :
    ∃ c ds u, w = c :: u ∧ p c = true ∧ digits? p w = some (c :: ds) ∧
      (c :: ds).foldl (fun n c => base * n + value c) 0 = n ∧
      (c :: ds).length = w.countP (· ≠ '_') := by
  have hplain {c : Char} (hc : p c = true) : c ≠ '_' := by
    rintro rfl
    rw [hp] at hc
    contradiction
  induction h with
  | @one c d hd hc =>
    obtain ⟨hpc, hvalue⟩ := hdigit hd hc
    exact ⟨c, [], [], rfl, hpc, if_pos hpc, by simp [hvalue], by simp [hplain hpc]⟩
  | @next w n d b hw hd hb ih =>
    obtain ⟨c, ds, u, rfl, hpc, hread, hn, hlength⟩ := ih
    obtain ⟨hpb, hvalue⟩ := hdigit hd hb
    refine ⟨c, ds ++ [b], u ++ [b], rfl, hpc, ?_, ?_, ?_⟩
    · apply digits?_append hread
      intro a ha
      simp [digits?, ha, hpb, hplain hpb]
    · rw [← List.cons_append, List.foldl_append, hn, List.foldl_cons, List.foldl_nil, hvalue]
    · rw [← List.cons_append, List.length_append, hlength, List.countP_append]
      simp [hplain hpb]
  | @apart w n d b hw hd hb ih =>
    obtain ⟨c, ds, u, rfl, hpc, hread, hn, hlength⟩ := ih
    obtain ⟨hpb, hvalue⟩ := hdigit hd hb
    refine ⟨c, ds ++ [b], u ++ ['_', b], rfl, hpc, ?_, ?_, ?_⟩
    · apply digits?_append hread
      intro a ha
      simp [digits?, ha, hpb]
    · rw [← List.cons_append, List.foldl_append, hn, List.foldl_cons, List.foldl_nil, hvalue]
    · rw [← List.cons_append, List.length_append, hlength, List.countP_append]
      simp [hplain hpb]

theorem decimal_digit {c : Char} {d : Nat} (hd : d < 10) (hc : IsDigit c d) :
    isAsciiDigit c = true ∧ c.toNat - 48 = d := by
  have h := hc.of_all_below (P := fun c d => isAsciiDigit c && c.toNat - 48 = d) hd
    (by decide) (by decide)
  rwa [Bool.and_eq_true, decide_eq_true_eq] at h

theorem hex_digit {c : Char} {d : Nat} (hc : IsDigit c d) :
    isHexDigit c = true ∧ (Json.hexValue? c).getD 0 = d ∧ isKeyChar c = true := by
  have h := hc.of_all
    (P := fun c d => isHexDigit c && (Json.hexValue? c).getD 0 = d && isKeyChar c)
    (by decide) (by decide)
  simpa only [Bool.and_eq_true, decide_eq_true_eq, and_assoc] using h

theorem read_decimal (h : Digits 10 w n) :
    ∃ c ds u, w = c :: u ∧ isAsciiDigit c = true ∧ digits? isAsciiDigit w = some (c :: ds) ∧
      decimalValue (c :: ds) = n ∧ (c :: ds).length = w.countP (· ≠ '_') :=
  h.read (p := isAsciiDigit) (fun c => c.toNat - 48) rfl decimal_digit

theorem exists_cons (h : Digits 10 w n) : ∃ c u, w = c :: u ∧ isNumeral c = true := by
  obtain ⟨c, -, u, hw, hc, -⟩ := h.read_decimal
  refine ⟨c, u, hw, ?_⟩
  rw [isNumeral, hc, Bool.true_or]

theorem read_based {p : Char → Bool} (h : Digits base w n) (hp : p '_' = false)
    (hdigit : ∀ {c d}, d < base → IsDigit c d → p c = true) :
    (digits? p w).map (fun ds => (based base ds : Int)) = some (n : Int) := by
  obtain ⟨c, ds, u, -, -, hread, hn, -⟩ := h.read (fun c => (Json.hexValue? c).getD 0) hp
    fun hd hc => ⟨hdigit hd hc, (hex_digit hc).2.1⟩
  rw [hread, Option.map_some, based, hn]

theorem forall_mem (h : Digits base w n) {p : Char → Bool} (hunder : '_' ∈ w → p '_' = true)
    (hp : ∀ {c d}, d < base → IsDigit c d → p c = true) : ∀ c ∈ w, p c = true := by
  induction h with
  | one hd hc => exact List.forall_mem_singleton.mpr (hp hd hc)
  | next hw hd hc ih =>
    exact List.forall_mem_append.mpr ⟨ih fun h => hunder (List.mem_append_left _ h),
      List.forall_mem_singleton.mpr (hp hd hc)⟩
  | apart hw hd hc ih =>
    exact List.forall_mem_append.mpr ⟨ih fun h => hunder (List.mem_append_left _ h),
      List.forall_mem_cons.mpr ⟨hunder (by simp), List.forall_mem_singleton.mpr (hp hd hc)⟩⟩

theorem isKeyChar_of_mem (h : Digits base w n) : ∀ c ∈ w, isKeyChar c = true :=
  h.forall_mem (fun _ => rfl) fun _ hc => (hex_digit hc).2.2

theorem isHexDigit_of_mem (h : Digits base w n) (hplain : '_' ∉ w) : ∀ c ∈ w, isHexDigit c = true :=
  h.forall_mem (absurd · hplain) fun _ hc => (hex_digit hc).1

theorem isNumeral_of_mem (h : Digits 10 w n) : ∀ c ∈ w, isNumeral c = true :=
  h.forall_mem (fun _ => rfl) fun hd hc => by
    rw [isNumeral, (decimal_digit hd hc).1, Bool.true_or]

theorem isAsciiDigit_of_mem (h : Digits 10 w n) (hplain : '_' ∉ w) :
    ∀ c ∈ w, isAsciiDigit c = true :=
  h.forall_mem (absurd · hplain) fun hd hc => (decimal_digit hd hc).1

theorem foldl_eq (h : Digits base w n) (hplain : '_' ∉ w) {value : Char → Nat}
    (hvalue : ∀ {c d}, d < base → IsDigit c d → value c = d) :
    w.foldl (fun n c => base * n + value c) 0 = n := by
  induction h with
  | one hd hc => simp [hvalue hd hc]
  | next hw hd hc ih =>
    rw [List.foldl_append, ih fun h => hplain (List.mem_append_left _ h)]
    simp [hvalue hd hc]
  | apart hw hd hc => simp at hplain

end Digits

theorem ne_of_isNumeral {c d : Char} (hc : isNumeral c = true) (hd : isNumeral d = false) :
    c ≠ d := by
  rintro rfl
  rw [hc] at hd
  contradiction

theorem decimal?_of_isDecimal {w : List Char} {n : Nat} (h : IsDecimal w n) :
    decimal? w = some n := by
  obtain ⟨hdigits, hzero⟩ := h
  obtain ⟨c, ds, u, rfl, -, hread, hn, -⟩ := hdigits.read_decimal
  rw [decimal?, hread]
  split
  · rename_i heq
    obtain ⟨rfl, rfl⟩ := List.cons.inj (Option.some.inj heq)
    rw [hzero rfl] at hread
    cases hread
  · rename_i heq
    rw [← Option.some.inj heq, hn]
  · contradiction

theorem sign_of_isNumeral {c : Char} (hc : isNumeral c = true) (s : List Char) :
    sign (c :: s) = (false, c :: s) := by
  unfold sign
  split
  · rename_i heq
    exact absurd (List.cons.inj heq).1 (ne_of_isNumeral hc rfl)
  · rename_i heq
    exact absurd (List.cons.inj heq).1 (ne_of_isNumeral hc rfl)
  · rfl

theorem Signed.read {number : List Char → Nat → Prop} {w : List Char} {i : Int}
    (h : Signed number w i)
    (hnumber : ∀ {w n}, number w n → ∃ c s, w = c :: s ∧ isNumeral c = true) :
    ∃ u n, number u n ∧ (sign w).2 = u ∧ (if (sign w).1 then -(n : Int) else n) = i := by
  cases h with
  | @bare w n h =>
    obtain ⟨c, s, rfl, hc⟩ := hnumber h
    rw [sign_of_isNumeral hc]
    exact ⟨_, n, h, rfl, rfl⟩
  | plus h => exact ⟨_, _, h, rfl, rfl⟩
  | minus h => exact ⟨_, _, h, rfl, rfl⟩

theorem sign_append {s : List Char} (hs : s ∈ signs) {c : Char} (hc : isNumeral c = true)
    (t : List Char) : (sign (s ++ c :: t)).2 = c :: t := by
  simp only [signs, List.mem_cons, List.not_mem_nil, or_false] at hs
  rcases hs with rfl | rfl | rfl
  · rw [List.nil_append, sign_of_isNumeral hc]
  · rfl
  · rfl

theorem integer?_of_plain {s : List Char}
    (h : ∀ c r, s = '0' :: c :: r → c ≠ 'x' ∧ c ≠ 'o' ∧ c ≠ 'b') :
    integer? s = (decimal? (sign s).2).map fun n : Nat =>
      if (sign s).1 then -(n : Int) else n := by
  unfold integer?
  split
  · exact absurd rfl (h _ _ rfl).1
  · exact absurd rfl (h _ _ rfl).2.1
  · exact absurd rfl (h _ _ rfl).2.2
  · obtain ⟨negative, r⟩ := sign s
    dsimp only
    cases decimal? r <;> rfl

theorem integer?_of_isInteger {w : List Char} {i : Int} (h : IsInteger w i) :
    integer? w = some i := by
  cases h with
  | decimal h =>
    have hplain : ∀ c r, w = '0' :: c :: r → c ≠ 'x' ∧ c ≠ 'o' ∧ c ≠ 'b' := by
      rintro c r rfl
      cases h with
      | bare h =>
        have hc : isNumeral c = true := h.1.isNumeral_of_mem c (by simp)
        exact ⟨ne_of_isNumeral hc rfl, ne_of_isNumeral hc rfl, ne_of_isNumeral hc rfl⟩
    obtain ⟨u, n, hu, hsign, hi⟩ := h.read fun h => h.1.exists_cons
    rw [integer?_of_plain hplain, hsign, decimal?_of_isDecimal hu, Option.map_some, hi]
  | @based letter base n w hbase h =>
    simp only [List.mem_cons, Prod.mk.injEq, List.not_mem_nil, or_false] at hbase
    rcases hbase with ⟨rfl, rfl⟩ | ⟨rfl, rfl⟩ | ⟨rfl, rfl⟩
    · exact h.read_based rfl fun _ hc => (Digits.hex_digit hc).1
    · exact h.read_based (p := fun c => '0' ≤ c && c ≤ '7') rfl fun hd hc =>
        hc.of_all_below (P := fun c _ => '0' ≤ c && c ≤ '7') hd (by decide) (by decide)
    · exact h.read_based (p := fun c => c = '0' || c = '1') rfl fun hd hc =>
        hc.of_all_below (P := fun c _ => c = '0' || c = '1') hd (by decide) (by decide)

/-- Digits that go on with anything but a digit are no integer. -/
theorem integer?_eq_none {s w t : List Char} {c : Char} (hs : s ∈ signs) (hne : w ≠ [])
    (hw : ∀ d ∈ w, isNumeral d = true) (hc : isNumeral c = false)
    (hletter : c ∉ ['x', 'o', 'b']) : integer? (s ++ (w ++ c :: t)) = none := by
  obtain ⟨b, w, rfl⟩ := List.exists_cons_of_ne_nil hne
  have hb : isNumeral b = true := hw b List.mem_cons_self
  have hsign : (sign (s ++ (b :: w ++ c :: t))).2 = b :: w ++ c :: t := sign_append hs hb _
  have hplain : ∀ d r, s ++ (b :: w ++ c :: t) = '0' :: d :: r → d ≠ 'x' ∧ d ≠ 'o' ∧ d ≠ 'b' := by
    intro d r heq
    have hd : d = c ∨ isNumeral d = true := by
      simp only [signs, List.mem_cons, List.not_mem_nil, or_false] at hs
      rcases hs with rfl | rfl | rfl
      · cases w with
        | nil =>
          obtain ⟨-, heq⟩ := List.cons.inj heq
          exact .inl (List.cons.inj heq).1.symm
        | cons a w =>
          obtain ⟨-, heq⟩ := List.cons.inj heq
          rw [← (List.cons.inj heq).1]
          exact .inr (hw a (by simp))
      · cases heq
      · cases heq
    rcases hd with rfl | hd
    · simpa using hletter
    · exact ⟨ne_of_isNumeral hd rfl, ne_of_isNumeral hd rfl, ne_of_isNumeral hd rfl⟩
  have hdigit : isAsciiDigit c = false ∧ c ≠ '_' := by
    rw [isNumeral, Bool.or_eq_false_iff, decide_eq_false_iff_not] at hc
    exact hc
  have hdecimal : decimal? (b :: w ++ c :: t) = none := by
    rw [decimal?, digits?_eq_none (c := c) (by simp) hdigit.1 hdigit.2]
  rw [integer?_of_plain hplain, hsign, hdecimal, Option.map_none]

theorem exponent?_of_signed {x : List Char} {e : Int} (h : Signed (Digits 10) x e) :
    exponent? x = some e := by
  obtain ⟨u, n, hu, hsign, he⟩ := h.read fun h => h.exists_cons
  obtain ⟨c, ds, -, -, -, hread, hn, -⟩ := hu.read_decimal
  unfold exponent?
  generalize sign x = signed at hsign he
  obtain ⟨negative, r⟩ := signed
  obtain rfl : r = u := hsign
  simp only [hread, Option.map_some, hn, he]

theorem scientific?_of_isMagnitude {s : List Char} {q : ℚ} (h : IsMagnitude s q) :
    ∃ m e, scientific? s = some (m, e) ∧ (m : ℚ) * 10 ^ e = q := by
  have htake {w : List Char} {n : Nat} (hw : Digits 10 w n) {c : Char} (hc : isNumeral c = false)
      (t : List Char) : (w ++ c :: t).takeWhile isNumeral = w :=
    takeWhile_of_run hw.isNumeral_of_mem (by simp [hc])
  have hletter {c : Char} (hc : c = 'e' ∨ c = 'E') :
      isNumeral c = false ∧ c ≠ '.' ∧ (c = 'e' || c = 'E') = true := by
    rcases hc with rfl | rfl <;> decide
  have hscaled (n f k : Nat) (e : Int) :
      ((n * Nat.pow 10 k + f : Nat) : ℚ) * 10 ^ (e - k) = (n + f / 10 ^ k) * 10 ^ e := by
    have hpow : ((Nat.pow 10 k : Nat) : ℚ) = 10 ^ k := Nat.cast_pow 10 k
    rw [zpow_sub₀ (by norm_num), zpow_natCast, Nat.cast_add, Nat.cast_mul, hpow]
    field_simp
  cases h with
  | @fraction w u n f hw hu =>
    obtain ⟨c, ds, -, -, -, hread, hf, hlength⟩ := hu.read_decimal
    have hall : u.takeWhile isNumeral = u := by
      have h := takeWhile_of_run (r := []) hu.isNumeral_of_mem nofun
      rwa [List.append_nil] at h
    refine ⟨n * Nat.pow 10 (c :: ds).length + f, 0 - ((c :: ds).length : Nat), ?_, ?_⟩
    · unfold scientific?
      simp only [htake hw.1 (by decide : isNumeral '.' = false), decimal?_of_isDecimal hw,
        List.drop_left, hall, hread, List.drop_length, exponentOrEnd?, hf]
    · rw [hscaled, hlength, zpow_zero, mul_one]
  | @exponent w x n c e hw hc hx =>
    obtain ⟨hnumeral, hdot, hsame⟩ := hletter hc
    refine ⟨n, e, ?_, rfl⟩
    unfold scientific?
    simp only [htake hw.1 hnumeral, decimal?_of_isDecimal hw, List.drop_left, exponentOrEnd?, hsame,
      if_true, exponent?_of_signed hx, Option.map_some]
  | @both w u x n f c e hw hu hc hx =>
    obtain ⟨hnumeral, -, hsame⟩ := hletter hc
    obtain ⟨b, ds, -, -, -, hread, hf, hlength⟩ := hu.read_decimal
    refine ⟨n * Nat.pow 10 (b :: ds).length + f, e - ((b :: ds).length : Nat), ?_, ?_⟩
    · unfold scientific?
      simp only [htake hw.1 (by decide : isNumeral '.' = false), decimal?_of_isDecimal hw,
        List.drop_left, htake hu hnumeral, hread, exponentOrEnd?, hsame, if_true,
        exponent?_of_signed hx, hf]
    · rw [hscaled, hlength]

theorem IsMagnitude.exists_split {s : List Char} {q : ℚ} (h : IsMagnitude s q) :
    ∃ w c t, s = w ++ c :: t ∧ w ≠ [] ∧ (∀ d ∈ w, isNumeral d = true) ∧ isNumeral c = false ∧
      c ∉ ['x', 'o', 'b'] := by
  have hne {w : List Char} {n : Nat} (hw : IsDecimal w n) : w ≠ [] := by
    obtain ⟨c, u, rfl, -⟩ := hw.1.exists_cons
    exact List.cons_ne_nil c u
  cases h with
  | fraction hw _ =>
    exact ⟨_, '.', _, rfl, hne hw, hw.1.isNumeral_of_mem, by decide, by decide⟩
  | exponent hw hc _ =>
    refine ⟨_, _, _, rfl, hne hw, hw.1.isNumeral_of_mem, ?_⟩
    rcases hc with rfl | rfl <;> decide
  | both hw _ _ _ =>
    exact ⟨_, '.', _, rfl, hne hw, hw.1.isNumeral_of_mem, by decide, by decide⟩

/-- What is below the largest double and half of its last place does not overflow. -/
theorem overflows_eq_false {m : Nat} {e : Int} (h : (m : ℚ) * 10 ^ e < 2 ^ 1024 - 2 ^ 970) :
    Double.overflows m e = false := by
  apply Bool.eq_false_iff.mpr
  intro hover
  simp only [Double.overflows, Bool.and_eq_true, Bool.or_eq_true, decide_eq_true_eq] at hover
  obtain ⟨hm, hover⟩ := hover
  apply not_le_of_gt h
  rcases hover with hlong | ⟨-, hle⟩
  · obtain ⟨k, hk⟩ : ∃ k, (Nat.toDigits 10 m).length = k + 1 :=
      Nat.exists_eq_add_one_of_ne_zero (Nat.ne_zero_of_lt Nat.length_toDigits_pos)
    have hdigits : 10 ^ k ≤ m := by
      rcases Nat.eq_zero_or_pos k with rfl | hpos
      · exact Nat.one_le_iff_ne_zero.mpr hm
      · by_contra hlt
        have hshort := (Nat.length_toDigits_le_iff (by decide) hpos).mpr (Nat.lt_of_not_le hlt)
        omega
    have hbound : 2 ^ 1024 ≤ 10 ^ 309 + 2 ^ 970 := by decide +kernel
    calc (2 : ℚ) ^ 1024 - 2 ^ 970 ≤ 10 ^ (309 : Int) := by
          rw [sub_le_iff_le_add, zpow_ofNat]
          exact_mod_cast hbound
      _ ≤ 10 ^ ((k : Int) + e) := zpow_le_zpow_right₀ (by norm_num) (by omega)
      _ = (10 ^ k : Nat) * 10 ^ e := by
          rw [zpow_add₀ (by norm_num), zpow_natCast, Nat.cast_pow, Nat.cast_ofNat]
      _ ≤ m * 10 ^ e := by
          apply mul_le_mul_of_nonneg_right _ (by positivity)
          exact_mod_cast hdigits
  · have hpos : (0 : ℚ) < 10 ^ (-e).toNat := by positivity
    have hsplit : (10 : ℚ) ^ e * 10 ^ (-e).toNat = 10 ^ e.toNat := by
      rw [← zpow_natCast, ← zpow_natCast, ← zpow_add₀ (by norm_num)]
      congr 1
      omega
    have hpow (b k : Nat) : Nat.pow b k = b ^ k := rfl
    have hsub : 2 ^ 970 ≤ 2 ^ 1024 := pow_le_pow_right₀ one_le_two (by omega)
    simp only [hpow] at hle
    have hcast := (Nat.cast_le (α := ℚ)).mpr hle
    apply le_of_mul_le_mul_right _ hpos
    rw [mul_assoc, hsplit]
    simpa only [Nat.cast_mul, Nat.cast_sub hsub, Nat.cast_pow, Nat.cast_ofNat] using hcast

theorem isBareChar_of_isKeyChar {c : Char} (h : isKeyChar c = true) : isBareChar c = true := by
  rw [isBareChar, h, Bool.true_or, Bool.true_or, Bool.true_or]

theorem Digits.isBareChar_of_mem {base n : Nat} {w : List Char} (h : Digits base w n) :
    ∀ c ∈ w, isBareChar c = true :=
  fun c hc => isBareChar_of_isKeyChar (h.isKeyChar_of_mem c hc)

theorem Signed.isBareChar_of_mem {number : List Char → Nat → Prop} {w : List Char} {i : Int}
    (h : Signed number w i) (hnumber : ∀ {w n}, number w n → ∀ c ∈ w, isBareChar c = true) :
    ∀ c ∈ w, isBareChar c = true := by
  cases h with
  | bare h => exact hnumber h
  | plus h => exact List.forall_mem_cons.mpr ⟨rfl, hnumber h⟩
  | minus h => exact List.forall_mem_cons.mpr ⟨rfl, hnumber h⟩

theorem IsInteger.isBareChar_of_mem {w : List Char} {i : Int} (h : IsInteger w i) :
    ∀ c ∈ w, isBareChar c = true := by
  cases h with
  | decimal h => exact h.isBareChar_of_mem fun h => h.1.isBareChar_of_mem
  | @based letter base n w hbase h =>
    have hletter : isBareChar letter = true := by
      simp only [List.mem_cons, Prod.mk.injEq, List.not_mem_nil, or_false] at hbase
      rcases hbase with ⟨rfl, -⟩ | ⟨rfl, -⟩ | ⟨rfl, -⟩ <;> rfl
    exact List.forall_mem_cons.mpr ⟨rfl, List.forall_mem_cons.mpr ⟨hletter, h.isBareChar_of_mem⟩⟩

theorem ofBare?_of_isInteger {w : List Char} {i : Int} (h : IsInteger w i) :
    ofBare? w = some (.integer i) := by
  have hread := integer?_of_isInteger h
  have hword {word : List Char} (hnone : integer? word = none) : w ≠ word := by
    rintro rfl
    rw [hnone] at hread
    contradiction
  rw [ofBare?, if_neg (hword rfl), if_neg (hword rfl), hread]

theorem IsMagnitude.isBareChar_of_mem {s : List Char} {q : ℚ} (h : IsMagnitude s q) :
    ∀ c ∈ s, isBareChar c = true := by
  have hletter {c : Char} (hc : c = 'e' ∨ c = 'E') : isBareChar c = true := by
    rcases hc with rfl | rfl <;> rfl
  have hdot : isBareChar '.' = true := rfl
  cases h with
  | fraction hw hu =>
    simp only [List.forall_mem_append, List.forall_mem_cons]
    exact ⟨hw.1.isBareChar_of_mem, hdot, hu.isBareChar_of_mem⟩
  | exponent hw hc hx =>
    simp only [List.forall_mem_append, List.forall_mem_cons]
    exact ⟨hw.1.isBareChar_of_mem, hletter hc,
      hx.isBareChar_of_mem fun h => h.isBareChar_of_mem⟩
  | both hw hu hc hx =>
    simp only [List.forall_mem_append, List.forall_mem_cons]
    exact ⟨hw.1.isBareChar_of_mem, hdot, hu.isBareChar_of_mem, hletter hc,
      hx.isBareChar_of_mem fun h => h.isBareChar_of_mem⟩

theorem IsFloat.isBareChar_of_mem {w : List Char} (h : IsFloat w) :
    ∀ c ∈ w, isBareChar c = true := by
  have hsign {s : List Char} (hs : s ∈ signs) : ∀ c ∈ s, isBareChar c = true :=
    List.all_eq_true.mp (List.all_eq_true.mp
      (by decide : signs.all (fun s => s.all isBareChar) = true) s hs)
  cases h with
  | @special s w hs hw =>
    have hword := List.all_eq_true.mp (List.all_eq_true.mp
      (by decide : [['i', 'n', 'f'], ['n', 'a', 'n']].all (fun s => s.all isBareChar) = true) w hw)
    exact List.forall_mem_append.mpr ⟨hsign hs, hword⟩
  | finite hs hw _ => exact List.forall_mem_append.mpr ⟨hsign hs, hw.isBareChar_of_mem⟩

theorem IsFloat.read {w : List Char} (h : IsFloat w) :
    integer? w = none ∧ isFloat w = true ∧ floatInRange w = true := by
  cases h with
  | @special s w hs hw =>
    have hall : signs.all (fun s => [['i', 'n', 'f'], ['n', 'a', 'n']].all fun w =>
        integer? (s ++ w) = none && isFloat (s ++ w) && floatInRange (s ++ w)) = true := by decide
    have hword := List.all_eq_true.mp (List.all_eq_true.mp hall s hs) w hw
    simpa only [Bool.and_eq_true, decide_eq_true_eq, and_assoc] using hword
  | @finite s w q hs hw hq =>
    obtain ⟨m, e, hread, rfl⟩ := scientific?_of_isMagnitude hw
    obtain ⟨u, c, t, rfl, hne, hu, hc, hletter⟩ := hw.exists_split
    obtain ⟨b, u, rfl⟩ := List.exists_cons_of_ne_nil hne
    have hsign : (sign (s ++ (b :: u ++ c :: t))).2 = b :: u ++ c :: t :=
      sign_append hs (hu b List.mem_cons_self) _
    refine ⟨integer?_eq_none hs hne hu hc hletter, ?_, ?_⟩
    · simp only [isFloat, hsign, hread, Option.isSome_some, Bool.or_true]
    · simp only [floatInRange, hsign, hread, overflows_eq_false hq, Bool.not_false]

theorem ofBare?_of_isFloat {w : List Char} (h : IsFloat w) :
    ofBare? w = some (.float (String.ofList w)) := by
  obtain ⟨hinteger, hfloat, -⟩ := h.read
  have hword {word : List Char} (hnone : isFloat word = false) : w ≠ word := by
    rintro rfl
    rw [hnone] at hfloat
    contradiction
  rw [ofBare?, if_neg (hword rfl), if_neg (hword rfl), hinteger]
  exact if_pos hfloat

/-- Whether a value is over in front of the text: nothing that follows can be taken for more of
it. -/
structure ValueOver (r : List Char) : Prop where
  not_bare : ∀ c, r.head? = some c → isBareChar c = false
  not_quote : ∀ c, r.head? = some c → c ≠ '"' ∧ c ≠ '\''
  not_digit : ∀ c t, r = ' ' :: c :: t → isAsciiDigit c = false

theorem bareToken_of_forall {w r : List Char} (hw : ∀ c ∈ w, isBareChar c = true)
    (hr : ValueOver r) : bareToken (w ++ r) = (w, r) := by
  have htake : (w ++ r).takeWhile isBareChar = w := takeWhile_of_run hw hr.not_bare
  unfold bareToken
  simp only [htake, List.drop_left]
  split
  · rw [hr.not_digit _ _ rfl, Bool.and_false, if_neg Bool.false_ne_true]
  · rfl

theorem readScalar_of_bareToken {w r : List Char} {c : Char} {v : Toml} (hc : isBareChar c = true)
    (htoken : bareToken (c :: w ++ r) = (c :: w, r)) (hv : ofBare? (c :: w) = some v) :
    readScalar (c :: w ++ r) = some (v, r) := by
  have hquote : ¬ (c = '"' || c = '\'') = true := by
    rw [Bool.or_eq_true, decide_eq_true_eq, decide_eq_true_eq]
    rintro (rfl | rfl) <;> contradiction
  rw [List.cons_append] at htoken ⊢
  rw [readScalar, if_neg hquote, htoken]
  simp only [hv, Option.map_some]

end BuildLog.Toml
