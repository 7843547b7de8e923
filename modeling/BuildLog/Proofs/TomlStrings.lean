import BuildLog.Proofs.TomlNumbers

namespace BuildLog.Toml
open Text

def IsPlain (c : Char) : Prop := c = '\t' ∨ ' ' ≤ c ∧ c ≠ '\x7f'

def IsBlank (c : Char) : Prop := c = ' ' ∨ c = '\t'

/-- A line ends with a line feed, in front of which a return may stand. -/
def IsLineEnd (e : List Char) : Prop := e = ['\n'] ∨ e = ['\r', '\n']

inductive IsSpace : List Char → Prop
  | nil : IsSpace []
  | blank {c : Char} {g : List Char} (hc : IsBlank c) (hg : IsSpace g) : IsSpace (c :: g)
  | lineEnd {e g : List Char} (he : IsLineEnd e) (hg : IsSpace g) : IsSpace (e ++ g)

/-- The letters of the short escapes and the characters that they stand for. -/
def shortEscapes : List (Char × Char) :=
  [('b', '\x08'), ('t', '\t'), ('n', '\n'), ('f', '\x0c'), ('r', '\r'), ('e', '\x1b'), ('"', '"'),
    ('\\', '\\')]

/-- The letters of the escapes by code and the number of digits after each. -/
def codeEscapes : List (Char × Nat) := [('x', 2), ('u', 4), ('U', 8)]

inductive IsEscape : List Char → Char → Prop
  | short {e c : Char} (h : (e, c) ∈ shortEscapes) : IsEscape [e] c
  | code {e : Char} {k : Nat} {ds : List Char} {c : Char} (h : (e, k) ∈ codeEscapes)
    (hds : Fixed 16 k ds c.toNat) : IsEscape (e :: ds) c

inductive IsBasicChars : List Char → List Char → Prop
  | nil : IsBasicChars [] []
  | plain {c : Char} {u cs : List Char} (hplain : IsPlain c) (hquote : c ≠ '"')
    (hbackslash : c ≠ '\\') (hu : IsBasicChars u cs) : IsBasicChars (c :: u) (c :: cs)
  | escape {w u cs : List Char} {c : Char} (hw : IsEscape w c) (hu : IsBasicChars u cs) :
    IsBasicChars ('\\' :: (w ++ u)) (c :: cs)

/-- Whether the text is a string in double quotes that stands for `s`. -/
def IsBasicString (w : List Char) (s : String) : Prop :=
  ∃ u, w = '"' :: u ++ ['"'] ∧ IsBasicChars u s.toList

def IsLiteralString (w : List Char) (s : String) : Prop :=
  w = '\'' :: s.toList ++ ['\''] ∧ ∀ c ∈ s.toList, IsPlain c ∧ c ≠ '\''

/-- What stands for some characters in front of three quotes that close a string, these included. Up
to two quotes before them belong to the string. A backslash in front of a line end leaves out blanks
and line ends as far as they go. -/
inductive IsLongChars (quote : Char) (escapes : Bool) : List Char → List Char → Prop
  | close {k : Nat} (hk : k ≤ 2) :
    IsLongChars quote escapes (List.replicate (3 + k) quote) (List.replicate k quote)
  | plain {c : Char} {u cs : List Char} (hplain : IsPlain c)
    (hbackslash : escapes = true → c ≠ '\\') (hopen : ¬ List.replicate 3 quote <+: c :: u)
    (hu : IsLongChars quote escapes u cs) : IsLongChars quote escapes (c :: u) (c :: cs)
  | lineEnd {e u cs : List Char} (he : IsLineEnd e) (hu : IsLongChars quote escapes u cs) :
    IsLongChars quote escapes (e ++ u) (e ++ cs)
  | escape {w u cs : List Char} {c : Char} (hescapes : escapes = true) (hw : IsEscape w c)
    (hu : IsLongChars quote escapes u cs) : IsLongChars quote escapes ('\\' :: (w ++ u)) (c :: cs)
  | skip {b e g u cs : List Char} (hescapes : escapes = true) (hb : ∀ c ∈ b, IsBlank c)
    (he : IsLineEnd e) (hg : IsSpace g)
    (hstop : ∀ c, u.head? = some c → ¬ IsBlank c ∧ c ≠ '\n' ∧ c ≠ '\r')
    (hu : IsLongChars quote escapes u cs) :
    IsLongChars quote escapes ('\\' :: (b ++ (e ++ (g ++ u)))) cs

/-- The quotes of a string, three of them if it may run over several lines, and whether a backslash
escapes in it. A line end right after three opening quotes is left out. -/
inductive IsString : List Char → String → Prop
  | basic {w : List Char} {s : String} (h : IsBasicString w s) : IsString w s
  | literal {w : List Char} {s : String} (h : IsLiteralString w s) : IsString w s
  | long {quote : Char} {escapes : Bool} {u : List Char} {s : String}
    (hquote : (quote, escapes) ∈ [('"', true), ('\'', false)])
    (hstart : ∀ c, u.head? = some c → c ≠ '\n' ∧ c ≠ '\r')
    (hu : IsLongChars quote escapes u s.toList) : IsString (List.replicate 3 quote ++ u) s
  | longBelow {quote : Char} {escapes : Bool} {e u : List Char} {s : String}
    (hquote : (quote, escapes) ∈ [('"', true), ('\'', false)]) (he : IsLineEnd e)
    (hu : IsLongChars quote escapes u s.toList) :
    IsString (List.replicate 3 quote ++ (e ++ u)) s

theorem isPlain_iff {c : Char} : isPlain c = true ↔ IsPlain c := by
  have hdelete : c.toNat = 0x7F ↔ c = '\x7f' := by
    rw [← Char.toNat_inj]
    rfl
  have hspace : ' ' ≤ c ↔ 0x20 ≤ c.toNat := Iff.rfl
  simp only [isPlain, IsPlain, Bool.or_eq_true, Bool.and_eq_true, decide_eq_true_eq, hspace, ne_eq,
    hdelete]

theorem isBlankChar_iff {c : Char} : isBlankChar c = true ↔ IsBlank c := by
  rw [isBlankChar, IsBlank, Bool.or_eq_true, decide_eq_true_eq, decide_eq_true_eq]

theorem IsPlain.ne_lineEnd {c : Char} (h : IsPlain c) : c ≠ '\n' ∧ c ≠ '\r' := by
  rw [← isPlain_iff] at h
  constructor <;> (rintro rfl; contradiction)

theorem mapM_hexValue? {ds : List Char} (h : ∀ d ∈ ds, isHexDigit d = true) (n : Nat) :
    ∃ vs, ds.mapM Json.hexValue? = some vs ∧
      vs.foldl (fun n d => 16 * n + d) n =
        ds.foldl (fun n c => 16 * n + (Json.hexValue? c).getD 0) n := by
  induction ds generalizing n with
  | nil => exact ⟨[], rfl, rfl⟩
  | cons d ds ih =>
    obtain ⟨hd, hds⟩ := List.forall_mem_cons.mp h
    obtain ⟨v, hv⟩ := Option.isSome_iff_exists.mp hd
    obtain ⟨vs, hvs, hvalue⟩ := ih hds (16 * n + v)
    refine ⟨v :: vs, ?_, ?_⟩
    · simp [hv, hvs]
    · rw [List.foldl_cons, List.foldl_cons, hv, hvalue]
      rfl

theorem readHexEscape_of_fixed {k : Nat} {ds : List Char} {c : Char} (h : Fixed 16 k ds c.toNat)
    (s : List Char) : readHexEscape k (ds ++ s) = some (c, s) := by
  obtain ⟨vs, hvs, hvalue⟩ := mapM_hexValue? (h.digits.isHexDigit_of_mem h.plain) 0
  have hcode : vs.foldl (fun n d => 16 * n + d) 0 = c.toNat :=
    hvalue.trans (h.digits.foldl_eq h.plain fun _ hc => (Digits.hex_digit hc).2.1)
  have hlength : ¬ (ds ++ s).length < ds.length := by
    rw [List.length_append]
    omega
  have hvalid : c.toNat.isValidChar := c.valid
  rw [← h.length, readHexEscape, if_neg hlength, List.take_left, List.drop_left]
  simp only [hvs, hcode, if_pos hvalid, Char.ofNat_toNat]

theorem readEscape_of_isEscape {w : List Char} {c : Char} (h : IsEscape w c) (s : List Char) :
    readEscape (w ++ s) = some (c, s) := by
  cases h with
  | short h =>
    simp only [shortEscapes, List.mem_cons, Prod.mk.injEq, List.not_mem_nil, or_false] at h
    rcases h with ⟨rfl, rfl⟩ | ⟨rfl, rfl⟩ | ⟨rfl, rfl⟩ | ⟨rfl, rfl⟩ | ⟨rfl, rfl⟩ | ⟨rfl, rfl⟩ |
      ⟨rfl, rfl⟩ | ⟨rfl, rfl⟩ <;> rfl
  | code h hds =>
    simp only [codeEscapes, List.mem_cons, Prod.mk.injEq, List.not_mem_nil, or_false] at h
    rcases h with ⟨rfl, rfl⟩ | ⟨rfl, rfl⟩ | ⟨rfl, rfl⟩ <;> exact readHexEscape_of_fixed hds s

theorem atLineEnd_of_isEscape {w : List Char} {c : Char} (h : IsEscape w c) (s : List Char) :
    atLineEnd (w ++ s) = false := by
  cases h with
  | short h =>
    simp only [shortEscapes, List.mem_cons, Prod.mk.injEq, List.not_mem_nil, or_false] at h
    rcases h with ⟨rfl, -⟩ | ⟨rfl, -⟩ | ⟨rfl, -⟩ | ⟨rfl, -⟩ | ⟨rfl, -⟩ | ⟨rfl, -⟩ | ⟨rfl, -⟩ |
      ⟨rfl, -⟩ <;> rfl
  | code h hds =>
    simp only [codeEscapes, List.mem_cons, Prod.mk.injEq, List.not_mem_nil, or_false] at h
    rcases h with ⟨rfl, -⟩ | ⟨rfl, -⟩ | ⟨rfl, -⟩ <;> rfl

theorem readBasicChars_cons {c : Char} (hquote : c ≠ '"') (hbackslash : c ≠ '\\') (f : Char)
    (fuel s : List Char) :
    readBasicChars (f :: fuel) (c :: s) =
      if isPlain c then (readBasicChars fuel s).map fun x => (c :: x.1, x.2) else none := by
  rw [readBasicChars]
  · exact hquote
  · exact hbackslash

theorem readBasicChars_of {u cs : List Char} (h : IsBasicChars u cs) {fuel : List Char}
    (hfuel : u.length < fuel.length) (s : List Char) :
    readBasicChars fuel (u ++ '"' :: s) = some (cs, s) := by
  induction h generalizing fuel with
  | nil =>
    obtain ⟨f, fuel, rfl⟩ := List.exists_cons_of_length_pos hfuel
    rfl
  | plain hplain hquote hbackslash hu ih =>
    obtain ⟨f, fuel, rfl⟩ := List.exists_cons_of_length_pos (Nat.zero_lt_of_lt hfuel)
    rw [List.cons_append, readBasicChars_cons hquote hbackslash, if_pos (isPlain_iff.mpr hplain),
      ih (Nat.lt_of_succ_lt_succ hfuel), Option.map_some]
  | @escape w u cs c hw hu ih =>
    obtain ⟨f, fuel, rfl⟩ := List.exists_cons_of_length_pos (Nat.zero_lt_of_lt hfuel)
    have hless : u.length < fuel.length := by
      simp only [List.length_cons, List.length_append] at hfuel
      omega
    simp only [List.cons_append, List.append_assoc, readBasicChars, readEscape_of_isEscape hw,
      ih hless, Option.map_some]

theorem readLiteralChars_of {cs : List Char} (h : ∀ c ∈ cs, IsPlain c ∧ c ≠ '\'') (s : List Char) :
    readLiteralChars (cs ++ '\'' :: s) = some (cs, s) := by
  induction cs with
  | nil => rfl
  | cons c cs ih =>
    obtain ⟨⟨hplain, hquote⟩, hcs⟩ := List.forall_mem_cons.mp h
    rw [List.cons_append, readLiteralChars, if_pos (isPlain_iff.mpr hplain), ih hcs,
      Option.map_some]
    exact hquote

theorem readQuoted_basic {s : List Char} (h : ∀ r, s ≠ '"' :: '"' :: r) :
    readQuoted ('"' :: s) = (readBasicChars s s).map fun x => (String.ofList x.1, x.2) := by
  rw [readQuoted]
  intro r hr
  exact h r hr

theorem readQuoted_literal {s : List Char} (h : ∀ r, s ≠ '\'' :: '\'' :: r) :
    readQuoted ('\'' :: s) = (readLiteralChars s).map fun x => (String.ofList x.1, x.2) := by
  rw [readQuoted]
  intro r hr
  exact h r hr

theorem append_ne_quotes {quote : Char} {u r : List Char}
    (hu : ∀ c, u.head? = some c → c ≠ quote) (hr : ∀ c, r.head? = some c → c ≠ quote)
    (t : List Char) : u ++ quote :: r ≠ quote :: quote :: t := by
  intro heq
  cases u with
  | nil => exact hr quote (by rw [(List.cons.inj heq).2]; rfl) rfl
  | cons c u => exact hu c rfl (List.cons.inj heq).1

theorem readQuoted_of_isBasicString {w : List Char} {s : String} (h : IsBasicString w s)
    {r : List Char} (hr : ∀ c, r.head? = some c → c ≠ '"') :
    readQuoted (w ++ r) = some (s, r) := by
  obtain ⟨u, rfl, hu⟩ := h
  have hstart : ∀ c, u.head? = some c → c ≠ '"' := by
    intro c hc
    generalize s.toList = cs at hu
    cases hu with
    | nil => contradiction
    | plain _ hquote _ _ => rwa [← Option.some.inj hc]
    | escape _ _ =>
      rw [← Option.some.inj hc]
      decide
  have hlength : u.length < (u ++ '"' :: r).length := by simp
  rw [List.cons_append, List.cons_append, List.append_assoc, List.singleton_append,
    readQuoted_basic (append_ne_quotes hstart hr), readBasicChars_of hu hlength, Option.map_some,
    String.ofList_toList]

theorem readQuoted_of_isLiteralString {w : List Char} {s : String} (h : IsLiteralString w s)
    {r : List Char} (hr : ∀ c, r.head? = some c → c ≠ '\'') :
    readQuoted (w ++ r) = some (s, r) := by
  obtain ⟨rfl, hplain⟩ := h
  have hstart : ∀ c, s.toList.head? = some c → c ≠ '\'' := fun c hc =>
    (hplain c (List.mem_of_mem_head? hc)).2
  rw [List.cons_append, List.cons_append, List.append_assoc, List.singleton_append,
    readQuoted_literal (append_ne_quotes hstart hr), readLiteralChars_of hplain, Option.map_some,
    String.ofList_toList]

section LongStrings

variable {quote : Char} {escapes : Bool}

theorem readLongChars_quotes {s : List Char}
    (hquotes : 3 ≤ (s.takeWhile (· = quote)).length) (f : Char) (fuel : List Char) :
    readLongChars quote escapes (f :: fuel) s =
      if (s.takeWhile (· = quote)).length ≤ 5 then
        some (List.replicate ((s.takeWhile (· = quote)).length - 3) quote,
          s.drop (s.takeWhile (· = quote)).length)
      else none := by
  unfold readLongChars
  simp only [if_pos hquotes]

theorem readLongChars_close {k : Nat} (hk : k ≤ 2) {r : List Char}
    (hr : ∀ c, r.head? = some c → c ≠ quote) (f : Char) (fuel : List Char) :
    readLongChars quote escapes (f :: fuel) (List.replicate (3 + k) quote ++ r) =
      some (List.replicate k quote, r) := by
  have htake : (List.replicate (3 + k) quote ++ r).takeWhile (· = quote) =
      List.replicate (3 + k) quote := by
    apply takeWhile_of_run
    · intro c hc
      exact decide_eq_true (List.eq_of_mem_replicate hc)
    · exact fun c hc => decide_eq_false (hr c hc)
  have hlength := congrArg List.length htake
  rw [List.length_replicate] at hlength
  rw [readLongChars_quotes (by omega), hlength, if_pos (by omega), Nat.add_sub_cancel_left,
    List.drop_left' List.length_replicate]

theorem readLongChars_newline (hn : quote ≠ '\n') (f : Char) (fuel s : List Char) :
    readLongChars quote escapes (f :: fuel) ('\n' :: s) =
      (readLongChars quote escapes fuel s).map fun x => ('\n' :: x.1, x.2) := by
  simp [readLongChars, hn.symm]

theorem readLongChars_return (hr : quote ≠ '\r') (f : Char) (fuel s : List Char) :
    readLongChars quote escapes (f :: fuel) ('\r' :: '\n' :: s) =
      (readLongChars quote escapes fuel s).map fun x => ('\r' :: '\n' :: x.1, x.2) := by
  simp [readLongChars, hr.symm]

theorem readLongChars_cons {c : Char} {s : List Char}
    (hquotes : ¬ 3 ≤ ((c :: s).takeWhile (· = quote)).length) (hn : c ≠ '\n') (hr : c ≠ '\r')
    (f : Char) (fuel : List Char) :
    readLongChars quote escapes (f :: fuel) (c :: s) =
      if c = '\\' && escapes then
        if atLineEnd s then readLongChars quote escapes fuel (skipLines s)
        else
          match readEscape s with
          | none => none
          | some (c, r) => (readLongChars quote escapes fuel r).map fun x => (c :: x.1, x.2)
      else if isPlain c then (readLongChars quote escapes fuel s).map fun x => (c :: x.1, x.2)
      else none := by
  rw [readLongChars]
  · exact if_neg hquotes
  · exact hn
  · exact fun _ h => absurd h hr

theorem skipLines_of_isSpace {g : List Char} (h : IsSpace g) (s : List Char) :
    skipLines (g ++ s) = skipLines s := by
  induction h with
  | nil => rfl
  | blank hc _ ih => rcases hc with rfl | rfl <;> exact ih
  | lineEnd he _ ih =>
    rcases he with rfl | rfl <;> exact ih

theorem skipLines_of_head? {s : List Char}
    (h : ∀ c, s.head? = some c → ¬ IsBlank c ∧ c ≠ '\n' ∧ c ≠ '\r') : skipLines s = s := by
  cases s with
  | nil => rfl
  | cons c s =>
    obtain ⟨hblank, hn, hr⟩ := h c rfl
    rw [skipLines, if_neg fun hc => hblank (isBlankChar_iff.mp hc)]
    · exact hn
    · exact fun _ hc => absurd hc hr

theorem isSpace_of_blanks {b : List Char} (h : ∀ c ∈ b, IsBlank c) : IsSpace b := by
  induction b with
  | nil => exact .nil
  | cons c b ih =>
    obtain ⟨hc, hb⟩ := List.forall_mem_cons.mp h
    exact .blank hc (ih hb)

theorem atLineEnd_of {b e : List Char} (hb : ∀ c ∈ b, IsBlank c) (he : IsLineEnd e)
    (s : List Char) : atLineEnd (b ++ (e ++ s)) = true := by
  have hskip : skipBlanks (b ++ (e ++ s)) = e ++ s := by
    apply dropWhile_of_run fun c hc => isBlankChar_iff.mpr (hb c hc)
    rcases he with rfl | rfl <;> (intro c hc; obtain rfl := Option.some.inj hc; rfl)
  rw [atLineEnd, hskip]
  rcases he with rfl | rfl <;> rfl

theorem skipLines_of {b e g s : List Char} (hb : ∀ c ∈ b, IsBlank c) (he : IsLineEnd e)
    (hg : IsSpace g) (hs : ∀ c, s.head? = some c → ¬ IsBlank c ∧ c ≠ '\n' ∧ c ≠ '\r') :
    skipLines (b ++ (e ++ (g ++ s))) = s := by
  rw [skipLines_of_isSpace (isSpace_of_blanks hb), ← List.append_assoc,
    skipLines_of_isSpace (.lineEnd he hg), skipLines_of_head? hs]

theorem IsLongChars.three_le {u cs : List Char} (h : IsLongChars quote escapes u cs) :
    3 ≤ u.length := by
  induction h with
  | close _ => simp
  | plain _ _ _ _ ih | lineEnd _ _ ih | escape _ _ _ ih | skip _ _ _ _ _ _ ih =>
    simp only [List.length_cons, List.length_append]
    omega

theorem replicate_prefix_of_takeWhile {n : Nat} {s : List Char}
    (h : n ≤ (s.takeWhile (· = quote)).length) : List.replicate n quote <+: s := by
  have hall : s.takeWhile (· = quote) =
      List.replicate (s.takeWhile (· = quote)).length quote := by
    apply List.eq_replicate_of_mem
    intro c hc
    exact of_decide_eq_true (List.all_eq_true.mp List.all_takeWhile c hc)
  obtain ⟨k, hk⟩ := Nat.exists_eq_add_of_le h
  rw [hk, List.replicate_add] at hall
  exact (List.prefix_append _ _).trans (hall ▸ List.takeWhile_prefix _)

theorem readLongChars_of (hquote : quote = '"' ∨ quote = '\'') {u cs : List Char}
    (h : IsLongChars quote escapes u cs) {fuel : List Char} (hfuel : u.length ≤ fuel.length)
    {r : List Char} (hr : ∀ c, r.head? = some c → c ≠ quote) :
    readLongChars quote escapes fuel (u ++ r) = some (cs, r) := by
  have hother {c : Char} (hc : c ≠ quote) (s : List Char) :
      ¬ 3 ≤ ((c :: s).takeWhile (· = quote)).length := by simp [hc]
  obtain ⟨hn, hret, hback⟩ : quote ≠ '\n' ∧ quote ≠ '\r' ∧ quote ≠ '\\' := by
    rcases hquote with rfl | rfl <;> decide
  induction h generalizing fuel with
  | @close k hk =>
    obtain ⟨f, fuel, rfl⟩ := List.exists_cons_of_length_pos
      (Nat.lt_of_lt_of_le (by simp : 0 < (List.replicate (3 + k) quote).length) hfuel)
    exact readLongChars_close hk hr f fuel
  | @plain c u cs hplain hbackslash hopen hu ih =>
    obtain ⟨f, fuel, rfl⟩ := List.exists_cons_of_length_pos (Nat.zero_lt_of_lt hfuel)
    have hquotes : ¬ 3 ≤ ((c :: (u ++ r)).takeWhile (· = quote)).length := fun hthree =>
      hopen (List.prefix_of_prefix_length_le (replicate_prefix_of_takeWhile hthree)
        (List.prefix_append (c :: u) r) (Nat.le_succ_of_le hu.three_le))
    have hnone : ¬ (c = '\\' && escapes) = true := by
      rw [Bool.and_eq_true, decide_eq_true_eq]
      exact fun h => hbackslash h.2 h.1
    rw [List.cons_append, readLongChars_cons hquotes hplain.ne_lineEnd.1 hplain.ne_lineEnd.2,
      if_neg hnone, if_pos (isPlain_iff.mpr hplain), ih (Nat.le_of_succ_le_succ hfuel),
      Option.map_some]
  | @lineEnd e u cs he hu ih =>
    rcases he with rfl | rfl
    · obtain ⟨f, fuel, rfl⟩ := List.exists_cons_of_length_pos (Nat.zero_lt_of_lt hfuel)
      simp only [List.cons_append, List.nil_append]
      rw [readLongChars_newline hn, ih (Nat.le_of_succ_le_succ hfuel), Option.map_some]
    · obtain ⟨f, fuel, rfl⟩ := List.exists_cons_of_length_pos (Nat.zero_lt_of_lt hfuel)
      simp only [List.cons_append, List.nil_append]
      rw [readLongChars_return hret, ih (Nat.le_of_succ_le (Nat.le_of_succ_le_succ hfuel)),
        Option.map_some]
  | @escape w u cs c hescapes hw hu ih =>
    obtain ⟨f, fuel, rfl⟩ := List.exists_cons_of_length_pos (Nat.zero_lt_of_lt hfuel)
    have hless : u.length ≤ fuel.length := by
      simp only [List.length_cons, List.length_append] at hfuel
      omega
    simp only [List.cons_append, List.append_assoc]
    rw [readLongChars_cons (hother hback.symm _) (by decide) (by decide), hescapes,
      if_pos (by decide), atLineEnd_of_isEscape hw, if_neg Bool.false_ne_true,
      readEscape_of_isEscape hw]
    rw [hescapes] at ih
    simp only [ih hless, Option.map_some]
  | @skip b e g u cs hescapes hb he hg hstop hu ih =>
    obtain ⟨f, fuel, rfl⟩ := List.exists_cons_of_length_pos (Nat.zero_lt_of_lt hfuel)
    have hless : u.length ≤ fuel.length := by
      simp only [List.length_cons, List.length_append] at hfuel
      omega
    have hne : u ≠ [] := List.ne_nil_of_length_pos (Nat.zero_lt_of_lt hu.three_le)
    have hskip : skipLines (b ++ (e ++ (g ++ (u ++ r)))) = u ++ r := by
      apply skipLines_of hb he hg
      rwa [List.head?_append_of_ne_nil _ hne]
    simp only [List.cons_append, List.append_assoc]
    rw [readLongChars_cons (hother hback.symm _) (by decide) (by decide), hescapes,
      if_pos (by decide), if_pos (atLineEnd_of hb he _), hskip]
    rw [hescapes] at ih
    exact ih hless

end LongStrings

theorem readQuoted_long {quote : Char} {escapes : Bool}
    (hquote : (quote, escapes) ∈ [('"', true), ('\'', false)]) (s : List Char) :
    readQuoted (List.replicate 3 quote ++ s) =
      (readLongChars quote escapes s (dropLineEnd s)).map fun x => (String.ofList x.1, x.2) := by
  simp only [List.mem_cons, Prod.mk.injEq, List.not_mem_nil, or_false] at hquote
  rcases hquote with ⟨rfl, rfl⟩ | ⟨rfl, rfl⟩ <;> rfl

/-- What stands for a string is read as it in front of anything but a quote. -/
theorem readQuoted_of_isString {w : List Char} {s : String} (h : IsString w s) {r : List Char}
    (hr : ∀ c, r.head? = some c → c ≠ '"' ∧ c ≠ '\'') : readQuoted (w ++ r) = some (s, r) := by
  have hkinds {quote : Char} {escapes : Bool}
      (hquote : (quote, escapes) ∈ [('"', true), ('\'', false)]) :
      (quote = '"' ∨ quote = '\'') ∧ ∀ c, r.head? = some c → c ≠ quote := by
    simp only [List.mem_cons, Prod.mk.injEq, List.not_mem_nil, or_false] at hquote
    rcases hquote with ⟨rfl, -⟩ | ⟨rfl, -⟩
    · exact ⟨.inl rfl, fun c hc => (hr c hc).1⟩
    · exact ⟨.inr rfl, fun c hc => (hr c hc).2⟩
  cases h with
  | basic h => exact readQuoted_of_isBasicString h fun c hc => (hr c hc).1
  | literal h => exact readQuoted_of_isLiteralString h fun c hc => (hr c hc).2
  | @long quote escapes u _ hquote hstart hu =>
    obtain ⟨heither, hout⟩ := hkinds hquote
    have hdrop : dropLineEnd (u ++ r) = u ++ r := by
      obtain ⟨c, u, rfl⟩ :=
        List.exists_cons_of_length_pos (Nat.zero_lt_of_lt hu.three_le)
      obtain ⟨hn, hret⟩ := hstart c rfl
      rw [List.cons_append, dropLineEnd]
      · exact fun _ h => hn (List.cons.inj h).1
      · exact fun _ h => hret (List.cons.inj h).1
    rw [List.append_assoc, readQuoted_long hquote, hdrop,
      readLongChars_of heither hu (List.prefix_append u r).length_le hout, Option.map_some,
      String.ofList_toList]
  | @longBelow quote escapes e u _ hquote he hu =>
    obtain ⟨heither, hout⟩ := hkinds hquote
    have hdrop : dropLineEnd (e ++ (u ++ r)) = u ++ r := by
      rcases he with rfl | rfl <;> rfl
    have hfuel : u.length ≤ (e ++ (u ++ r)).length := by
      simp only [List.length_append]
      omega
    rw [List.append_assoc, List.append_assoc, readQuoted_long hquote, hdrop,
      readLongChars_of heither hu hfuel hout, Option.map_some, String.ofList_toList]

/-- Four digits are enough for a code of two. -/
theorem fixed_of_lt {n : Nat} (h : n < 256) :
    Fixed 16 4 ['0', '0', Nat.digitChar (n / 16), Nat.digitChar (n % 16)] n := by
  have hdigits : ∀ d < 16, "0123456789abcdef".toList[d]? = some (Nat.digitChar d) ∧
      Nat.digitChar d ≠ '_' := by decide
  have hhigh := hdigits (n / 16) (by omega)
  have hlow := hdigits (n % 16) (by omega)
  have hvalue : 16 * (16 * (16 * 0 + 0) + n / 16) + n % 16 = n := by omega
  refine ⟨?_, ?_, rfl⟩
  · rw [← hvalue]
    exact .next (.next (.next (.one (by decide) (.inl rfl)) (by decide) (.inl rfl)) (by omega)
      (.inl (by rw [hvalue]; exact hhigh.1))) (by omega) (.inl (by rw [hvalue]; exact hlow.1))
  · simp [hhigh.2.symm, hlow.2.symm]

theorem exists_isBasicString (s : String) : ∃ w, IsBasicString w s := by
  have hchars (cs : List Char) : ∃ u, IsBasicChars u cs := by
    induction cs with
    | nil => exact ⟨[], .nil⟩
    | cons c cs ih =>
      obtain ⟨u, hu⟩ := ih
      by_cases hquote : c = '"'
      · exact ⟨'\\' :: (['"'] ++ u), .escape (.short (by simp [shortEscapes, hquote])) hu⟩
      by_cases hbackslash : c = '\\'
      · exact ⟨'\\' :: (['\\'] ++ u), .escape (.short (by simp [shortEscapes, hbackslash])) hu⟩
      by_cases hplain : IsPlain c
      · exact ⟨c :: u, .plain hplain hquote hbackslash hu⟩
      · have hcontrol : c.toNat < 256 := by
          simp only [← isPlain_iff, isPlain, Bool.or_eq_true, Bool.and_eq_true,
            decide_eq_true_eq] at hplain
          omega
        exact ⟨_, .escape (.code (by decide : ('u', 4) ∈ codeEscapes) (fixed_of_lt hcontrol)) hu⟩
  obtain ⟨u, hu⟩ := hchars s.toList
  exact ⟨'"' :: u ++ ['"'], u, rfl, hu⟩

end BuildLog.Toml
