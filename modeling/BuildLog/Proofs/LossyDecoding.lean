import BuildLog.Proofs.DecoderStates

namespace BuildLog.Text.Utf8
open String (utf8EncodeChar)

/-- Before `rest` stands the maximal invalid part `part`: there is no character in front, the part
begins one or else is a single byte, and nothing longer begins one. -/
structure InvalidPart (part rest : List UInt8) : Prop where
  ne_nil : part ≠ []
  no_char : ∀ c, ¬ utf8EncodeChar c <+: part ++ rest
  begins : part.length = 1 ∨ ∃ c, part <+: utf8EncodeChar c
  longest : ∀ front, front <+: part ++ rest → (∃ c, front <+: utf8EncodeChar c) →
    front.length ≤ part.length

/-- Bytes fall into characters and maximal invalid parts. -/
inductive Decoded : List UInt8 → List (Option Char) → Prop
  | nil : Decoded [] []
  | char (c : Char) {bytes : List UInt8} {parts : List (Option Char)}
      (hrest : Decoded bytes parts) : Decoded (utf8EncodeChar c ++ bytes) (some c :: parts)
  | invalid {part bytes : List UInt8} {parts : List (Option Char)}
      (hpart : InvalidPart part bytes) (hrest : Decoded bytes parts) :
      Decoded (part ++ bytes) (none :: parts)

theorem invalidPart_singleton {b : UInt8} (h : ∀ c l, utf8EncodeChar c ≠ b :: l)
    (rest : List UInt8) : InvalidPart [b] rest := by
  refine ⟨List.cons_ne_nil b [], ?_, .inl rfl, ?_⟩
  · intro c hc
    obtain hnil | ⟨l, hl, -⟩ := List.prefix_cons_iff.mp hc
    · exact utf8EncodeChar_ne_nil c hnil
    · exact h c l hl
  · intro front hfront ⟨c, hc⟩
    cases front with
    | nil => exact Nat.zero_le _
    | cons a front =>
      obtain ⟨l, hl⟩ := hc
      rw [List.singleton_append, List.cons_prefix_cons] at hfront
      rw [hfront.1] at hl
      exact absurd hl.symm (h c _)

theorem Begun.invalidPart {read : List UInt8} {p : Pending} (h : Begun read p) {rest : List UInt8}
    (hstop : ∀ b l, rest = b :: l → ¬ (p.low ≤ b ∧ b ≤ p.high)) : InvalidPart read rest := by
  have hend (front : List UInt8) (hfront : front <+: read ++ rest)
      (hc : ∃ c, front <+: utf8EncodeChar c) : front.length ≤ read.length := by
    obtain ⟨c, hc⟩ := hc
    refine Nat.le_of_not_lt fun hlong => ?_
    obtain ⟨more, hmore⟩ : read <+: front :=
      List.prefix_of_prefix_length_le (List.prefix_append read rest) hfront (Nat.le_of_lt hlong)
    cases more with
    | nil =>
      rw [List.append_nil] at hmore
      exact Nat.lt_irrefl _ (hmore ▸ hlong)
    | cons b more =>
      -- the byte after those read is the first of the rest and carries a character on
      obtain ⟨l, hl⟩ := hc
      rw [← hmore, List.prefix_append_right_inj] at hfront
      obtain ⟨l', hl'⟩ := hfront
      rw [← hmore, List.append_assoc] at hl
      exact hstop b _ hl'.symm (h.bounds hl.symm)
  refine ⟨h.ne_nil, ?_, .inr h.exists_char, hend⟩
  intro c hc
  have hlength := hend _ hc ⟨c, List.prefix_rfl⟩
  exact h.no_char c (List.prefix_of_prefix_length_le hc (List.prefix_append read rest) hlength)

theorem step_in_bounds {p : Pending} {b : UInt8} (hlow : p.low ≤ b) (hhigh : b ≤ p.high) :
    step (some p) b =
      if p.owed ≤ 1 then ([some (Char.ofNat (p.next b).value)], none) else ([], some (p.next b)) := by
  have hbounds : (decide (p.low ≤ b) && decide (b ≤ p.high)) = true := by
    rw [decide_eq_true hlow, decide_eq_true hhigh, Bool.and_self]
  rw [step, if_pos hbounds]
  rfl

theorem step_out_of_bounds {p : Pending} {b : UInt8} (h : ¬ (p.low ≤ b ∧ b ≤ p.high)) :
    step (some p) b = (none :: (start b).1, (start b).2) := by
  simp [step, h]

theorem partsFrom_cons (q : Option Pending) (b : UInt8) (bytes : List UInt8) :
    partsFrom q (b :: bytes) = (step q b).1 ++ partsFrom (step q b).2 bytes := by
  cases q <;> rfl

theorem start_ascii {b : UInt8} (hb : b < 0x80) :
    start b = ([some (Char.ofNat b.toNat)], none) ∧ utf8EncodeChar (Char.ofNat b.toNat) = [b] := by
  have hb' : b.toNat < 0x80 := UInt8.lt_iff_toNat_lt.mp hb
  have hchar := toNat_ofNat (v := b.toNat) (.inl (Nat.lt_trans hb' (by decide)))
  refine ⟨if_pos hb, ?_⟩
  rw [utf8EncodeChar_eq, hchar, head, if_pos hb', trailLength, if_pos hb', UInt8.ofNat_toNat]
  rfl

theorem decoded_partsFrom (bytes : List UInt8) :
    Decoded bytes (partsFrom none bytes) ∧
      ∀ read p, Begun read p → Decoded (read ++ bytes) (partsFrom (some p) bytes) := by
  induction bytes with
  | nil =>
    refine ⟨.nil, ?_⟩
    intro read p h
    exact .invalid (h.invalidPart fun b l hl => absurd hl (List.cons_ne_nil b l).symm) .nil
  | cons b bytes ih =>
    obtain ⟨ihnone, ihsome⟩ := ih
    have hstart : Decoded (b :: bytes) (partsFrom none (b :: bytes)) := by
      rw [partsFrom_cons, step]
      by_cases hb : b < 0x80
      · obtain ⟨hstart, hchar⟩ := start_ascii hb
        rw [hstart, ← List.singleton_append, ← hchar]
        exact .char _ ihnone
      · rw [start, if_neg hb]
        cases hlead : lead? b with
        | some p => exact ihsome [b] p (begun_of_lead? hlead)
        | none =>
          have hb' : 0x80 ≤ b.toNat := by simpa [UInt8.lt_iff_toNat_lt] using hb
          have hnone (c : Char) (l : List UInt8) : utf8EncodeChar c ≠ b :: l := by
            intro hc
            exact head_ne_of_lead?_eq_none hlead hb' c (utf8EncodeChar_eq_cons_iff.mp hc).1
          exact .invalid (invalidPart_singleton hnone bytes) ihnone
    refine ⟨hstart, ?_⟩
    intro read p h
    by_cases hbounds : p.low ≤ b ∧ b ≤ p.high
    · obtain ⟨hlow, hhigh⟩ := hbounds
      have hread : read ++ b :: bytes = read ++ [b] ++ bytes := by simp
      rw [partsFrom_cons, step_in_bounds hlow hhigh, hread]
      by_cases howed : p.owed ≤ 1
      · rw [if_pos howed, ← h.complete hlow hhigh howed]
        exact .char _ ihnone
      · rw [if_neg howed]
        exact ihsome _ _ (h.next hlow hhigh (by omega))
    · have hpart : InvalidPart read (b :: bytes) := by
        apply h.invalidPart
        intro b' l hl
        rwa [← (List.cons.inj hl).1]
      rw [partsFrom_cons, step_out_of_bounds hbounds]
      exact .invalid hpart hstart

theorem decoded_parts (bytes : List UInt8) : Decoded bytes (parts bytes) :=
  (decoded_partsFrom bytes).1

theorem eq_of_utf8EncodeChar_prefix {c c' : Char} {bytes : List UInt8}
    (h : utf8EncodeChar c <+: bytes) (h' : utf8EncodeChar c' <+: bytes) : c = c' := by
  obtain ⟨t, ht⟩ := h
  obtain ⟨t', ht'⟩ := h'
  have hdecode := ByteArray.utf8DecodeChar?_utf8EncodeChar_append (b := t.toByteArray) (c := c)
  have hdecode' := ByteArray.utf8DecodeChar?_utf8EncodeChar_append (b := t'.toByteArray) (c := c')
  rw [← List.toByteArray_append, ht] at hdecode
  rw [← List.toByteArray_append, ht'] at hdecode'
  exact Option.some.inj (hdecode.symm.trans hdecode')

/-- A maximal invalid part is as long as any other one in its place. -/
theorem InvalidPart.length_le {part part' rest rest' : List UInt8} (h : InvalidPart part rest)
    (h' : InvalidPart part' rest') (heq : part ++ rest = part' ++ rest') :
    part'.length ≤ part.length := by
  obtain hone | hbegins := h'.begins
  · rw [hone]
    exact List.length_pos_iff.mpr h.ne_nil
  · exact h.longest part' (heq ▸ List.prefix_append part' rest') hbegins

theorem Decoded.unique {bytes : List UInt8} {ps qs : List (Option Char)} (h : Decoded bytes ps)
    (h' : Decoded bytes qs) : ps = qs := by
  induction h generalizing qs with
  | nil =>
    generalize hbytes : ([] : List UInt8) = bytes at h'
    cases h' with
    | nil => rfl
    | char c hrest =>
      exact absurd (List.append_eq_nil_iff.mp hbytes.symm).1 (utf8EncodeChar_ne_nil c)
    | invalid hpart hrest =>
      exact absurd (List.append_eq_nil_iff.mp hbytes.symm).1 hpart.ne_nil
  | @char c bytes ps _ ih =>
    generalize hbytes : utf8EncodeChar c ++ bytes = whole at h'
    cases h' with
    | nil => exact absurd (List.append_eq_nil_iff.mp hbytes).1 (utf8EncodeChar_ne_nil c)
    | char c' hrest =>
      have hc : c = c' := eq_of_utf8EncodeChar_prefix
        (hbytes ▸ List.prefix_append (utf8EncodeChar c) bytes) (List.prefix_append _ _)
      subst hc
      rw [List.append_cancel_left_eq] at hbytes
      rw [ih (hbytes ▸ hrest)]
    | invalid hpart hrest => exact absurd ⟨bytes, hbytes⟩ (hpart.no_char c)
  | @invalid part bytes ps hpart _ ih =>
    generalize hbytes : part ++ bytes = whole at h'
    cases h' with
    | nil => exact absurd (List.append_eq_nil_iff.mp hbytes).1 hpart.ne_nil
    | char c' hrest => exact absurd ⟨_, hbytes.symm⟩ (hpart.no_char c')
    | @invalid part' bytes' _ hpart' hrest =>
      have hlength : part.length = part'.length :=
        Nat.le_antisymm (hpart'.length_le hpart hbytes.symm) (hpart.length_le hpart' hbytes)
      obtain ⟨-, hrest'⟩ := List.append_inj hbytes hlength
      rw [ih (hrest' ▸ hrest)]

theorem decoded_iff {bytes : List UInt8} {ps : List (Option Char)} :
    Decoded bytes ps ↔ ps = parts bytes := by
  constructor
  · intro h
    exact h.unique (decoded_parts bytes)
  · intro h
    rw [h]
    exact decoded_parts bytes

theorem parts_eq_nil_iff {bytes : List UInt8} : parts bytes = [] ↔ bytes = [] := by
  constructor
  · intro h
    have hdecoded := decoded_parts bytes
    rw [h] at hdecoded
    cases hdecoded
    rfl
  · intro h
    rw [h]
    rfl

theorem decode?_flatMap_utf8EncodeChar (s : List Char) :
    decode? (s.flatMap utf8EncodeChar) = some s := by
  have hdecoded : Decoded (s.flatMap utf8EncodeChar) (s.map some) := by
    induction s with
    | nil => exact .nil
    | cons c s ih => exact .char c ih
  rw [decode?, ← decoded_iff.mp hdecoded]
  clear hdecoded
  induction s with
  | nil => rfl
  | cons c s ih => simp [ih]

theorem InvalidPart.of_append {part front back : List UInt8}
    (h : InvalidPart part (front ++ back)) : InvalidPart part front := by
  have hfront : part ++ front <+: part ++ (front ++ back) := by
    rw [← List.append_assoc]
    exact List.prefix_append _ back
  exact ⟨h.ne_nil, fun c hc => h.no_char c (hc.trans hfront), h.begins,
    fun start hstart => h.longest start (hstart.trans hfront)⟩

/-- What stands before and after a place between two parts comes out the same on its own. -/
theorem Decoded.exists_split {bytes : List UInt8} {us vs : List (Option Char)}
    (h : Decoded bytes (us ++ vs)) :
    ∃ front back, bytes = front ++ back ∧ Decoded front us ∧ Decoded back vs := by
  induction us generalizing bytes with
  | nil => exact ⟨[], bytes, rfl, .nil, h⟩
  | cons u us ih =>
    cases h with
    | char c hrest =>
      obtain ⟨front, back, rfl, hfront, hback⟩ := ih hrest
      exact ⟨_, back, (List.append_assoc _ front back).symm, .char c hfront, hback⟩
    | invalid hpart hrest =>
      obtain ⟨front, back, rfl, hfront, hback⟩ := ih hrest
      exact ⟨_, back, (List.append_assoc _ front back).symm, .invalid hpart.of_append hfront,
        hback⟩

theorem le_of_mem_trail {k v : Nat} {b : UInt8} (h : b ∈ trail k v) : 0x80 ≤ b.toNat := by
  induction k with
  | zero => exact absurd h List.not_mem_nil
  | succ k ih =>
    obtain rfl | h := List.mem_cons.mp h
    · rw [UInt8.toNat_ofNat']
      omega
    · exact ih h

theorem le_of_utf8EncodeChar_eq {c : Char} {front back : List UInt8} {b : UInt8}
    (hfront : front ≠ []) (h : utf8EncodeChar c = front ++ b :: back) : 0x80 ≤ b.toNat := by
  cases front with
  | nil => exact absurd rfl hfront
  | cons a front =>
    obtain ⟨-, htrail⟩ := utf8EncodeChar_eq_cons_iff.mp h
    apply le_of_mem_trail (k := trailLength c.toNat) (v := c.toNat)
    rw [← htrail]
    simp

theorem InvalidPart.append_ascii {part rest : List UInt8} (h : InvalidPart part rest) {b : UInt8}
    (hb : b.toNat < 0x80) (more : List UInt8) : InvalidPart part (rest ++ b :: more) := by
  have hshort (front : List UInt8) (hfront : front <+: part ++ (rest ++ b :: more))
      (hc : ∃ c, front <+: utf8EncodeChar c) : front <+: part ++ rest := by
    obtain ⟨c, l, hl⟩ := hc
    rw [← List.append_assoc] at hfront
    refine List.prefix_of_prefix_length_le hfront (List.prefix_append _ _) ?_
    refine Nat.le_of_not_lt fun hlong => ?_
    obtain ⟨t, ht⟩ : part ++ rest <+: front :=
      List.prefix_of_prefix_length_le (List.prefix_append _ _) hfront (Nat.le_of_lt hlong)
    cases t with
    | nil =>
      rw [List.append_nil] at ht
      exact Nat.lt_irrefl _ (ht ▸ hlong)
    | cons b' t =>
      rw [← ht, List.prefix_append_right_inj, List.cons_prefix_cons] at hfront
      rw [← ht, hfront.1, List.append_assoc] at hl
      have hne : part ++ rest ≠ [] := fun hnil => h.ne_nil (List.append_eq_nil_iff.mp hnil).1
      exact Nat.not_le_of_lt hb (le_of_utf8EncodeChar_eq hne hl.symm)
  refine ⟨h.ne_nil, ?_, h.begins, ?_⟩
  · intro c hc
    exact h.no_char c (hshort _ hc ⟨c, List.prefix_rfl⟩)
  · intro front hfront hc
    exact h.longest front (hshort front hfront hc) hc

theorem Decoded.append_ascii {front back : List UInt8} {us vs : List (Option Char)}
    (hfront : Decoded front us) (hback : Decoded back vs) {b : UInt8} (hb : b < 0x80) :
    Decoded (front ++ b :: back) (us ++ some (Char.ofNat b.toNat) :: vs) := by
  induction hfront with
  | nil =>
    obtain ⟨-, hchar⟩ := start_ascii hb
    have h := Decoded.char (Char.ofNat b.toNat) hback
    rwa [hchar] at h
  | char c _ ih =>
    rw [List.append_assoc]
    exact .char c ih
  | invalid hpart _ ih =>
    rw [List.append_assoc]
    exact .invalid (hpart.append_ascii (UInt8.lt_iff_toNat_lt.mp hb) back) ih

/-- The ASCII characters of the text are the ASCII bytes, and they cut both alike. -/
theorem decodeLossy_eq_append_cons_iff {b : UInt8} (hb : b < 0x80) {bytes : List UInt8}
    {us vs : List Char} :
    decodeLossy bytes = us ++ Char.ofNat b.toNat :: vs ↔
      ∃ front back, bytes = front ++ b :: back ∧ decodeLossy front = us ∧
        decodeLossy back = vs := by
  constructor
  · intro h
    obtain ⟨ps, qs, hparts, rfl, hqs⟩ := List.map_eq_append_iff.mp h
    obtain ⟨q, qs, rfl, hq, rfl⟩ := List.map_eq_cons_iff.mp hqs
    have hascii := toNat_ofNat (v := b.toNat)
      (.inl (Nat.lt_trans (UInt8.lt_iff_toNat_lt.mp hb) (by decide)))
    have hq' : q = some (Char.ofNat b.toNat) := by
      cases q with
      | none =>
        have hlarge := congrArg Char.toNat hq
        rw [hascii] at hlarge
        exact absurd (hlarge ▸ UInt8.lt_iff_toNat_lt.mp hb) (by decide)
      | some c => exact congrArg some hq
    have hdecoded := decoded_parts bytes
    rw [hparts, hq'] at hdecoded
    obtain ⟨front, rest, rfl, hfront, hrest⟩ := hdecoded.exists_split
    cases hrest with
    | @char _ back _ hback =>
      obtain ⟨-, hchar⟩ := start_ascii hb
      rw [hchar]
      exact ⟨front, back, rfl, by rw [decodeLossy, ← decoded_iff.mp hfront],
        by rw [decodeLossy, ← decoded_iff.mp hback]⟩
  · rintro ⟨front, back, rfl, rfl, rfl⟩
    have hparts := decoded_iff.mp ((decoded_parts front).append_ascii (decoded_parts back) hb)
    rw [decodeLossy, ← hparts, List.map_append, List.map_cons, Option.getD_some]
    rfl

end BuildLog.Text.Utf8
