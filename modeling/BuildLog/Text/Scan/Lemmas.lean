import BuildLog.Text.Scan

namespace BuildLog.Text

theorem exists_of_bind {ε α β : Type} {x : Except ε α} {f : α → Except ε β} {b : β}
    (h : x >>= f = .ok b) : ∃ a, x = .ok a ∧ f a = .ok b := by
  cases x with
  | error e => contradiction
  | ok a => exact ⟨a, rfl, h⟩

theorem after?_eq_some_iff {w s r : List Char} : after? w s = some r ↔ s = w ++ r := by
  induction w generalizing s with
  | nil => simp [after?]
  | cons a w ih =>
    cases s with
    | nil => simp [after?]
    | cons c s =>
      by_cases h : a = c
      · simp [after?, h, ih]
      · simp [after?, h, Ne.symm h]

theorem after?_append (w r : List Char) : after? w (w ++ r) = some r := after?_eq_some_iff.mpr rfl

theorem after?_singleton (c : Char) (r : List Char) : after? [c] (c :: r) = some r :=
  after?_append [c] r

theorem after?_cons_of_ne {a c : Char} (h : a ≠ c) (w s : List Char) :
    after? (a :: w) (c :: s) = none := by
  rw [after?, if_neg h]

theorem word_iff {w s : List Char} {k : List Char → Bool} :
    word w k s = true ↔ ∃ r, s = w ++ r ∧ k r = true := by
  unfold word
  split
  · rename_i r h
    rw [after?_eq_some_iff] at h
    subst h
    simp
  · rename_i h
    simp only [Bool.false_eq_true, false_iff, not_exists, not_and]
    intro r hs
    rw [← after?_eq_some_iff, h] at hs
    contradiction

theorem run_iff {p : Char → Bool} {k : List Char → Bool} {s : List Char} :
    run p k s = true ↔ ∃ l r, s = l ++ r ∧ l.all p = true ∧ k r = true := by
  induction s with
  | nil =>
    constructor
    · intro h
      exact ⟨[], [], rfl, rfl, h⟩
    · rintro ⟨l, r, hs, _, hr⟩
      obtain ⟨rfl, rfl⟩ := List.append_eq_nil_iff.1 hs.symm
      exact hr
  | cons c s ih =>
    rw [run, Bool.or_eq_true, Bool.and_eq_true, ih]
    constructor
    · rintro (h | ⟨hc, l, r, rfl, hl, hr⟩)
      · exact ⟨[], c :: s, rfl, rfl, h⟩
      · exact ⟨c :: l, r, rfl, by simp [hc, hl], hr⟩
    · rintro ⟨l, r, hs, hl, hr⟩
      cases l with
      | nil => exact .inl (hs ▸ hr)
      | cons d l =>
        simp only [List.cons_append, List.cons.injEq] at hs
        simp only [List.all_cons, Bool.and_eq_true] at hl
        exact .inr ⟨hs.1 ▸ hl.1, l, r, hs.2, hl.2, hr⟩

theorem run1_iff {p : Char → Bool} {k : List Char → Bool} {s : List Char} :
    run1 p k s = true ↔ ∃ l r, s = l ++ r ∧ l ≠ [] ∧ l.all p = true ∧ k r = true := by
  cases s with
  | nil => simp [run1]
  | cons c s =>
    rw [run1, Bool.and_eq_true, run_iff]
    constructor
    · rintro ⟨hc, l, r, rfl, hl, hr⟩
      exact ⟨c :: l, r, rfl, by simp, by simp [hc, hl], hr⟩
    · rintro ⟨l, r, hs, hne, hl, hr⟩
      cases l with
      | nil => exact absurd rfl hne
      | cons d l =>
        simp only [List.cons_append, List.cons.injEq] at hs
        simp only [List.all_cons, Bool.and_eq_true] at hl
        exact ⟨hs.1 ▸ hl.1, l, r, hs.2, hl.2, hr⟩

theorem anywhere_iff {k : List Char → Bool} {s : List Char} :
    anywhere k s = true ↔ ∃ l r, s = l ++ r ∧ k r = true := by
  induction s with
  | nil =>
    constructor
    · intro h
      exact ⟨[], [], rfl, h⟩
    · rintro ⟨l, r, hs, hr⟩
      obtain ⟨rfl, rfl⟩ := List.append_eq_nil_iff.1 hs.symm
      exact hr
  | cons c s ih =>
    rw [anywhere, Bool.or_eq_true, ih]
    constructor
    · rintro (h | ⟨l, r, rfl, hr⟩)
      · exact ⟨[], c :: s, rfl, h⟩
      · exact ⟨c :: l, r, rfl, hr⟩
    · rintro ⟨l, r, hs, hr⟩
      cases l with
      | nil => exact .inl (hs ▸ hr)
      | cons d l =>
        simp only [List.cons_append, List.cons.injEq] at hs
        exact .inr ⟨l, r, hs.2, hr⟩

theorem occurs_iff {w s : List Char} : occurs w s = true ↔ w <:+: s := by
  rw [occurs, anywhere_iff]
  constructor
  · rintro ⟨l, r, rfl, hr⟩
    obtain ⟨t, rfl⟩ := List.isPrefixOf_iff_prefix.1 hr
    exact ⟨l, t, by simp⟩
  · rintro ⟨l, t, rfl⟩
    exact ⟨l, w ++ t, by simp, List.isPrefixOf_iff_prefix.2 (List.prefix_append w t)⟩

/-- A run of the class that `k` answers after, and before every character of which `k` has none. -/
theorem shortest?_eq_some_iff {α : Type} {p : Char → Bool} {k : List Char → Option α}
    {s l : List Char} {a : α} :
    shortest? p k s = some (l, a) ↔
      ∃ r, s = l ++ r ∧ l.all p = true ∧ k r = some a ∧
        ∀ l' m, l = l' ++ m → m ≠ [] → k (m ++ r) = none := by
  induction s generalizing l with
  | nil =>
    simp only [shortest?, Option.map_eq_some_iff, Prod.mk.injEq]
    constructor
    · rintro ⟨b, hb, rfl, rfl⟩
      refine ⟨[], rfl, rfl, hb, ?_⟩
      intro l' m h hm
      simp_all
    · rintro ⟨r, hs, _, hr, _⟩
      obtain ⟨rfl, rfl⟩ := List.append_eq_nil_iff.1 hs.symm
      exact ⟨a, hr, rfl, rfl⟩
  | cons c s ih =>
    rw [shortest?]
    split
    · rename_i b hb
      simp only [Option.some.injEq, Prod.mk.injEq]
      constructor
      · rintro ⟨rfl, rfl⟩
        refine ⟨c :: s, rfl, rfl, hb, ?_⟩
        intro l' m h hm
        simp_all
      · rintro ⟨r, hs, _, hr, hl⟩
        cases l with
        | nil =>
          subst hs
          rw [hb] at hr
          exact ⟨rfl, Option.some.inj hr⟩
        | cons d l =>
          have := hl [] (d :: l) rfl (by simp)
          rw [← hs, hb] at this
          contradiction
    · rename_i hk
      constructor
      · intro h
        split at h
        · rename_i hc
          obtain ⟨x, hx, he⟩ := Option.map_eq_some_iff.1 h
          obtain ⟨m, b⟩ := x
          simp only [Prod.mk.injEq] at he
          obtain ⟨rfl, rfl⟩ := he
          obtain ⟨r, rfl, hm, hr, hl⟩ := ih.1 hx
          refine ⟨r, rfl, by simp [hc, hm], hr, ?_⟩
          intro l' n hn hne
          cases l' with
          | nil =>
            rw [List.nil_append] at hn
            subst hn
            exact hk
          | cons d l' =>
            simp only [List.cons_append, List.cons.injEq] at hn
            exact hl l' n hn.2 hne
        · contradiction
      · rintro ⟨r, hs, hp, hr, hl⟩
        cases l with
        | nil =>
          rw [List.nil_append] at hs
          rw [← hs, hk] at hr
          contradiction
        | cons d l =>
          simp only [List.cons_append, List.cons.injEq] at hs
          obtain ⟨rfl, rfl⟩ := hs
          simp only [List.all_cons, Bool.and_eq_true] at hp
          rw [if_pos hp.1]
          have h : shortest? p k (l ++ r) = some (l, a) := by
            refine ih.2 ⟨r, rfl, hp.2, hr, ?_⟩
            intro l' m hm hne
            exact hl (c :: l') m (by rw [hm]; rfl) hne
          rw [h]
          rfl

/-- The same, with the runs before compared by their lengths. -/
theorem shortest?_eq_some_iff_length {α : Type} {p : Char → Bool} {k : List Char → Option α}
    {s l : List Char} {a : α} :
    shortest? p k s = some (l, a) ↔
      ∃ r, s = l ++ r ∧ l.all p = true ∧ k r = some a ∧
        ∀ l' r', s = l' ++ r' → l'.length < l.length → k r' = none := by
  rw [shortest?_eq_some_iff]
  constructor
  · rintro ⟨r, rfl, hl, hr, hfirst⟩
    refine ⟨r, rfl, hl, hr, ?_⟩
    intro l' r' hs hlt
    obtain ⟨m, hm, hr'⟩ | ⟨m, hm, -⟩ := List.append_eq_append_iff.mp hs.symm
    · rw [hr']
      refine hfirst l' m hm ?_
      rintro rfl
      simp [hm] at hlt
    · rw [hm, List.length_append] at hlt
      omega
  · rintro ⟨r, rfl, hl, hr, hfirst⟩
    refine ⟨r, rfl, hl, hr, ?_⟩
    rintro l' m rfl hm
    apply hfirst l' (m ++ r) (List.append_assoc l' m r)
    have hpos : 0 < m.length := List.length_pos_iff.mpr hm
    rw [List.length_append]
    omega

theorem shortest?_of_some {α : Type} {p : Char → Bool} {k : List Char → Option α} {s : List Char}
    {a : α} (h : k s = some a) : shortest? p k s = some ([], a) :=
  shortest?_eq_some_iff.mpr ⟨s, rfl, rfl, h, by simp⟩

theorem shortest?_isSome {α : Type} {p : Char → Bool} {k : List Char → Option α} {l r : List Char}
    (hl : l.all p = true) (hr : (k r).isSome = true) :
    (shortest? p k (l ++ r)).isSome = true := by
  induction l with
  | nil =>
    obtain ⟨a, ha⟩ := Option.isSome_iff_exists.mp hr
    cases r <;> simp [shortest?, ha]
  | cons c l ih =>
    simp only [List.all_cons, Bool.and_eq_true] at hl
    rw [List.cons_append, shortest?]
    split
    · rfl
    · rw [if_pos hl.1, Option.isSome_map]
      exact ih hl.2

theorem longest?_isSome {α : Type} {p : Char → Bool} {k : List Char → Option α}
    {s l r : List Char} {a : α} (hs : s = l ++ r) (hl : l.all p = true) (hr : k r = some a) :
    (longest? p k s).isSome = true := by
  induction l generalizing s with
  | nil =>
    rw [List.nil_append] at hs
    cases s with
    | nil => simp [longest?, hs, hr]
    | cons c s =>
      rw [longest?]
      split
      · rfl
      · simp [hs, hr]
  | cons c l ih =>
    subst hs
    simp only [List.all_cons, Bool.and_eq_true] at hl
    rw [List.cons_append, longest?, if_pos hl.1]
    split
    · rfl
    · rename_i h
      have := ih rfl hl.2
      rw [h] at this
      contradiction

theorem longest?_eq_some_iff {α : Type} {p : Char → Bool} {k : List Char → Option α}
    {s l : List Char} {a : α} :
    longest? p k s = some (l, a) ↔
      ∃ r, s = l ++ r ∧ l.all p = true ∧ k r = some a ∧
        ∀ m r', r = m ++ r' → m ≠ [] → m.all p = true → k r' = none := by
  induction s generalizing l a with
  | nil =>
    simp only [longest?, Option.map_eq_some_iff, Prod.mk.injEq]
    constructor
    · rintro ⟨b, hb, rfl, rfl⟩
      refine ⟨[], rfl, rfl, hb, ?_⟩
      intro m r' h hm
      exact absurd (List.append_eq_nil_iff.1 h.symm).1 hm
    · rintro ⟨r, hs, _, hr, _⟩
      obtain ⟨rfl, rfl⟩ := List.append_eq_nil_iff.1 hs.symm
      exact ⟨a, hr, rfl, rfl⟩
  | cons c s ih =>
    rw [longest?]
    split
    · rename_i x hx
      obtain ⟨m, b⟩ := x
      split at hx
      · rename_i hc
        obtain ⟨r, hs, hm, hr, hl⟩ := ih.1 hx
        simp only [Option.some.injEq, Prod.mk.injEq]
        constructor
        · rintro ⟨rfl, rfl⟩
          exact ⟨r, by rw [hs]; rfl, by simp [hc, hm], hr, hl⟩
        · rintro ⟨r₂, hs₂, hp₂, hr₂, hl₂⟩
          cases l with
          | nil =>
            rw [List.nil_append] at hs₂
            subst hs₂
            rw [hl₂ (c :: m) r (by rw [hs]; rfl) (by simp) (by simp [hc, hm])] at hr
            contradiction
          | cons d l =>
            simp only [List.cons_append, List.cons.injEq] at hs₂
            simp only [List.all_cons, Bool.and_eq_true] at hp₂
            have h : longest? p k s = some (l, a) := ih.2 ⟨r₂, hs₂.2, hp₂.2, hr₂, hl₂⟩
            rw [h] at hx
            simp only [Option.some.injEq, Prod.mk.injEq] at hx
            exact ⟨by rw [hs₂.1, hx.1], hx.2.symm⟩
      · contradiction
    · rename_i hn
      constructor
      · intro h
        obtain ⟨b, hb, he⟩ := Option.map_eq_some_iff.1 h
        simp only [Prod.mk.injEq] at he
        obtain ⟨rfl, rfl⟩ := he
        refine ⟨c :: s, rfl, rfl, hb, ?_⟩
        intro m r' hm hne hp
        cases m with
        | nil => exact absurd rfl hne
        | cons d m =>
          simp only [List.cons_append, List.cons.injEq] at hm
          simp only [List.all_cons, Bool.and_eq_true] at hp
          rw [if_pos (hm.1 ▸ hp.1)] at hn
          cases hk : k r' with
          | none => rfl
          | some e =>
            have := longest?_isSome hm.2 hp.2 hk
            rw [hn] at this
            contradiction
      · rintro ⟨r, hs, hp, hr, hl⟩
        cases l with
        | nil =>
          rw [List.nil_append] at hs
          rw [hs, hr]
          rfl
        | cons d l =>
          simp only [List.cons_append, List.cons.injEq] at hs
          simp only [List.all_cons, Bool.and_eq_true] at hp
          rw [if_pos (hs.1 ▸ hp.1)] at hn
          have := longest?_isSome hs.2 hp.2 hr
          rw [hn] at this
          contradiction

theorem longest1?_eq_some_iff {α : Type} {p : Char → Bool} {k : List Char → Option α}
    {s l : List Char} {a : α} :
    longest1? p k s = some (l, a) ↔ l ≠ [] ∧
      ∃ r, s = l ++ r ∧ l.all p = true ∧ k r = some a ∧
        ∀ m r', r = m ++ r' → m ≠ [] → m.all p = true → k r' = none := by
  cases s with
  | nil =>
    simp only [longest1?, reduceCtorEq, false_iff, not_and]
    rintro hl ⟨r, hs, -⟩
    exact hl (List.append_eq_nil_iff.mp hs.symm).1
  | cons c s =>
    rw [longest1?]
    constructor
    · intro h
      split at h
      · rename_i hc
        obtain ⟨⟨m, b⟩, hm, heq⟩ := Option.map_eq_some_iff.mp h
        simp only [Prod.mk.injEq] at heq
        obtain ⟨rfl, rfl⟩ := heq
        obtain ⟨r, rfl, hp, hr, hlast⟩ := longest?_eq_some_iff.mp hm
        exact ⟨by simp, r, rfl, by simp [hc, hp], hr, hlast⟩
      · contradiction
    · rintro ⟨hne, r, hs, hp, hr, hlast⟩
      cases l with
      | nil => exact absurd rfl hne
      | cons d l =>
        simp only [List.cons_append, List.cons.injEq] at hs
        simp only [List.all_cons, Bool.and_eq_true] at hp
        rw [if_pos (hs.1 ▸ hp.1), longest?_eq_some_iff.mpr ⟨r, hs.2, hp.2, hr, hlast⟩, hs.1]
        rfl

theorem longest1?_of_end {p : Char → Bool} {l : List Char} (w : List Char) (hne : l ≠ [])
    (hl : l.all p = true) : longest1? p (after? w) (l ++ w) = some (l, []) := by
  refine longest1?_eq_some_iff.mpr ⟨hne, w, rfl, hl, after?_eq_some_iff.mpr (by simp), ?_⟩
  intro m r hw hm _
  rw [Option.eq_none_iff_forall_ne_some]
  intro t ht
  have hlength := congrArg List.length hw
  have hpos : 0 < m.length := List.length_pos_iff.mpr hm
  rw [after?_eq_some_iff.mp ht] at hlength
  simp only [List.length_append] at hlength
  omega

/-- The first position where `k` answers ends the shortest text after which it does. -/
theorem first?_eq_map_shortest? {α : Type} {k : List Char → Option α} {s : List Char} :
    first? k s = (shortest? (fun _ => true) k s).map (·.2) := by
  induction s with
  | nil =>
    rw [first?, shortest?]
    cases k [] <;> rfl
  | cons c s ih =>
    rw [first?, shortest?]
    cases k (c :: s) with
    | some a => rfl
    | none =>
      rw [ih]
      cases shortest? (fun _ => true) k s <;> rfl

theorem first?_eq_some {α : Type} {k : List Char → Option α} {s : List Char} {a : α}
    (h : first? k s = some a) : ∃ l r, s = l ++ r ∧ k r = some a := by
  rw [first?_eq_map_shortest?, Option.map_eq_some_iff] at h
  obtain ⟨⟨l, b⟩, hl, rfl⟩ := h
  obtain ⟨r, hs, -, hr, -⟩ := shortest?_eq_some_iff.mp hl
  exact ⟨l, r, hs, hr⟩

theorem first?_eq_none_iff {α : Type} {k : List Char → Option α} {s : List Char} :
    first? k s = none ↔ ∀ r, r <:+ s → k r = none := by
  induction s with
  | nil => simp [first?]
  | cons c s ih =>
    rw [first?]
    cases hk : k (c :: s) with
    | some a =>
      simp only [reduceCtorEq, false_iff]
      intro h
      rw [h _ List.suffix_rfl] at hk
      contradiction
    | none =>
      simp only [ih, List.suffix_cons_iff, forall_eq_or_imp, hk, true_and]

theorem all_inLine_iff {s : List Char} : s.all inLine = true ↔ '\n' ∉ s := by
  simp only [List.all_eq_true, inLine, decide_eq_true_eq]
  constructor
  · intro h hmem
    exact h _ hmem rfl
  · rintro h c hc rfl
    exact h hc

theorem drop_length_takeWhile (p : Char → Bool) (s : List Char) :
    s.drop (s.takeWhile p).length = s.dropWhile p := by
  have hcut : ∀ l r : List Char, (l ++ r).drop l.length = r := fun l r => List.drop_left
  have h := hcut (s.takeWhile p) (s.dropWhile p)
  rwa [List.takeWhile_append_dropWhile] at h

theorem of_head?_dropWhile {p : Char → Bool} {s : List Char} {c : Char}
    (h : (s.dropWhile p).head? = some c) : p c = false := by
  have hnot := List.head?_dropWhile_not p s
  simpa [h] using hnot

section Run

variable {p : Char → Bool} {l r : List Char} (hl : ∀ c ∈ l, p c = true)
  (hr : ∀ c, r.head? = some c → p c = false)
include hl hr

theorem takeWhile_of_run : (l ++ r).takeWhile p = l := by
  rw [List.takeWhile_append_of_pos hl]
  cases r with
  | nil => exact List.append_nil l
  | cons c r => rw [List.takeWhile_cons_of_neg (by simp [hr c rfl]), List.append_nil]

theorem dropWhile_of_run : (l ++ r).dropWhile p = r := by
  rw [List.dropWhile_append_of_pos hl]
  cases r with
  | nil => rfl
  | cons c r => exact List.dropWhile_cons_of_neg (by simp [hr c rfl])

end Run

/-- A word without the character `c` that begins before a `c` also ends before it. -/
theorem isPrefix_append_cons_iff {c : Char} {w u s : List Char} (hc : c ∉ w) :
    w <+: u ++ c :: s ↔ w <+: u := by
  constructor
  · rintro ⟨r, h⟩
    obtain ⟨v, hu, -⟩ | ⟨v, hw, hs⟩ := List.append_eq_append_iff.mp h
    · exact ⟨v, hu.symm⟩
    · cases v with
      | nil => exact ⟨[], by rw [hw, List.append_nil, List.append_nil]⟩
      | cons d v =>
        rw [List.cons_append, List.cons.injEq] at hs
        exact absurd (by simp [hw, hs.1]) hc
  · intro h
    exact h.trans (List.prefix_append u (c :: s))

/-- A word whose first character does not come again in it never runs into that character. -/
theorem isPrefix_of_append_head {c : Char} {w u s : List Char} (hc : c ∉ w) (hu : u ≠ [])
    (h : c :: w <+: u ++ c :: s) : c :: w <+: u := by
  cases u with
  | nil => exact absurd rfl hu
  | cons d u =>
    rw [List.cons_append, List.cons_prefix_cons] at h
    exact List.cons_prefix_cons.mpr ⟨h.1, (isPrefix_append_cons_iff hc).mp h.2⟩

/-- Nor does a word whose last character does not come earlier in it. -/
theorem isPrefix_of_append_last {c : Char} {w u s : List Char} (hc : c ∉ w) (hu : u ≠ [])
    (h : w ++ [c] <+: u ++ (w ++ [c] ++ s)) : w ++ [c] <+: u := by
  obtain hword | ⟨v, hv⟩ := List.prefix_or_prefix_of_prefix h (List.prefix_append u _)
  · exact hword
  · obtain rfl | ⟨a, d, rfl⟩ := List.eq_nil_or_concat v
    · rw [List.append_nil] at hv
      exact ⟨[], by rw [List.append_nil, hv]⟩
    · -- the word would begin anew in itself, with the last character too early
      rw [List.concat_eq_append, ← List.append_assoc] at hv
      obtain ⟨rfl, hlast⟩ := List.append_inj' hv rfl
      rw [List.append_assoc u a [c], List.prefix_append_right_inj, ← List.append_assoc u,
        List.append_assoc] at h
      have hlength : (a ++ [c]).length ≤ (u ++ a).length := by
        have hpos : 0 < u.length := List.length_pos_iff.mpr hu
        simp only [List.length_append, List.length_singleton]
        omega
      have hfront : a ++ [c] <+: u ++ a :=
        List.prefix_of_prefix_length_le h (List.prefix_append _ _) hlength
      exact absurd (hfront.mem (by simp)) hc

/-- A word with a character of a class does not occur in a text without them. -/
theorem not_isInfix_of_any {p : Char → Bool} {w s : List Char} (hw : w.any p = true)
    (hs : ∀ c ∈ s, p c = false) : ¬ w <:+: s := by
  intro h
  obtain ⟨c, hc, hpc⟩ := List.any_eq_true.mp hw
  rw [hs c (h.mem hc)] at hpc
  contradiction

/-- A word with an `a` before a `b` does not occur in a text with all `a` after all `b`. -/
theorem not_isInfix_append {a b : Char} {u v l r : List Char} (ha : a ∉ l) (hb : b ∉ r) :
    ¬ a :: (u ++ b :: v) <:+: l ++ r := by
  rintro ⟨s, t, h⟩
  rw [List.append_assoc] at h
  obtain ⟨m, hl, hword⟩ | ⟨m, -, hr⟩ := List.append_eq_append_iff.mp h
  · cases m with
    | nil =>
      rw [List.nil_append] at hword
      exact hb (by simp [← hword])
    | cons c m =>
      rw [List.cons_append, List.cons_append, List.cons.injEq] at hword
      exact ha (by simp [hl, hword.1])
  · exact hb (by simp [hr])

theorem splitAt?_eq_some_iff {c : Char} {w s l r : List Char} (hc : c ∉ w) :
    splitAt? (c :: w) s = some (l, r) ↔ s = l ++ (c :: w ++ r) ∧ ¬ c :: w <:+: l := by
  rw [splitAt?, shortest?_eq_some_iff]
  constructor
  · rintro ⟨t, hs, -, ht, hfirst⟩
    rw [after?_eq_some_iff] at ht
    refine ⟨by rw [hs, ht], ?_⟩
    rintro ⟨a, b, hl⟩
    have hnone := hfirst a (c :: w ++ b) (by rw [← hl, List.append_assoc]) (by simp)
    rw [List.append_assoc, after?_eq_some_iff.mpr rfl] at hnone
    contradiction
  · rintro ⟨hs, hfirst⟩
    refine ⟨c :: w ++ r, hs, by simp, after?_eq_some_iff.mpr rfl, ?_⟩
    rintro a m rfl hm
    rw [Option.eq_none_iff_forall_ne_some]
    intro t ht
    have hword : c :: w <+: m ++ c :: (w ++ r) := ⟨t, (after?_eq_some_iff.mp ht).symm⟩
    have hbegins : c :: w <+: m := isPrefix_of_append_head hc hm hword
    exact hfirst (hbegins.isInfix.trans (List.suffix_append a m).isInfix)

theorem first?_eq_map_splitAt? (w s : List Char) :
    first? (after? w) s = (splitAt? w s).map (·.2) :=
  first?_eq_map_shortest?

end BuildLog.Text
