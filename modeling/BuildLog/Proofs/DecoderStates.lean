import BuildLog.Text.Utf8

namespace BuildLog.Text.Utf8
open String (utf8EncodeChar)

/-- How many code points differ in their last `k` bytes only. -/
def weight : Nat → Nat
  | 0 => 1
  | k + 1 => 64 * weight k

def trail : Nat → Nat → List UInt8
  | 0, _ => []
  | k + 1, v => UInt8.ofNat (0x80 + v / weight k % 64) :: trail k v

def trailLength (v : Nat) : Nat :=
  if v < 0x80 then 0 else if v < 0x800 then 1 else if v < 0x10000 then 2 else 3

def head (v : Nat) : Nat :=
  if v < 0x80 then v
  else if v < 0x800 then 0xC0 + v / 64
  else if v < 0x10000 then 0xE0 + v / 4096
  else 0xF0 + v / 262144

theorem toNat_lt (c : Char) : c.toNat < 0x110000 := by
  obtain h | h := c.valid
  · exact Nat.lt_trans h (by decide)
  · exact h.2

theorem toNat_ofNat {v : Nat} (hv : v.isValidChar) : (Char.ofNat v).toNat = v := by
  rw [Char.ofNat, dif_pos hv]
  rfl

theorem head_lt (c : Char) : head c.toNat < 256 := by
  have := toNat_lt c
  unfold head
  grind

theorem utf8EncodeChar_eq (c : Char) :
    utf8EncodeChar c = UInt8.ofNat (head c.toNat) :: trail (trailLength c.toNat) c.toNat := by
  have hv := toNat_lt c
  unfold utf8EncodeChar head trailLength
  rw [Char.toNat_val]
  generalize c.toNat = v at hv
  dsimp only
  by_cases h1 : v < 0x80
  · have h1' : v ≤ 0x7F := by omega
    simp [h1, h1', trail]
  · have h1' : ¬ v ≤ 0x7F := by omega
    by_cases h2 : v < 0x800
    · have h2' : v ≤ 0x7FF := by omega
      have hfirst : v / 64 % 32 + 192 = 192 + v / 64 := by omega
      simp [h1, h1', h2, h2', trail, weight, hfirst, Nat.add_comm]
    · have h2' : ¬ v ≤ 0x7FF := by omega
      by_cases h3 : v < 0x10000
      · have h3' : v ≤ 0xFFFF := by omega
        have hfirst : v / 4096 % 16 + 224 = 224 + v / 4096 := by omega
        simp [h1, h1', h2, h2', h3, h3', trail, weight, hfirst, Nat.add_comm]
      · have h3' : ¬ v ≤ 0xFFFF := by omega
        have hfirst : v / 262144 % 8 + 240 = 240 + v / 262144 := by omega
        simp [h1, h1', h2, h2', h3, h3', trail, weight, hfirst, Nat.add_comm]

theorem ofNat_eq_iff {n : Nat} (hn : n < 256) (b : UInt8) : UInt8.ofNat n = b ↔ n = b.toNat := by
  rw [← UInt8.toNat_inj, UInt8.toNat_ofNat', Nat.mod_eq_of_lt hn]

theorem utf8EncodeChar_eq_cons_iff {c : Char} {b : UInt8} {l : List UInt8} :
    utf8EncodeChar c = b :: l ↔
      head c.toNat = b.toNat ∧ l = trail (trailLength c.toNat) c.toNat := by
  rw [utf8EncodeChar_eq, List.cons.injEq, ofNat_eq_iff (head_lt c), eq_comm (a := trail _ _)]

theorem weight_pos (k : Nat) : 0 < weight k := by
  induction k with
  | zero => exact Nat.one_pos
  | succ k ih => exact Nat.mul_pos (by decide) ih

namespace Pending

def least (p : Pending) : Nat := (64 * p.value + (p.low.toNat - 0x80)) * weight (p.owed - 1)

def greatest (p : Pending) : Nat :=
  (64 * p.value + (p.high.toNat - 0x80) + 1) * weight (p.owed - 1) - 1

/-- Whether a code point may be that of the character begun. -/
def Covers (p : Pending) (v : Nat) : Prop := p.least ≤ v ∧ v ≤ p.greatest

def next (p : Pending) (b : UInt8) : Pending :=
  ⟨p.owed - 1, 0x80, 0xBF, 64 * p.value + (b.toNat - 0x80)⟩

/-- A state in which every code point of the range is one of a character beyond ASCII. -/
structure Sound (p : Pending) : Prop where
  owed : p.owed = 1 ∨ p.owed = 2 ∨ p.owed = 3
  low : 0x80 ≤ p.low.toNat
  order : p.low.toNat ≤ p.high.toNat
  high : p.high.toNat ≤ 0xBF
  least : 0x80 ≤ p.least
  scalar : p.greatest < 0xD800 ∨ 0xDFFF < p.least ∧ p.greatest < 0x110000

theorem least_le_greatest {p : Pending} (h : p.low.toNat ≤ p.high.toNat) :
    p.least ≤ p.greatest := by
  have hpos := weight_pos (p.owed - 1)
  have hle : 64 * p.value + (p.low.toNat - 0x80) ≤ 64 * p.value + (p.high.toNat - 0x80) := by
    omega
  have hmul := Nat.mul_le_mul_right (weight (p.owed - 1)) hle
  rw [least, greatest, Nat.add_one_mul (64 * p.value + (p.high.toNat - 0x80))]
  omega

theorem Sound.toNat_ofNat {p : Pending} (hp : p.Sound) {v : Nat} (hv : p.Covers v) :
    (Char.ofNat v).toNat = v := by
  obtain ⟨hleast, hgreatest⟩ := hv
  have hscalar := hp.scalar
  have hvalid : v.isValidChar := by
    unfold Nat.isValidChar
    omega
  exact Utf8.toNat_ofNat hvalid

theorem Sound.weight_cases {p : Pending} (hp : p.Sound) :
    weight (p.owed - 1) = 1 ∨ weight (p.owed - 1) = 64 ∨ weight (p.owed - 1) = 4096 := by
  obtain h | h | h := hp.owed <;> rw [h]
  · exact .inl rfl
  · exact .inr (.inl rfl)
  · exact .inr (.inr rfl)

theorem Sound.bounds {p : Pending} (hp : p.Sound) {v : Nat} (hv : p.Covers v) :
    p.low.toNat ≤ 0x80 + v / weight (p.owed - 1) % 64 ∧
      0x80 + v / weight (p.owed - 1) % 64 ≤ p.high.toNat := by
  obtain ⟨hleast, hgreatest⟩ := hv
  have hlow := hp.low
  have hhigh := hp.high
  have horder := hp.order
  unfold Pending.least at hleast
  unfold Pending.greatest at hgreatest
  obtain h | h | h := hp.weight_cases <;> rw [h] at hleast hgreatest ⊢ <;> omega

/-- The byte that comes next leaves the code points between two multiples of a weight. -/
theorem Sound.covers_and_byte_iff {p : Pending} (hp : p.Sound) {b : UInt8}
    (hlow : p.low ≤ b) (hhigh : b ≤ p.high) (v : Nat) :
    p.Covers v ∧ 0x80 + v / weight (p.owed - 1) % 64 = b.toNat ↔
      (p.next b).value * weight (p.owed - 1) ≤ v ∧
        v < ((p.next b).value + 1) * weight (p.owed - 1) := by
  have hlow' := hp.low
  have hhigh' := hp.high
  rw [UInt8.le_iff_toNat_le] at hlow hhigh
  unfold Covers Pending.least Pending.greatest next
  obtain h | h | h := hp.weight_cases <;> rw [h] <;> dsimp only <;> omega

theorem weight_of_next {p : Pending} (howed : 1 < p.owed) (b : UInt8) :
    weight (p.owed - 1) = 64 * weight ((p.next b).owed - 1) := by
  obtain ⟨k, hk⟩ : ∃ k, p.owed = k + 2 := ⟨p.owed - 2, by omega⟩
  rw [next, hk]
  rfl

theorem Sound.covers_next_iff {p : Pending} (hp : p.Sound) {b : UInt8}
    (hlow : p.low ≤ b) (hhigh : b ≤ p.high) (howed : 1 < p.owed) (v : Nat) :
    (p.next b).Covers v ↔ p.Covers v ∧ 0x80 + v / weight (p.owed - 1) % 64 = b.toNat := by
  have hlow' : (p.next b).low.toNat = 0x80 := rfl
  have hhigh' : (p.next b).high.toNat = 0xBF := rfl
  have hcases := hp.weight_cases
  rw [hp.covers_and_byte_iff hlow hhigh, Covers, Pending.least, Pending.greatest, hlow', hhigh',
    weight_of_next howed b]
  rw [weight_of_next howed b] at hcases
  generalize weight ((p.next b).owed - 1) = w at hcases
  obtain rfl | rfl : w = 1 ∨ w = 64 := by omega
  all_goals omega

theorem Sound.value_next_iff {p : Pending} (hp : p.Sound) {b : UInt8} (hlow : p.low ≤ b)
    (hhigh : b ≤ p.high) (howed : p.owed ≤ 1) (v : Nat) :
    p.Covers v ∧ 0x80 + v / weight (p.owed - 1) % 64 = b.toNat ↔ v = (p.next b).value := by
  have hweight : weight (p.owed - 1) = 1 := by
    rw [Nat.sub_eq_zero_of_le howed]
    rfl
  rw [hp.covers_and_byte_iff hlow hhigh, hweight]
  omega

theorem Sound.next {p : Pending} (hp : p.Sound) {b : UInt8} (hlow : p.low ≤ b) (hhigh : b ≤ p.high)
    (howed : 1 < p.owed) : (p.next b).Sound := by
  -- the range of code points becomes a part of what it was, and is not empty
  have hsub {v : Nat} (hv : (p.next b).Covers v) : p.Covers v :=
    ((hp.covers_next_iff hlow hhigh howed v).mp hv).1
  have hbounds : (p.next b).low.toNat ≤ (p.next b).high.toNat :=
    show (0x80 : UInt8).toNat ≤ (0xBF : UInt8).toNat by decide
  have horder := least_le_greatest hbounds
  obtain ⟨hleast, -⟩ := hsub ⟨Nat.le_refl _, horder⟩
  obtain ⟨-, hgreatest⟩ := hsub ⟨horder, Nat.le_refl _⟩
  have howed' : (p.next b).owed = p.owed - 1 := rfl
  have hcases := hp.owed
  have hfloor := hp.least
  have hscalar := hp.scalar
  exact ⟨by omega, Nat.le_refl _, hbounds, Nat.le_refl _, by omega, by omega⟩

end Pending

/-- The first bytes of characters of several bytes, each with the state after it. -/
@[elab_as_elim]
theorem lead?_cases {b : UInt8} {p : Pending} {motive : Pending → Prop} (h : lead? b = some p)
    (two : 0xC2 ≤ b.toNat → b.toNat ≤ 0xDF → motive ⟨1, 0x80, 0xBF, b.toNat - 0xC0⟩)
    (threeLow : b.toNat = 0xE0 → motive ⟨2, 0xA0, 0xBF, 0⟩)
    (threeSurrogate : b.toNat = 0xED → motive ⟨2, 0x80, 0x9F, 13⟩)
    (three : 0xE1 ≤ b.toNat → b.toNat ≤ 0xEF → b.toNat ≠ 0xED →
      motive ⟨2, 0x80, 0xBF, b.toNat - 0xE0⟩)
    (fourLow : b.toNat = 0xF0 → motive ⟨3, 0x90, 0xBF, 0⟩)
    (four : 0xF1 ≤ b.toNat → b.toNat ≤ 0xF3 → motive ⟨3, 0x80, 0xBF, b.toNat - 0xF0⟩)
    (fourHigh : b.toNat = 0xF4 → motive ⟨3, 0x80, 0x8F, 4⟩) : motive p := by
  unfold lead? at h
  simp only [Bool.and_eq_true, decide_eq_true_eq] at h
  split at h
  · cases h
    exact two (by omega) (by omega)
  split at h
  · cases h
    exact threeLow ‹_›
  split at h
  · cases h
    exact threeSurrogate ‹_›
  split at h
  · cases h
    exact three (by omega) (by omega) ‹_›
  split at h
  · cases h
    exact fourLow ‹_›
  split at h
  · cases h
    exact four (by omega) (by omega)
  split at h
  · cases h
    exact fourHigh ‹_›
  · cases h

theorem sound_of_lead? {b : UInt8} {p : Pending} (h : lead? b = some p) : p.Sound := by
  refine lead?_cases h ?_ ?_ ?_ ?_ ?_ ?_ ?_ <;> intros
  all_goals
    refine ⟨?_, ?_, ?_, ?_, ?_, ?_⟩ <;> simp [Pending.least, Pending.greatest, weight]
  all_goals omega

theorem head_eq_iff_of_lead? {b : UInt8} {p : Pending} (h : lead? b = some p) (c : Char) :
    head c.toNat = b.toNat ↔ p.Covers c.toNat := by
  have hv : c.toNat.isValidChar := c.valid
  refine lead?_cases h ?_ ?_ ?_ ?_ ?_ ?_ ?_ <;> intros
  all_goals
    simp [Pending.Covers, Pending.least, Pending.greatest, weight, head]
    grind

theorem trailLength_of_lead? {b : UInt8} {p : Pending} (h : lead? b = some p) {c : Char}
    (hhead : head c.toNat = b.toNat) : trailLength c.toNat = p.owed := by
  revert hhead
  unfold head trailLength
  refine lead?_cases h ?_ ?_ ?_ ?_ ?_ ?_ ?_ <;> grind

theorem head_ne_of_lead?_eq_none {b : UInt8} (h : lead? b = none) (hb : 0x80 ≤ b.toNat) (c : Char) :
    head c.toNat ≠ b.toNat := by
  have hv := toNat_lt c
  have hrange : ¬ (0xC2 ≤ b.toNat ∧ b.toNat ≤ 0xF4) := by
    intro hrange
    unfold lead? at h
    simp only [Bool.and_eq_true, decide_eq_true_eq] at h
    grind
  unfold head
  grind

theorem trail_owed {p : Pending} (hp : p.Sound) (v : Nat) :
    trail p.owed v =
      UInt8.ofNat (0x80 + v / weight (p.owed - 1) % 64) :: trail (p.owed - 1) v := by
  obtain ⟨k, hk⟩ : ∃ k, p.owed = k + 1 := ⟨p.owed - 1, by have := hp.owed; omega⟩
  rw [hk]
  rfl

/-- The bytes `read` hold no character whole and begin those of the range of the state `p`. -/
structure Begun (read : List UInt8) (p : Pending) : Prop where
  sound : p.Sound
  ne_nil : read ≠ []
  no_char : ∀ c, ¬ utf8EncodeChar c <+: read
  rest : ∀ c l, utf8EncodeChar c = read ++ l ↔ p.Covers c.toNat ∧ l = trail p.owed c.toNat

theorem utf8EncodeChar_ne_nil (c : Char) : utf8EncodeChar c ≠ [] := by
  rw [utf8EncodeChar_eq]
  exact List.cons_ne_nil _ _

theorem begun_of_lead? {b : UInt8} {p : Pending} (h : lead? b = some p) : Begun [b] p := by
  have hp := sound_of_lead? h
  have hrest (c : Char) (l : List UInt8) :
      utf8EncodeChar c = [b] ++ l ↔ p.Covers c.toNat ∧ l = trail p.owed c.toNat := by
    rw [List.singleton_append, utf8EncodeChar_eq_cons_iff, ← head_eq_iff_of_lead? h]
    refine and_congr_right fun hhead => ?_
    rw [trailLength_of_lead? h hhead]
  refine ⟨hp, List.cons_ne_nil b [], ?_, hrest⟩
  intro c hc
  obtain hnil | ⟨l, hl, hl'⟩ := List.prefix_cons_iff.mp hc
  · exact utf8EncodeChar_ne_nil c hnil
  · obtain ⟨-, htrail⟩ := (hrest c []).mp (by rw [hl, List.prefix_nil.mp hl', List.append_nil])
    rw [trail_owed hp] at htrail
    exact List.cons_ne_nil _ _ htrail.symm

namespace Begun

variable {read : List UInt8} {p : Pending} {b : UInt8}

theorem rest_cons (h : Begun read p) (c : Char) (l : List UInt8) :
    utf8EncodeChar c = read ++ b :: l ↔
      (p.Covers c.toNat ∧ 0x80 + c.toNat / weight (p.owed - 1) % 64 = b.toNat) ∧
        l = trail (p.owed - 1) c.toNat := by
  have hbyte : 0x80 + c.toNat / weight (p.owed - 1) % 64 < 256 := by omega
  rw [h.rest, trail_owed h.sound, List.cons.injEq, eq_comm (a := b), ofNat_eq_iff hbyte, and_assoc]

theorem bounds (h : Begun read p) {c : Char} {l : List UInt8}
    (hc : utf8EncodeChar c = read ++ b :: l) : p.low ≤ b ∧ b ≤ p.high := by
  obtain ⟨⟨hcovers, hbyte⟩, -⟩ := (h.rest_cons c l).mp hc
  have hbounds := h.sound.bounds hcovers
  rwa [hbyte, ← UInt8.le_iff_toNat_le, ← UInt8.le_iff_toNat_le] at hbounds

theorem next (h : Begun read p) (hlow : p.low ≤ b) (hhigh : b ≤ p.high) (howed : 1 < p.owed) :
    Begun (read ++ [b]) (p.next b) := by
  have hsound := h.sound.next hlow hhigh howed
  have hrest (c : Char) (l : List UInt8) : utf8EncodeChar c = read ++ [b] ++ l ↔
      (p.next b).Covers c.toNat ∧ l = trail (p.next b).owed c.toNat := by
    rw [List.append_assoc, List.singleton_append, h.rest_cons,
      h.sound.covers_next_iff hlow hhigh howed]
    rfl
  refine ⟨hsound, by simp, ?_, hrest⟩
  intro c hc
  obtain hwhole | hfront := List.prefix_concat_iff.mp hc
  · obtain ⟨-, htrail⟩ := (hrest c []).mp (by rw [hwhole, List.append_nil])
    rw [trail_owed hsound] at htrail
    exact List.cons_ne_nil _ _ htrail.symm
  · exact h.no_char c hfront

theorem complete (h : Begun read p) (hlow : p.low ≤ b) (hhigh : b ≤ p.high) (howed : p.owed ≤ 1) :
    utf8EncodeChar (Char.ofNat (p.next b).value) = read ++ [b] := by
  have hvalue := (h.sound.value_next_iff hlow hhigh howed (p.next b).value).mpr rfl
  have hchar := h.sound.toNat_ofNat hvalue.1
  apply (h.rest_cons _ _).mpr
  rw [hchar, Nat.sub_eq_zero_of_le howed] at *
  exact ⟨hvalue, rfl⟩

theorem exists_char (h : Begun read p) : ∃ c, read <+: utf8EncodeChar c := by
  have hleast : p.Covers p.least :=
    ⟨Nat.le_refl _, Pending.least_le_greatest h.sound.order⟩
  have hchar := h.sound.toNat_ofNat hleast
  refine ⟨Char.ofNat p.least, trail p.owed p.least, Eq.symm ?_⟩
  apply (h.rest _ _).mpr
  rw [hchar]
  exact ⟨hleast, rfl⟩

end Begun

end BuildLog.Text.Utf8
