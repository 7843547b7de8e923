import BuildLog.Text.Scan.Lemmas
import Mathlib.Computability.Language

namespace BuildLog.Text
open Computability

def only (w : String) : Language Char := {w.toList}

def anyOf (ws : List String) : Language Char := {w | ∃ v ∈ ws, w = v.toList}

def oneOf (p : Char → Bool) : Language Char := {w | ∃ c, p c = true ∧ w = [c]}

def someOf (p : Char → Bool) : Language Char := oneOf p * (oneOf p)∗

def optional (L : Language Char) : Language Char := 1 + L

theorem mem_only {w : String} {s : List Char} : s ∈ only w ↔ s = w.toList := Iff.rfl

theorem mem_anyOf {ws : List String} {s : List Char} : s ∈ anyOf ws ↔ s ∈ ws.map String.toList := by
  rw [List.mem_map]
  exact exists_congr fun _ => and_congr_right fun _ => eq_comm

theorem mem_oneOf {p : Char → Bool} {s : List Char} :
    s ∈ oneOf p ↔ ∃ c, p c = true ∧ s = [c] := Iff.rfl

theorem mem_kstar_oneOf {p : Char → Bool} {s : List Char} :
    s ∈ (oneOf p)∗ ↔ s.all p = true := by
  rw [Language.mem_kstar]
  constructor
  · rintro ⟨ws, rfl, hws⟩
    rw [List.all_flatten, List.all_eq_true]
    intro w hw
    obtain ⟨c, hc, rfl⟩ := mem_oneOf.mp (hws w hw)
    simp [hc]
  · intro hs
    refine ⟨s.map ([·]), (List.flatMap_singleton' s).symm, ?_⟩
    rw [List.forall_mem_map]
    intro c hc
    exact mem_oneOf.mpr ⟨c, List.all_eq_true.mp hs c hc, rfl⟩

theorem mem_someOf {p : Char → Bool} {s : List Char} :
    s ∈ someOf p ↔ s ≠ [] ∧ s.all p = true := by
  rw [someOf, Language.mem_mul]
  constructor
  · rintro ⟨_, ⟨c, hc, rfl⟩, r, hr, rfl⟩
    rw [mem_kstar_oneOf] at hr
    simp [hc, hr]
  · rintro ⟨hne, hs⟩
    obtain ⟨c, r, rfl⟩ := List.exists_cons_of_ne_nil hne
    rw [List.all_cons, Bool.and_eq_true] at hs
    exact ⟨[c], ⟨c, hs.1, rfl⟩, r, mem_kstar_oneOf.mpr hs.2, rfl⟩

theorem optional_mul (L M : Language Char) : optional L * M = L * M + M := by
  rw [optional, add_mul, one_mul, add_comm]

/-- Whether a recogniser accepts just the texts that begin with a word of the language. -/
def Accepts (k : List Char → Bool) (L : Language Char) : Prop :=
  ∀ s, k s = true ↔ ∃ w ∈ L, w <+: s

theorem accepts_anyOf (ws : List String) :
    Accepts (fun s => (ws.map String.toList).any (·.isPrefixOf s)) (anyOf ws) := by
  intro s
  dsimp only
  rw [List.any_map, List.any_eq_true]
  constructor
  · rintro ⟨v, hv, hs⟩
    exact ⟨v.toList, ⟨v, hv, rfl⟩, List.isPrefixOf_iff_prefix.mp hs⟩
  · rintro ⟨_, ⟨v, hv, rfl⟩, hs⟩
    exact ⟨v, hv, List.isPrefixOf_iff_prefix.mpr hs⟩

theorem exists_mul_isPrefix_iff {L M : Language Char} {s : List Char} :
    (∃ w ∈ L * M, w <+: s) ↔ ∃ w ∈ L, ∃ r, s = w ++ r ∧ ∃ v ∈ M, v <+: r := by
  constructor
  · rintro ⟨_, ⟨w, hw, v, hv, rfl⟩, t, rfl⟩
    exact ⟨w, hw, v ++ t, List.append_assoc w v t, v, hv, List.prefix_append v t⟩
  · rintro ⟨w, hw, r, rfl, v, hv, hr⟩
    exact ⟨w ++ v, Language.append_mem_mul hw hv, (List.prefix_append_right_inj w).mpr hr⟩

section Compose

variable {k k' : List Char → Bool} {L M : Language Char}

theorem accepts_word (w : String) (h : Accepts k L) :
    Accepts (word w.toList k) (only w * L) := by
  intro s
  rw [word_iff, exists_mul_isPrefix_iff]
  simp only [mem_only, exists_eq_left, h _]

theorem accepts_run (p : Char → Bool) (h : Accepts k L) : Accepts (run p k) ((oneOf p)∗ * L) := by
  intro s
  rw [run_iff, exists_mul_isPrefix_iff]
  constructor
  · rintro ⟨l, r, hs, hl, hr⟩
    exact ⟨l, mem_kstar_oneOf.mpr hl, r, hs, (h r).mp hr⟩
  · rintro ⟨l, hl, r, hs, hr⟩
    exact ⟨l, r, hs, mem_kstar_oneOf.mp hl, (h r).mpr hr⟩

theorem accepts_run1 (p : Char → Bool) (h : Accepts k L) : Accepts (run1 p k) (someOf p * L) := by
  intro s
  rw [run1_iff, exists_mul_isPrefix_iff]
  constructor
  · rintro ⟨l, r, hs, hne, hl, hr⟩
    exact ⟨l, mem_someOf.mpr ⟨hne, hl⟩, r, hs, (h r).mp hr⟩
  · rintro ⟨l, hl, r, hs, hr⟩
    obtain ⟨hne, hl⟩ := mem_someOf.mp hl
    exact ⟨l, r, hs, hne, hl, (h r).mpr hr⟩

theorem accepts_or (h : Accepts k L) (h' : Accepts k' M) :
    Accepts (fun s => k s || k' s) (L + M) := by
  intro s
  rw [Bool.or_eq_true, h s, h' s]
  simp only [Language.mem_add, or_and_right, exists_or]

theorem accepts_optional (h : Accepts k (L * M)) (h' : Accepts k' M) :
    Accepts (fun s => k s || k' s) (optional L * M) := by
  rw [optional_mul]
  exact accepts_or h h'

theorem anywhere_iff_of_accepts (h : Accepts k L) (s : List Char) :
    anywhere k s = true ↔ ∃ w ∈ L, w <:+: s := by
  rw [anywhere_iff]
  constructor
  · rintro ⟨l, r, rfl, hr⟩
    obtain ⟨w, hw, t, rfl⟩ := (h r).mp hr
    exact ⟨w, hw, l, t, List.append_assoc l w t⟩
  · rintro ⟨w, hw, l, t, rfl⟩
    exact ⟨l, w ++ t, List.append_assoc l w t, (h _).mpr ⟨w, hw, List.prefix_append w t⟩⟩

end Compose

/-- Whether every word of the language has a character of the class. -/
def Needs (p : Char → Bool) (L : Language Char) : Prop := ∀ w ∈ L, w.any p = true

section Needs

variable {p : Char → Bool} {L M : Language Char}

theorem needs_only {w : String} (h : w.toList.any p = true) : Needs p (only w) := by
  rintro _ rfl
  exact h

theorem needs_anyOf {ws : List String} (h : ∀ w ∈ ws, w.toList.any p = true) :
    Needs p (anyOf ws) := by
  rintro _ ⟨w, hw, rfl⟩
  exact h w hw

theorem needs_add (hL : Needs p L) (hM : Needs p M) : Needs p (L + M) := by
  rintro w (hw | hw)
  · exact hL w hw
  · exact hM w hw

theorem needs_mul_left (h : Needs p L) (M : Language Char) : Needs p (L * M) := by
  rintro _ ⟨w, hw, v, -, rfl⟩
  rw [List.any_append, h w hw, Bool.true_or]

theorem needs_mul_right (L : Language Char) (h : Needs p M) : Needs p (L * M) := by
  rintro _ ⟨w, -, v, hv, rfl⟩
  rw [List.any_append, h v hv, Bool.or_true]

end Needs

end BuildLog.Text
