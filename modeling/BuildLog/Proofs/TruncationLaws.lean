import BuildLog.Text.Scan.Lemmas
import BuildLog.Truncation
import Mathlib.Data.List.TakeDrop

namespace BuildLog

namespace Truncation
open Text

theorem isExempt_iff (t : Truncation) (line : String) :
    t.isExempt line = true ↔ ∃ m ∈ t.markers, m.toList <:+: line.toList := by
  simp only [isExempt, List.any_eq_true, occurs_iff]

theorem mem_markers_ofMarkers {limit : Nat} {markers : List String} {m : String}
    (hm : m ∈ markers) (hne : m ≠ "") : m ∈ (ofMarkers limit markers).markers := by
  simp [ofMarkers, hm, hne]

theorem isExempt_ofMarkers_iff {limit : Nat} {markers : List String} {line : String} :
    (ofMarkers limit markers).isExempt line = true ↔
      ∃ m ∈ markers, m ≠ "" ∧ m.toList <:+: line.toList := by
  simp [isExempt_iff, ofMarkers, and_assoc]

theorem ofMarkers_markers (t : Truncation) : ofMarkers t.limit t.markers = t := by
  have hkept : t.markers.filter (· ≠ "") = t.markers := by
    apply List.filter_eq_self.mpr
    intro m hm
    simpa using t.nonempty_of_mem m hm
  cases t
  simpa only [ofMarkers, mk.injEq, true_and] using hkept

theorem cut_of_isExempt {t : Truncation} {line : String} (h : t.isExempt line = true) :
    t.cut line = line := by
  rw [cut, if_pos h]

theorem toList_cut_of_not_isExempt {t : Truncation} {line : String}
    (h : ¬ t.isExempt line = true) : (t.cut line).toList = line.toList.take t.limit := by
  rw [cut, if_neg h, String.toList_ofList]

theorem cut_isPrefix (t : Truncation) (line : String) : (t.cut line).toList <+: line.toList := by
  by_cases h : t.isExempt line = true
  · rewrite [cut_of_isExempt h]
    exact List.prefix_rfl
  · rw [toList_cut_of_not_isExempt h]
    exact List.take_prefix t.limit line.toList

theorem cut_of_isInfix {t : Truncation} {m line : String} (hm : m ∈ t.markers)
    (h : m.toList <:+: line.toList) : t.cut line = line :=
  cut_of_isExempt ((t.isExempt_iff line).mpr ⟨m, hm, h⟩)

theorem isInfix_of_isInfix_cut {t : Truncation} {line : String} {w : List Char}
    (h : w <:+: (t.cut line).toList) : w <:+: line.toList :=
  h.trans (t.cut_isPrefix line).isInfix

theorem length_cut_of_not_isExempt {t : Truncation} {line : String}
    (h : ¬ t.isExempt line = true) : (t.cut line).length = min t.limit line.length := by
  rw [← String.length_toList, toList_cut_of_not_isExempt h, List.length_take, String.length_toList]

theorem cut_eq_self_iff {t : Truncation} {line : String} :
    t.cut line = line ↔ t.isExempt line = true ∨ line.length ≤ t.limit := by
  by_cases h : t.isExempt line = true
  · exact iff_of_true (cut_of_isExempt h) (.inl h)
  · rw [← String.toList_inj, toList_cut_of_not_isExempt h, List.take_eq_self_iff,
      String.length_toList]
    exact (or_iff_right h).symm

/-- A cut with the same markers neither makes nor unmakes an exempt line. -/
theorem isExempt_cut {t u : Truncation} (h : t.markers = u.markers) (line : String) :
    t.isExempt (u.cut line) = t.isExempt line := by
  rw [Bool.eq_iff_iff, isExempt_iff, isExempt_iff]
  constructor
  · rintro ⟨m, hm, hcut⟩
    exact ⟨m, hm, isInfix_of_isInfix_cut hcut⟩
  · rintro ⟨m, hm, hline⟩
    refine ⟨m, hm, ?_⟩
    rwa [cut_of_isInfix (h ▸ hm) hline]

/-- Of two cuts with the same markers the shorter one counts. -/
theorem cut_cut_ofMarkers (m n : Nat) (markers : List String) (line : String) :
    (ofMarkers m markers).cut ((ofMarkers n markers).cut line) =
      (ofMarkers (min m n) markers).cut line := by
  -- which lines are exempt does not depend on the limit
  have hexempt (k : Nat) :
      (ofMarkers k markers).isExempt line = (ofMarkers m markers).isExempt line := rfl
  by_cases h : (ofMarkers m markers).isExempt line = true
  · rw [cut_of_isExempt ((hexempt n).trans h), cut_of_isExempt h,
      cut_of_isExempt ((hexempt (min m n)).trans h)]
  · have houter : ¬ (ofMarkers m markers).isExempt ((ofMarkers n markers).cut line) = true := by
      rwa [isExempt_cut (t := ofMarkers m markers) (u := ofMarkers n markers) rfl]
    have hinner : ¬ (ofMarkers n markers).isExempt line = true := by rwa [hexempt]
    have hleast : ¬ (ofMarkers (min m n) markers).isExempt line = true := by rwa [hexempt]
    rw [← String.toList_inj, toList_cut_of_not_isExempt houter, toList_cut_of_not_isExempt hinner,
      toList_cut_of_not_isExempt hleast]
    exact List.take_take

theorem cut_cut (t : Truncation) (line : String) : t.cut (t.cut line) = t.cut line := by
  have h := cut_cut_ofMarkers t.limit t.limit t.markers line
  rwa [Nat.min_self, ofMarkers_markers] at h

end Truncation
end BuildLog
