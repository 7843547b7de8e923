import BuildLog.StepMarker
import BuildLog.Text.Scan.Lemmas
import Mathlib.Data.List.TakeWhile

namespace BuildLog.StepMarker
open Text

/-- Results that can be read: a code of one or more digits, and an elapsed time on one line. -/
structure Results.Legible (r : Results) : Prop where
  code : r.code ≠ ""
  digits : ∀ c ∈ r.code.toList, isDecimalDigit c = true
  elapsed : '\n' ∉ r.elapsed.toList

theorem body?_eq_some_iff {line : String} {body : List Char} :
    body? line = some body ↔ '\n' ∉ line.toList ∧ line.toList = body ++ closing.toList := by
  have hsize : closing.length = closing.toList.length := String.length_toList.symm
  unfold body?
  dsimp only
  rw [hsize, ← all_inLine_iff]
  constructor
  · intro h
    split at h
    · rename_i hc
      obtain ⟨hdrop, hline⟩ := by simpa only [Bool.and_eq_true, decide_eq_true_eq] using hc
      have hsplit := (List.take_append_drop (line.toList.length - closing.toList.length)
        line.toList).symm
      rw [hdrop, Option.some.inj h] at hsplit
      exact ⟨hline, hsplit⟩
    · contradiction
  · rintro ⟨hline, hbody⟩
    have hlength : line.toList.length - closing.toList.length = body.length := by
      rw [hbody, List.length_append, Nat.add_sub_cancel]
    rw [hlength, hline, hbody, List.drop_left, List.take_left]
    simp

def resultsText (code elapsed : List Char) : List Char :=
  " (results: ".toList ++ (code ++ (", elapsed: ".toList ++ (elapsed ++ [')'])))

theorem toList_render (r : Results) :
    r.render.toList = resultsText r.code.toList r.elapsed.toList := by
  have hclose : ")".toList = [')'] := by decide +kernel
  unfold Results.render resultsText
  simp only [String.toList_append, hclose]
  simp only [List.append_assoc]

theorem resultsText_append (code elapsed r : List Char) :
    resultsText code elapsed ++ r =
      " (results: ".toList ++ (code ++ (", elapsed: ".toList ++ (elapsed ++ ')' :: r))) := by
  unfold resultsText
  simp only [List.append_assoc, List.singleton_append]

theorem takeWhile_code {code : List Char} (h : ∀ c ∈ code, isDecimalDigit c = true)
    (r : List Char) : (code ++ (", elapsed: ".toList ++ r)).takeWhile isDecimalDigit = code := by
  have hcomma : (", elapsed: ".toList ++ r).takeWhile isDecimalDigit = [] := by
    have hword : ", elapsed: ".toList = ',' :: " elapsed: ".toList := by decide +kernel
    rw [hword, List.cons_append, List.takeWhile_cons_of_neg (by decide +kernel)]
  rw [List.takeWhile_append_of_pos h, hcomma, List.append_nil]

section
variable {α : Type} {k : List Char → Option α}

theorem results?_of_code {code : List Char} (hne : code ≠ [])
    (hdigits : ∀ c ∈ code, isDecimalDigit c = true) (r : List Char) :
    results? k (" (results: ".toList ++ (code ++ (", elapsed: ".toList ++ r))) =
      (shortest? inLine (fun t => (after? [')'] t).bind k) r).map fun x => (code, x.1, x.2) := by
  have hempty : code.isEmpty = false := by simpa using hne
  unfold results?
  rw [after?_eq_some_iff.mpr rfl]
  dsimp only
  rw [takeWhile_code hdigits, hempty, List.drop_left, after?_eq_some_iff.mpr rfl]
  rfl

theorem exists_code_of_results? {s : List Char} {x : List Char × List Char × α}
    (h : results? k s = some x) :
    ∃ code r, code ≠ [] ∧ (∀ c ∈ code, isDecimalDigit c = true) ∧
      s = " (results: ".toList ++ (code ++ (", elapsed: ".toList ++ r)) := by
  unfold results? at h
  split at h
  · contradiction
  · rename_i s₁ hs₁
    dsimp only at h
    split at h
    · contradiction
    · rename_i hcode
      split at h
      · contradiction
      · rename_i r hr
        rw [after?_eq_some_iff] at hs₁ hr
        refine ⟨s₁.takeWhile isDecimalDigit, r, by simpa using hcode, ?_, ?_⟩
        · exact fun c hc => List.mem_takeWhile_imp hc
        · rw [hs₁, ← hr, List.prefix_iff_eq_append.mp (List.takeWhile_prefix _)]

/-- Results are read with the shortest elapsed time after which `k` answers. -/
theorem results?_reads {s code elapsed : List Char} {a : α}
    (h : results? k s = some (code, elapsed, a)) :
    code ≠ [] ∧ (∀ c ∈ code, isDecimalDigit c = true) ∧ elapsed.all inLine = true ∧
      ∃ r, s = resultsText code elapsed ++ r ∧ k r = some a ∧
        ∀ elapsed' r', s = resultsText code elapsed' ++ r' →
          elapsed'.length < elapsed.length → k r' = none := by
  obtain ⟨code', r, hne, hdigits, rfl⟩ := exists_code_of_results? h
  rw [results?_of_code hne hdigits, Option.map_eq_some_iff] at h
  obtain ⟨⟨e, b⟩, hfound, heq⟩ := h
  simp only [Prod.mk.injEq] at heq
  obtain ⟨rfl, rfl, rfl⟩ := heq
  obtain ⟨t, rfl, he, ht, hfirst⟩ := shortest?_eq_some_iff_length.mp hfound
  obtain ⟨r, hbracket, hr⟩ := Option.bind_eq_some_iff.mp ht
  rw [after?_eq_some_iff] at hbracket
  refine ⟨hne, hdigits, he, r, ?_, hr, ?_⟩
  · rw [resultsText_append, hbracket]
    rfl
  · intro e' r' hs hlt
    rw [resultsText_append, List.append_cancel_left_eq, List.append_cancel_left_eq,
      List.append_cancel_left_eq] at hs
    have hnone := hfirst e' (')' :: r') hs hlt
    have hafter : after? [')'] (')' :: r') = some r' := after?_eq_some_iff.mpr rfl
    rwa [hafter] at hnone

theorem results?_isSome {code elapsed r : List Char} (hne : code ≠ [])
    (hdigits : ∀ c ∈ code, isDecimalDigit c = true) (he : elapsed.all inLine = true)
    (hr : (k r).isSome = true) : (results? k (resultsText code elapsed ++ r)).isSome = true := by
  rw [resultsText_append, results?_of_code hne hdigits, Option.isSome_map]
  apply shortest?_isSome he
  have hafter : after? [')'] (')' :: r) = some r := after?_eq_some_iff.mpr rfl
  rw [hafter]
  exact hr

end

def endText (results : Option Results) (time : List Char) : List Char :=
  results.elim [] (fun r => r.render.toList) ++ (" (at ".toList ++ time)

theorem endText_some (r : Results) (t : List Char) :
    endText (some r) t =
      resultsText r.code.toList r.elapsed.toList ++ (" (at ".toList ++ t) := by
  rw [← toList_render]
  rfl

theorem time?_eq_some_iff {s t : List Char} : time? s = some t ↔ s = endText none t :=
  after?_eq_some_iff

theorem time?_isSome (t : List Char) : (time? (endText none t)).isSome = true :=
  Option.isSome_iff_exists.mpr ⟨t, time?_eq_some_iff.mpr rfl⟩

theorem endText_kind {results results' : Option Results} {t t' : List Char}
    (h : endText results t = endText results' t') : results'.isSome = results.isSome := by
  have hdiffer (r : Results) (t t' : List Char) : endText none t ≠ endText (some r) t' := by
    have htime : " (at ".toList = " (".toList ++ 'a' :: "t ".toList := by decide +kernel
    have hresults : " (results: ".toList = " (".toList ++ 'r' :: "esults: ".toList := by
      decide +kernel
    intro hsame
    rw [endText_some, resultsText_append, hresults, endText, Option.elim_none, List.nil_append,
      htime, List.append_assoc, List.append_assoc, List.append_cancel_left_eq, List.cons_append,
      List.cons_append, List.cons.injEq] at hsame
    exact absurd hsame.1 (by decide)
  cases results with
  | none =>
    cases results' with
    | none => rfl
    | some r' => exact absurd h (hdiffer r' t t')
  | some r =>
    cases results' with
    | none => exact absurd h.symm (hdiffer r t' t)
    | some r' => rfl

theorem code_eq_of_endText {r r' : Results} {t t' : List Char} (h : r.Legible) (h' : r'.Legible)
    (hsame : endText (some r) t = endText (some r') t') : r.code = r'.code := by
  rw [endText_some, endText_some, resultsText_append, resultsText_append,
    List.append_cancel_left_eq] at hsame
  have hcode := congrArg (List.takeWhile isDecimalDigit) hsame
  rw [takeWhile_code h.digits, takeWhile_code h'.digits] at hcode
  exact String.toList_inj.mp hcode

/-- Of all results that can be read in front of a time, those with the shortest elapsed time are. -/
theorem results?_time?_reads {s t : List Char} {r : Results}
    (h : results? time? s = some (r.code.toList, r.elapsed.toList, t)) :
    r.Legible ∧ s = endText (some r) t ∧
      ∀ r' t', r'.Legible → s = endText (some r') t' → r.elapsed.length ≤ r'.elapsed.length := by
  obtain ⟨hne, hdigits, he, u, hs, hu, hfirst⟩ := results?_reads h
  have hr : r.Legible := ⟨fun h => hne (by rw [h]; rfl), hdigits, all_inLine_iff.mp he⟩
  have hend : s = endText (some r) t := by
    rw [hs, time?_eq_some_iff.mp hu, endText_some]
    rfl
  refine ⟨hr, hend, ?_⟩
  intro r' t' hr' hs'
  have hcode : r.code = r'.code := code_eq_of_endText hr hr' (hend.symm.trans hs')
  apply Nat.not_lt.mp
  intro hlt
  rw [← String.length_toList, ← String.length_toList] at hlt
  have hcut : s = resultsText r.code.toList r'.elapsed.toList ++ endText none t' := by
    rw [hcode, hs', endText_some]
    rfl
  have hnone := hfirst r'.elapsed.toList (endText none t') hcut hlt
  rw [time?_eq_some_iff.mpr rfl] at hnone
  contradiction

theorem results?_time?_isSome {r : Results} (h : r.Legible) (t : List Char) :
    (results? time? (endText (some r) t)).isSome = true := by
  rw [endText_some]
  apply results?_isSome _ h.digits (all_inLine_iff.mpr h.elapsed)
  · exact time?_isSome t
  · exact fun hcode => h.code (String.toList_inj.mp hcode)

theorem startedEnd?_reads {s t : List Char} {results : Option Results}
    (h : startedEnd? s = some (results, t)) :
    (∀ r, results = some r → r.Legible) ∧ s = endText results t ∧
      ∀ r r' t', results = some r → r'.Legible → s = endText (some r') t' →
        r.elapsed.length ≤ r'.elapsed.length := by
  unfold startedEnd? at h
  split at h
  · rename_i code elapsed time hread
    obtain ⟨r, rfl, rfl⟩ : ∃ r : Results, code = r.code.toList ∧ elapsed = r.elapsed.toList :=
      ⟨⟨String.ofList code, String.ofList elapsed⟩, String.toList_ofList.symm,
        String.toList_ofList.symm⟩
    simp only [String.ofList_toList, Option.some.injEq, Prod.mk.injEq] at h
    obtain ⟨rfl, rfl⟩ := h
    obtain ⟨hlegible, hs, hleast⟩ := results?_time?_reads hread
    refine ⟨?_, hs, ?_⟩
    · rintro r' ⟨⟩
      exact hlegible
    · rintro r' r'' t' ⟨⟩
      exact hleast r'' t'
  · obtain ⟨t', ht', heq⟩ := Option.map_eq_some_iff.mp h
    simp only [Prod.mk.injEq] at heq
    obtain ⟨rfl, rfl⟩ := heq
    exact ⟨nofun, time?_eq_some_iff.mp ht', nofun⟩

theorem startedEnd?_isSome {results : Option Results} (h : ∀ r, results = some r → r.Legible)
    (t : List Char) : (startedEnd? (endText results t)).isSome = true := by
  unfold startedEnd?
  split
  · rfl
  · rename_i hnone
    cases results with
    | none =>
      rw [Option.isSome_map]
      exact time?_isSome t
    | some r =>
      have hsome := results?_time?_isSome (h r rfl) t
      rw [hnone] at hsome
      contradiction

end BuildLog.StepMarker
