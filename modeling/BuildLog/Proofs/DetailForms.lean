import BuildLog.DetailLine
import BuildLog.Text.Scan.Lemmas

namespace BuildLog.DetailLine
open Text

/-- The payload of a line is what follows its first marker, trimmed. -/
theorem payload?_eq_some_iff {line : String} {payload : List Char} :
    payload? line = some payload ↔
      ∃ before rest, line.toList = before ++ (marker ++ rest) ∧ ¬ marker <:+: before ∧
        payload = trim rest := by
  have hmarker : marker = 'T' :: "inderboxPrint:".toList := by decide
  have hhead : 'T' ∉ "inderboxPrint:".toList := by decide
  rw [payload?, first?_eq_map_splitAt?, Option.map_map, Option.map_eq_some_iff]
  constructor
  · rintro ⟨⟨before, rest⟩, hsplit, rfl⟩
    rw [hmarker, splitAt?_eq_some_iff hhead, ← hmarker] at hsplit
    exact ⟨before, rest, hsplit.1, hsplit.2, rfl⟩
  · rintro ⟨before, rest, hline, hfirst, rfl⟩
    refine ⟨(before, rest), ?_, rfl⟩
    rw [hmarker, splitAt?_eq_some_iff hhead, ← hmarker]
    exact ⟨hline, hfirst⟩

theorem payload?_isInfix {line : String} {payload : List Char} (h : payload? line = some payload) :
    payload <:+: line.toList := by
  obtain ⟨before, rest, hline, -, rfl⟩ := payload?_eq_some_iff.mp h
  have hrest : rest <:+ line.toList := by
    rw [hline, ← List.append_assoc]
    exact List.suffix_append _ rest
  exact (trim_isInfix rest).trans hrest.isInfix

def IsScheme (s : List Char) : Prop := s = "http://".toList ∨ s = "https://".toList

theorem scheme?_eq_some_iff {s scheme r : List Char} :
    scheme? s = some (scheme, r) ↔ IsScheme scheme ∧ s = scheme ++ r := by
  have hdiffer (t : List Char) : after? "https://".toList ("http://".toList ++ t) = none := rfl
  unfold scheme? IsScheme
  dsimp only
  constructor
  · intro h
    split at h
    · rename_i t ht
      rw [after?_eq_some_iff] at ht
      cases h
      exact ⟨.inr rfl, ht⟩
    · obtain ⟨t, ht, heq⟩ := Option.map_eq_some_iff.mp h
      rw [after?_eq_some_iff] at ht
      cases heq
      exact ⟨.inl rfl, ht⟩
  · rintro ⟨rfl | rfl, rfl⟩
    · rw [hdiffer, after?_eq_some_iff.mpr rfl]
      rfl
    · rw [after?_eq_some_iff.mpr rfl]

theorem forall_mem_of_isScheme {p : Char → Bool} (hhttp : "http://".toList.all p = true)
    (hhttps : "https://".toList.all p = true) {scheme : List Char} (h : IsScheme scheme) :
    ∀ c ∈ scheme, p c = true := by
  obtain rfl | rfl := h
  · exact List.all_eq_true.mp hhttp
  · exact List.all_eq_true.mp hhttps

theorem quotedUrl?_eq_some_iff {least : Nat} {s url r : List Char} :
    quotedUrl? least s = some (url, r) ↔
      ∃ q q' scheme path, s = q :: (url ++ q' :: r) ∧ isQuote q = true ∧ isQuote q' = true ∧
        IsScheme scheme ∧ url = scheme ++ path ∧ (∀ c ∈ path, isQuote c = false) ∧
        least ≤ path.length := by
  have hpath {path : List Char} {q' : Char} (h : ∀ c ∈ path, isQuote c = false)
      (hq' : isQuote q' = true) (t : List Char) :
      (path ++ q' :: t).takeWhile (fun c => !isQuote c) = path := by
    apply takeWhile_of_run (fun c hc => by simp [h c hc])
    rintro _ ⟨⟩
    simp [hq']
  cases s with
  | nil => simp [quotedUrl?]
  | cons q s =>
    rw [quotedUrl?]
    constructor
    · intro h
      split at h
      · rename_i hq
        split at h
        · contradiction
        · rename_i scheme t ht
          obtain ⟨hscheme, rfl⟩ := scheme?_eq_some_iff.mp ht
          dsimp only at h
          split at h
          · contradiction
          · rename_i q' rest hrest
            split at h
            · rename_i hleast
              cases h
              have hend : t.dropWhile (fun c => !isQuote c) = q' :: r := by
                rw [← hrest, drop_length_takeWhile]
              have hq' : isQuote q' = true := by
                simpa using of_head?_dropWhile (congrArg List.head? hend)
              refine ⟨q, q', scheme, t.takeWhile fun c => !isQuote c, ?_, hq, hq', hscheme, rfl, ?_,
                hleast⟩
              · rw [List.append_assoc, ← hend, List.takeWhile_append_dropWhile]
              · intro c hc
                simpa using List.all_eq_true.mp List.all_takeWhile c hc
            · contradiction
      · contradiction
    · rintro ⟨d, q', scheme, path, hs, hq, hq', hscheme, rfl, hnoquote, hleast⟩
      rw [List.cons.injEq, List.append_assoc] at hs
      obtain ⟨rfl, rfl⟩ := hs
      rw [if_pos hq, scheme?_eq_some_iff.mpr ⟨hscheme, rfl⟩]
      dsimp only
      rw [hpath hnoquote hq', List.drop_left]
      dsimp only
      rw [if_pos hleast]

theorem address?_eq_some_iff {s url : List Char} :
    address? s = some url ↔
      ∃ scheme path r, s = scheme ++ (path ++ r) ∧ IsScheme scheme ∧ url = scheme ++ path ∧
        path ≠ [] ∧ (∀ c ∈ path, isBlank c = false) ∧ ∀ c, r.head? = some c → isBlank c = true := by
  simp only [address?, Option.bind_eq_bind, Option.bind_eq_some_iff]
  constructor
  · rintro ⟨⟨scheme, t⟩, ht, hurl⟩
    obtain ⟨hscheme, rfl⟩ := scheme?_eq_some_iff.mp ht
    dsimp only at hurl
    split at hurl
    · contradiction
    · rename_i hempty
      cases hurl
      refine ⟨scheme, t.takeWhile fun c => !isBlank c, t.dropWhile fun c => !isBlank c, ?_, hscheme,
        rfl, by simpa using hempty, ?_, ?_⟩
      · rw [List.takeWhile_append_dropWhile]
      · intro c hc
        simpa using List.all_eq_true.mp List.all_takeWhile c hc
      · intro c hc
        simpa using of_head?_dropWhile hc
  · rintro ⟨scheme, path, r, rfl, hscheme, rfl, hne, hpath, hr⟩
    refine ⟨(scheme, path ++ r), scheme?_eq_some_iff.mpr ⟨hscheme, rfl⟩, ?_⟩
    have htake : (path ++ r).takeWhile (fun c => !isBlank c) = path :=
      takeWhile_of_run (fun c hc => by simp [hpath c hc]) (fun c hc => by simp [hr c hc])
    have hempty : path.isEmpty = false := by simpa using hne
    dsimp only
    rw [htake, hempty]
    rfl

/-- Whether a payload is the word for a measurement, any number of colons, and a text that has no
colon before it and no blanks around it. -/
def IsMeasurement (payload text : List Char) : Prop :=
  ∃ colons rest, payload = Truncation.resultMarker.toList ++ (colons ++ rest) ∧
    (∀ c ∈ colons, c = ':') ∧ rest.head? ≠ some ':' ∧ text = trim rest

theorem exists_isMeasurement {payload : List Char}
    (h : Truncation.resultMarker.toList <+: payload) : ∃ text, IsMeasurement payload text := by
  obtain ⟨r, rfl⟩ := h
  refine ⟨trim (r.dropWhile (· = ':')), r.takeWhile (· = ':'), r.dropWhile (· = ':'), ?_, ?_, ?_,
    rfl⟩
  · rw [List.takeWhile_append_dropWhile]
  · intro c hc
    simpa using List.all_eq_true.mp List.all_takeWhile c hc
  · intro hc
    simpa using of_head?_dropWhile hc

/-- However many colons there are, the text after them is read. -/
theorem ofPayload_of_isMeasurement {payload text : List Char} (h : IsMeasurement payload text) :
    ofPayload payload = (Json.parse (String.ofList text)).map fun j =>
      ⟨.measurement, some Truncation.resultMarker, j, none⟩ := by
  obtain ⟨colons, rest, rfl, hcolons, hrest, rfl⟩ := h
  have hdrop : (colons ++ rest).dropWhile (· = ':') = rest := by
    apply dropWhile_of_run (fun c hc => by simp [hcolons c hc])
    intro c hc
    simpa using fun heq : c = ':' => hrest (heq ▸ hc)
  rw [ofPayload, after?_append]
  dsimp only
  rw [ofMeasurement, hdrop]
  rfl

theorem ofPayload_of_unmarked {payload : List Char}
    (h : ¬ Truncation.resultMarker.toList <+: payload) :
    ofPayload payload = .ok (ofText payload) := by
  rw [ofPayload]
  split
  · rename_i rest hrest
    exact absurd ⟨rest, (after?_eq_some_iff.mp hrest).symm⟩ h
  · rfl

/-- The five things that a payload without the measurement marker can be. -/
@[elab_as_elim]
theorem ofText_cases {motive : Detail → Prop} (payload : List Char)
    (uploaded : ∀ url value, uploaded? payload = some (url, value) →
      motive (.link (some uploadedTitle) (String.ofList value) (String.ofList url)))
    (anchor : ∀ title url value, uploaded? payload = none →
      titled? anchor? payload = some (title, url, value) →
      motive (.link (ofTitle title) (String.ofList value) (String.ofList url)))
    (address : ∀ title url, uploaded? payload = none → titled? anchor? payload = none →
      titled? address? payload = some (title, url) →
      motive (.link (ofTitle title) (String.ofList url) (String.ofList url)))
    (pair : ∀ title value, splitAt? "<br/>".toList payload = some (title, value) →
      motive (.rawHtml (some (String.ofList (trim title))) (String.ofList (trim value))))
    (plain : motive (.rawHtml none (String.ofList payload))) :
    motive (ofText payload) := by
  unfold ofText
  split
  · rename_i url value h
    exact uploaded url value h
  · rename_i hnoupload
    split
    · rename_i title url value h
      exact anchor title url value hnoupload h
    · rename_i hnoanchor
      split
      · rename_i title url h
        exact address title url hnoupload hnoanchor h
      · split
        · rename_i title value h
          exact pair title value h
        · exact plain

theorem form_value_ofText (payload : List Char) :
    ((ofText payload).form = .link ∨ (ofText payload).form = .rawHtml) ∧
      ∃ value, (ofText payload).value = .string value := by
  refine ofText_cases (motive := fun d =>
    (d.form = .link ∨ d.form = .rawHtml) ∧ ∃ value, d.value = .string value) payload ?_ ?_ ?_ ?_ ?_
  · exact fun _ value _ => ⟨.inl rfl, String.ofList value, rfl⟩
  · exact fun _ _ value _ _ => ⟨.inl rfl, String.ofList value, rfl⟩
  · exact fun _ url _ _ _ => ⟨.inl rfl, String.ofList url, rfl⟩
  · exact fun _ value _ => ⟨.inr rfl, String.ofList (trim value), rfl⟩
  · exact ⟨.inr rfl, String.ofList payload, rfl⟩

theorem ofPayload_cases {payload : List Char} {d : Detail} (h : ofPayload payload = .ok d) :
    (∃ text j, IsMeasurement payload text ∧ Json.parse (String.ofList text) = .ok j ∧
      d = ⟨.measurement, some Truncation.resultMarker, j, none⟩) ∨ d = ofText payload := by
  by_cases hbegins : Truncation.resultMarker.toList <+: payload
  · obtain ⟨text, hm⟩ := exists_isMeasurement hbegins
    rw [ofPayload_of_isMeasurement hm] at h
    cases hparse : Json.parse (String.ofList text) with
    | error e =>
      rw [hparse] at h
      contradiction
    | ok j =>
      rw [hparse] at h
      exact .inl ⟨text, j, hm, hparse, (Except.ok.inj h).symm⟩
  · rw [ofPayload_of_unmarked hbegins] at h
    exact .inr (Except.ok.inj h).symm

end BuildLog.DetailLine
