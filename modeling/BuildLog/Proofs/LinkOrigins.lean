import BuildLog.Proofs.ArtifactRoundTrip
import BuildLog.Proofs.DetailForms

namespace BuildLog.DetailLine
open Text

def IsWebAddress (url : List Char) : Prop := "http://".toList <+: url ∨ "https://".toList <+: url

theorem isWebAddress_of_isScheme {scheme : List Char} (h : IsScheme scheme) (path : List Char) :
    IsWebAddress (scheme ++ path) := by
  obtain rfl | rfl := h
  · exact .inl (List.prefix_append _ path)
  · exact .inr (List.prefix_append _ path)

structure LinkIn (s url value : List Char) : Prop where
  web : IsWebAddress url
  url_isInfix : url <:+: s
  value_ne : value ≠ []
  value_isInfix : value <:+: s

theorem LinkIn.of_isInfix {r s url value : List Char} (h : LinkIn r url value) (hr : r <:+: s) :
    LinkIn s url value :=
  ⟨h.web, h.url_isInfix.trans hr, h.value_ne, h.value_isInfix.trans hr⟩

/-- A quoted address holds no quote, and what follows it is the rest of the text. -/
theorem quotedUrl?_reads {least : Nat} {s url r : List Char}
    (h : quotedUrl? least s = some (url, r)) :
    IsWebAddress url ∧ url <:+: s ∧ (∀ c ∈ url, isQuote c = false) ∧ r <:+ s := by
  obtain ⟨q, q', scheme, path, hs, -, -, hscheme, hurl, hpath, -⟩ := quotedUrl?_eq_some_iff.mp h
  have hnoquote : ∀ c ∈ scheme, (!isQuote c) = true :=
    forall_mem_of_isScheme (by decide) (by decide) hscheme
  refine ⟨hurl ▸ isWebAddress_of_isScheme hscheme path, ⟨[q], q' :: r, by rw [hs]; simp⟩, ?_,
    ⟨q :: (url ++ [q']), by rw [hs]; simp⟩⟩
  rw [hurl, List.forall_mem_append]
  exact ⟨fun c hc => by simpa using hnoquote c hc, hpath⟩

theorem longest1?_reads {p : Char → Bool} {w s l t : List Char}
    (h : longest1? p (after? w) s = some (l, t)) : l ≠ [] ∧ l <+: s := by
  obtain ⟨hne, r, rfl, -⟩ := longest1?_eq_some_iff.mp h
  exact ⟨hne, List.prefix_append l r⟩

theorem after?_isSuffix {w s r : List Char} (h : after? w s = some r) : r <:+ s :=
  ⟨w, (after?_eq_some_iff.mp h).symm⟩

theorem uploaded?_reads {s url value : List Char} (h : uploaded? s = some (url, value)) :
    LinkIn s url value ∧ ∀ c ∈ url, isQuote c = false := by
  simp only [uploaded?, Option.bind_eq_bind, Option.bind_eq_some_iff] at h
  obtain ⟨r, hr, ⟨url', t⟩, hurl, u, hu, ⟨value', v⟩, hvalue, heq⟩ := h
  cases heq
  obtain ⟨hweb, hin, hnoquote, ht⟩ := quotedUrl?_reads hurl
  obtain ⟨hne, hbegins⟩ := longest1?_reads hvalue
  have hrest : r <:+ s := after?_isSuffix hr
  have hend : u <:+ s := ((after?_isSuffix hu).trans ht).trans hrest
  exact ⟨⟨hweb, hin.trans hrest.isInfix, hne, hbegins.isInfix.trans hend.isInfix⟩, hnoquote⟩

theorem anchorEnd?_reads {s value : List Char} (h : anchorEnd? s = some value) :
    value ≠ [] ∧ value <:+: s := by
  simp only [anchorEnd?, Option.bind_eq_bind, Option.bind_eq_some_iff] at h
  obtain ⟨r, hr, ⟨value', v⟩, hvalue, heq⟩ := h
  cases heq
  obtain ⟨hne, hbegins⟩ := longest1?_reads hvalue
  have hrest : r <:+ s := (after?_isSuffix hr).trans (List.dropWhile_suffix inTag)
  exact ⟨hne, hbegins.isInfix.trans hrest.isInfix⟩

theorem anchor?_reads {s url value : List Char} (h : anchor? s = some (url, value)) :
    LinkIn s url value ∧ ∀ c ∈ url, isQuote c = false := by
  simp only [anchor?, Option.bind_eq_bind, Option.bind_eq_some_iff] at h
  obtain ⟨r, hr, ⟨skipped, link⟩, hskip, heq⟩ := h
  cases heq
  obtain ⟨t, rfl, -, ht, -⟩ := shortest?_eq_some_iff.mp hskip
  simp only [Option.bind_eq_some_iff] at ht
  obtain ⟨u, hu, ⟨url', v⟩, hurl, value', hvalue, heq⟩ := ht
  cases heq
  obtain ⟨hweb, hin, hnoquote, hv⟩ := quotedUrl?_reads hurl
  obtain ⟨hne, hvalueIn⟩ := anchorEnd?_reads hvalue
  have hrest : u <:+ s :=
    ((after?_isSuffix hu).trans (List.suffix_append skipped t)).trans (after?_isSuffix hr)
  exact ⟨⟨hweb, hin.trans hrest.isInfix, hne, hvalueIn.trans (hv.trans hrest).isInfix⟩, hnoquote⟩

theorem address?_reads {s url : List Char} (h : address? s = some url) :
    LinkIn s url url ∧ ∀ c ∈ url, isBlank c = false := by
  obtain ⟨scheme, path, r, rfl, hscheme, rfl, hne, hpath, -⟩ := address?_eq_some_iff.mp h
  have hin : scheme ++ path <:+: scheme ++ (path ++ r) := by
    rw [← List.append_assoc]
    exact (List.prefix_append (scheme ++ path) r).isInfix
  have hsolid : ∀ c ∈ scheme, (!isBlank c) = true :=
    forall_mem_of_isScheme (by decide) (by decide) hscheme
  refine ⟨⟨isWebAddress_of_isScheme hscheme path, hin, by simp [hne], hin⟩, ?_⟩
  rw [List.forall_mem_append]
  exact ⟨fun c hc => by simpa using hsolid c hc, hpath⟩

/-- What is read after a title stands at the end of the text, as does what is read without one. -/
theorem titled?_reads {α : Type} {k : List Char → Option α} {s : List Char}
    {title : Option (List Char)} {a : α} (h : titled? k s = some (title, a)) :
    (∃ r, r <:+ s ∧ k r = some a) ∧
      ∀ t, title = some t → t ≠ [] ∧ ∀ c ∈ t, isTitleChar c = true := by
  unfold titled? at h
  dsimp only at h
  split at h
  · rename_i b hb
    cases h
    split at hb
    · contradiction
    · rename_i hne
      obtain ⟨r, hr, hkr⟩ := Option.bind_eq_some_iff.mp hb
      refine ⟨⟨r, (after?_isSuffix hr).trans (List.drop_suffix _ s), hkr⟩, ?_⟩
      rintro t ⟨⟩
      exact ⟨by simpa using hne, List.all_eq_true.mp List.all_takeWhile⟩
  · obtain ⟨b, hb, heq⟩ := Option.map_eq_some_iff.mp h
    cases heq
    exact ⟨⟨s, List.suffix_rfl, hb⟩, nofun⟩

def IsLinkTitle (title : String) : Prop :=
  title = "artifact uploaded" ∨ title ≠ "" ∧ ∀ c ∈ title.toList, isTitleChar c = true

def hasHtmlLink (payload : List Char) : Bool :=
  (uploaded? payload).isSome || (titled? anchor? payload).isSome

/-- The characters that a link from a payload may not have in its address: quotes in html, and
else blanks. -/
def endsAddress (payload : List Char) : Char → Bool :=
  if hasHtmlLink payload then isQuote else isBlank

structure IsLinkOf (line : String) (payload : List Char) (d : Detail) (url value : String) :
    Prop where
  url_eq : d.url = some url
  value_eq : d.value = .string value
  parts : LinkIn line.toList url.toList value.toList
  url_clean : ∀ c ∈ url.toList, endsAddress payload c = false
  title : ∀ t, d.title = some t → IsLinkTitle t

/-- What is known of a detail by its form, as it comes from the payload of a line. -/
structure IsOrigin (line : String) (payload : List Char) (d : Detail) : Prop where
  link : d.form = .link → ∃ url value, IsLinkOf line payload d url value
  rawHtml : d.form = .rawHtml → d.url = none ∧ ∃ value, d.value = .string value
  measurement : d.form = .measurement → d.title = some "TalosResult" ∧ d.url = none

theorem isLinkTitle_ofTitle {title : Option (List Char)}
    (h : ∀ t, title = some t → t ≠ [] ∧ ∀ c ∈ t, isTitleChar c = true) (t : String)
    (ht : ofTitle title = some t) : IsLinkTitle t := by
  obtain ⟨cs, hcs, rfl⟩ := Option.map_eq_some_iff.mp ht
  obtain ⟨hne, hchars⟩ := h cs hcs
  refine .inr ⟨?_, ?_⟩
  · intro hempty
    rw [← String.toList_inj, String.toList_ofList] at hempty
    exact hne hempty
  · rwa [String.toList_ofList]

theorem isOrigin_link {line : String} {payload url value : List Char} {title : Option String}
    (hpayload : payload <:+: line.toList) (hparts : LinkIn payload url value)
    (hclean : ∀ c ∈ url, endsAddress payload c = false)
    (htitle : ∀ t, title = some t → IsLinkTitle t) :
    IsOrigin line payload (.link title (String.ofList value) (String.ofList url)) := by
  refine ⟨fun _ => ⟨String.ofList url, String.ofList value, rfl, rfl, ?_, ?_, htitle⟩, nofun, nofun⟩
  · rw [String.toList_ofList, String.toList_ofList]
    exact hparts.of_isInfix hpayload
  · rwa [String.toList_ofList]

theorem isOrigin_rawHtml (line : String) (payload : List Char) (title : Option String)
    (value : String) : IsOrigin line payload (.rawHtml title value) :=
  ⟨nofun, fun _ => ⟨rfl, value, rfl⟩, nofun⟩

theorem isOrigin_ofText {line : String} {payload : List Char}
    (hpayload : payload <:+: line.toList) :
    IsOrigin line payload (ofText payload) := by
  refine ofText_cases (motive := IsOrigin line payload) payload ?_ ?_ ?_ ?_ ?_
  · intro url value h
    obtain ⟨hparts, hclean⟩ := uploaded?_reads h
    have hends : endsAddress payload = isQuote := by
      rw [endsAddress, hasHtmlLink, h]
      rfl
    apply isOrigin_link hpayload hparts (hends ▸ hclean)
    rintro t ⟨⟩
    exact .inl rfl
  · intro title url value _ h
    obtain ⟨⟨r, hr, hanchor⟩, htitle⟩ := titled?_reads h
    obtain ⟨hparts, hclean⟩ := anchor?_reads hanchor
    have hends : endsAddress payload = isQuote := by
      rw [endsAddress, hasHtmlLink, h, Option.isSome_some, Bool.or_true]
      rfl
    exact isOrigin_link hpayload (hparts.of_isInfix hr.isInfix) (hends ▸ hclean)
      (isLinkTitle_ofTitle htitle)
  · intro title url hnoupload hnoanchor h
    obtain ⟨⟨r, hr, haddress⟩, htitle⟩ := titled?_reads h
    obtain ⟨hparts, hclean⟩ := address?_reads haddress
    have hends : endsAddress payload = isBlank := by
      rw [endsAddress, hasHtmlLink, hnoupload, hnoanchor]
      rfl
    exact isOrigin_link hpayload (hparts.of_isInfix hr.isInfix) (hends ▸ hclean)
      (isLinkTitle_ofTitle htitle)
  · exact fun title value _ => isOrigin_rawHtml line payload _ _
  · exact isOrigin_rawHtml line payload _ _

theorem isOrigin_measurement (line : String) (payload : List Char) (j : Json) :
    IsOrigin line payload ⟨.measurement, some Truncation.resultMarker, j, none⟩ :=
  ⟨nofun, nofun, fun _ => ⟨rfl, rfl⟩⟩

theorem isOrigin_of_detail? {line : String} {d : Detail} (h : detail? line = some d) :
    ∃ payload, payload? line = some payload ∧ IsOrigin line payload d := by
  obtain ⟨payload, hpayload, hd⟩ := detail?_eq_some_iff.mp h
  refine ⟨payload, hpayload, ?_⟩
  obtain ⟨_, j, -, -, rfl⟩ | rfl := ofPayload_cases hd
  · exact isOrigin_measurement line payload j
  · exact isOrigin_ofText (payload?_isInfix hpayload)

/-- The details of a log are those of its single lines. A link leads to a web address that stands in
the line, and is shown by a text that stands there, too. Its address has no quotes if it is a link
in html, and no blanks if it is not. No other detail has an address. -/
theorem links_stand_in_their_lines (lines : List (String × Nat)) :
    (Section.details []).readAll lines = .details (lines.filterMap fun x => detail? x.1) ∧
    ∀ x ∈ lines, ∀ d, detail? x.1 = some d →
      ∃ payload, payload? x.1 = some payload ∧ IsOrigin x.1 payload d :=
  ⟨Section.readAll_details [] lines, fun _ _ _ h => isOrigin_of_detail? h⟩

def twoAddresses : String :=
  "TinderboxPrint: x: <a href='script:y' href=\"http://a/b\" id='q'>c</a></a> http://d"

theorem link_of_twoAddresses :
    ∃ d payload url value, detail? twoAddresses = some d ∧ payload? twoAddresses = some payload ∧
      IsLinkOf twoAddresses payload d url value ∧ d.title = some "x" ∧ url = "http://a/b" := by
  obtain ⟨d, hd⟩ : ∃ d, detail? twoAddresses = some d :=
    Option.isSome_iff_exists.mp (by decide)
  have hparts : (detail? twoAddresses).map (fun d => (d.form, d.title, d.url)) =
      some (.link, some "x", some "http://a/b") := by
    decide
  rw [hd, Option.map_some, Option.some.injEq, Prod.mk.injEq, Prod.mk.injEq] at hparts
  obtain ⟨-, horigins⟩ := links_stand_in_their_lines [(twoAddresses, 0)]
  obtain ⟨payload, hpayload, horigin⟩ := horigins _ List.mem_cons_self d hd
  obtain ⟨url, value, hlink⟩ := horigin.link hparts.1
  refine ⟨d, payload, url, value, hd, hpayload, hlink, hparts.2.1, ?_⟩
  exact Option.some.inj (hlink.url_eq.symm.trans hparts.2.2)

end BuildLog.DetailLine
