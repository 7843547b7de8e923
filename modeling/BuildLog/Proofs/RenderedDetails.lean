import BuildLog.Proofs.DetailForms
import BuildLog.Proofs.JobDetails
import BuildLog.Proofs.ParsedValues

namespace BuildLog.DetailLine
open Text

/-- A web address with a path of one or more characters that are not in the class. -/
def IsUrl (stops : Char → Bool) (url : List Char) : Prop :=
  ∃ scheme path, IsScheme scheme ∧ url = scheme ++ path ∧ path ≠ [] ∧ ∀ c ∈ path, stops c = false

/-- The characters that cannot stand in an address in quotes. -/
def endsQuoted (c : Char) : Bool := isQuote c || c = '\n'

structure IsTitle (title : List Char) : Prop where
  ne : title ≠ []
  chars : ∀ c ∈ title, isTitleChar c = true
  start : title.head? ≠ some ' '
  plain : ¬ Truncation.resultMarker.toList <+: title

structure IsValue (value : List Char) : Prop where
  ne : value ≠ []
  oneLine : '\n' ∉ value

def htmlLink (url value : List Char) : List Char :=
  "<a ".toList ++ ("href=".toList ++
    '\'' :: (url ++ '\'' :: '>' :: (value ++ "</a>".toList)))

theorem isBlank_of_isTitleChar {c : Char} (h : isTitleChar c = true) (hc : c ≠ ' ') :
    isBlank c = false := by
  unfold isTitleChar at h
  simp only [isAsciiDigit, Bool.or_eq_true, Bool.and_eq_true, decide_eq_true_eq, Char.le_def,
    UInt32.le_iff_toNat_le] at h
  obtain (((((((h | h) | h) | rfl) | rfl) | rfl) | rfl) | rfl) := h
  · exact isBlank_eq_false_of_ascii (Nat.le_trans (by decide) h.1) (Nat.le_trans h.2 (by decide))
  · exact isBlank_eq_false_of_ascii (Nat.le_trans (by decide) h.1) (Nat.le_trans h.2 (by decide))
  · exact isBlank_eq_false_of_ascii (Nat.le_trans (by decide) h.1) (Nat.le_trans h.2 (by decide))
  · decide
  · decide
  · decide
  · exact absurd rfl hc
  · decide

theorem IsTitle.exists_cons {title : List Char} (h : IsTitle title) :
    ∃ c t, title = c :: t ∧ isTitleChar c = true ∧ isBlank c = false := by
  obtain ⟨c, t, rfl⟩ := List.exists_cons_of_ne_nil h.ne
  have hc := h.chars c List.mem_cons_self
  exact ⟨c, t, rfl, hc, isBlank_of_isTitleChar hc fun heq => h.start (by rw [heq]; rfl)⟩

theorem IsUrl.exists_cons {stops : Char → Bool} {url : List Char} (h : IsUrl stops url) :
    ∃ t, url = 'h' :: t := by
  obtain ⟨scheme, path, rfl | rfl, rfl, -⟩ := h
  · exact ⟨_, rfl⟩
  · exact ⟨_, rfl⟩

theorem IsUrl.endsBare {url : List Char} (h : IsUrl isBlank url) : endsBare url = true := by
  obtain ⟨scheme, path, -, rfl, hne, hpath⟩ := h
  exact endsBare_append (endsBare_of_forall hne hpath) scheme

theorem uploaded?_of_head {c : Char} (h : c ≠ '<') (s : List Char) : uploaded? (c :: s) = none := by
  have hword : "<a href=".toList = '<' :: "a href=".toList := by decide
  rw [uploaded?, hword, after?_cons_of_ne h.symm]
  rfl

theorem anchor?_of_head {c : Char} (h : c ≠ '<') (s : List Char) : anchor? (c :: s) = none := by
  have hword : "<a ".toList = '<' :: "a ".toList := by decide
  rw [anchor?, hword, after?_cons_of_ne h.symm]
  rfl

section Html

variable {url value : List Char} (hurl : IsUrl endsQuoted url) (hvalue : IsValue value)
include hurl

theorem quotedUrl?_of_isUrl {least : Nat} (hleast : least ≤ 1) (r : List Char) :
    quotedUrl? least ('\'' :: (url ++ '\'' :: r)) = some (url, r) := by
  obtain ⟨scheme, path, hscheme, rfl, hne, hpath⟩ := hurl
  have hnoquote : ∀ c ∈ path, isQuote c = false := by
    intro c hc
    have hstop := hpath c hc
    rw [endsQuoted, Bool.or_eq_false_iff] at hstop
    exact hstop.1
  have hlength : 0 < path.length := List.length_pos_iff.mpr hne
  exact quotedUrl?_eq_some_iff.mpr ⟨'\'', '\'', scheme, path, rfl, by decide, by decide, hscheme,
    rfl, hnoquote, by omega⟩

theorem uploaded?_htmlLink_append (value r : List Char) :
    uploaded? (htmlLink url value ++ r) =
      (longest1? inLine (after? "</a>: uploaded".toList) (value ++ ("</a>".toList ++ r))).map
        fun x => (url, x.1) := by
  have hlink : htmlLink url value ++ r = "<a href=".toList ++
      '\'' :: (url ++ '\'' :: '>' :: (value ++ ("</a>".toList ++ r))) := by
    have hword : "<a href=".toList = "<a ".toList ++ "href=".toList := by decide
    rw [htmlLink, hword]
    simp only [List.append_assoc, List.cons_append]
  rw [uploaded?, hlink, after?_append]
  dsimp only [Option.bind_eq_bind, Option.bind_some]
  rw [quotedUrl?_of_isUrl hurl (Nat.zero_le 1)]
  dsimp only [Option.bind_some]
  rw [after?_singleton]
  dsimp only [Option.bind_some]
  cases longest1? inLine (after? "</a>: uploaded".toList) (value ++ ("</a>".toList ++ r)) <;> rfl

include hvalue

/-- The value of an uploaded file goes on to the end, even if it holds that end itself. -/
theorem uploaded?_htmlLink_uploaded :
    uploaded? (htmlLink url value ++ ": uploaded".toList) = some (url, value) := by
  have hword : "</a>".toList ++ ": uploaded".toList = "</a>: uploaded".toList := by decide
  have hline : value.all inLine = true := all_inLine_iff.mpr hvalue.oneLine
  rw [uploaded?_htmlLink_append hurl value, hword, longest1?_of_end _ hvalue.ne hline]
  rfl

theorem anchor?_htmlLink : anchor? (htmlLink url value) = some (url, value) := by
  have hline : value.all inLine = true := all_inLine_iff.mpr hvalue.oneLine
  have hend : anchorEnd? ('>' :: (value ++ "</a>".toList)) = some value := by
    rw [anchorEnd?, List.dropWhile_cons_of_neg (by decide), after?_singleton]
    dsimp only [Option.bind_eq_bind, Option.bind_some]
    rw [longest1?_of_end _ hvalue.ne hline]
    rfl
  rw [anchor?, htmlLink, after?_append]
  dsimp only [Option.bind_eq_bind, Option.bind_some]
  -- nothing is skipped, as the address comes first
  rw [shortest?_of_some (a := (url, value))]
  · rfl
  · rw [after?_append]
    dsimp only [Option.bind_some]
    rw [quotedUrl?_of_isUrl hurl (Nat.le_refl 1)]
    dsimp only [Option.bind_some]
    rw [hend]
    rfl

end Html

theorem uploaded?_htmlLink {url value : List Char} (hurl : IsUrl endsQuoted url)
    (hplain : ¬ "</a>: uploaded".toList <:+: value) : uploaded? (htmlLink url value) = none := by
  have hword : "</a>: uploaded".toList = '<' :: "/a>: uploaded".toList := by decide
  have hclose : "</a>".toList = '<' :: "/a>".toList := by decide
  have h := uploaded?_htmlLink_append hurl value []
  rw [List.append_nil, List.append_nil] at h
  rw [h, Option.map_eq_none_iff, Option.eq_none_iff_forall_ne_some]
  rintro ⟨l, t⟩ hfound
  obtain ⟨-, r, hs, -, hr, -⟩ := longest1?_eq_some_iff.mp hfound
  rw [after?_eq_some_iff] at hr
  have hlong : "</a>".toList.length < "</a>: uploaded".toList.length := by decide
  obtain ⟨v, -, hv⟩ | ⟨v, hv, hrest⟩ := List.append_eq_append_iff.mp hs
  · -- too little is left after the value
    have hlength := congrArg List.length hv
    rw [hr, List.length_append, List.length_append] at hlength
    omega
  · by_cases hne : v = []
    · have hlength := congrArg List.length hrest
      rw [hr, hne, List.nil_append, List.length_append] at hlength
      omega
    · have hlooks : '<' :: "/a>: uploaded".toList <+: v ++ '<' :: "/a>".toList :=
        ⟨t, by rw [← hword, ← hr, hrest, hclose]⟩
      have hbegins := isPrefix_of_append_head (by decide) hne hlooks
      have hinside : v <:+: value := hv ▸ (List.suffix_append l v).isInfix
      rw [← hword] at hbegins
      exact hplain (hbegins.isInfix.trans hinside)

section Titled

variable {α : Type} (k : List Char → Option α) {title : List Char}

theorem takeWhile_title (h : ∀ c ∈ title, isTitleChar c = true) {d : Char}
    (hd : isTitleChar d = false) (r : List Char) :
    (title ++ d :: r).takeWhile isTitleChar = title := by
  apply takeWhile_of_run h
  rintro _ ⟨⟩
  exact hd

/-- A title is over at the first character that is none of a title's. -/
theorem titled?_of_title (h : IsTitle title) (r : List Char) :
    titled? k (title ++ ':' :: ' ' :: r) =
      match k r with
      | some a => some (some title, a)
      | none => (k (title ++ ':' :: ' ' :: r)).map (none, ·) := by
  have hne : title.isEmpty = false := by simpa using h.ne
  have hcolon : after? [':', ' '] (':' :: ' ' :: r) = some r := rfl
  unfold titled?
  rw [takeWhile_title h.chars (by decide)]
  dsimp only
  rw [hne, List.drop_left, hcolon]
  rfl

theorem titled?_of_untitled (h : ∀ c ∈ title, isTitleChar c = true) {d e : Char}
    (hd : isTitleChar d = false) (he : d ≠ ':' ∨ e ≠ ' ') (r : List Char) :
    titled? k (title ++ d :: e :: r) = (k (title ++ d :: e :: r)).map (none, ·) := by
  have hnone : after? [':', ' '] (d :: e :: r) = none := by
    obtain he | he := he
    · exact after?_cons_of_ne he.symm [' '] (e :: r)
    · rw [after?]
      split
      · exact after?_cons_of_ne he.symm [] r
      · rfl
  unfold titled?
  rw [takeWhile_title h hd]
  dsimp only
  rw [List.drop_left, hnone]
  simp

end Titled

theorem address?_of_title {title : List Char} (h : ∀ c ∈ title, isTitleChar c = true) {d : Char}
    (hd : isTitleChar d = false) (hcolon : d ≠ ':') (r : List Char) :
    address? (title ++ d :: r) = none := by
  rw [Option.eq_none_iff_forall_ne_some]
  intro url hurl
  obtain ⟨scheme, path, t, htext, hscheme, -⟩ := address?_eq_some_iff.mp hurl
  obtain ⟨name, hname, hchars⟩ : ∃ name,
      scheme ++ (path ++ t) = name ++ ':' :: '/' :: '/' :: (path ++ t) ∧
        ∀ c ∈ name, isTitleChar c = true := by
    obtain rfl | rfl := hscheme
    · exact ⟨"http".toList, rfl, List.all_eq_true.mp (by decide)⟩
    · exact ⟨"https".toList, rfl, List.all_eq_true.mp (by decide)⟩
  have hdrop := congrArg (List.dropWhile isTitleChar) (htext.trans hname)
  rw [List.dropWhile_append_of_pos h, List.dropWhile_append_of_pos hchars,
    List.dropWhile_cons_of_neg (by simp [hd]), List.dropWhile_cons_of_neg (by decide)] at hdrop
  exact hcolon (List.cons.inj hdrop).1

theorem address?_of_isUrl {url : List Char} (h : IsUrl isBlank url) : address? url = some url := by
  obtain ⟨scheme, path, hscheme, rfl, hne, hpath⟩ := h
  refine address?_eq_some_iff.mpr ⟨scheme, path, [], ?_, hscheme, rfl, hne, hpath, nofun⟩
  rw [List.append_nil]

theorem ofText_uploaded {url value : List Char} (hurl : IsUrl endsQuoted url)
    (hvalue : IsValue value) :
    ofText (htmlLink url value ++ ": uploaded".toList) =
      .link (some uploadedTitle) (String.ofList value) (String.ofList url) := by
  rw [ofText, uploaded?_htmlLink_uploaded hurl hvalue]

theorem ofText_htmlLink {url value : List Char} (hurl : IsUrl endsQuoted url)
    (hvalue : IsValue value) (hplain : ¬ "</a>: uploaded".toList <:+: value) :
    ofText (htmlLink url value) = .link none (String.ofList value) (String.ofList url) := by
  have hanchor : titled? anchor? (htmlLink url value) = some (none, url, value) := by
    have hword : "<a ".toList = '<' :: 'a' :: [' '] := by decide
    have huntitled : titled? anchor? (htmlLink url value) =
        (anchor? (htmlLink url value)).map (none, ·) := by
      rw [htmlLink, hword]
      exact titled?_of_untitled anchor? (List.forall_mem_nil _) (by decide) (.inl (by decide)) _
    rw [huntitled, anchor?_htmlLink hurl hvalue]
    rfl
  rw [ofText, uploaded?_htmlLink hurl hplain]
  dsimp only
  rw [hanchor]
  rfl

theorem ofText_titled_htmlLink {title url value : List Char} (ht : IsTitle title)
    (hurl : IsUrl endsQuoted url) (hvalue : IsValue value) :
    ofText (title ++ ':' :: ' ' :: htmlLink url value) =
      .link (some (String.ofList title)) (String.ofList value) (String.ofList url) := by
  obtain ⟨c, t, htitle, hc, -⟩ := ht.exists_cons
  have hhead : c ≠ '<' := by
    rintro rfl
    exact absurd hc (by decide)
  have hnoupload : uploaded? (title ++ ':' :: ' ' :: htmlLink url value) = none := by
    rw [htitle]
    exact uploaded?_of_head hhead _
  rw [ofText, hnoupload, titled?_of_title _ ht, anchor?_htmlLink hurl hvalue]
  rfl

theorem ofText_url {url : List Char} (hurl : IsUrl isBlank url) :
    ofText url = .link none (String.ofList url) (String.ofList url) := by
  obtain ⟨t, ht⟩ := hurl.exists_cons
  have hnoupload : uploaded? url = none := by rw [ht]; exact uploaded?_of_head (by decide) t
  have hnoanchor : anchor? url = none := by rw [ht]; exact anchor?_of_head (by decide) t
  have huntitled {α : Type} (k : List Char → Option α) :
      titled? k url = (k url).map (none, ·) := by
    have hhttp : ∀ c ∈ "http".toList, isTitleChar c = true :=
      List.all_eq_true.mp (by decide)
    have hhttps : ∀ c ∈ "https".toList, isTitleChar c = true :=
      List.all_eq_true.mp (by decide)
    obtain ⟨scheme, path, rfl | rfl, rfl, -⟩ := hurl
    · exact titled?_of_untitled k hhttp (by decide) (.inr (by decide)) ('/' :: path)
    · exact titled?_of_untitled k hhttps (by decide) (.inr (by decide)) ('/' :: path)
  rw [ofText, hnoupload, huntitled, hnoanchor, huntitled, address?_of_isUrl hurl]
  rfl

theorem ofText_titled_url {title url : List Char} (ht : IsTitle title) (hurl : IsUrl isBlank url) :
    ofText (title ++ ':' :: ' ' :: url) =
      .link (some (String.ofList title)) (String.ofList url) (String.ofList url) := by
  obtain ⟨c, t, htitle, hc, -⟩ := ht.exists_cons
  obtain ⟨u, hu⟩ := hurl.exists_cons
  have hhead : c ≠ '<' := by
    rintro rfl
    exact absurd hc (by decide)
  have hnoupload : uploaded? (title ++ ':' :: ' ' :: url) = none := by
    rw [htitle]
    exact uploaded?_of_head hhead _
  have hnoanchor : titled? anchor? (title ++ ':' :: ' ' :: url) = none := by
    have hurl : anchor? url = none := by rw [hu]; exact anchor?_of_head (by decide) u
    have hall : anchor? (title ++ ':' :: ' ' :: url) = none := by
      rw [htitle]
      exact anchor?_of_head hhead _
    rw [titled?_of_title _ ht, hurl, hall]
    rfl
  rw [ofText, hnoupload, hnoanchor, titled?_of_title _ ht, address?_of_isUrl hurl]
  rfl

theorem ofText_pair {title : List Char} (ht : IsTitle title) (value : List Char) :
    ofText (title ++ ("<br/>".toList ++ value)) =
      .rawHtml (some (String.ofList (trim title))) (String.ofList (trim value)) := by
  have hword : "<br/>".toList = '<' :: 'b' :: "r/>".toList := by decide
  obtain ⟨c, t, htitle, hc, -⟩ := ht.exists_cons
  have hhead : c ≠ '<' := by
    rintro rfl
    exact absurd hc (by decide)
  have hnoupload : uploaded? (title ++ ("<br/>".toList ++ value)) = none := by
    rw [htitle]
    exact uploaded?_of_head hhead _
  have hnoanchor : anchor? (title ++ ("<br/>".toList ++ value)) = none := by
    rw [htitle]
    exact anchor?_of_head hhead _
  have hnoaddress : address? (title ++ ("<br/>".toList ++ value)) = none := by
    rw [hword]
    exact address?_of_title ht.chars (by decide) (by decide) _
  have huntitled {α : Type} (k : List Char → Option α) :
      titled? k (title ++ ("<br/>".toList ++ value)) =
        (k (title ++ ("<br/>".toList ++ value))).map (none, ·) := by
    rw [hword]
    exact titled?_of_untitled k ht.chars (by decide) (.inl (by decide)) ("r/>".toList ++ value)
  have hsplit : splitAt? "<br/>".toList (title ++ ("<br/>".toList ++ value)) =
      some (title, value) := by
    rw [hword]
    refine (splitAt?_eq_some_iff (by decide)).mpr ⟨rfl, ?_⟩
    intro hinside
    have hmem : '<' ∈ title := hinside.subset List.mem_cons_self
    exact absurd (ht.chars _ hmem) (by decide)
  rw [ofText, hnoupload, huntitled, hnoanchor, huntitled, hnoaddress]
  dsimp only [Option.map_none]
  rw [hsplit]

theorem resultMarker_eq : Truncation.resultMarker.toList = 'T' :: "alosResult".toList := by
  decide

theorem ofPayload_of_head {c : Char} (h : c ≠ 'T') (s : List Char) :
    ofPayload (c :: s) = .ok (ofText (c :: s)) := by
  rw [ofPayload, resultMarker_eq, after?_cons_of_ne h.symm]

theorem ofPayload_of_title {title : List Char} (h : IsTitle title) {d : Char}
    (hd : d ∉ Truncation.resultMarker.toList) (r : List Char) :
    ofPayload (title ++ d :: r) = .ok (ofText (title ++ d :: r)) :=
  ofPayload_of_unmarked fun hbegins => h.plain ((isPrefix_append_cons_iff hd).mp hbegins)

theorem isMeasurement_compact {depth : Nat} {j : Json} (h : Json.Plain depth j) :
    IsMeasurement ("TalosResult: ".toList ++ j.compact.toList) j.compact.toList := by
  have hword : "TalosResult: ".toList = Truncation.resultMarker.toList ++ [':', ' '] := by decide
  obtain ⟨hstart, hend⟩ := Json.bare_compactText h
  have htrim := trim_surround (l := [' ']) (r := []) (List.forall_mem_singleton.mpr rfl)
    (List.forall_mem_nil _) (Json.compactText j)
  rw [List.append_nil, trim_of_bare hstart hend] at htrim
  have htext : j.compact.toList = Json.compactText j := String.toList_ofList
  rw [htext]
  refine ⟨[':'], ' ' :: Json.compactText j, ?_, List.forall_mem_singleton.mpr rfl, by simp,
    htrim.symm⟩
  rw [hword, List.append_assoc]
  rfl

/-- A value without doubles is read back unless it is nested too deep for any text. -/
theorem ofPayload_measurement {j : Json} (hj : j.WellFormed) (hplain : ∃ depth, Json.Plain depth j) :
    ofPayload ("TalosResult: ".toList ++ j.compact.toList) =
        .ok ⟨.measurement, some "TalosResult", j, none⟩ ↔ Json.Plain Json.maxDepth j := by
  obtain ⟨depth, hplain⟩ := hplain
  rw [ofPayload_of_isMeasurement (isMeasurement_compact hplain), String.ofList_toList]
  constructor
  · intro h
    cases hparse : Json.parse j.compact with
    | error e =>
      rw [hparse] at h
      contradiction
    | ok k =>
      rw [hparse] at h
      cases h
      exact Json.plain_of_nested hplain (Json.nested_of_parse hparse)
  · intro hshallow
    rw [Json.parse_compact hj hshallow]
    rfl

section Forms

variable {title url value : List Char}

theorem ofPayload_htmlLink_append {r : List Char} (hr : endsBare (htmlLink url value ++ r) = true) :
    ofPayload (trim (htmlLink url value ++ r)) = .ok (ofText (htmlLink url value ++ r)) := by
  have hword : "<a ".toList = '<' :: "a ".toList := by decide
  have hstart : startsBare (htmlLink url value ++ r) = true := by
    rw [htmlLink, List.append_assoc]
    exact startsBare_append (by decide) _
  rw [trim_of_bare hstart hr, htmlLink, hword, List.cons_append, List.cons_append,
    ofPayload_of_head (by decide)]

theorem ofPayload_uploaded (hurl : IsUrl endsQuoted url) (hvalue : IsValue value) :
    ofPayload (trim (htmlLink url value ++ ": uploaded".toList)) =
      .ok (.link (some uploadedTitle) (String.ofList value) (String.ofList url)) := by
  have hend : endsBare (htmlLink url value ++ ": uploaded".toList) = true :=
    endsBare_append (by decide) _
  rw [ofPayload_htmlLink_append hend, ofText_uploaded hurl hvalue]

theorem endsBare_htmlLink (url value : List Char) : endsBare (htmlLink url value) = true := by
  have hvalue : endsBare (value ++ "</a>".toList) = true := endsBare_append (by decide) value
  have htail : endsBare ('>' :: (value ++ "</a>".toList)) = true := endsBare_append hvalue ['>']
  have hquoted : endsBare (url ++ '\'' :: '>' :: (value ++ "</a>".toList)) = true :=
    endsBare_append (endsBare_append htail ['\'']) url
  exact endsBare_append (endsBare_append (endsBare_append hquoted ['\'']) _) _

theorem ofPayload_htmlLink (hurl : IsUrl endsQuoted url) (hvalue : IsValue value)
    (hplain : ¬ "</a>: uploaded".toList <:+: value) :
    ofPayload (trim (htmlLink url value)) =
      .ok (.link none (String.ofList value) (String.ofList url)) := by
  have hnil : htmlLink url value ++ [] = htmlLink url value := List.append_nil _
  have hend : endsBare (htmlLink url value ++ []) = true := by
    rw [hnil]
    exact endsBare_htmlLink url value
  rw [← hnil, ofPayload_htmlLink_append hend, hnil, ofText_htmlLink hurl hvalue hplain]

theorem ofPayload_url (hurl : IsUrl isBlank url) :
    ofPayload (trim url) = .ok (.link none (String.ofList url) (String.ofList url)) := by
  obtain ⟨t, ht⟩ := hurl.exists_cons
  have hpayload : ofPayload url = .ok (ofText url) := by
    rw [ht]
    exact ofPayload_of_head (by decide) t
  have hstart : startsBare url = true := by
    rw [ht]
    exact startsBare_append (s := ['h']) (by decide) t
  rw [trim_of_bare hstart hurl.endsBare, hpayload, ofText_url hurl]

theorem IsTitle.startsBare_append (h : IsTitle title) (r : List Char) :
    startsBare (title ++ r) = true := by
  obtain ⟨c, t, rfl, -, hc⟩ := h.exists_cons
  simp [startsBare, hc]

theorem ofPayload_titled (h : IsTitle title) {r : List Char} (hr : endsBare r = true) :
    ofPayload (trim (title ++ ':' :: ' ' :: r)) = .ok (ofText (title ++ ':' :: ' ' :: r)) := by
  have hend : endsBare (title ++ ':' :: ' ' :: r) = true :=
    endsBare_append (endsBare_append hr [':', ' ']) title
  rw [trim_of_bare (h.startsBare_append _) hend, ofPayload_of_title h (by decide)]

theorem ofPayload_titled_htmlLink (h : IsTitle title) (hurl : IsUrl endsQuoted url)
    (hvalue : IsValue value) :
    ofPayload (trim (title ++ ':' :: ' ' :: htmlLink url value)) =
      .ok (.link (some (String.ofList title)) (String.ofList value) (String.ofList url)) := by
  rw [ofPayload_titled h (endsBare_htmlLink url value), ofText_titled_htmlLink h hurl hvalue]

theorem ofPayload_titled_url (h : IsTitle title) (hurl : IsUrl isBlank url) :
    ofPayload (trim (title ++ ':' :: ' ' :: url)) =
      .ok (.link (some (String.ofList title)) (String.ofList url) (String.ofList url)) := by
  rw [ofPayload_titled h hurl.endsBare, ofText_titled_url h hurl]

theorem ofPayload_pair (h : IsTitle title) (value : List Char) :
    ofPayload (trim (title ++ ("<br/>".toList ++ value))) =
      .ok (.rawHtml (some (String.ofList (trim title))) (String.ofList (trim value))) := by
  obtain ⟨c, t, htitle, -, hc⟩ := h.exists_cons
  have hword : "<br/>".toList = '<' :: "br/".toList ++ ['>'] := by decide
  have htrim : trim (title ++ ("<br/>".toList ++ value)) =
      title ++ ("<br/>".toList ++ trimEnd value) := by
    have hstart : trimStart (title ++ ("<br/>".toList ++ value)) =
        title ++ ("<br/>".toList ++ value) := by
      rw [htitle]
      exact trimStart_cons hc _
    have hfront : title ++ ("<br/>".toList ++ value) =
        (title ++ '<' :: "br/".toList) ++ '>' :: value := by
      rw [hword]
      simp only [List.append_assoc, List.cons_append, List.nil_append]
    rw [trim, hstart, hfront, trimEnd_append_cons (by decide), hword]
    simp only [List.append_assoc, List.cons_append, List.nil_append]
  rw [htrim, hword, List.cons_append, List.cons_append, ofPayload_of_title h (by decide),
    ← List.cons_append, ← List.cons_append, ← hword, ofText_pair h, trim_trimEnd]

end Forms

theorem readLine_eq_iff {ds : List Detail} {before blanks payload blanks' : String}
    (hbefore : ¬ marker <:+: before.toList) (hblanks : ∀ c ∈ blanks.toList, isBlank c = true)
    (hblanks' : ∀ c ∈ blanks'.toList, isBlank c = true) (d : Detail) (n : Nat) :
    (Section.details ds).readLine
        (before ++ "TinderboxPrint:" ++ blanks ++ payload ++ blanks') n =
      (.details (ds ++ [d]), none) ↔ ofPayload (trim payload.toList) = .ok d := by
  generalize hline : before ++ "TinderboxPrint:" ++ blanks ++ payload ++ blanks' = line
  have htext : line.toList =
      before.toList ++ (marker ++ (blanks.toList ++ (payload.toList ++ blanks'.toList))) := by
    have hmarker : "TinderboxPrint:".toList = marker := rfl
    simp only [← hline, String.toList_append, hmarker]
    simp only [List.append_assoc]
  have htrim : trim payload.toList = trim (blanks.toList ++ (payload.toList ++ blanks'.toList)) :=
    (trim_surround hblanks hblanks' payload.toList).symm
  have hpayload : payload? line = some (trim payload.toList) :=
    payload?_eq_some_iff.mpr ⟨before.toList, _, htext, hbefore, htrim⟩
  rw [Section.readLine_of_payload hpayload]
  cases ofPayload (trim payload.toList) with
  | ok d' => simp
  | error e => simp

theorem toList_htmlLink (url value : String) :
    ("<a href='" ++ url ++ "'>" ++ value ++ "</a>").toList =
      htmlLink url.toList value.toList := by
  have hopen : "<a href='".toList = "<a ".toList ++ ("href=".toList ++ ['\'']) := by decide
  have hclose : "'>".toList = ['\'', '>'] := by decide
  have hparts : ("<a href='" ++ url ++ "'>" ++ value ++ "</a>").toList =
      "<a href='".toList ++ url.toList ++ "'>".toList ++ value.toList ++ "</a>".toList := by
    simp only [String.toList_append]
  unfold htmlLink
  rw [hparts, hopen, hclose]
  generalize "<a ".toList = a, "href=".toList = b, "</a>".toList = c
  simp only [List.append_assoc, List.cons_append, List.nil_append]

end BuildLog.DetailLine
