import BuildLog.Proofs.TomlValues

namespace BuildLog.Toml
open Text

def IsBareKey (key : String) : Prop := key ≠ "" ∧ ∀ c ∈ key.toList, IsKeyChar c

/-- What a line holds: nothing, a comment, or a key and what stands for its value. -/
inductive Content where
  | nothing
  | comment (text : List Char) (plain : ∀ c ∈ text, IsPlain c)
  | setting (key : String) (text : List Char) (value : Toml) (bare : IsBareKey key)
    (spells : Spells text value)

namespace Content

def text : Content → List Char
  | nothing => []
  | comment text _ => '#' :: text
  | setting key text _ _ _ => key.toList ++ ' ' :: '=' :: ' ' :: text

def entry? : Content → Option (String × Toml)
  | setting key _ value _ _ => some (key, value)
  | _ => none

end Content

structure Line where
  indent : List Char
  blank : ∀ c ∈ indent, IsBlank c
  content : Content

def Line.text (l : Line) : List Char := l.indent ++ l.content.text

inductive LineEnd where
  | feed
  | returnFeed
deriving DecidableEq

def LineEnd.text : LineEnd → List Char
  | feed => ['\n']
  | returnFeed => ['\r', '\n']

/-- A document without headers: lines with their ends, and a last line that has none. -/
structure Document where
  lines : List (Line × LineEnd)
  last : Line

namespace Document

def text (d : Document) : List Char :=
  d.lines.flatMap (fun l => l.1.text ++ l.2.text) ++ d.last.text

def entries (d : Document) : List (String × Toml) :=
  (d.lines.map Prod.fst ++ [d.last]).filterMap (·.content.entry?)

section

variable (l : Line × LineEnd) (lines : List (Line × LineEnd)) (last : Line)

theorem text_nil : text ⟨[], last⟩ = last.text ++ [] := by simp [text]

theorem text_cons : text ⟨l :: lines, last⟩ = l.1.text ++ (l.2.text ++ text ⟨lines, last⟩) := by
  simp [text]

theorem entries_nil : entries ⟨[], last⟩ = last.content.entry?.toList ++ [] := by
  cases h : last.content.entry? <;> simp [entries, h]

theorem entries_cons :
    entries ⟨l :: lines, last⟩ = l.1.content.entry?.toList ++ entries ⟨lines, last⟩ := by
  cases h : l.1.content.entry? <;> simp [entries, h]

end

theorem inRange_of_mem (d : Document) {e : String × Toml} (he : e ∈ d.entries) :
    inRange e.2 = true := by
  obtain ⟨⟨_, _, content⟩, -, he⟩ := List.mem_filterMap.mp he
  cases content with
  | nothing => contradiction
  | comment text plain => contradiction
  | setting key text value bare spells =>
    cases he
    exact covers_spells.inRange spells

theorem length_entries_le (d : Document) : d.entries.length ≤ d.text.length := by
  have hline (l : Line) : l.content.entry?.toList.length ≤ l.text.length := by
    obtain ⟨indent, -, content⟩ := l
    cases content <;> simp [Content.entry?, Line.text, Content.text]
    omega
  obtain ⟨lines, last⟩ := d
  induction lines with
  | nil =>
    rw [text_nil, entries_nil, List.append_nil, List.append_nil]
    exact hline last
  | cons l lines ih =>
    have hfirst := hline l.1
    rw [text_cons, entries_cons, List.length_append, List.length_append, List.length_append]
    omega

end Document

/-- Whether a line is over in front of the text. -/
def lineOver : List Char → Bool
  | [] => true
  | '\n' :: _ => true
  | '\r' :: '\n' :: _ => true
  | _ => false

theorem valueOver_of_lineOver {t : List Char} (h : lineOver t = true) : ValueOver t := by
  unfold lineOver at h
  split at h
  · exact ⟨nofun, nofun, nofun⟩
  · refine ⟨?_, ?_, nofun⟩ <;>
      (intro c hc; obtain rfl := Option.some.inj hc; decide)
  · refine ⟨?_, ?_, nofun⟩ <;>
      (intro c hc; obtain rfl := Option.some.inj hc; decide)
  · contradiction

theorem gap_of_blanks {g : List Char} (h : ∀ c ∈ g, IsBlank c) (s : List Char) :
    gap false (g ++ s) = gap false s :=
  gap_of_isSpace (isSpace_of_blanks h) s

theorem gap_of_endLine {t r : List Char} (ht : lineOver t = true) (h : endLine false t = some r)
    (inComment : Bool) : gap inComment t = gap false r := by
  unfold lineOver at ht
  split at ht
  · rw [endLine] at h
    cases h
    cases inComment <;> rfl
  · rw [endLine] at h
    cases h
    cases inComment <;> rfl
  · rw [endLine] at h
    cases h
    cases inComment <;> rfl
  · contradiction

theorem readStatements_of_gap {s s' : List Char} (h : gap false s = gap false s') (fuel : Nat)
    (path : List String) (es : Entries) :
    readStatements fuel path es s = readStatements fuel path es s' := by
  cases fuel with
  | zero => rfl
  | succ fuel => rw [readStatements, readStatements, h]

theorem readStatements_keyValue {s t r u : List Char} {c : Char} {ks : List String} {v : Toml}
    (hs : gap false s = some (c :: t)) (hc : c ≠ '[')
    (hread : readKeyValue (some ∘ skipBlanks) (readValue maxDepth) (c :: t) = .ok ((ks, v), r))
    (hr : endLine false r = some u) (fuel : Nat) (es : Entries) :
    readStatements (fuel + 1) [] es s =
      orMalformed (assignKeys ks v es) >>= fun es => readStatements fuel [] es u := by
  rw [readStatements, hs]
  simp only [orMalformed, bind, Except.bind, changeAtHeader, changeAt]
  split
  · contradiction
  · rename_i heq
    exact absurd (List.cons.inj heq).1 hc
  · rename_i heq
    exact absurd (List.cons.inj heq).1 hc
  · simp only [hread, hr]

theorem IsBareKey.ne_nil {key : String} (h : IsBareKey key) : key.toList ≠ [] :=
  fun hnil => h.1 (String.toList_eq_nil_iff.mp hnil)

theorem IsBareKey.exists_cons {key : String} (h : IsBareKey key) :
    ∃ c cs, key.toList = c :: cs ∧ isBareChar c = true := by
  obtain ⟨c, cs, hkey⟩ := List.exists_cons_of_ne_nil h.ne_nil
  have hc : IsKeyChar c := h.2 c (by rw [hkey]; exact List.mem_cons_self)
  exact ⟨c, cs, hkey, isBareChar_of_isKeyChar (isKeyChar_iff.mpr hc)⟩

theorem readKey_bare {key : String} (h : IsBareKey key) (s : List Char) :
    readKey (key.toList ++ ' ' :: '=' :: s) = .ok ([key], '=' :: s) := by
  have hsimple := IsSimpleKey.bare h.ne_nil h.2
  rw [String.ofList_toList] at hsimple
  have hkey := IsKey.last hsimple (List.forall_mem_nil IsBlank)
  rw [List.append_nil] at hkey
  have hfew : [key].length ≤ 80 := Nat.le_add_left 1 79
  apply readKey_of hkey hfew
  · intro c hc
    rw [← Option.some.inj hc]
    rfl
  · exact nofun

theorem readKeyValue_setting {key : String} {w t : List Char} {v : Toml} (hkey : IsBareKey key)
    (hw : Spells w v) (ht : lineOver t = true) :
    readKeyValue (some ∘ skipBlanks) (readValue maxDepth)
      (key.toList ++ ' ' :: '=' :: ' ' :: (w ++ t)) = .ok (([key], v), t) := by
  have hread := covers_spells.read hw (valueOver_of_lineOver ht)
  have hskip : skipBlanks (' ' :: (w ++ t)) = w ++ t := by
    obtain ⟨c, u, rfl, hc⟩ := covers_spells.begins hw
    exact skipBlanks_of_opens hc _
  exact readKeyValue_eq_ok (readKey_bare hkey _) rfl (by rw [Function.comp_apply, hskip]) hread

/-- What a line gives is assigned, and the statements go on with the next line. -/
theorem readStatements_line (l : Line) {t r : List Char} (ht : lineOver t = true)
    (hr : endLine false t = some r) (fuel : Nat) (es : Entries) :
    readStatements (fuel + 1) [] es (l.text ++ t) =
      match l.content.entry? with
      | none => readStatements (fuel + 1) [] es r
      | some e =>
        orMalformed (assignKeys [e.1] e.2 es) >>= fun es => readStatements fuel [] es r := by
  obtain ⟨indent, hindent, content⟩ := l
  have hgap (s : List Char) : gap false (indent ++ s) = gap false s := gap_of_blanks hindent s
  cases content with
  | nothing =>
    apply readStatements_of_gap
    simp only [Line.text, Content.text, List.append_nil, hgap, gap_of_endLine ht hr]
  | comment text plain =>
    apply readStatements_of_gap
    simp only [Line.text, Content.text, List.append_assoc, hgap, List.cons_append]
    calc gap false ('#' :: (text ++ t)) = gap true (text ++ t) := rfl
      _ = gap true t := gap_of_comment plain t
      _ = gap false r := gap_of_endLine ht hr true
  | setting key text value bare spells =>
    have hread := readKeyValue_setting bare spells ht
    have hgap := hgap (key.toList ++ ' ' :: '=' :: ' ' :: (text ++ t))
    obtain ⟨c, cs, hkey, hc⟩ := bare.exists_cons
    have hbracket : c ≠ '[' := by
      rintro rfl
      contradiction
    rw [hkey, List.cons_append] at hread hgap
    rw [gap_of_opens (opens_of_isBareChar hc)] at hgap
    simp only [Line.text, Content.text, List.append_assoc, List.cons_append, hkey]
    exact readStatements_keyValue hgap hbracket hread hr fuel es

def assignAll (entries : List (String × Toml)) (es : Entries) : Option Entries :=
  entries.foldlM (fun es e => assignKeys [e.1] e.2 es) es

theorem readStatements_line_append (l : Line) {t r : List Char} (ht : lineOver t = true)
    (hr : endLine false t = some r) {rest : List (String × Toml)}
    (hrest : ∀ {fuel : Nat} (es : Entries), rest.length < fuel →
      readStatements fuel [] es r = orMalformed (assignAll rest es)) {fuel : Nat} (es : Entries)
    (hfuel : (l.content.entry?.toList ++ rest).length < fuel) :
    readStatements fuel [] es (l.text ++ t) =
      orMalformed (assignAll (l.content.entry?.toList ++ rest) es) := by
  obtain ⟨fuel, rfl⟩ := Nat.exists_eq_add_one_of_ne_zero (Nat.ne_zero_of_lt hfuel)
  rw [readStatements_line l ht hr]
  generalize l.content.entry? = entry at hfuel ⊢
  cases entry with
  | none => exact hrest es hfuel
  | some e =>
    have hless : rest.length < fuel := Nat.lt_of_succ_lt_succ hfuel
    simp only [Option.toList_some, List.singleton_append, assignAll, List.foldlM_cons]
    cases assignKeys [e.1] e.2 es with
    | none => rfl
    | some es => exact hrest es hless

/-- The statements of a document are its lines' assignments. -/
theorem readStatements_document (d : Document) {fuel : Nat} (es : Entries)
    (hfuel : d.entries.length < fuel) :
    readStatements fuel [] es d.text = orMalformed (assignAll d.entries es) := by
  obtain ⟨lines, last⟩ := d
  induction lines generalizing fuel es with
  | nil =>
    have hrest {fuel : Nat} (es : Entries) (hfuel : ([] : List (String × Toml)).length < fuel) :
        readStatements fuel [] es [] = orMalformed (assignAll [] es) := by
      obtain ⟨fuel, rfl⟩ := Nat.exists_eq_add_one_of_ne_zero (Nat.ne_zero_of_lt hfuel)
      rfl
    rw [Document.entries_nil] at hfuel ⊢
    rw [Document.text_nil]
    exact readStatements_line_append last rfl rfl hrest es hfuel
  | cons l lines ih =>
    rw [Document.entries_cons] at hfuel ⊢
    rw [Document.text_cons]
    apply readStatements_line_append l.1 _ _ ih es hfuel
    · cases l.2 <;> rfl
    · cases l.2 <;> rfl

theorem assignKeys_singleton (key : String) (v : Toml) (es : Entries) :
    assignKeys [key] v es =
      if (Dictionary.get? es key).isNone then some (Dictionary.insert key (.value v) es)
      else none := by
  simp [assignKeys, assign, changeAt]

theorem forall_get?_insert_iff {entries : List (String × Toml)} {key : String} {n : Node}
    {es : Entries} :
    (∀ e ∈ entries, Dictionary.get? (Dictionary.insert key n es) e.1 = none) ↔
      key ∉ entries.map Prod.fst ∧ ∀ e ∈ entries, Dictionary.get? es e.1 = none := by
  constructor
  · intro h
    refine ⟨?_, ?_⟩
    · intro hmem
      obtain ⟨e, he, heq⟩ := List.mem_map.mp hmem
      have hnone := h e he
      rw [Dictionary.get?_insert, if_pos heq.symm] at hnone
      contradiction
    · intro e he
      have hnone := h e he
      rw [Dictionary.get?_insert] at hnone
      split at hnone
      · contradiction
      · exact hnone
  · rintro ⟨hkey, h⟩ e he
    have hne : key ≠ e.1 := by
      rintro rfl
      exact hkey (List.mem_map_of_mem he)
    rw [Dictionary.get?_insert, if_neg hne]
    exact h e he

/-- Assigning goes well if no key is given twice and none of them was there before. -/
theorem assignAll_eq (entries : List (String × Toml)) (es : Entries) :
    assignAll entries es =
      if (entries.map Prod.fst).Nodup ∧ ∀ e ∈ entries, Dictionary.get? es e.1 = none then
        some (entries.foldl (fun es e => Dictionary.insert e.1 (.value e.2) es) es)
      else none := by
  induction entries generalizing es with
  | nil => simp [assignAll]
  | cons e entries ih =>
    have hcons : assignAll (e :: entries) es =
        (assignKeys [e.1] e.2 es).bind (assignAll entries) := rfl
    rw [hcons, assignKeys_singleton]
    cases hfirst : Dictionary.get? es e.1 with
    | some n => simp [hfirst]
    | none =>
      rw [if_pos (by rfl), Option.bind_some, ih, List.foldl_cons]
      have hcondition : ((entries.map Prod.fst).Nodup ∧ ∀ e' ∈ entries,
          Dictionary.get? (Dictionary.insert e.1 (.value e.2) es) e'.1 = none) ↔
          ((e :: entries).map Prod.fst).Nodup ∧
            ∀ e' ∈ e :: entries, Dictionary.get? es e'.1 = none := by
        rw [forall_get?_insert_iff, List.map_cons, List.nodup_cons, List.forall_mem_cons]
        exact ⟨fun ⟨hnodup, hnew, hfresh⟩ => ⟨⟨hnew, hnodup⟩, hfirst, hfresh⟩,
          fun ⟨⟨hnew, hnodup⟩, _, hfresh⟩ => ⟨hnodup, hnew, hfresh⟩⟩
      simp only [hcondition]

theorem freezeEntries_foldl (entries : List (String × Toml)) (es : Entries) :
    freezeEntries (entries.foldl (fun es e => Dictionary.insert e.1 (.value e.2) es) es) =
      entries.foldl (fun d e => Dictionary.insert e.1 e.2 d) (freezeEntries es) := by
  induction entries generalizing es with
  | nil => rfl
  | cons e entries ih =>
    rw [List.foldl_cons, List.foldl_cons, ih, freezeEntries_insert, Node.freeze]

theorem Line.ne_mark (l : Line) {c : Char} (h : l.text.head? = some c) : c ≠ '\ufeff' := by
  obtain ⟨indent, hindent, content⟩ := l
  rintro rfl
  cases indent with
  | cons c indent =>
    obtain rfl : c = '\ufeff' := Option.some.inj h
    rcases hindent _ List.mem_cons_self with hblank | hblank <;> cases hblank
  | nil =>
    cases content with
    | nothing => cases h
    | comment text plain => cases h
    | setting key text value bare spells =>
      obtain ⟨c, cs, hkey, hc⟩ := bare.exists_cons
      rw [Line.text, Content.text, List.nil_append, hkey] at h
      obtain rfl : c = '\ufeff' := Option.some.inj h
      exact absurd hc (by decide)

theorem dropMark_document (d : Document) : dropMark d.text = d.text := by
  have hhead : d.text.head? ≠ some '\ufeff' := by
    obtain ⟨lines, last⟩ := d
    cases lines with
    | nil => exact fun h => last.ne_mark h rfl
    | cons l lines =>
      rw [Document.text, List.flatMap_cons, List.append_assoc, List.append_assoc, List.head?_append]
      intro h
      cases hline : l.1.text.head? with
      | some c =>
        rw [hline, Option.some_or] at h
        exact l.1.ne_mark hline (Option.some.inj h)
      | none =>
        rw [hline, Option.none_or] at h
        cases hend : l.2 <;> simp [hend, LineEnd.text] at h
  unfold dropMark
  split
  · rename_i heq
    rw [heq] at hhead
    exact absurd rfl hhead
  · rfl

theorem parse_document {d : Document} (h : (d.entries.map Prod.fst).Nodup) :
    parse (String.ofList d.text) = .ok (Dictionary.ofList d.entries) := by
  have hstatements := readStatements_document d [] (Nat.lt_succ_of_le d.length_entries_le)
  rw [assignAll_eq, if_pos ⟨h, fun e _ => rfl⟩] at hstatements
  have hrange : entriesInRange (Dictionary.ofList d.entries) = true := by
    rw [entriesInRange_iff]
    intro e he
    exact d.inRange_of_mem ((Dictionary.ofList_perm h).mem_iff.mp he)
  simp only [parse, String.toList_ofList, dropMark_document, hstatements, orMalformed,
    freezeEntries_foldl]
  exact if_pos hrange

theorem parse_document_of_not_nodup {d : Document} (h : ¬ (d.entries.map Prod.fst).Nodup) :
    ∃ why, parse (String.ofList d.text) = .error why := by
  have hstatements := readStatements_document d [] (Nat.lt_succ_of_le d.length_entries_le)
  rw [assignAll_eq, if_neg fun hall => h hall.1] at hstatements
  simp only [parse, String.toList_ofList, dropMark_document, hstatements, orMalformed]
  exact ⟨_, rfl⟩

end BuildLog.Toml
