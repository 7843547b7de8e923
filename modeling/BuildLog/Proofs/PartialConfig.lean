import BuildLog.Config
import BuildLog.Proofs.LossyDecoding
import BuildLog.Proofs.RecordFields
import BuildLog.Proofs.TomlLines
import BuildLog.Proofs.TruncationLaws

namespace BuildLog.Config
open String (utf8EncodeChar)

structure Choice where
  maxLineLength : Option Nat
  measurementMarkers : Option (List String)
  checkErrors : Option Bool
  maxStepErrors : Option Nat

namespace Choice

def config (g : Choice) : Config where
  maxLineLength := g.maxLineLength.getD 500
  measurementMarkers := g.measurementMarkers.getD ["TALOSDATA", "TalosResult"]
  checkErrors := g.checkErrors.getD true
  maxStepErrors := g.maxStepErrors.getD 100

structure Below (g : Choice) (bound : Nat) : Prop where
  maxLineLength : ∀ n, g.maxLineLength = some n → n < bound
  maxStepErrors : ∀ n, g.maxStepErrors = some n → n < bound

end Choice

/-- Whether the entries give the form of `a` at the key, or nothing at all if there is no `a`. -/
def GivesAt {α β : Type} (entries : List (String × β)) (key : String) (form : α → β) :
    Option α → Prop
  | some a => (key, form a) ∈ entries
  | none => key ∉ entries.map Prod.fst

/-- Whether the entries give the settings, each key standing once, and maybe other keys. -/
structure Choice.GivenBy {β : Type} (g : Choice) (entries : List (String × β)) (number : Nat → β)
    (texts : List String → β) (flag : Bool → β) : Prop where
  distinct : (entries.map Prod.fst).Nodup
  maxLineLength : GivesAt entries "max_line_length" number g.maxLineLength
  measurementMarkers : GivesAt entries "measurement_markers" texts g.measurementMarkers
  checkErrors : GivesAt entries "check_errors" flag g.checkErrors
  maxStepErrors : GivesAt entries "max_step_errors" number g.maxStepErrors

def Choice.GivenByToml (g : Choice) (d : Toml.Document) : Prop :=
  g.GivenBy d.entries (fun n => .integer n) (fun ss => .array (ss.map .string)) .boolean

def Choice.GivenByJson (g : Choice) (fields : List (String × Json)) : Prop :=
  g.GivenBy fields (fun n => .int n) (fun ss => .array (ss.map .string)) .bool

theorem setting?_eq {α : Type} {entries : List (String × Toml)}
    (hdistinct : (entries.map Prod.fst).Nodup) {key : String} {form : α → Toml} {a : Option α}
    (h : GivesAt entries key form a) {of? : Toml → Option α} (absent : α)
    (hof : ∀ x, a = some x → of? (form x) = some x) :
    setting? (Dictionary.ofList entries) key of? absent = some (a.getD absent) := by
  cases a with
  | some x =>
    have hget : Dictionary.get? (Dictionary.ofList entries) key = some (form x) :=
      (Dictionary.get?_ofList_eq_some_iff hdistinct).mpr h
    rw [setting?, hget, Option.getD_some]
    exact hof x rfl
  | none =>
    have hget : Dictionary.get? (Dictionary.ofList entries) key = none := by
      apply Option.eq_none_iff_forall_ne_some.mpr
      intro v hv
      exact h (List.mem_map_of_mem ((Dictionary.get?_ofList_eq_some_iff hdistinct).mp hv))
    rw [setting?, hget, Option.getD_none]

theorem countOf?_integer {n : Nat} (h : n < Nat.pow 2 64) : countOf? (.integer n) = some n := by
  have hpow : Nat.pow 2 64 = 18446744073709551616 := rfl
  have hbound : Int.pow 2 64 = 18446744073709551616 := rfl
  have hfits : (0 ≤ (n : Int) && (n : Int) < Int.pow 2 64) = true := by
    simp only [Bool.and_eq_true, decide_eq_true_eq]
    omega
  rw [countOf?, if_pos hfits, Int.toNat_natCast]

theorem textsOf?_texts (ss : List String) : textsOf? (.array (ss.map .string)) = some ss := by
  rw [textsOf?]
  induction ss with
  | nil => rfl
  | cons s ss ih => simp [textOf?, ih]

theorem ofBytes_document {g : Choice} {d : Toml.Document} (hbelow : g.Below (Nat.pow 2 63))
    (h : g.GivenByToml d) : ofBytes (d.text.flatMap utf8EncodeChar) = .ok g.config := by
  have hcount (a : Option Nat) (ha : ∀ n, a = some n → n < Nat.pow 2 63) :
      ∀ n, a = some n → countOf? (.integer n) = some n := by
    intro n hn
    apply countOf?_integer
    exact Nat.lt_trans (ha n hn) (by decide)
  have hentries : ofEntries? (Dictionary.ofList d.entries) = some g.config := by
    rw [ofEntries?, setting?_eq h.distinct h.maxLineLength _ (hcount _ hbelow.maxLineLength),
      setting?_eq h.distinct h.measurementMarkers _ fun ss _ => textsOf?_texts ss,
      setting?_eq h.distinct h.checkErrors _ fun _ _ => rfl,
      setting?_eq h.distinct h.maxStepErrors _ (hcount _ hbelow.maxStepErrors)]
    rfl
  rw [ofBytes, Text.Utf8.decode?_flatMap_utf8EncodeChar]
  simp only [ofToml, Toml.parse_document h.distinct, hentries, bind, Except.bind]
  rfl

theorem ofBytes_document_of_not_nodup {d : Toml.Document}
    (h : ¬ (d.entries.map Prod.fst).Nodup) :
    ∃ why, ofBytes (d.text.flatMap utf8EncodeChar) = .error (.notConfig why) := by
  obtain ⟨why, hparse⟩ := Toml.parse_document_of_not_nodup h
  refine ⟨why, ?_⟩
  rw [ofBytes, Text.Utf8.decode?_flatMap_utf8EncodeChar]
  simp only [ofToml, hparse, bind, Except.bind]
  rfl

theorem GivesAt.eq_of_mem {α β : Type} {entries : List (String × β)}
    (hdistinct : (entries.map Prod.fst).Nodup) {key : String} {form : α → β} {a : Option α}
    (h : GivesAt entries key form a) {v : β} (hv : (key, v) ∈ entries) :
    ∃ x, a = some x ∧ v = form x := by
  cases a with
  | none => exact absurd (List.mem_map_of_mem hv) h
  | some x =>
    have hget := (Dictionary.get?_ofList_eq_some_iff hdistinct).mpr hv
    rw [(Dictionary.get?_ofList_eq_some_iff hdistinct).mpr h] at hget
    exact ⟨x, rfl, (Option.some.inj hget).symm⟩

theorem GivesAt.mem_or_eq {α β : Type} {entries : List (String × β)} {key : String} {form : α → β}
    {a : Option α} (h : GivesAt entries key form a) (absent : α) :
    key ∈ entries.map Prod.fst ∨ some absent = some (a.getD absent) := by
  cases a with
  | none => exact .inr rfl
  | some x => exact .inl (List.mem_map_of_mem h)

theorem GivesAt.reads {α : Type} {entries : List (String × Json)}
    (hdistinct : (entries.map Prod.fst).Nodup) {key : String} {form : α → Json} {a : Option α}
    (h : GivesAt entries key form a) {item : Json.Reader α} (absent : α)
    (hitem : ∀ x, a = some x → Json.ReadsBack item (form x) x) {j : Json}
    (hj : (key, j) ∈ entries) : Json.Reads item j (a.getD absent) := by
  obtain ⟨x, rfl, rfl⟩ := h.eq_of_mem hdistinct hj
  exact hitem x rfl _ (.refl _)

theorem readAll_object {g : Choice} {fields : List (String × Json)}
    (hbelow : g.Below (Nat.pow 2 64)) (h : g.GivenByJson fields) :
    Json.readAll Config.read (Json.compact (.object fields)) = .ok g.config := by
  have hrecord : Json.Reads (record.read "ParserConfig") (.object fields)
      (g.config.maxLineLength, g.config.measurementMarkers, g.config.checkErrors,
        g.config.maxStepErrors, ()) := by
    apply Json.Record.reads_object (by decide) _ h.distinct
    · rintro ⟨name, j⟩ hj hname
      simp only [record, Json.Record.names, List.mem_cons, List.not_mem_nil, or_false] at hname
      obtain rfl | rfl | rfl | rfl := hname
      · exact h.maxLineLength.reads h.distinct _
          (fun n hn => Json.readsBack_readCount (hbelow.maxLineLength n hn)) hj
      · exact h.measurementMarkers.reads h.distinct _
          (fun ss _ => Json.readsBack_readList fun s _ => Json.readsBack_readText s) hj
      · exact h.checkErrors.reads h.distinct _ (fun b _ => Json.readsBack_readFlag b) hj
      · exact h.maxStepErrors.reads h.distinct _
          (fun n hn => Json.readsBack_readCount (hbelow.maxStepErrors n hn)) hj
    · exact ⟨h.maxLineLength.mem_or_eq _, h.measurementMarkers.mem_or_eq _,
        h.checkErrors.mem_or_eq _, h.maxStepErrors.mem_or_eq _, trivial⟩
  apply Json.readAll_of_reads
  refine ⟨hrecord.starts, ?_⟩
  intro r hr
  simp only [Config.read, hrecord.read hr, bind, Except.bind, pure, Except.pure]

theorem exists_of_isExempt {c : Config} {line : String}
    (h : c.options.truncation.isExempt line = true) :
    ∃ m ∈ c.measurementMarkers, m ≠ "" ∧ m.toList <:+: line.toList :=
  Truncation.isExempt_ofMarkers_iff.mp h

section Sample

open Toml

theorem isDate_sample : IsDate ['2', '0', '2', '0', '-', '0', '1', '-', '0', '1'] := by
  have hday : Fixed 10 2 ['0', '1'] 1 := by
    refine ⟨?_, by decide, rfl⟩
    exact .next (w := ['0']) (n := 0) (.one (by decide) (.inl rfl)) (by decide : 1 < 10) (.inl rfl)
  have hyear : Fixed 10 4 ['2', '0', '2', '0'] 2020 := ⟨digits_natText 2020, by decide, rfl⟩
  exact ⟨⟨2020, 1, 1⟩, _, _, _, rfl, by decide, hyear, hday, hday⟩

theorem isFloat_sample : IsFloat ['-', '1', '.', '5'] := by
  have hbound : 10 + 2 ^ 970 < 2 ^ 1024 := by decide +kernel
  have hfinite : (10 : ℚ) < 2 ^ 1024 - 2 ^ 970 := lt_sub_iff_add_lt.mpr (by exact_mod_cast hbound)
  refine .finite (s := ['-']) (by decide)
    (.fraction (isDecimal_natText 1) (digits_natText 5)) (lt_trans ?_ hfinite)
  have hplaces : ['5'].countP (· ≠ '_') = 1 := by decide
  rw [hplaces]
  norm_num

theorem spells_sampleTable :
    Spells ['{', 'x', '.', 'y', ' ', '=', ' ', '-', '1', '.', '5', '}']
      (.table [("x", .table [("y", .float "-1.5")])]) := by
  have hnone : ∀ c ∈ ([] : List Char), IsBlank c := List.forall_mem_nil _
  have hx : IsSimpleKey ['x'] "x" := .bare (by decide) (by simp [IsKeyChar])
  have hy : IsSimpleKey ['y'] "y" := .bare (by decide) (by simp [IsKeyChar])
  have hkey : IsKey ['x', '.', 'y', ' '] ["x", "y"] :=
    .more hx hnone hnone (.last hy (b := [' ']) (by simp [IsBlank]))
  have hvalue : SpellsWithin 79 ['-', '1', '.', '5'] (.float "-1.5") :=
    .scalar (.float isFloat_sample)
  have hentry : KeyValue (SpellsWithin 79) ['x', '.', 'y', ' ', '=', ' ', '-', '1', '.', '5']
      (["x", "y"], .float "-1.5") :=
    .intro hkey (by simp) (.space .nil) (.space (.blank (.inl rfl) .nil)) hvalue
  exact .table (.last (.space .nil) hentry (.space .nil)) (by simp)

theorem isTextElements_sample :
    IsTextElements ['"', '\\', 'u', '0', '0', '4', '1', '"', ',', ' ', '"', '"', ']']
      ["A", ""] := by
  have hletter : IsBasicString ['"', '\\', 'u', '0', '0', '4', '1', '"'] "A" :=
    ⟨_, rfl, .escape (.code (by decide : ('u', 4) ∈ codeEscapes)
      (fixed_of_lt (by decide : 'A'.toNat < 256))) .nil⟩
  have hempty : IsBasicString ['"', '"'] "" := ⟨[], rfl, .nil⟩
  exact .more (.space .nil) hletter (.space .nil)
    (.last (.space (.blank (.inl rfl) .nil)) hempty (.space .nil))

/-- A comment, settings between lines with other names, an empty line, and an indented line. -/
def sampleFile : Document where
  lines := [
    (⟨[], by simp, .comment [' ', 'l', 'i', 'm', 'i', 't', 's'] (by simp [IsPlain])⟩, .feed),
    (⟨[], by simp, .setting "max_step_errors" ['5'] (.integer 5)
      ⟨by decide, by simp [IsKeyChar]⟩ (.number (by decide : 5 < 2 ^ 63))⟩, .returnFeed),
    (⟨[], by simp, .setting "since" ['2', '0', '2', '0', '-', '0', '1', '-', '0', '1']
      (.datetime "2020-01-01") ⟨by decide, by simp [IsKeyChar]⟩
      (.scalar (.datetime (.date isDate_sample)))⟩, .feed),
    (⟨[], by simp, .setting "path" ['\'', 'a', '\\', 'b', '\''] (.string "a\\b")
      ⟨by decide, by simp [IsKeyChar]⟩
      (.scalar (.string (.literal ⟨rfl, by simp [IsPlain]⟩)))⟩, .feed),
    (⟨[], by simp, .setting "scale" ['{', 'x', '.', 'y', ' ', '=', ' ', '-', '1', '.', '5', '}']
      (.table [("x", .table [("y", .float "-1.5")])]) ⟨by decide, by simp [IsKeyChar]⟩
      spells_sampleTable⟩, .feed),
    (⟨[], by simp, .nothing⟩, .feed)]
  last := ⟨[' ', ' '], by simp [IsBlank], .setting "measurement_markers"
    ['[', '"', '\\', 'u', '0', '0', '4', '1', '"', ',', ' ', '"', '"', ']']
    (.array [.string "A", .string ""])
    ⟨by decide, by simp [IsKeyChar]⟩ (.texts isTextElements_sample)⟩

end Sample

/-- A file or an object overrides the defaults of exactly the settings that it gives, whatever
order they are in and whatever else it holds; any texts can be given as markers. A file in which a
key is given twice is no configuration. The options of a report are the settings without the empty
markers, so that no line is exempt that holds none of the others. -/
theorem settings_override_defaults :
    (∀ (g : Choice) (d : Toml.Document), g.Below (Nat.pow 2 63) → g.GivenByToml d →
      ofBytes (d.text.flatMap utf8EncodeChar) = .ok g.config) ∧
    (∀ texts : List String, ∃ w, Toml.IsTextElements w texts) ∧
    (∀ d : Toml.Document, ¬ (d.entries.map Prod.fst).Nodup →
      ∃ why, ofBytes (d.text.flatMap utf8EncodeChar) = .error (.notConfig why)) ∧
    (∀ (g : Choice) (fields : List (String × Json)), g.Below (Nat.pow 2 64) →
      g.GivenByJson fields →
      Json.readAll Config.read (Json.compact (.object fields)) = .ok g.config) ∧
    ∀ c : Config, c.options.checkErrors = c.checkErrors ∧
      c.options.maxStepErrors = c.maxStepErrors ∧
      c.options.truncation.limit = c.maxLineLength ∧
      c.options.truncation.markers = c.measurementMarkers.filter (· ≠ "") ∧
      ∀ line, c.options.truncation.isExempt line = true →
        ∃ m ∈ c.measurementMarkers, m ≠ "" ∧ m.toList <:+: line.toList :=
  ⟨fun _ _ => ofBytes_document, Toml.exists_isTextElements, fun _ => ofBytes_document_of_not_nodup,
    fun _ _ => readAll_object, fun _ => ⟨rfl, rfl, rfl, rfl, fun _ => exists_of_isExempt⟩⟩

theorem sampleFile_overrides :
    sampleFile.text = ("# limits\nmax_step_errors = 5\r\nsince = 2020-01-01\n" ++
      "path = 'a\\b'\nscale = \x7bx.y = -1.5\x7d\n\n" ++
      "  measurement_markers = [\"\\u0041\", \"\"]").toList ∧
    ofBytes (sampleFile.text.flatMap utf8EncodeChar) = .ok ⟨500, ["A", ""], true, 5⟩ ∧
    (∃ why, ofBytes ((⟨sampleFile.lines, sampleFile.lines[1].1⟩ : Toml.Document).text.flatMap
      utf8EncodeChar) = .error (.notConfig why)) ∧
    Json.readAll Config.read (Json.compact (.object [
      ("measurement_markers", .array [.string "A", .string ""]), ("since", .null),
      ("max_step_errors", .int 5)])) = .ok ⟨500, ["A", ""], true, 5⟩ := by
  have hbelow (bound : Nat) (h : 5 < bound) :
      (⟨none, some ["A", ""], none, some 5⟩ : Choice).Below bound :=
    ⟨nofun, fun n hn => by rwa [← Option.some.inj hn]⟩
  refine ⟨by decide +kernel, ?_, ?_, ?_⟩
  · apply settings_override_defaults.1 ⟨none, some ["A", ""], none, some 5⟩ sampleFile
    · exact hbelow _ (by decide)
    · have hentries : sampleFile.entries = [("max_step_errors", .integer 5),
          ("since", .datetime "2020-01-01"), ("path", .string "a\\b"),
          ("scale", .table [("x", .table [("y", .float "-1.5")])]),
          ("measurement_markers", .array [.string "A", .string ""])] := rfl
      constructor <;> simp [hentries, GivesAt]
  · apply settings_override_defaults.2.2.1
    decide
  · apply settings_override_defaults.2.2.2.1 ⟨none, some ["A", ""], none, some 5⟩
    · exact hbelow _ (by decide)
    · constructor <;> simp [GivesAt]

end BuildLog.Config
