import BuildLog.Proofs.JsonScalars
import BuildLog.Text.Blank
import Mathlib.Data.List.Forall2

namespace BuildLog.Json
open Text

theorem forall₂_imp_of_mem {α β : Type} {R S : α → β → Prop} {as : List α} {bs : List β}
    (h : List.Forall₂ R as bs) (himp : ∀ a ∈ as, ∀ b, R a b → S a b) : List.Forall₂ S as bs :=
  ((List.forall₂_and_left as bs).mpr ⟨himp, h⟩).imp fun _ b hab => hab.1 b hab.2

/-- Whether the text begins as a value does, with neither a blank nor a closing bracket. -/
def startsHere : List Char → Bool
  | [] => false
  | c :: _ => !isSpace c && c ≠ ']' && c ≠ '}'

/-- Whether the reader answers `a` for the text of a value, whatever follows the value. -/
structure Reads {α : Type} (reader : Reader α) (j : Json) (a : α) : Prop where
  starts : startsHere (compactText j) = true
  read : ∀ {r : List Char}, endsHere r = true → reader (compactText j ++ r) = .ok (a, r)

theorem exists_cons_of_startsHere {s : List Char} (h : startsHere s = true) :
    ∃ c t, s = c :: t ∧ isSpace c = false ∧ c ≠ ']' ∧ c ≠ '}' := by
  cases s with
  | nil => simp [startsHere] at h
  | cons c t =>
    simp only [startsHere, Bool.and_eq_true, Bool.not_eq_true', decide_eq_true_eq] at h
    exact ⟨c, t, rfl, h.1.1, h.1.2, h.2⟩

theorem skip_cons {c : Char} (h : isSpace c = false) (s : List Char) : skip (c :: s) = c :: s :=
  List.dropWhile_cons_of_neg (by rw [h]; exact Bool.false_ne_true)

theorem skip_of_startsHere {s : List Char} (h : startsHere s = true) (r : List Char) :
    skip (s ++ r) = s ++ r := by
  obtain ⟨c, t, rfl, hspace, -, -⟩ := exists_cons_of_startsHere h
  exact skip_cons hspace (t ++ r)

theorem readAll_of_reads {α : Type} {reader : Reader α} {j : Json} {a : α}
    (h : Reads reader j a) : readAll reader j.compact = .ok a := by
  have hread : reader (compactText j) = .ok (a, []) := by
    have h := h.read (r := []) rfl
    rwa [List.append_nil] at h
  rw [readAll, compact, String.toList_ofList, hread]
  rfl

theorem compactText_int (i : Int) : compactText (int i) = intText i := by
  simp only [compactText, scalarText]

theorem compactText_string (s : String) :
    compactText (string s) = '"' :: s.toList.flatMap escapedChar ++ ['"'] := by
  simp only [compactText, scalarText, stringText]

theorem compactText_bool (b : Bool) :
    compactText (bool b) = if b then ['t', 'r', 'u', 'e'] else ['f', 'a', 'l', 's', 'e'] := by
  cases b <;> simp [compactText, scalarText]

theorem compactText_null : compactText null = ['n', 'u', 'l', 'l'] := by
  simp only [compactText, scalarText]

theorem exists_cons_intText (i : Int) :
    ∃ c t, intText i = c :: t ∧ (c = '-' ∨ isAsciiDigit c = true) := by
  unfold intText
  split
  · exact ⟨'-', natText i.natAbs, rfl, .inl rfl⟩
  · obtain ⟨c, ds, hds, hc⟩ := exists_cons_natText i.natAbs
    exact ⟨c, ds, hds, .inr hc⟩

theorem ne_of_isAsciiDigit {c d : Char} (hc : c = '-' ∨ isAsciiDigit c = true) (hne : d ≠ '-')
    (hd : isAsciiDigit d = false) : c ≠ d := by
  rintro rfl
  obtain hc | hc := hc
  · exact hne hc
  · rw [hc] at hd
    contradiction

theorem isSpace_of_isAsciiDigit {c : Char} (hc : c = '-' ∨ isAsciiDigit c = true) :
    isSpace c = false := by
  simp only [isSpace, Bool.or_eq_false_iff, decide_eq_false_iff_not]
  exact ⟨⟨⟨ne_of_isAsciiDigit hc (by decide) rfl, ne_of_isAsciiDigit hc (by decide) rfl⟩,
    ne_of_isAsciiDigit hc (by decide) rfl⟩, ne_of_isAsciiDigit hc (by decide) rfl⟩

/-- A scalar is read back, and neither an array nor an object begins as it does. -/
structure ReadsScalar (j : Json) : Prop extends Reads readScalar j j where
  ne_array : (compactText j).head? ≠ some '['
  ne_object : (compactText j).head? ≠ some '{'

theorem readsScalar_null : ReadsScalar null where
  starts := by rw [compactText_null]; rfl
  read _ := by rw [compactText_null]; rfl
  ne_array := by rw [compactText_null]; decide
  ne_object := by rw [compactText_null]; decide

theorem readsScalar_bool (b : Bool) : ReadsScalar (bool b) where
  starts := by rw [compactText_bool]; cases b <;> rfl
  read _ := by rw [compactText_bool]; cases b <;> rfl
  ne_array := by rw [compactText_bool]; cases b <;> decide
  ne_object := by rw [compactText_bool]; cases b <;> decide

theorem readsScalar_string (s : String) : ReadsScalar (string s) where
  starts := by rw [compactText_string]; rfl
  read {r} _ := by
    have hread := readString_of_text s r
    rw [compactText_string, List.cons_append, List.cons_append, List.append_assoc,
      List.singleton_append, readScalar, hread]
    rfl
  ne_array := by rw [compactText_string]; simp
  ne_object := by rw [compactText_string]; simp

theorem readsScalar_int {i : Int} (hi : FitsWord i) : ReadsScalar (int i) := by
  obtain ⟨c, t, ht, hc⟩ := exists_cons_intText i
  have hspace : isSpace c = false := isSpace_of_isAsciiDigit hc
  refine ⟨⟨?_, ?_⟩, ?_, ?_⟩
  · rw [compactText_int, ht]
    have harray : c ≠ ']' := ne_of_isAsciiDigit hc (by decide) rfl
    have hobject : c ≠ '}' := ne_of_isAsciiDigit hc (by decide) rfl
    simp [startsHere, hspace, harray, hobject]
  · intro r hr
    rw [compactText_int]
    exact readScalar_intText hi hr
  · rw [compactText_int, ht, List.head?_cons, ne_eq, Option.some.injEq]
    exact ne_of_isAsciiDigit hc (by decide) rfl
  · rw [compactText_int, ht, List.head?_cons, ne_eq, Option.some.injEq]
    exact ne_of_isAsciiDigit hc (by decide) rfl

theorem reads_of_readsScalar {j : Json} (h : ReadsScalar j) (depth : Nat) :
    Reads (readValue depth) j j := by
  refine ⟨h.starts, ?_⟩
  intro r hr
  have hread := h.read hr
  obtain ⟨c, t, ht, hspace, -, -⟩ := exists_cons_of_startsHere h.starts
  have harray : c ≠ '[' := by simpa [ht] using h.ne_array
  have hobject : c ≠ '{' := by simpa [ht] using h.ne_object
  rw [ht, List.cons_append] at hread ⊢
  cases depth <;>
    · rw [readValue, readValueWith, skip_cons hspace]
      simpa [harray, hobject] using hread

theorem endsHere_compactElements (js : List Json) (r : List Char) :
    endsHere (compactElements js ++ r) = true := by
  cases js <;> simp [compactElements, endsHere]

theorem length_lt_compactElements (js : List Json) : js.length < (compactElements js).length := by
  induction js with
  | nil => exact Nat.zero_lt_one
  | cons j js ih =>
    rw [compactElements, List.length_append, List.length_cons, List.length_cons]
    omega

section Elements

variable {α : Type} {item : Reader α}

theorem readMoreElements_compact {js : List Json} {as : List α}
    (h : List.Forall₂ (Reads item) js as) {fuel : List Char} (hfuel : js.length < fuel.length)
    (r : List Char) : readMoreElements item fuel (compactElements js ++ r) = .ok (as, r) := by
  induction h generalizing fuel with
  | nil =>
    obtain ⟨f, fuel, rfl⟩ := List.exists_cons_of_length_pos hfuel
    rfl
  | @cons j a js as hj hjs ih =>
    obtain ⟨f, fuel, rfl⟩ := List.exists_cons_of_length_pos (Nat.zero_lt_of_lt hfuel)
    have hitem := hj.read (endsHere_compactElements js r)
    have hmore := ih (Nat.lt_of_succ_lt_succ hfuel)
    have hskip := skip_of_startsHere hj.starts (compactElements js ++ r)
    obtain ⟨c, t, ht, -, hclose, -⟩ := exists_cons_of_startsHere hj.starts
    rw [compactElements, List.cons_append, List.cons_append, List.append_assoc, readMoreElements,
      skip_cons rfl]
    simp only [hskip]
    rw [ht] at hitem ⊢
    rw [List.cons_append] at hitem ⊢
    simp [hclose, hitem, hmore, bind, Except.bind, pure, Except.pure]

theorem readElements_compact {js : List Json} {as : List α}
    (h : List.Forall₂ (Reads item) js as) (r : List Char) :
    ∃ t, compactText (array js) ++ r = '[' :: t ∧ readElements item t = .ok (as, r) := by
  cases h with
  | nil => exact ⟨']' :: r, rfl, rfl⟩
  | @cons j a js as hj hjs =>
    refine ⟨compactText j ++ (compactElements js ++ r), by simp [compactText], ?_⟩
    have hitem := hj.read (endsHere_compactElements js r)
    have hfuel : js.length < (compactElements js ++ r).length := by
      have hlength := length_lt_compactElements js
      rw [List.length_append]
      omega
    have hmore := readMoreElements_compact hjs hfuel r
    have hskip := skip_of_startsHere hj.starts (compactElements js ++ r)
    obtain ⟨c, t, ht, -, hclose, -⟩ := exists_cons_of_startsHere hj.starts
    rw [readElements, hskip]
    rw [ht] at hitem ⊢
    rw [List.cons_append] at hitem ⊢
    simp [hclose, hitem, hmore, bind, Except.bind, pure, Except.pure]

end Elements

theorem endsHere_compactFields (fs : List (String × Json)) (r : List Char) :
    endsHere (compactFields fs ++ r) = true := by
  cases fs <;> simp [compactFields, endsHere]

theorem length_lt_compactFields (fs : List (String × Json)) :
    fs.length < (compactFields fs).length := by
  induction fs with
  | nil => exact Nat.zero_lt_one
  | cons f fs ih =>
    rw [compactFields, List.length_append, List.length_cons, List.length_cons]
    omega

section Fields

variable {σ : Type} {field : String → σ → Reader σ}

/-- What a reader of single fields makes of a list of fields, one after the other. -/
inductive ReadsFields (field : String → σ → Reader σ) : σ → List (String × Json) → σ → Prop where
  | nil (x : σ) : ReadsFields field x [] x
  | cons {x y z : σ} {name : String} {j : Json} {fs : List (String × Json)}
    (h : ∀ {r : List Char}, endsHere r = true →
      field name x (':' :: (compactText j ++ r)) = .ok (y, r))
    (hfs : ReadsFields field y fs z) : ReadsFields field x ((name, j) :: fs) z

theorem readString_compactField (name : String) (j : Json) (r : List Char) :
    ∃ t, compactField (name, j) ++ r = '"' :: t ∧
      readString t = .ok (name, ':' :: (compactText j ++ r)) := by
  have h := readString_of_text name (':' :: (compactText j ++ r))
  refine ⟨_, ?_, h⟩
  simp [compactField, stringText]

theorem readMoreFields_compact {x y : σ} {fs : List (String × Json)}
    (h : ReadsFields field x fs y) {fuel : List Char} (hfuel : fs.length < fuel.length)
    (r : List Char) : readMoreFields field fuel x (compactFields fs ++ r) = .ok (y, r) := by
  induction h generalizing fuel with
  | nil x =>
    obtain ⟨f, fuel, rfl⟩ := List.exists_cons_of_length_pos hfuel
    rfl
  | @cons x y z name j fs hfield hfs ih =>
    obtain ⟨f, fuel, rfl⟩ := List.exists_cons_of_length_pos (Nat.zero_lt_of_lt hfuel)
    have hvalue := hfield (endsHere_compactFields fs r)
    have hmore := ih (Nat.lt_of_succ_lt_succ hfuel)
    obtain ⟨t, ht, hname⟩ := readString_compactField name j (compactFields fs ++ r)
    rw [compactFields, List.cons_append, List.cons_append, List.append_assoc, ht,
      readMoreFields, skip_cons rfl]
    simp only [skip_cons (c := '"') rfl, hname, hvalue, hmore, bind, Except.bind]

theorem readFields_compact {x y : σ} {fs : List (String × Json)} (h : ReadsFields field x fs y)
    (r : List Char) :
    ∃ t, compactText (object fs) ++ r = '{' :: t ∧ readFields field x t = .ok (y, r) := by
  cases h with
  | nil => exact ⟨'}' :: r, rfl, rfl⟩
  | @cons _ y _ name j fs hfield hfs =>
    have hvalue := hfield (endsHere_compactFields fs r)
    have hfuel : fs.length < (compactFields fs ++ r).length := by
      have hlength := length_lt_compactFields fs
      rw [List.length_append]
      omega
    have hmore := readMoreFields_compact hfs hfuel r
    obtain ⟨t, ht, hname⟩ := readString_compactField name j (compactFields fs ++ r)
    refine ⟨'"' :: t, ?_, ?_⟩
    · rw [← ht]
      simp [compactText]
    · rw [readFields, skip_cons rfl]
      simp only [hname, hvalue, hmore, bind, Except.bind]

end Fields

/-- Whether the second value is the first one with the fields of objects in another order. -/
inductive Rearranged : Json → Json → Prop where
  | refl (j : Json) : Rearranged j j
  | array {js ks : List Json} (h : List.Forall₂ Rearranged js ks) :
    Rearranged (array js) (array ks)
  | object {fs gs hs : List (String × Json)} (hperm : fs.Perm gs)
    (hnames : gs.map Prod.fst = hs.map Prod.fst)
    (hvalues : List.Forall₂ Rearranged (gs.map Prod.snd) (hs.map Prod.snd)) :
    Rearranged (object fs) (object hs)

theorem rearranged_array {js : List Json} {k : Json} (h : Rearranged (array js) k) :
    ∃ ks, k = array ks ∧ List.Forall₂ Rearranged js ks := by
  cases h with
  | refl => exact ⟨js, rfl, List.forall₂_same.mpr fun j _ => .refl j⟩
  | @array _ ks h => exact ⟨ks, rfl, h⟩

theorem rearranged_object {fs : List (String × Json)} {k : Json} (h : Rearranged (object fs) k) :
    ∃ gs hs, k = object hs ∧ fs.Perm gs ∧ gs.map Prod.fst = hs.map Prod.fst ∧
      List.Forall₂ Rearranged (gs.map Prod.snd) (hs.map Prod.snd) := by
  cases h with
  | refl => exact ⟨fs, fs, rfl, .refl fs, rfl, List.forall₂_same.mpr fun j _ => .refl j⟩
  | @object _ gs hs hperm hnames hvalues => exact ⟨gs, hs, rfl, hperm, hnames, hvalues⟩

theorem exists_field_of_rearranged {gs hs : List (String × Json)}
    (hnames : gs.map Prod.fst = hs.map Prod.fst)
    (hvalues : List.Forall₂ Rearranged (gs.map Prod.snd) (hs.map Prod.snd)) {f : String × Json}
    (hf : f ∈ hs) : ∃ j, (f.1, j) ∈ gs ∧ j.Rearranged f.2 := by
  induction gs generalizing hs with
  | nil =>
    obtain rfl : hs = [] := List.map_eq_nil_iff.mp hnames.symm
    contradiction
  | cons g gs ih =>
    cases hs with
    | nil => contradiction
    | cons h hs =>
      rw [List.map_cons, List.map_cons, List.cons.injEq] at hnames
      rw [List.map_cons, List.map_cons, List.forall₂_cons] at hvalues
      obtain rfl | hf := List.mem_cons.mp hf
      · exact ⟨g.2, hnames.1 ▸ List.mem_cons_self, hvalues.1⟩
      · obtain ⟨j, hj, hjf⟩ := ih hnames.2 hvalues.2 hf
        exact ⟨j, List.mem_cons_of_mem g hj, hjf⟩

/-- The order in which the fields of an object are declared is one of its orders. -/
theorem rearranged_ofFields {fs gs : List (String × Json)} (hfs : (fs.map Prod.fst).Nodup)
    (hnames : fs.map Prod.fst = gs.map Prod.fst)
    (hvalues : List.Forall₂ Rearranged (fs.map Prod.snd) (gs.map Prod.snd)) :
    (ofFields fs).Rearranged (object gs) :=
  .object (Dictionary.ofList_perm hfs) hnames hvalues

/-- Whether the reader answers `a` for the text of a value, whatever order its fields are in. -/
def ReadsBack {α : Type} (reader : Reader α) (j : Json) (a : α) : Prop :=
  ∀ k, j.Rearranged k → Reads reader k a

theorem readsBack_of_reads {α : Type} {reader : Reader α} {j : Json} {a : α}
    (harray : ∀ js, j ≠ array js) (hobject : ∀ fs, j ≠ object fs) (h : Reads reader j a) :
    ReadsBack reader j a := by
  intro k hk
  cases hk with
  | refl => exact h
  | array => exact absurd rfl (harray _)
  | object => exact absurd rfl (hobject _)

inductive WellFormed : Json → Prop where
  | null : WellFormed null
  | bool (b : Bool) : WellFormed (bool b)
  | int {i : Int} (h : FitsWord i) : WellFormed (int i)
  | double (x : Double) : WellFormed (double x)
  | string (s : String) : WellFormed (string s)
  | array {js : List Json} (h : ∀ j ∈ js, WellFormed j) : WellFormed (array js)
  | object {fs : Dictionary Json} (hfs : fs.Ascends) (h : ∀ f ∈ fs, WellFormed f.2) :
    WellFormed (object fs)

/-- Whether a value has no doubles and at most the given levels of arrays and objects. -/
inductive Plain : (depth : Nat) → Json → Prop where
  | null (depth : Nat) : Plain depth null
  | bool (depth : Nat) (b : Bool) : Plain depth (bool b)
  | int (depth : Nat) (i : Int) : Plain depth (int i)
  | string (depth : Nat) (s : String) : Plain depth (string s)
  | array {depth : Nat} {js : List Json} (h : ∀ j ∈ js, Plain depth j) :
    Plain (depth + 1) (array js)
  | object {depth : Nat} {fs : List (String × Json)} (h : ∀ f ∈ fs, Plain depth f.2) :
    Plain (depth + 1) (object fs)

theorem readsFields_readField {item : Reader Json} {gs hs : List (String × Json)}
    (hnames : gs.map Prod.fst = hs.map Prod.fst)
    (hvalues : List.Forall₂ (fun j k => Reads item k j) (gs.map Prod.snd) (hs.map Prod.snd))
    (known : Dictionary Json) :
    ReadsFields (readField item) known hs (gs.foldl (fun d e => d.insert e.1 e.2) known) := by
  induction gs generalizing hs known with
  | nil =>
    obtain rfl : hs = [] := List.map_eq_nil_iff.mp hnames.symm
    exact .nil known
  | cons g gs ih =>
    cases hs with
    | nil => simp at hnames
    | cons f hs =>
      rw [List.map_cons, List.map_cons, List.cons.injEq] at hnames
      rw [List.map_cons, List.map_cons, List.forall₂_cons] at hvalues
      refine .cons ?_ (ih hnames.2 hvalues.2 (known.insert g.1 g.2))
      intro r hr
      have hread := hvalues.1.read hr
      rw [readField, readColon, skip_cons rfl, hnames.1]
      simp only [hread, bind, Except.bind, pure, Except.pure]

/-- A value without doubles is read back if no text may be nested deeper. -/
theorem readsBack_readValue {depth : Nat} {j : Json} (hdepth : Plain depth j)
    (hj : WellFormed j) : ReadsBack (readValue depth) j j := by
  have hscalar {depth : Nat} {j : Json} (harray : ∀ js, j ≠ array js)
      (hobject : ∀ fs, j ≠ object fs) (h : ReadsScalar j) : ReadsBack (readValue depth) j j :=
    readsBack_of_reads harray hobject (reads_of_readsScalar h depth)
  induction hdepth with
  | null depth => exact hscalar nofun nofun readsScalar_null
  | bool depth b => exact hscalar nofun nofun (readsScalar_bool b)
  | int depth i =>
    cases hj with | int hi
    exact hscalar nofun nofun (readsScalar_int hi)
  | string depth s => exact hscalar nofun nofun (readsScalar_string s)
  | @array depth js _ ih =>
    cases hj with | array hjs
    intro k h
    obtain ⟨ks, rfl, hks⟩ := rearranged_array h
    have hitems : List.Forall₂ (Reads (readValue depth)) ks js := by
      apply List.Forall₂.flip
      exact forall₂_imp_of_mem hks fun j hj k hjk => ih j hj (hjs j hj) k hjk
    refine ⟨by cases ks <;> rfl, ?_⟩
    intro r hr
    obtain ⟨t, ht, hread⟩ := readElements_compact hitems r
    rw [ht, readValue, readValueWith, skip_cons rfl]
    simp only [hread, bind, Except.bind, pure, Except.pure]
  | @object depth fs _ ih =>
    cases hj with | object hascends hfs
    intro k h
    obtain ⟨gs, hs, rfl, hperm, hnames, hvalues⟩ := rearranged_object h
    have hitems : List.Forall₂ (fun j k => Reads (readValue depth) k j) (gs.map Prod.snd)
        (hs.map Prod.snd) := by
      apply forall₂_imp_of_mem hvalues
      intro j hj k hjk
      obtain ⟨g, hg, rfl⟩ := List.mem_map.mp hj
      have hmem : g ∈ fs := hperm.mem_iff.mpr hg
      exact ih g hmem (hfs g hmem) k hjk
    have hfields := readsFields_readField hnames hitems []
    -- in whatever order they come, the fields are put together in ascending order again
    have hsame : gs.foldl (fun d e => Dictionary.insert e.1 e.2 d) [] = fs :=
      Dictionary.ofList_of_perm hascends hperm
    rw [hsame] at hfields
    refine ⟨by cases hs <;> rfl, ?_⟩
    intro r hr
    obtain ⟨t, ht, hread⟩ := readFields_compact hfields r
    rw [ht, readValue, readValueWith, skip_cons rfl]
    simp only [hread, bind, Except.bind, pure, Except.pure]

theorem parse_compact {j : Json} (hj : j.WellFormed) (hplain : Plain maxDepth j) :
    parse j.compact = .ok j :=
  readAll_of_reads (readsBack_readValue hplain hj j (.refl j))

theorem isBlank_of_isAsciiDigit {c : Char} (h : isAsciiDigit c = true) : isBlank c = false := by
  simp only [isAsciiDigit, Bool.and_eq_true, decide_eq_true_eq, Char.le_def,
    UInt32.le_iff_toNat_le] at h
  have hlow : 0x30 ≤ c.toNat := h.1
  have hhigh : c.toNat ≤ 0x39 := h.2
  exact isBlank_eq_false_of_ascii (by omega) (by omega)

theorem isBlank_of_mem_intText {i : Int} {c : Char} (h : c ∈ intText i) : isBlank c = false := by
  unfold intText at h
  split at h
  · obtain rfl | hc := List.mem_cons.mp h
    · decide
    · exact isBlank_of_isAsciiDigit (isAsciiDigit_of_mem_natText hc)
  · exact isBlank_of_isAsciiDigit (isAsciiDigit_of_mem_natText h)

theorem exists_compactElements (js : List Json) : ∃ s, compactElements js = s ++ [']'] := by
  induction js with
  | nil => exact ⟨[], by rw [compactElements]; rfl⟩
  | cons j js ih =>
    obtain ⟨s, hs⟩ := ih
    exact ⟨',' :: compactText j ++ s, by rw [compactElements, hs, List.append_assoc]⟩

theorem exists_compactFields (fs : List (String × Json)) : ∃ s, compactFields fs = s ++ ['}'] := by
  induction fs with
  | nil => exact ⟨[], by rw [compactFields]; rfl⟩
  | cons f fs ih =>
    obtain ⟨s, hs⟩ := ih
    exact ⟨',' :: compactField f ++ s, by rw [compactFields, hs, List.append_assoc]⟩

theorem bare_compactText {depth : Nat} {j : Json} (h : Plain depth j) :
    startsBare (compactText j) = true ∧ endsBare (compactText j) = true := by
  cases h with
  | null => rw [compactText_null]; decide
  | bool _ b => rw [compactText_bool]; cases b <;> decide
  | int _ i =>
    obtain ⟨c, t, ht, hc⟩ := exists_cons_intText i
    have hvisible : ∀ d ∈ intText i, isBlank d = false := fun d hd => isBlank_of_mem_intText hd
    rw [compactText_int]
    refine ⟨?_, endsBare_of_forall (by rw [ht]; simp) hvisible⟩
    rw [ht] at hvisible ⊢
    simp [startsBare, hvisible c List.mem_cons_self]
  | string _ s =>
    rw [compactText_string]
    exact ⟨rfl, endsBare_append (by decide) _⟩
  | @array _ js _ =>
    cases js with
    | nil => rw [compactText]; decide
    | cons j js =>
      obtain ⟨s, hs⟩ := exists_compactElements js
      rw [compactText, hs, ← List.append_assoc]
      exact ⟨rfl, endsBare_append (by decide) _⟩
  | @object _ fs _ =>
    cases fs with
    | nil => rw [compactText]; decide
    | cons f fs =>
      obtain ⟨s, hs⟩ := exists_compactFields fs
      rw [compactText, hs, ← List.append_assoc]
      exact ⟨rfl, endsBare_append (by decide) _⟩

end BuildLog.Json
