import BuildLog.Proofs.JsonScalars
import BuildLog.Proofs.TomlDates
import BuildLog.Proofs.TomlStrings
import BuildLog.Proofs.TomlTables
import BuildLog.Toml.Document

namespace BuildLog.Toml
open Text

inductive IsGap : List Char → Prop
  | space {g : List Char} (hg : IsSpace g) : IsGap g
  | comment {s cs e g : List Char} (hs : IsSpace s) (hcs : ∀ c ∈ cs, IsPlain c)
    (he : IsLineEnd e) (hg : IsGap g) : IsGap (s ++ '#' :: (cs ++ (e ++ g)))

/-- What stands for some items between brackets, after the opening one. A comma may stand after the
last item. -/
inductive Elements {α : Type} (close : Char) (item : List Char → α → Prop) :
    List Char → List α → Prop
  | close {g : List Char} (hg : IsGap g) : Elements close item (g ++ [close]) []
  | last {g w g' : List Char} {a : α} (hg : IsGap g) (hw : item w a) (hg' : IsGap g') :
    Elements close item (g ++ (w ++ (g' ++ [close]))) [a]
  | more {g w g' u : List Char} {a : α} {as : List α} (hg : IsGap g) (hw : item w a)
    (hg' : IsGap g') (hu : Elements close item u as) :
    Elements close item (g ++ (w ++ (g' ++ ',' :: u))) (a :: as)

/-- Whether the text is an array of strings in double quotes after its opening bracket. -/
def IsTextElements : List Char → List String → Prop := Elements ']' IsBasicString

def IsKeyChar (c : Char) : Prop := c.isAlphanum = true ∨ c = '_' ∨ c = '-'

inductive IsSimpleKey : List Char → String → Prop
  | bare {w : List Char} (hne : w ≠ []) (hw : ∀ c ∈ w, IsKeyChar c) :
    IsSimpleKey w (String.ofList w)
  | basic {w : List Char} {k : String} (hw : IsBasicString w k) : IsSimpleKey w k
  | literal {w : List Char} {k : String} (hw : IsLiteralString w k) : IsSimpleKey w k

inductive IsKey : List Char → List String → Prop
  | last {w b : List Char} {k : String} (hw : IsSimpleKey w k) (hb : ∀ c ∈ b, IsBlank c) :
    IsKey (w ++ b) [k]
  | more {w b b' u : List Char} {k : String} {ks : List String} (hw : IsSimpleKey w k)
    (hb : ∀ c ∈ b, IsBlank c) (hb' : ∀ c ∈ b', IsBlank c) (hu : IsKey u ks) :
    IsKey (w ++ (b ++ '.' :: (b' ++ u))) (k :: ks)

/-- What stands for a key, of at most 80 parts, and a value. -/
inductive KeyValue (item : List Char → Toml → Prop) : List Char → List String × Toml → Prop
  | intro {k g g' w : List Char} {ks : List String} {v : Toml} (hk : IsKey k ks)
    (hfew : ks.length ≤ 80) (hg : IsGap g) (hg' : IsGap g') (hw : item w v) :
    KeyValue item (k ++ (g ++ '=' :: (g' ++ w))) (ks, v)

def flagText : Bool → List Char
  | true => ['t', 'r', 'u', 'e']
  | false => ['f', 'a', 'l', 's', 'e']

/-- What stands for a value that has no parts. Of a float or date the text is kept. -/
inductive Scalar : List Char → Toml → Prop
  | string {w : List Char} {s : String} (h : IsString w s) : Scalar w (.string s)
  | integer {w : List Char} {n : Int} (h : IsInteger w n) (hlow : -2 ^ 127 ≤ n)
    (hhigh : n < 2 ^ 128) : Scalar w (.integer n)
  | float {w : List Char} (h : IsFloat w) : Scalar w (.float (String.ofList w))
  | flag (b : Bool) : Scalar (flagText b) (.boolean b)
  | datetime {w : List Char} (h : IsDatetime w) : Scalar w (.datetime (String.ofList w))

/-- Whether neither of two paths leads through the end of the other. -/
def Apart (ks ks' : List String) : Prop := ¬ ks <+: ks' ∧ ¬ ks' <+: ks

/-- What stands for a value whose parts are spelled like `item`. -/
inductive Layer (item : List Char → Toml → Prop) : List Char → Toml → Prop
  | scalar {w : List Char} {v : Toml} (h : Scalar w v) : Layer item w v
  | array {w : List Char} {vs : List Toml} (h : Elements ']' item w vs) :
    Layer item ('[' :: w) (.array vs)
  | table {w : List Char} {ps : List (List String × Toml)}
    (h : Elements '}' (KeyValue item) w ps) (hapart : (ps.map Prod.fst).Pairwise Apart) :
    Layer item ('{' :: w) (.table (ps.foldl (fun es p => put p.2 p.1 es) []))

/-- What stands for a value with at most so many levels of arrays and inline tables. -/
def SpellsWithin : (levels : Nat) → List Char → Toml → Prop
  | 0 => Scalar
  | levels + 1 => Layer (SpellsWithin levels)

def Spells : List Char → Toml → Prop := SpellsWithin 80

theorem gap_cons {c : Char} (hn : c ≠ '\n') (hr : c ≠ '\r') (inComment : Bool) (s : List Char) :
    gap inComment (c :: s) =
      if inComment then if isPlain c then gap true s else none
      else if isBlankChar c then gap false s
      else if c = '#' then gap true s
      else some (c :: s) := by
  rw [gap]
  · exact hn
  · intro r h
    exact absurd h hr

theorem gap_of_isLineEnd {e : List Char} (h : IsLineEnd e) (inComment : Bool) (s : List Char) :
    gap inComment (e ++ s) = gap false s := by
  rcases h with rfl | rfl <;> rfl

theorem gap_of_isSpace {g : List Char} (h : IsSpace g) (s : List Char) :
    gap false (g ++ s) = gap false s := by
  induction h with
  | nil => rfl
  | blank hc _ ih => rcases hc with rfl | rfl <;> exact ih
  | lineEnd he _ ih => rw [List.append_assoc, gap_of_isLineEnd he, ih]

theorem gap_of_comment {cs : List Char} (h : ∀ c ∈ cs, IsPlain c) (s : List Char) :
    gap true (cs ++ s) = gap true s := by
  induction cs with
  | nil => rfl
  | cons c cs ih =>
    obtain ⟨hc, hcs⟩ := List.forall_mem_cons.mp h
    rw [List.cons_append, gap_cons hc.ne_lineEnd.1 hc.ne_lineEnd.2, if_pos rfl,
      if_pos (isPlain_iff.mpr hc), ih hcs]

theorem gap_of_isGap {g : List Char} (h : IsGap g) (s : List Char) :
    gap false (g ++ s) = gap false s := by
  induction h with
  | space hg => exact gap_of_isSpace hg s
  | @comment t cs e g ht hcs he _ ih =>
    calc gap false (t ++ '#' :: (cs ++ (e ++ g)) ++ s)
        = gap false ('#' :: (cs ++ (e ++ (g ++ s)))) := by
          rw [List.append_assoc, gap_of_isSpace ht, List.cons_append, List.append_assoc,
            List.append_assoc]
      _ = gap true (cs ++ (e ++ (g ++ s))) := rfl
      _ = gap true (e ++ (g ++ s)) := gap_of_comment hcs _
      _ = gap false (g ++ s) := gap_of_isLineEnd he true _
      _ = gap false s := ih

def opens (c : Char) : Bool := isBareChar c || ['"', '\'', '[', '{'].contains c

theorem ne_of_opens {c d : Char} (hc : opens c = true) (hd : opens d = false) : c ≠ d := by
  rintro rfl
  rw [hc] at hd
  contradiction

theorem gap_of_opens {c : Char} (h : opens c = true) (s : List Char) :
    gap false (c :: s) = some (c :: s) := by
  have hblank : isBlankChar c = false := by
    rw [isBlankChar, Bool.or_eq_false_iff, decide_eq_false_iff_not, decide_eq_false_iff_not]
    exact ⟨ne_of_opens h rfl, ne_of_opens h rfl⟩
  rw [gap_cons (ne_of_opens h rfl) (ne_of_opens h rfl), if_neg Bool.false_ne_true, hblank,
    if_neg Bool.false_ne_true, if_neg (ne_of_opens h rfl)]

theorem opens_of_isBareChar {c : Char} (h : isBareChar c = true) : opens c = true := by
  rw [opens, h, Bool.true_or]

theorem isBareChar_of_isAsciiDigit {c : Char} (h : isAsciiDigit c = true) :
    isBareChar c = true := by
  simp [isBareChar, isKeyChar, h]

def Begins (w : List Char) : Prop := ∃ c t, w = c :: t ∧ opens c = true

theorem Begins.append_ne {w : List Char} (h : Begins w) {d : Char} (hd : opens d = false)
    (s t : List Char) : w ++ s ≠ d :: t := by
  obtain ⟨c, u, rfl, hc⟩ := h
  exact fun heq => ne_of_opens hc hd (List.cons.inj heq).1

theorem gap_before {g w : List Char} (hg : IsGap g) (hw : Begins w) (s : List Char) :
    gap false (g ++ (w ++ s)) = some (w ++ s) := by
  obtain ⟨c, t, rfl, hc⟩ := hw
  rw [gap_of_isGap hg, List.cons_append, gap_of_opens hc]

theorem gap_before_sign {g : List Char} (hg : IsGap g) {c : Char} (hc : c ∈ [',', '=', ']', '}'])
    (s : List Char) : gap false (g ++ c :: s) = some (c :: s) := by
  rw [gap_of_isGap hg]
  simp only [List.mem_cons, List.not_mem_nil, or_false] at hc
  rcases hc with rfl | rfl | rfl | rfl <;> rfl

/-- A value is over in front of a gap with a sign after it. -/
theorem valueOver_of_gap {r s : List Char} {c : Char} (h : gap false r = some (c :: s))
    (hc : opens c = false) : ValueOver r := by
  have hclosed {d : Char} {t : List Char} (hgap : gap false (d :: t) = some (c :: s)) :
      opens d = false := by
    apply Bool.eq_false_iff.mpr
    intro hd
    rw [gap_of_opens hd] at hgap
    exact ne_of_opens hd hc (List.cons.inj (Option.some.inj hgap)).1
  constructor
  · intro d hd
    obtain ⟨t, rfl⟩ := List.head?_eq_some_iff.mp hd
    apply Bool.eq_false_iff.mpr
    intro hbare
    exact Bool.eq_false_iff.mp (hclosed h) (opens_of_isBareChar hbare)
  · intro d hd
    obtain ⟨t, rfl⟩ := List.head?_eq_some_iff.mp hd
    have hfirst := hclosed h
    constructor <;> (rintro rfl; contradiction)
  · rintro d t rfl
    have hgap : gap false (d :: t) = some (c :: s) := h
    apply Bool.eq_false_iff.mpr
    intro hdigit
    exact Bool.eq_false_iff.mp (hclosed hgap)
      (opens_of_isBareChar (isBareChar_of_isAsciiDigit hdigit))

theorem isKeyChar_iff {c : Char} : isKeyChar c = true ↔ IsKeyChar c := by
  have hupper : c.isUpper = ('A' ≤ c && c ≤ 'Z') := Bool.decide_and _ _
  have hword : c.isAlphanum =
      (('A' ≤ c && c ≤ 'Z') || ('a' ≤ c && c ≤ 'z') || isAsciiDigit c) :=
    congrArg (fun b => b || ('a' ≤ c && c ≤ 'z') || isAsciiDigit c) hupper
  simp only [isKeyChar, IsKeyChar, hword, Bool.or_eq_true, decide_eq_true_eq, or_assoc]

theorem skipBlanks_of_blanks {b : List Char} (hb : ∀ c ∈ b, IsBlank c) (s : List Char) :
    skipBlanks (b ++ s) = skipBlanks s := by
  induction b with
  | nil => rfl
  | cons c b ih =>
    obtain ⟨hc, hb⟩ := List.forall_mem_cons.mp hb
    rw [List.cons_append, skipBlanks, List.dropWhile_cons_of_pos (isBlankChar_iff.mpr hc)]
    exact ih hb

theorem skipBlanks_of_opens {c : Char} (h : opens c = true) (s : List Char) :
    skipBlanks (c :: s) = c :: s := by
  apply List.dropWhile_cons_of_neg
  rw [isBlankChar_iff]
  rintro (rfl | rfl) <;> contradiction

theorem gap_skipBlanks (s : List Char) : gap false (skipBlanks s) = gap false s := by
  induction s with
  | nil => rfl
  | cons c s ih =>
    by_cases hc : isBlankChar c = true
    · rw [skipBlanks, List.dropWhile_cons_of_pos hc]
      rcases isBlankChar_iff.mp hc with rfl | rfl <;> exact ih
    · rw [skipBlanks, List.dropWhile_cons_of_neg hc]

theorem IsSimpleKey.begins {w : List Char} {k : String} (h : IsSimpleKey w k) : Begins w := by
  cases h with
  | bare hne hw =>
    obtain ⟨c, t, rfl⟩ := List.exists_cons_of_ne_nil hne
    exact ⟨c, t, rfl, opens_of_isBareChar
      (isBareChar_of_isKeyChar (isKeyChar_iff.mpr (hw c List.mem_cons_self)))⟩
  | basic hw =>
    obtain ⟨u, rfl, -⟩ := hw
    exact ⟨'"', _, rfl, rfl⟩
  | literal hw =>
    obtain ⟨rfl, -⟩ := hw
    exact ⟨'\'', _, rfl, rfl⟩

theorem readSimpleKey_of {w : List Char} {k : String} (h : IsSimpleKey w k) {r : List Char}
    (hr : ∀ c, r.head? = some c → isKeyChar c = false) :
    readSimpleKey (w ++ r) = some (k, r) := by
  cases h with
  | bare hne hw =>
    have htake : (w ++ r).takeWhile isKeyChar = w :=
      takeWhile_of_run (fun c hc => isKeyChar_iff.mpr (hw c hc)) hr
    obtain ⟨c, t, rfl⟩ := List.exists_cons_of_ne_nil hne
    have hc : isKeyChar c = true := isKeyChar_iff.mpr (hw c List.mem_cons_self)
    rw [List.cons_append] at htake ⊢
    unfold readSimpleKey
    split
    · rename_i heq
      rw [(List.cons.inj heq).1] at hc
      contradiction
    · rename_i heq
      rw [(List.cons.inj heq).1] at hc
      contradiction
    · simp only [htake, List.isEmpty_cons, Bool.false_eq_true, if_false]
      rw [← List.cons_append, List.drop_left]
  | basic hw =>
    obtain ⟨u, rfl, hu⟩ := hw
    have hfuel : u.length < (u ++ '"' :: r).length := by simp
    rw [List.cons_append, List.cons_append, List.append_assoc, List.singleton_append,
      readSimpleKey, readBasicChars_of hu hfuel, Option.map_some, String.ofList_toList]
  | literal hw =>
    obtain ⟨rfl, hplain⟩ := hw
    rw [List.cons_append, List.cons_append, List.append_assoc, List.singleton_append,
      readSimpleKey, readLiteralChars_of hplain, Option.map_some, String.ofList_toList]

theorem IsKey.begins {w : List Char} {ks : List String} (h : IsKey w ks) : Begins w := by
  cases h with
  | last hw _ =>
    obtain ⟨c, t, rfl, hc⟩ := hw.begins
    exact ⟨c, _, rfl, hc⟩
  | more hw _ _ _ =>
    obtain ⟨c, t, rfl, hc⟩ := hw.begins
    exact ⟨c, _, rfl, hc⟩

/-- A key is over in front of a sign or a gap, and the blanks after it are passed over. -/
theorem readDottedKey_of {w : List Char} {ks : List String} (h : IsKey w ks) {fuel : List Char}
    (hfuel : w.length ≤ fuel.length) {r : List Char}
    (hr : ∀ c, r.head? = some c → isKeyChar c = false) (hdot : ∀ t, skipBlanks r ≠ '.' :: t) :
    readDottedKey fuel (w ++ r) = some (ks, skipBlanks r) := by
  have hblanks {b s : List Char} (hb : ∀ c ∈ b, IsBlank c)
      (hs : ∀ c, s.head? = some c → isKeyChar c = false) :
      ∀ c, (b ++ s).head? = some c → isKeyChar c = false := by
    intro c hc
    cases b with
    | nil => exact hs c hc
    | cons d b =>
      obtain rfl := Option.some.inj hc
      rcases hb d List.mem_cons_self with rfl | rfl <;> rfl
  have hkey {w : List Char} {k : String} (hw : IsSimpleKey w k) {s : List Char}
      (hs : ∀ c, s.head? = some c → isKeyChar c = false) :
      readSimpleKey (skipBlanks (w ++ s)) = some (k, s) := by
    have hread := readSimpleKey_of hw hs
    obtain ⟨c, t, rfl, hc⟩ := hw.begins
    rw [List.cons_append] at hread ⊢
    rw [skipBlanks_of_opens hc, hread]
  induction h generalizing fuel with
  | @last w b k hw hb =>
    have hpos : 0 < w.length := by
      obtain ⟨c, t, rfl, -⟩ := hw.begins
      exact Nat.zero_lt_succ _
    rw [List.length_append] at hfuel
    obtain ⟨f, fuel, rfl⟩ := List.exists_cons_of_length_pos (by omega : 0 < fuel.length)
    rw [List.append_assoc, readDottedKey, hkey hw (hblanks hb hr)]
    simp only [skipBlanks_of_blanks hb]
  | @more w b b' u k ks hw hb hb' hu ih =>
    simp only [List.length_append, List.length_cons] at hfuel
    obtain ⟨f, fuel, rfl⟩ := List.exists_cons_of_length_pos (by omega : 0 < fuel.length)
    have hless : u.length ≤ fuel.length := by
      rw [List.length_cons] at hfuel
      omega
    have hmore : readDottedKey fuel (b' ++ (u ++ r)) = some (ks, skipBlanks r) := by
      rw [← ih hless]
      cases fuel with
      | nil => rfl
      | cons f fuel => rw [readDottedKey, readDottedKey, skipBlanks_of_blanks hb']
    have hsign : skipBlanks (b ++ '.' :: (b' ++ (u ++ r))) = '.' :: (b' ++ (u ++ r)) := by
      rw [skipBlanks_of_blanks hb, skipBlanks_of_opens rfl]
    simp only [List.append_assoc, List.cons_append]
    rw [readDottedKey, hkey hw (hblanks hb fun c hc => by rw [← Option.some.inj hc]; rfl)]
    simp only [hsign, hmore, Option.map_some]

theorem readKey_of {w : List Char} {ks : List String} (h : IsKey w ks) (hfew : ks.length ≤ 80)
    {r : List Char} (hr : ∀ c, r.head? = some c → isKeyChar c = false)
    (hdot : ∀ t, skipBlanks r ≠ '.' :: t) : readKey (w ++ r) = .ok (ks, skipBlanks r) := by
  have hread := readDottedKey_of h (List.prefix_append w r).length_le hr hdot
  have hmany : ¬ maxKeys < ks.length := Nat.not_lt_of_le hfew
  simp only [readKey, hread, orMalformed, bind, Except.bind, if_neg hmany]
  rfl

/-- Whether a reader of values reads everything that is spelled in some way, and finds no number in
it too large. -/
structure Covers (item : Parser Toml) (spells : List Char → Toml → Prop) : Prop where
  begins : ∀ {w : List Char} {v : Toml}, spells w v → Begins w
  read : ∀ {w : List Char} {v : Toml} {r : List Char}, spells w v → ValueOver r →
    item (w ++ r) = .ok (v, r)
  inRange : ∀ {w : List Char} {v : Toml}, spells w v → inRange v = true

section Parts

variable {item : Parser Toml}

theorem readElements_last {f : Char} {fuel s t u r : List Char} {v : Toml}
    (hs : gap false s = some t) (hclose : ∀ w, t ≠ ']' :: w) (hv : item t = .ok (v, u))
    (hu : gap false u = some (']' :: r)) : readElements item (f :: fuel) s = .ok ([v], r) := by
  rw [readElements]
  simp only [hs, hv, hu, orMalformed, bind, Except.bind]
  rfl

theorem readElements_more {f : Char} {fuel s t u w : List Char} {v : Toml}
    (hs : gap false s = some t) (hclose : ∀ w, t ≠ ']' :: w) (hv : item t = .ok (v, u))
    (hu : gap false u = some (',' :: w)) :
    readElements item (f :: fuel) s =
      (readElements item fuel w).map fun x => (v :: x.1, x.2) := by
  rw [readElements]
  simp only [hs, hv, hu, orMalformed, bind, Except.bind]
  cases readElements item fuel w <;> rfl

theorem readInlineEntries_last {f : Char} {fuel s t u r : List Char} {ks : List String} {v : Toml}
    {es es' : Entries} (hs : gap false s = some t) (hclose : ∀ w, t ≠ '}' :: w)
    (hv : readKeyValue (gap false) item t = .ok ((ks, v), u)) (hes : assignKeys ks v es = some es')
    (hu : gap false u = some ('}' :: r)) :
    readInlineEntries item (f :: fuel) es s = .ok (es', r) := by
  rw [readInlineEntries]
  simp only [hs, hv, hes, hu, orMalformed, bind, Except.bind]
  rfl

theorem readInlineEntries_more {f : Char} {fuel s t u w : List Char} {ks : List String} {v : Toml}
    {es es' : Entries} (hs : gap false s = some t) (hclose : ∀ w, t ≠ '}' :: w)
    (hv : readKeyValue (gap false) item t = .ok ((ks, v), u)) (hes : assignKeys ks v es = some es')
    (hu : gap false u = some (',' :: w)) :
    readInlineEntries item (f :: fuel) es s = readInlineEntries item fuel es' w := by
  rw [readInlineEntries]
  simp only [hs, hv, hes, hu, orMalformed, bind, Except.bind]

theorem readKeyValue_eq_ok {between : List Char → Option (List Char)} {s t u w r : List Char}
    {ks : List String} {v : Toml} (hs : readKey s = .ok (ks, t)) (ht : between t = some ('=' :: u))
    (hu : between u = some w) (hw : item w = .ok (v, r)) :
    readKeyValue between item s = .ok ((ks, v), r) := by
  simp only [readKeyValue, hs, ht, hu, hw, orMalformed, bind, Except.bind]
  rfl

variable {spells : List Char → Toml → Prop} (hitem : Covers item spells)
include hitem

theorem readElements_of {w : List Char} {vs : List Toml} (h : Elements ']' spells w vs)
    {fuel : List Char} (hfuel : w.length ≤ fuel.length) (r : List Char) :
    readElements item fuel (w ++ r) = .ok (vs, r) := by
  induction h generalizing fuel with
  | @close g hg =>
    rw [List.length_append, List.length_singleton] at hfuel
    obtain ⟨f, fuel, rfl⟩ := List.exists_cons_of_length_pos (by omega : 0 < fuel.length)
    have hend : gap false (g ++ ']' :: r) = some (']' :: r) := gap_before_sign hg (by decide) _
    rw [List.append_assoc, List.singleton_append, readElements, hend]
    rfl
  | @last g w g' v hg hw hg' =>
    simp only [List.length_append, List.length_singleton] at hfuel
    obtain ⟨f, fuel, rfl⟩ := List.exists_cons_of_length_pos (by omega : 0 < fuel.length)
    have hend : gap false (g' ++ ']' :: r) = some (']' :: r) :=
      gap_before_sign hg' (by decide) _
    simp only [List.append_assoc, List.singleton_append]
    exact readElements_last (gap_before hg (hitem.begins hw) _)
      ((hitem.begins hw).append_ne rfl _) (hitem.read hw (valueOver_of_gap hend rfl)) hend
  | @more g w g' u v vs hg hw hg' hu ih =>
    simp only [List.length_append, List.length_cons] at hfuel
    obtain ⟨f, fuel, rfl⟩ := List.exists_cons_of_length_pos (by omega : 0 < fuel.length)
    have hless : u.length ≤ fuel.length := by
      rw [List.length_cons] at hfuel
      omega
    have hend : gap false (g' ++ ',' :: (u ++ r)) = some (',' :: (u ++ r)) :=
      gap_before_sign hg' (by decide) _
    simp only [List.append_assoc, List.cons_append]
    rw [readElements_more (gap_before hg (hitem.begins hw) _)
      ((hitem.begins hw).append_ne rfl _) (hitem.read hw (valueOver_of_gap hend rfl)) hend,
      ih hless]
    rfl

theorem readKeyValue_of {w : List Char} {p : List String × Toml} (h : KeyValue spells w p)
    {r : List Char} (hr : ValueOver r) : readKeyValue (gap false) item (w ++ r) = .ok (p, r) := by
  cases h with
  | @intro k g g' w ks v hk hfew hg hg' hw =>
    have hvalue : gap false (g' ++ (w ++ r)) = some (w ++ r) :=
      gap_before hg' (hitem.begins hw) r
    simp only [List.append_assoc, List.cons_append]
    generalize htail : g ++ '=' :: (g' ++ (w ++ r)) = tail
    have hsign : gap false tail = some ('=' :: (g' ++ (w ++ r))) := by
      rw [← htail]
      exact gap_before_sign hg (by decide) _
    have hkey : readKey (k ++ tail) = .ok (ks, skipBlanks tail) := by
      apply readKey_of hk hfew
      · intro c hc
        apply Bool.eq_false_iff.mpr
        intro hkeyChar
        exact Bool.eq_false_iff.mp ((valueOver_of_gap hsign rfl).not_bare c hc)
          (isBareChar_of_isKeyChar hkeyChar)
      · intro t ht
        rw [← gap_skipBlanks, ht, gap_of_opens rfl] at hsign
        cases hsign
    exact readKeyValue_eq_ok hkey (by rw [gap_skipBlanks, hsign]) hvalue (hitem.read hw hr)

theorem readInlineEntries_of {w : List Char} {ps : List (List String × Toml)}
    (h : Elements '}' (KeyValue spells) w ps) (hapart : (ps.map Prod.fst).Pairwise Apart)
    {es : Entries} (hfree : ∀ p ∈ ps, Free p.1 es) {fuel : List Char}
    (hfuel : w.length ≤ fuel.length) (r : List Char) :
    ∃ es', readInlineEntries item fuel es (w ++ r) = .ok (es', r) ∧
      freezeEntries es' = ps.foldl (fun es p => put p.2 p.1 es) (freezeEntries es) := by
  have hbegins {w : List Char} {p : List String × Toml} (hw : KeyValue spells w p) :
      Begins w := by
    obtain ⟨hk⟩ := hw
    obtain ⟨c, t, rfl, hc⟩ := hk.begins
    exact ⟨c, _, rfl, hc⟩
  induction h generalizing fuel es with
  | @close g hg =>
    rw [List.length_append, List.length_singleton] at hfuel
    obtain ⟨f, fuel, rfl⟩ := List.exists_cons_of_length_pos (by omega : 0 < fuel.length)
    have hend : gap false (g ++ '}' :: r) = some ('}' :: r) := gap_before_sign hg (by decide) _
    refine ⟨es, ?_, rfl⟩
    rw [List.append_assoc, List.singleton_append, readInlineEntries, hend]
    rfl
  | @last g w g' p hg hw hg' =>
    simp only [List.length_append, List.length_singleton] at hfuel
    obtain ⟨f, fuel, rfl⟩ := List.exists_cons_of_length_pos (by omega : 0 < fuel.length)
    obtain ⟨es', hes, hput, -⟩ := assignKeys_of_free (hfree p List.mem_cons_self) p.2
    have hend : gap false (g' ++ '}' :: r) = some ('}' :: r) :=
      gap_before_sign hg' (by decide) _
    refine ⟨es', ?_, hput⟩
    simp only [List.append_assoc, List.singleton_append]
    exact readInlineEntries_last (gap_before hg (hbegins hw) _) ((hbegins hw).append_ne rfl _)
      (readKeyValue_of hitem hw (valueOver_of_gap hend rfl)) hes hend
  | @more g w g' u p ps hg hw hg' hu ih =>
    simp only [List.length_append, List.length_cons] at hfuel
    obtain ⟨f, fuel, rfl⟩ := List.exists_cons_of_length_pos (by omega : 0 < fuel.length)
    have hless : u.length ≤ fuel.length := by
      rw [List.length_cons] at hfuel
      omega
    obtain ⟨hfirst, hlater⟩ := List.pairwise_cons.mp hapart
    obtain ⟨es', hes, hput, hkeep⟩ := assignKeys_of_free (hfree p List.mem_cons_self) p.2
    have hfree' : ∀ q ∈ ps, Free q.1 es' := by
      intro q hq
      obtain ⟨hthrough, hstop⟩ := hfirst q.1 (List.mem_map_of_mem hq)
      exact hkeep q.1 (hfree q (List.mem_cons_of_mem p hq)) hthrough hstop
    obtain ⟨es'', hread, hputs⟩ := ih hlater hfree' hless
    have hend : gap false (g' ++ ',' :: (u ++ r)) = some (',' :: (u ++ r)) :=
      gap_before_sign hg' (by decide) _
    refine ⟨es'', ?_, ?_⟩
    · simp only [List.append_assoc, List.cons_append]
      rw [readInlineEntries_more (gap_before hg (hbegins hw) _) ((hbegins hw).append_ne rfl _)
        (readKeyValue_of hitem hw (valueOver_of_gap hend rfl)) hes hend, hread]
    · rw [List.foldl_cons, ← hput, hputs]

end Parts

theorem readValue_scalar {c : Char} (harray : c ≠ '[') (htable : c ≠ '{') (depth : Nat)
    (s : List Char) : readValue depth (c :: s) = orMalformed (readScalar (c :: s)) := by
  cases depth with
  | zero => rfl
  | succ depth =>
    rw [readValue]
    · exact fun r h => harray (List.cons.inj h).1
    · exact fun r h => htable (List.cons.inj h).1

theorem IsString.exists_cons {w : List Char} {s : String} (h : IsString w s) :
    ∃ c t, w = c :: t ∧ (c = '"' ∨ c = '\'') := by
  have hkinds {quote : Char} {escapes : Bool}
      (hquote : (quote, escapes) ∈ [('"', true), ('\'', false)]) : quote = '"' ∨ quote = '\'' := by
    simp only [List.mem_cons, Prod.mk.injEq, List.not_mem_nil, or_false] at hquote
    exact hquote.imp And.left And.left
  cases h with
  | basic h =>
    obtain ⟨u, rfl, -⟩ := h
    exact ⟨'"', _, rfl, .inl rfl⟩
  | literal h =>
    obtain ⟨rfl, -⟩ := h
    exact ⟨'\'', _, rfl, .inr rfl⟩
  | long hquote _ _ => exact ⟨_, _, rfl, hkinds hquote⟩
  | longBelow hquote _ _ => exact ⟨_, _, rfl, hkinds hquote⟩

theorem Scalar.read {w : List Char} {v : Toml} (h : Scalar w v) :
    ∃ c t, w = c :: t ∧ (isBareChar c = true ∨ c = '"' ∨ c = '\'') ∧
      ∀ r, ValueOver r → readScalar (w ++ r) = some (v, r) := by
  have hbare {w : List Char} {v : Toml} (hall : ∀ c ∈ w, isBareChar c = true)
      (hv : ofBare? w = some v) : ∃ c t, w = c :: t ∧ (isBareChar c = true ∨ c = '"' ∨ c = '\'') ∧
        ∀ r, ValueOver r → readScalar (w ++ r) = some (v, r) := by
    cases w with
    | nil => cases hv
    | cons c t =>
      have hc := hall c List.mem_cons_self
      exact ⟨c, t, rfl, .inl hc, fun r hr =>
        readScalar_of_bareToken hc (bareToken_of_forall hall hr) hv⟩
  cases h with
  | @string w s h =>
    obtain ⟨c, t, rfl, hc⟩ := h.exists_cons
    refine ⟨c, t, rfl, .inr hc, fun r hr => ?_⟩
    have hquote : (c = '"' || c = '\'') = true := by
      rwa [Bool.or_eq_true, decide_eq_true_eq, decide_eq_true_eq]
    have hread := readQuoted_of_isString h hr.not_quote
    rw [List.cons_append] at hread ⊢
    rw [readScalar, if_pos hquote, hread, Option.map_some]
  | integer h _ _ => exact hbare h.isBareChar_of_mem (ofBare?_of_isInteger h)
  | float h => exact hbare h.isBareChar_of_mem (ofBare?_of_isFloat h)
  | flag b =>
    cases b with
    | false => exact hbare (List.all_eq_true.mp (by decide)) rfl
    | true => exact hbare (List.all_eq_true.mp (by decide)) rfl
  | datetime h =>
    obtain ⟨u, c, t, rfl, hne, hu, -⟩ := h.exists_split
    obtain ⟨d, u, rfl⟩ := List.exists_cons_of_ne_nil hne
    have hd : isBareChar d = true := isBareChar_of_isAsciiDigit (hu d List.mem_cons_self)
    exact ⟨d, _, rfl, .inl hd, fun r hr =>
      readScalar_of_bareToken hd (bareToken_of_isDatetime h hr) (ofBare?_of_isDatetime h)⟩

theorem Scalar.inRange {w : List Char} {v : Toml} (h : Scalar w v) : inRange v = true := by
  cases h with
  | string _ => rfl
  | integer _ hlow hhigh =>
    have hmin : Int.pow 2 127 = 2 ^ 127 := rfl
    have hmax : Int.pow 2 128 = 2 ^ 128 := rfl
    rw [Toml.inRange, integerInRange, hmin, hmax, Bool.and_eq_true, decide_eq_true_eq,
      decide_eq_true_eq]
    exact ⟨hlow, hhigh⟩
  | float h =>
    rw [Toml.inRange, String.toList_ofList]
    exact h.read.2.2
  | flag _ => rfl
  | datetime _ => rfl

theorem covers_scalar (depth : Nat) : Covers (readValue depth) Scalar := by
  constructor
  · intro w v h
    obtain ⟨c, t, rfl, hc, -⟩ := h.read
    refine ⟨c, t, rfl, ?_⟩
    rcases hc with hc | rfl | rfl
    · exact opens_of_isBareChar hc
    · rfl
    · rfl
  · intro w v r h hr
    obtain ⟨c, t, rfl, hc, hread⟩ := h.read
    have hbracket : c ≠ '[' ∧ c ≠ '{' := by
      rcases hc with hc | rfl | rfl
      · constructor <;> (rintro rfl; contradiction)
      · decide
      · decide
    rw [List.cons_append, readValue_scalar hbracket.1 hbracket.2, ← List.cons_append, hread r hr]
    rfl
  · exact fun h => h.inRange

theorem Elements.exists_of_mem {α : Type} {close : Char} {item : List Char → α → Prop}
    {w : List Char} {as : List α} (h : Elements close item w as) {a : α} (ha : a ∈ as) :
    ∃ u, item u a := by
  induction h with
  | close _ => contradiction
  | last _ hw _ =>
    rw [List.mem_singleton.mp ha]
    exact ⟨_, hw⟩
  | more _ hw _ _ ih =>
    rcases List.mem_cons.mp ha with rfl | ha
    · exact ⟨_, hw⟩
    · exact ih ha

theorem covers_layer {depth : Nat} {spells : List Char → Toml → Prop}
    (h : Covers (readValue depth) spells) : Covers (readValue (depth + 1)) (Layer spells) := by
  constructor
  · intro w v hw
    cases hw with
    | scalar hw => exact (covers_scalar (depth + 1)).begins hw
    | array _ => exact ⟨'[', _, rfl, rfl⟩
    | table _ _ => exact ⟨'{', _, rfl, rfl⟩
  · intro w v r hw hr
    cases hw with
    | scalar hw => exact (covers_scalar (depth + 1)).read hw hr
    | @array w vs hw =>
      rw [List.cons_append, readValue, readElements_of h hw (List.prefix_append w r).length_le]
      rfl
    | @table w ps hw hapart =>
      have hfree : ∀ p ∈ ps, Free p.1 [] := by
        intro p hp
        obtain ⟨_, ⟨hk⟩⟩ := hw.exists_of_mem hp
        apply free_nil
        cases hk <;> exact List.cons_ne_nil _ _
      obtain ⟨es, hread, hes⟩ :=
        readInlineEntries_of h hw hapart hfree (List.prefix_append w r).length_le r
      rw [List.cons_append, readValue, hread]
      simp only [Except.map, hes]
      rfl
  · intro w v hw
    cases hw with
    | scalar hw => exact hw.inRange
    | array hw =>
      rw [inRange, elementsInRange_iff]
      intro v hv
      obtain ⟨u, hu⟩ := hw.exists_of_mem hv
      exact h.inRange hu
    | @table w ps hw _ =>
      rw [inRange, entriesInRange_iff]
      apply inRange_foldl_put _ (List.forall_mem_nil _)
      intro p hp
      obtain ⟨u, hu⟩ := hw.exists_of_mem hp
      cases hu with
      | intro _ _ _ _ hv => exact h.inRange hv

theorem covers_spellsWithin (levels : Nat) : Covers (readValue levels) (SpellsWithin levels) := by
  induction levels with
  | zero => exact covers_scalar 0
  | succ levels ih => exact covers_layer ih

theorem covers_spells : Covers (readValue maxDepth) Spells := covers_spellsWithin 80

theorem digits_natText (n : Nat) : Digits 10 (Json.natText n) n := by
  have hdigit : ∀ d < 10, "0123456789abcdef".toList[d]? = some (Nat.digitChar d) := by decide
  induction n using Nat.strongRecOn with
  | ind n ih =>
    rw [Json.natText]
    by_cases hsmall : n < 10
    · rw [Nat.toDigits_of_lt_base hsmall]
      exact .one hsmall (.inl (hdigit n hsmall))
    · have hlast : n % 10 < 10 := Nat.mod_lt n (by decide)
      have hmore := Digits.next (ih (n / 10) (by omega)) hlast (.inl (hdigit _ hlast))
      rw [Nat.div_add_mod] at hmore
      rw [Nat.toDigits_of_base_le (by decide) (Nat.le_of_not_lt hsmall)]
      exact hmore

theorem isDecimal_natText (n : Nat) : IsDecimal (Json.natText n) n := by
  refine ⟨digits_natText n, ?_⟩
  intro hzero
  rcases Nat.eq_zero_or_pos n with rfl | hpos
  · rfl
  · exact absurd hzero (Json.head?_natText_ne_zero hpos)

theorem Spells.number {n : Nat} (hn : n < 2 ^ 63) : Spells (Json.natText n) (.integer n) :=
  .scalar (.integer (.decimal (.bare (isDecimal_natText n))) (by omega) (by omega))

theorem Elements.map {α β : Type} {close : Char} {item : List Char → α → Prop}
    {item' : List Char → β → Prop} {f : α → β} (himp : ∀ {w a}, item w a → item' w (f a))
    {w : List Char} {as : List α} (h : Elements close item w as) :
    Elements close item' w (as.map f) := by
  induction h with
  | close hg => exact .close hg
  | last hg hw hg' => exact .last hg (himp hw) hg'
  | more hg hw hg' _ ih => exact .more hg (himp hw) hg' ih

theorem Spells.texts {w : List Char} {ss : List String} (h : IsTextElements w ss) :
    Spells ('[' :: w) (.array (ss.map .string)) :=
  .array (h.map fun hw => .scalar (.string (.basic hw)))

theorem exists_isTextElements (ss : List String) : ∃ w, IsTextElements w ss := by
  have hnone : IsGap [] := .space .nil
  induction ss with
  | nil => exact ⟨_, .close hnone⟩
  | cons s ss ih =>
    obtain ⟨u, hu⟩ := ih
    obtain ⟨w, hw⟩ := exists_isBasicString s
    exact ⟨_, .more hnone hw hnone hu⟩

end BuildLog.Toml
