import BuildLog.Feed

namespace BuildLog
open Text

namespace Text

variable {α : Type} [DecidableEq α]

/-- The pieces of a sequence between the elements `feed`, without an empty last piece, each without
one element `ret` at its end. -/
def linesBetween (feed ret : α) (s : List α) : List (List α) :=
  (dropEnd [] (s.splitOn feed)).map (dropEnd ret)

def byteLines (bytes : List UInt8) : List (List UInt8) := linesBetween 10 13 bytes

def decodedLines (bytes : List UInt8) : List String :=
  (byteLines bytes).map fun line => String.ofList (Utf8.decodeLossy line)

theorem dropEnd_concat (x : α) (s : List α) : dropEnd x (s ++ [x]) = s := by
  rw [dropEnd, if_pos List.getLast?_concat, List.dropLast_concat]

theorem dropEnd_of_ne {x : α} {s : List α} (h : s.getLast? ≠ some x) : dropEnd x s = s :=
  if_neg h

theorem dropEnd_append {t : List α} (ht : t ≠ []) (x : α) (s : List α) :
    dropEnd x (s ++ t) = s ++ dropEnd x t := by
  have hlast : (s ++ t).getLast? = t.getLast? := by
    rw [List.getLast?_append, List.getLast?_eq_some_getLast ht, Option.some_or]
  rw [dropEnd, dropEnd, hlast, List.dropLast_append_of_ne_nil ht]
  split <;> rfl

theorem takeThrough_of_not_mem {sep : α} {s : List α} (h : sep ∉ s) : takeThrough sep s = s := by
  induction s with
  | nil => rfl
  | cons a s ih =>
    obtain ⟨ha, hs⟩ := not_or.mp (mt List.mem_cons.mpr h)
    rw [takeThrough, if_neg (Ne.symm ha), ih hs]

theorem takeThrough_append_cons {sep : α} {s : List α} (h : sep ∉ s) (t : List α) :
    takeThrough sep (s ++ sep :: t) = s ++ [sep] := by
  induction s with
  | nil => simp [takeThrough]
  | cons a s ih =>
    obtain ⟨ha, hs⟩ := not_or.mp (mt List.mem_cons.mpr h)
    rw [List.cons_append, takeThrough, if_neg (Ne.symm ha), ih hs]
    rfl

theorem linesBetween_nil (feed ret : α) : linesBetween feed ret [] = [] := rfl

theorem linesBetween_of_not_mem {feed : α} (ret : α) {s : List α} (hne : s ≠ []) (h : feed ∉ s) :
    linesBetween feed ret s = [dropEnd ret s] := by
  have hkept : dropEnd [] [s] = [s] := dropEnd_of_ne (by simpa using hne)
  rw [linesBetween, List.splitOn_eq_singleton h, hkept]
  rfl

theorem linesBetween_append_cons (feed ret : α) (s t : List α) :
    linesBetween feed ret (s ++ feed :: t) =
      (s.splitOn feed).map (dropEnd ret) ++ linesBetween feed ret t := by
  have hsplit : (s ++ feed :: t).splitOn feed = s.splitOn feed ++ t.splitOn feed :=
    List.splitOnP_append_cons s t (beq_self_eq_true feed)
  rw [linesBetween, hsplit, dropEnd_append (List.splitOn_ne_nil feed t), List.map_append]
  rfl

theorem linesBetween_line {feed : α} (ret : α) {s : List α} (h : feed ∉ s) (t : List α) :
    linesBetween feed ret (s ++ feed :: t) = dropEnd ret s :: linesBetween feed ret t := by
  rw [linesBetween_append_cons, List.splitOn_eq_singleton h]
  rfl

/-- A sequence that is empty or ends with a separator is cut up apart from what follows it. -/
theorem linesBetween_append {feed : α} {s : List α} (h : s = [] ∨ s.getLast? = some feed) (ret : α)
    (t : List α) :
    linesBetween feed ret (s ++ t) = linesBetween feed ret s ++ linesBetween feed ret t := by
  obtain rfl | hlast := h
  · rfl
  · obtain ⟨front, rfl⟩ := List.getLast?_eq_some_iff.mp hlast
    have hfront := linesBetween_append_cons feed ret front []
    have hboth := linesBetween_append_cons feed ret front t
    rw [linesBetween_nil, List.append_nil] at hfront
    rw [List.append_assoc, List.singleton_append, hboth, hfront]

def lineEndings : List (List UInt8) := [[10], [13, 10]]

/-- Some bytes are the given lines, each with a line ending of its own; the last one may do
without. -/
inductive Written : List (List UInt8) → List UInt8 → Prop
  | nothing : Written [] []
  | unended (line : List UInt8) : Written [line] line
  | ended (line ending : List UInt8) {bytes : List UInt8} {lines : List (List UInt8)}
      (hending : ending ∈ lineEndings) (hrest : Written lines bytes) :
      Written (line :: lines) (line ++ ending ++ bytes)

/-- However lines are ended, they are the lines of the bytes, unless they hold an ending themselves
or the last one is empty. -/
theorem byteLines_of_written {lines : List (List UInt8)} {bytes : List UInt8}
    (hlines : ∀ line ∈ lines, 10 ∉ line ∧ line.getLast? ≠ some 13)
    (hlast : lines.getLast? ≠ some []) (h : Written lines bytes) : byteLines bytes = lines := by
  induction h with
  | nothing => rfl
  | unended line =>
    obtain ⟨hfeed, hret⟩ := hlines line List.mem_cons_self
    have hne : line ≠ [] := by simpa using hlast
    rw [byteLines, linesBetween_of_not_mem 13 hne hfeed, dropEnd_of_ne hret]
  | @ended line ending bytes lines hending _ ih =>
    obtain ⟨hfeed, hret⟩ := hlines line List.mem_cons_self
    have hrest : byteLines bytes = lines := by
      apply ih
      · exact fun other hmem => hlines other (List.mem_cons_of_mem line hmem)
      · intro hempty
        apply hlast
        rw [List.getLast?_cons, hempty]
        rfl
    -- with a carriage return before it, the line feed ends the line and that return
    obtain rfl | rfl : ending = [10] ∨ ending = [13, 10] := by simpa [lineEndings] using hending
    · rw [List.append_assoc, List.singleton_append, byteLines, linesBetween_line 13 hfeed,
        dropEnd_of_ne hret]
      exact congrArg (line :: ·) hrest
    · have hfeed' : 10 ∉ line ++ [13] := by simp [hfeed]
      have hsplit : line ++ [13, 10] ++ bytes = line ++ [13] ++ 10 :: bytes := by simp
      rw [hsplit, byteLines, linesBetween_line 13 hfeed', dropEnd_concat]
      exact congrArg (line :: ·) hrest

/-- The three ways in which a sequence can begin: it is empty, or all of it is one line without a
separator, or it has a line and a separator in front. -/
@[elab_as_elim]
theorem lines_induction {motive : List α → Prop} (feed : α) (nil : motive [])
    (last : ∀ s, s ≠ [] → feed ∉ s → motive s)
    (line : ∀ s t, feed ∉ s → motive t → motive (s ++ feed :: t)) (s : List α) : motive s := by
  by_cases h : feed ∈ s
  · obtain ⟨front, rest, hs, hfront⟩ := List.eq_append_cons_of_mem h
    have hshorter : rest.length < s.length := by
      rw [hs, List.length_append, List.length_cons]
      omega
    rw [hs]
    exact line front rest hfront (lines_induction feed nil last line rest)
  · by_cases hne : s = []
    · rw [hne]
      exact nil
    · exact last s hne h
termination_by s.length

end Text

namespace Session

def readText (s : Session) (lines : List String) : Session × Option FeedFailure :=
  ((s.readLines lines).1,
    (s.readLines lines).2.map fun e => ⟨(s.readLines lines).1.lineNumber - 1, e⟩)

theorem lineNumber_readLines_of_failure {s : Session} {lines : List String} {e : Malformed}
    (h : (s.readLines lines).2 = some e) :
    s.lineNumber < (s.readLines lines).1.lineNumber := by
  induction lines generalizing s with
  | nil => exact absurd h.symm (Option.some_ne_none e)
  | cons line lines ih =>
    have hcounted : s.lineNumber < (s.readLine line).1.lineNumber := Nat.lt_succ_self s.lineNumber
    cases hline : (s.readLine line).2 with
    | some e' =>
      rw [readLines_cons_of_failure hline]
      exact hcounted
    | none =>
      rw [readLines_cons_of_none hline] at h ⊢
      exact Nat.lt_trans hcounted (ih h)

theorem readText_nil (s : Session) : s.readText [] = (s, none) := rfl

theorem readText_cons (s : Session) (line : String) (lines : List String) :
    s.readText (line :: lines) =
      match s.readLine line with
      | (t, some e) => (t, some ⟨s.lineNumber, e⟩)
      | (t, none) => t.readText lines := by
  have hnumber : (s.readLine line).1.lineNumber = s.lineNumber + 1 := rfl
  unfold readText
  rw [readLines]
  cases h : s.readLine line with
  | mk t e =>
    rw [h] at hnumber
    cases e with
    | none => rfl
    | some e =>
      dsimp only at hnumber ⊢
      rw [hnumber, Nat.add_sub_cancel]
      rfl

theorem readText_append {s : Session} {lines : List String} (h : (s.readText lines).2 = none)
    (rest : List String) :
    s.readText (lines ++ rest) = (s.readText lines).1.readText rest := by
  induction lines generalizing s with
  | nil => rfl
  | cons line lines ih =>
    rw [List.cons_append, readText_cons, readText_cons]
    rw [readText_cons] at h
    cases hline : s.readLine line with
    | mk t e =>
      rw [hline] at h
      cases e with
      | none => exact ih h
      | some e => exact absurd h (Option.some_ne_none _)

theorem feed_nil (s : Session) : s.feed [] = (s, none) := by
  rw [feed]
  rfl

theorem feed_line {line : List UInt8} (hne : line ≠ []) {rest : List UInt8}
    (hline : takeThrough 10 (line ++ rest) = line) (s : Session) :
    s.feed (line ++ rest) =
      match s.readLine (String.ofList (Utf8.decodeLossy (dropEnding line))) with
      | (t, some e) => (t, some ⟨s.lineNumber, e⟩)
      | (t, none) => t.feed rest := by
  have hsome : ¬ takeThrough 10 (line ++ rest) = [] := by rwa [hline]
  rewrite [feed, dif_neg hsome, hline, List.drop_left]
  rfl

theorem feed_eq_readText (s : Session) (bytes : List UInt8) :
    s.feed bytes = s.readText (decodedLines bytes) := by
  induction bytes using lines_induction (10 : UInt8) generalizing s with
  | nil => rw [feed_nil, decodedLines, byteLines, linesBetween_nil, List.map_nil, readText_nil]
  | last bytes hne h =>
    have hend : bytes.getLast? ≠ some 10 := fun hlast => h (List.mem_of_getLast? hlast)
    have hline : takeThrough 10 (bytes ++ []) = bytes := by
      rw [List.append_nil, takeThrough_of_not_mem h]
    have hfeed := feed_line hne hline s
    rw [List.append_nil, dropEnding, dropEnd_of_ne hend] at hfeed
    rw [hfeed, decodedLines, byteLines, linesBetween_of_not_mem 13 hne h, List.map_singleton,
      readText_cons]
    simp only [feed_nil, readText_nil]
  | line front rest h ih =>
    have hline : takeThrough 10 (front ++ [10] ++ rest) = front ++ [10] := by
      rw [List.append_assoc, List.singleton_append, takeThrough_append_cons h]
    have hfeed := feed_line (by simp) hline s
    rw [List.append_assoc, List.singleton_append, dropEnding, dropEnd_concat] at hfeed
    rw [hfeed, decodedLines, byteLines, linesBetween_line 13 h, List.map_cons, readText_cons]
    simp only [ih, decodedLines, byteLines]

theorem feed_append {s : Session} {front : List UInt8}
    (hfront : front = [] ∨ front.getLast? = some 10) (h : (s.feed front).2 = none)
    (rest : List UInt8) : s.feed (front ++ rest) = (s.feed front).1.feed rest := by
  rw [feed_eq_readText] at h
  simp only [feed_eq_readText]
  rw [decodedLines, byteLines, linesBetween_append hfront, List.map_append]
  exact readText_append h _

/-- Reading bytes comes to reading their lines up to the first that fails. So bytes may be read in
two parts if the first is made of whole lines that do not fail, and it does not matter how the lines
are ended. -/
theorem feed_reads_lines (s : Session) (bytes : List UInt8) :
    let read := s.readLines (decodedLines bytes)
    (s.feed bytes).1 = read.1 ∧
    (s.feed bytes).2.map FeedFailure.cause = read.2 ∧
    (∀ f ∈ (s.feed bytes).2, f.lineNumber + 1 = read.1.lineNumber) ∧
    (∀ front rest, bytes = front ++ rest → (front = [] ∨ front.getLast? = some 10) →
      (s.feed front).2 = none → s.feed bytes = (s.feed front).1.feed rest) ∧
    ∀ lines bytes', (∀ line ∈ lines, 10 ∉ line ∧ line.getLast? ≠ some 13) →
      lines.getLast? ≠ some [] → Written lines bytes → Written lines bytes' →
      s.feed bytes = s.feed bytes' := by
  intro read
  have hfeed := feed_eq_readText s bytes
  refine ⟨congrArg Prod.fst hfeed, ?_, ?_, ?_, ?_⟩
  · have hresult := congrArg Prod.snd hfeed
    rw [hresult, readText, Option.map_map]
    exact Option.map_id'
  · intro f hf
    rw [hfeed, readText, Option.mem_def, Option.map_eq_some_iff] at hf
    obtain ⟨e, he, rfl⟩ := hf
    have hcount := lineNumber_readLines_of_failure he
    exact Nat.sub_add_cancel (Nat.lt_of_le_of_lt (Nat.zero_le _) hcount)
  · intro front rest hbytes hfront h
    rw [hbytes]
    exact feed_append hfront h rest
  · intro lines bytes' hlines hlast h h'
    have hsame : byteLines bytes = byteLines bytes' :=
      (byteLines_of_written hlines hlast h).trans (byteLines_of_written hlines hlast h').symm
    rw [feed_eq_readText, feed_eq_readText, decodedLines, decodedLines, hsame]

def asciiBytes (text : String) : List UInt8 := text.toList.map fun c => UInt8.ofNat c.toNat

theorem feed_reads_writings :
    let s := start "" none [.measurements .empty] Truncation.standard
    let bytes := asciiBytes "a\nTALOSDATA: [x]"
    s.feed bytes = (s.feed (asciiBytes "a\n")).1.feed (asciiBytes "TALOSDATA: [x]") ∧
      s.feed bytes = s.feed (asciiBytes "a\r\nTALOSDATA: [x]\r\n") ∧
      (s.feed bytes).2.map FeedFailure.lineNumber = some 1 := by
  intro s bytes
  let lines := [asciiBytes "a", asciiBytes "TALOSDATA: [x]"]
  obtain ⟨-, -, -, happend, hwritten⟩ := feed_reads_lines s bytes
  have hlines : ∀ line ∈ lines, 10 ∉ line ∧ line.getLast? ≠ some 13 := by decide +kernel
  have hread : (s.feed (asciiBytes "a\n")).2 = none := by
    rw [feed_eq_readText, ← Option.isNone_iff_eq_none]
    decide +kernel
  refine ⟨happend _ _ (by decide +kernel) (by decide +kernel) hread, ?_, ?_⟩
  · apply hwritten lines _ hlines (by decide +kernel)
    · exact .ended _ [10] (by decide) (.unended _)
    · exact .ended _ [13, 10] (by decide) (.ended _ [13, 10] (by decide) .nothing)
  · rw [feed_eq_readText]
    decide +kernel

end Session
end BuildLog
