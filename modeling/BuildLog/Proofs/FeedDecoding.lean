import BuildLog.Proofs.FeedLines
import BuildLog.Proofs.LossyDecoding

namespace BuildLog
open Text

namespace Text

def textLines (text : List Char) : List (List Char) := linesBetween '\n' '\r' text

/-- The pieces of a text between line feeds, each without one carriage return at its end, and of
these without an empty last one. -/
def trimmedPieces (text : List Char) : List (List Char) :=
  dropEnd [] ((text.splitOn '\n').map (dropEnd '\r'))

namespace Utf8

theorem decodeLossy_feed (front back : List UInt8) :
    decodeLossy (front ++ 10 :: back) = decodeLossy front ++ '\n' :: decodeLossy back :=
  (decodeLossy_eq_append_cons_iff (b := 10) (by decide)).mpr ⟨front, back, rfl, rfl, rfl⟩

theorem not_mem_decodeLossy {bytes : List UInt8} (h : 10 ∉ bytes) : '\n' ∉ decodeLossy bytes := by
  intro hmem
  obtain ⟨us, vs, htext⟩ := List.append_of_mem hmem
  obtain ⟨front, back, rfl, -, -⟩ :=
    (decodeLossy_eq_append_cons_iff (b := 10) (by decide)).mp htext
  exact h (by simp)

theorem decodeLossy_eq_nil_iff {bytes : List UInt8} : decodeLossy bytes = [] ↔ bytes = [] := by
  rw [decodeLossy, List.map_eq_nil_iff, parts_eq_nil_iff]

theorem decodeLossy_dropEnd (line : List UInt8) :
    decodeLossy (dropEnd 13 line) = dropEnd '\r' (decodeLossy line) := by
  by_cases h : line.getLast? = some 13
  · obtain ⟨front, rfl⟩ := List.getLast?_eq_some_iff.mp h
    have htext : decodeLossy (front ++ [13]) = decodeLossy front ++ ['\r'] :=
      (decodeLossy_eq_append_cons_iff (b := 13) (by decide)).mpr ⟨front, [], rfl, rfl, rfl⟩
    rw [htext, dropEnd_concat, dropEnd_concat]
  · have hne : (decodeLossy line).getLast? ≠ some '\r' := by
      intro hlast
      obtain ⟨us, htext⟩ := List.getLast?_eq_some_iff.mp hlast
      obtain ⟨front, back, rfl, -, hback⟩ :=
        (decodeLossy_eq_append_cons_iff (b := 13) (by decide)).mp htext
      rw [decodeLossy_eq_nil_iff.mp hback] at h
      exact h List.getLast?_concat
    rw [dropEnd_of_ne h, dropEnd_of_ne hne]

end Utf8

theorem textLines_decodeLossy (bytes : List UInt8) :
    textLines (Utf8.decodeLossy bytes) = (byteLines bytes).map Utf8.decodeLossy := by
  induction bytes using lines_induction (10 : UInt8) with
  | nil => rfl
  | last bytes hne h =>
    have hne' : Utf8.decodeLossy bytes ≠ [] := mt Utf8.decodeLossy_eq_nil_iff.mp hne
    rw [textLines, linesBetween_of_not_mem '\r' hne' (Utf8.not_mem_decodeLossy h), byteLines,
      linesBetween_of_not_mem 13 hne h, ← Utf8.decodeLossy_dropEnd, List.map_singleton]
  | line front rest h ih =>
    rw [Utf8.decodeLossy_feed, textLines, linesBetween_line '\r' (Utf8.not_mem_decodeLossy h),
      byteLines, linesBetween_line 13 h, ← Utf8.decodeLossy_dropEnd, List.map_cons]
    exact congrArg (Utf8.decodeLossy (dropEnd 13 front) :: ·) ih

theorem dropEnd_eq_nil_iff (line : List Char) :
    dropEnd '\r' line = [] ↔ line = [] ∨ line = ['\r'] := by
  by_cases h : line.getLast? = some '\r'
  · obtain ⟨front, rfl⟩ := List.getLast?_eq_some_iff.mp h
    rw [dropEnd_concat]
    simp
  · rw [dropEnd_of_ne h]
    constructor
    · exact Or.inl
    · rintro (hnil | hret)
      · exact hnil
      · exact absurd (by rw [hret]; rfl) h

/-- It makes a difference whether an empty last piece is left out before or after the carriage
returns only if the last piece is a carriage return alone. -/
theorem trimmedPieces_eq_textLines_iff (text : List Char) :
    trimmedPieces text = textLines text ↔ (text.splitOn '\n').getLast? ≠ some ['\r'] := by
  obtain ⟨front, last, hpieces⟩ : ∃ front last, text.splitOn '\n' = front ++ [last] :=
    ⟨_, _, (List.dropLast_concat_getLast (List.splitOn_ne_nil '\n' text)).symm⟩
  have hone (piece : List Char) : dropEnd [] [piece] = if piece = [] then [] else [piece] := by
    simp [dropEnd]
  rw [trimmedPieces, textLines, linesBetween, hpieces, List.map_append, List.map_singleton,
    dropEnd_append (List.cons_ne_nil _ _), dropEnd_append (List.cons_ne_nil _ _), List.map_append,
    List.append_cancel_left_eq, hone, hone, List.getLast?_concat]
  by_cases hnil : last = []
  · simp [hnil, dropEnd]
  · by_cases hret : last = ['\r']
    · simp [hret, dropEnd]
    · simp [hnil, hret, dropEnd_eq_nil_iff]

end Text

namespace Session

/-- Reading the bytes of a log comes to decoding all of them and reading the lines of the text. A
last piece that is a carriage return alone is a line; only there would it make a difference to take
the carriage returns away first and an empty last piece after that. -/
theorem feed_reads_decoded (s : Session) (bytes : List UInt8) :
    let text := Utf8.decodeLossy bytes
    let read := s.readLines ((textLines text).map String.ofList)
    Utf8.Decoded bytes (Utf8.parts bytes) ∧
    s.feed bytes = (read.1, read.2.map fun e => ⟨read.1.lineNumber - 1, e⟩) ∧
    (trimmedPieces text = textLines text ↔ (text.splitOn '\n').getLast? ≠ some ['\r']) := by
  intro text read
  refine ⟨Utf8.decoded_parts bytes, ?_, trimmedPieces_eq_textLines_iff text⟩
  have hlines : decodedLines bytes = (textLines text).map String.ofList := by
    rw [decodedLines, textLines_decodeLossy, List.map_map]
    rfl
  rw [feed_eq_readText, hlines]
  rfl

theorem feed_carriageReturn :
    let s := start "" none [] Truncation.standard
    let trimmed := (trimmedPieces (Utf8.decodeLossy [13])).map String.ofList
    (s.feed [13]).1.lineNumber = 1 ∧ (s.readLines trimmed).1.lineNumber = 0 := by
  intro s trimmed
  rw [feed_eq_readText]
  decide +kernel

end Session
end BuildLog
