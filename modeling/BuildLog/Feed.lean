import BuildLog.Session
import BuildLog.Text.Lines
import BuildLog.Text.Utf8

namespace BuildLog

structure FeedFailure where
  lineNumber : Nat
  cause : Malformed

def FeedFailure.messages (f : FeedFailure) : List String :=
  ["Failed to parse log line " ++ String.ofList (Json.natText f.lineNumber), f.cause.message,
    f.cause.cause.message]

namespace Session

/-- Reads the bytes of a log up to the end of the first line that fails. Each line is taken off the
front with its line feed, and the log is over when there is nothing to take. -/
def feed (s : Session) (bytes : List UInt8) : Session × Option FeedFailure :=
  let line := Text.takeThrough 10 bytes
  if _h : line = [] then (s, none)
  else
    match s.readLine (String.ofList (Text.Utf8.decodeLossy (Text.dropEnding line))) with
    | (t, some e) => (t, some ⟨s.lineNumber, e⟩)
    | (t, none) => t.feed (bytes.drop line.length)
termination_by bytes.length
decreasing_by
  have hline : 0 < (Text.takeThrough 10 bytes).length := List.length_pos_iff.mpr _h
  have hbytes : bytes ≠ [] := fun h => _h ((Text.takeThrough_eq_nil_iff 10 bytes).mpr h)
  have hlength : 0 < bytes.length := List.length_pos_iff.mpr hbytes
  rw [List.length_drop]
  omega

end Session
end BuildLog
