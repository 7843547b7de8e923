import BuildLog.Json.Failure

namespace BuildLog

structure Malformed where
  marker : String
  lineNumber : Nat
  cause : Json.Error

def Malformed.message (m : Malformed) : String :=
  "Malformed " ++ m.marker ++ " payload on line " ++ String.ofList (Json.natText m.lineNumber) ++
    ": " ++ m.cause.message

end BuildLog
