namespace BuildLog.Toml

/-- A text is refused for what stands at some place of it, or for a key of too many parts, of which
no place is told. -/
inductive Failure where
  | malformed
  | tooManyKeys
deriving DecidableEq

/-- The text of a failure. Of one that tells a place only the first words are given. -/
def Failure.message : Failure → String
  | malformed => "TOML parse error"
  | tooManyKeys => "recursion limit\n"

def orMalformed {α : Type} : Option α → Except Failure α
  | some a => .ok a
  | none => .error .malformed

end BuildLog.Toml
