import BuildLog.CommandLine

namespace BuildLog.Main

/-- The number of an error, which the runtime may have negated. -/
def errorNumber (code : UInt32) : Nat := min code.toNat (0 - code).toNat

def fileError (e : IO.Error) : FileError :=
  let named := fun (code : UInt32) (text : String) =>
    match errorNumber code with
    | 20 => FileError.notDirectory
    | 21 => FileError.isDirectory
    | 36 => FileError.nameTooLong
    | n => .other (text ++ " (os error " ++ String.ofList (Json.natText n) ++ ")")
  match e with
  | .noFileOrDirectory .. => .notFound
  | .inappropriateType _ code details => named code details
  | .invalidArgument _ code details => named code details
  | .permissionDenied _ code _ => named code "Permission denied"
  | e => .other (toString e)

def readFile (path : String) : IO (Except FileError (List UInt8)) := do
  try
    let bytes ← IO.FS.readBinFile path
    return .ok bytes.toList
  catch e => return .error (fileError e)

/-- The user's directory for configurations, which an absolute path can move out of the home
directory. -/
def configDirectory (home : Option String) : IO (Option String) := do
  match ← IO.getEnv "XDG_CONFIG_HOME" with
  | some d => return if "/".isPrefixOf d then some d else home.map (· ++ "/.config")
  | none => return home.map (· ++ "/.config")

def readFiles (paths : List String) : IO (List (String × Except FileError (List UInt8))) :=
  paths.mapM fun path => do return (path, ← readFile path)

def surroundings (a : Arguments) : IO Surroundings := do
  let home ← IO.getEnv "HOME"
  let configDirectory ← configDirectory home
  let files ← readFiles
    (a.config.toList ++ a.logFile.toList ++ CommandLine.candidates home configDirectory)
  let input ← if a.logFile.isSome then pure ByteArray.empty else (← IO.getStdin).readBinToEnd
  return {
    bytesOf := fun path => ((files.find? fun f => f.1 = path).map (·.2)).getD (.error .notFound)
    home := home
    configDirectory := configDirectory
    input := input.toList }

end BuildLog.Main

open BuildLog in
def main (arguments : List String) : IO UInt32 := do
  let w ← match Arguments.parse arguments with
    | .ok a => Main.surroundings a
    | .error _ => pure ⟨fun _ => .error .notFound, none, none, []⟩
  let r := CommandLine.run w arguments
  IO.print r.output
  IO.eprint r.errors
  return r.exitCode.toUInt32
