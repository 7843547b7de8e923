import BuildLog.Arguments
import BuildLog.Config
import BuildLog.Feed
import BuildLog.FileTree

namespace BuildLog

structure Surroundings where
  bytesOf : String → Except FileError (List UInt8)
  home : Option String
  /-- The user's directory for configurations. -/
  configDirectory : Option String
  input : List UInt8

structure RunResult where
  exitCode : Nat
  output : String
  errors : String
deriving DecidableEq

namespace CommandLine

def configName : String := ".th-log-parser.toml"

def configPlace : String := "th-log-parser/config.toml"

def join (directory file : String) : String :=
  if directory = "" || directory.toList.getLast? = some '/' then directory ++ file
  else directory ++ "/" ++ file

/-- The paths at which a configuration is looked for: in the working directory, in the home
directory, and in the directory for configurations. -/
def candidates (home configDirectory : Option String) : List String :=
  configName :: (home.map (join · configName)).toList ++
    (configDirectory.map (join · configPlace)).toList

def versionText : String := "th-log 0.1.0\n"

def usageText : String :=
  "Usage: th-log [OPTIONS] [LOG_FILE]\n\n" ++
  "  -k, --kind <KIND>      job-info, structured-log or talos-data\n" ++
  "  -u, --url <URL>        address of the log\n" ++
  "      --no-check-errors  do not look for failures in steps\n" ++
  "  -c, --config <CONFIG>  configuration file\n" ++
  "  -p, --pretty           indent the artifact\n" ++
  "  -v, --verbose          show what is done\n" ++
  "  -h, --help             show this text\n" ++
  "  -V, --version          show the version\n"

structure Trouble where
  message : String
  causes : List String

/-- The text with `margin` in front of each line but the first. -/
def indented (margin : List Char) (s : String) : String :=
  String.ofList (s.toList.flatMap fun c => if c = '\n' then c :: margin else [c])

def numbered : Nat → List String → String
  | _, [] => ""
  | n, c :: cs =>
    "    " ++ String.ofList (Json.natText n) ++ ": " ++ indented (List.replicate 7 ' ') c ++ "\n" ++
      numbered (n + 1) cs

/-- An error as it is printed; causes are numbered if there are several. -/
def Trouble.render (t : Trouble) : String :=
  "Error: " ++ t.message ++ "\n" ++
    match t.causes with
    | [] => ""
    | [c] => "\nCaused by:\n    " ++ indented (List.replicate 4 ' ') c ++ "\n"
    | cs => "\nCaused by:\n" ++ numbered 0 cs

def namedConfig (w : Surroundings) (path : String) : Except Trouble Config :=
  let unreadable := fun text =>
    Except.error ⟨"Failed to read config file " ++ path ++ ": " ++ text, [text]⟩
  match w.bytesOf path with
  | .error e => unreadable e.message
  | .ok bytes =>
    match Config.ofBytes bytes with
    | .ok c => .ok c
    | .error .notText => unreadable "stream did not contain valid UTF-8"
    | .error (.notConfig why) =>
      .error ⟨"Failed to parse config file " ++ path ++ ": " ++ why.message, [why.message]⟩

/-- The configuration in the first file that holds text, or the standard one if that text is no
configuration or there is no such file. -/
def foundConfig (w : Surroundings) : List String → Config
  | [] => .standard
  | path :: paths =>
    match w.bytesOf path with
    | .error _ => foundConfig w paths
    | .ok bytes =>
      match Config.ofBytes bytes with
      | .ok c => c
      | .error (.notConfig _) => .standard
      | .error .notText => foundConfig w paths

def config (w : Surroundings) (a : Arguments) : Except Trouble Config := do
  let c ← match a.config with
    | some path => namedConfig w path
    | none => pure (foundConfig w (candidates w.home w.configDirectory))
  return if a.noCheckErrors then { c with checkErrors := false } else c

def log (w : Surroundings) (a : Arguments) : Except Trouble (List UInt8) :=
  match a.logFile with
  | none => .ok w.input
  | some path =>
    match w.bytesOf path with
    | .ok bytes => .ok bytes
    | .error .isDirectory => .error ⟨"Failed to read log", [FileError.isDirectory.message]⟩
    | .error e => .error ⟨"Failed to open log file " ++ path, [e.message]⟩

def artifact (w : Surroundings) (a : Arguments) : Except Trouble Json := do
  let c ← config w a
  let bytes ← log w a
  match (a.kind.session a.url c.options).feed bytes with
  | (_, some f) =>
    .error ⟨f.messages.headD "", f.messages.tail⟩
  | (s, none) => return s.artifact

def report (w : Surroundings) (a : Arguments) : RunResult :=
  match artifact w a with
  | .ok j => ⟨0, (if a.pretty then j.pretty else j.compact) ++ "\n", ""⟩
  | .error t => ⟨1, "", t.render⟩

def run (w : Surroundings) (arguments : List String) : RunResult :=
  match Arguments.parse arguments with
  | .ok a => report w a
  | .error .help => ⟨0, usageText, ""⟩
  | .error .version => ⟨0, versionText, ""⟩
  | .error .invalid => ⟨2, "", usageText⟩

end CommandLine
end BuildLog
