import BuildLog.Report

namespace BuildLog

structure Arguments where
  logFile : Option String
  kind : ReportKind
  url : Option String
  noCheckErrors : Bool
  config : Option String
  pretty : Bool
  verbose : Bool
deriving DecidableEq

namespace Arguments

inductive Flag where
  | noCheckErrors
  | pretty
  | verbose
  | help
  | version
deriving DecidableEq

inductive Setting where
  | kind
  | url
  | config
deriving DecidableEq

def flagOfName? : String → Option Flag
  | "no-check-errors" => some .noCheckErrors
  | "pretty" => some .pretty
  | "verbose" => some .verbose
  | "help" => some .help
  | "version" => some .version
  | _ => none

def flagOfLetter? : Char → Option Flag
  | 'p' => some .pretty
  | 'v' => some .verbose
  | 'h' => some .help
  | 'V' => some .version
  | _ => none

def settingOfName? : String → Option Setting
  | "kind" => some .kind
  | "url" => some .url
  | "config" => some .config
  | _ => none

def settingOfLetter? : Char → Option Setting
  | 'k' => some .kind
  | 'u' => some .url
  | 'c' => some .config
  | _ => none

inductive Stop where
  | help
  | version
  | invalid
deriving DecidableEq

/-- What has been read so far: each option at most once, and the option that awaits its value. -/
structure Draft where
  logFile : Option String
  kind : Option ReportKind
  url : Option String
  config : Option String
  flags : List Flag
  awaiting : Option Setting
  onlyFiles : Bool
deriving DecidableEq

def Draft.empty : Draft := ⟨none, none, none, none, [], none, false⟩

/-- Gives an option its value. A path may not be empty. -/
def Draft.set (d : Draft) (s : Setting) (value : String) : Except Stop Draft :=
  let d := { d with awaiting := none }
  match s with
  | .kind =>
    match d.kind, ReportKind.ofName? value with
    | none, some k => .ok { d with kind := some k }
    | _, _ => .error .invalid
  | .url => if d.url.isSome then .error .invalid else .ok { d with url := some value }
  | .config =>
    if d.config.isSome || value.isEmpty then .error .invalid
    else .ok { d with config := some value }

/-- Takes note of a flag. Help and version end the reading. -/
def Draft.raise (d : Draft) : Flag → Except Stop Draft
  | .help => .error .help
  | .version => .error .version
  | f => if d.flags.contains f then .error .invalid else .ok { d with flags := f :: d.flags }

def Draft.setFile (d : Draft) (path : String) : Except Stop Draft :=
  if d.awaiting.isSome || d.logFile.isSome || path.isEmpty then .error .invalid
  else .ok { d with logFile := some path }

def Draft.readName (d : Draft) (name : String) (value : Option String) : Except Stop Draft :=
  match flagOfName? name, settingOfName? name, value with
  | some f, _, none => d.raise f
  | none, some s, some v => d.set s v
  | none, some s, none => .ok { d with awaiting := some s }
  | _, _, _ => .error .invalid

def dropEquals : List Char → List Char
  | '=' :: r => r
  | r => r

/-- Reads options by their letters. The first with a value takes the rest of the text, if any. -/
def Draft.readLetters (d : Draft) : List Char → Except Stop Draft
  | [] => .ok d
  | c :: r =>
    match flagOfLetter? c, settingOfLetter? c with
    | some f, _ =>
      match d.raise f with
      | .ok d => d.readLetters r
      | .error e => .error e
    | none, some s =>
      if r.isEmpty then .ok { d with awaiting := some s }
      else d.set s (String.ofList (dropEquals r))
    | none, none => .error .invalid

def splitName (s : List Char) : String × Option String :=
  match Text.splitAt? ['='] s with
  | some (name, value) => (String.ofList name, some (String.ofList value))
  | none => (String.ofList s, none)

/-- Reads an argument. An option that awaits its value takes no other option for it. -/
def Draft.read (d : Draft) (argument : String) : Except Stop Draft :=
  if d.onlyFiles then d.setFile argument
  else
    match argument.toList with
    | ['-', '-'] => .ok { d with onlyFiles := true }
    | '-' :: '-' :: r =>
      if d.awaiting.isSome then .error .invalid
      else
        let (name, value) := splitName r
        d.readName name value
    | '-' :: c :: r => if d.awaiting.isSome then .error .invalid else d.readLetters (c :: r)
    | _ =>
      match d.awaiting with
      | some s => d.set s argument
      | none => d.setFile argument

def Draft.finish (d : Draft) : Except Stop Arguments :=
  if d.awaiting.isSome then .error .invalid
  else .ok {
    logFile := d.logFile
    kind := d.kind.getD .structuredLog
    url := d.url
    noCheckErrors := d.flags.contains .noCheckErrors
    config := d.config
    pretty := d.flags.contains .pretty
    verbose := d.flags.contains .verbose }

def parse (arguments : List String) : Except Stop Arguments := do
  let d ← arguments.foldlM Draft.read .empty
  d.finish

end Arguments
end BuildLog
