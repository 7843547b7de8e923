import BuildLog.CommandLine
import BuildLog.Proofs.FeedLines
import BuildLog.Proofs.PrettyText

namespace BuildLog

namespace Surroundings

def textAt? (w : Surroundings) (path : String) : Option String :=
  match w.bytesOf path with
  | .error _ => none
  | .ok bytes => (Text.Utf8.decode? bytes).map String.ofList

/-- A slash stands between a directory and a file in it, unless the directory is the empty path or
ends in a slash. -/
def inDirectory (directory file : String) : String :=
  if directory.toList = [] ∨ ['/'] <:+ directory.toList then directory ++ file
  else directory ++ "/" ++ file

/-- The paths at which a configuration is looked for: in the working directory, in the home
directory and in the directory for configurations. -/
def searched (w : Surroundings) : List String :=
  [some ".th-log-parser.toml",
    w.home.map (inDirectory · ".th-log-parser.toml"),
    w.configDirectory.map (inDirectory · "th-log-parser/config.toml")].reduceOption

/-- The settings of a run that finds no configuration. -/
def unconfigured : Config := ⟨500, ["TALOSDATA", "TalosResult"], true, 100⟩

/-- The configuration that a run is to use: the one in the file that was named, and else the one in
the first file with a text. A text that is no configuration counts as if there were no file. -/
def configFor? (w : Surroundings) (named : Option String) : Option Config :=
  match named with
  | some path => (w.textAt? path).bind fun text => (Config.ofToml text).toOption
  | none =>
    match w.searched.findSome? w.textAt? with
    | some text => some ((Config.ofToml text).toOption.getD unconfigured)
    | none => some unconfigured

def logFor? (w : Surroundings) : (file : Option String) → Option (List UInt8)
  | none => some w.input
  | some path => (w.bytesOf path).toOption

def upToText (w : Surroundings) : List String → List String
  | [] => []
  | path :: paths => if (w.textAt? path).isSome then [path] else path :: w.upToText paths

/-- The paths whose files decide what a run does. -/
def decisive (w : Surroundings) (a : Arguments) : List String :=
  a.logFile.toList ++
    match a.config with
    | some path => [path]
    | none => w.upToText w.searched

end Surroundings

def Config.under (c : Config) (noCheckErrors : Bool) : Config :=
  if noCheckErrors then { c with checkErrors := false } else c

namespace CommandLine
open Surroundings

theorem join_eq (directory file : String) : join directory file = inDirectory directory file := by
  have hslash : directory.toList.getLast? = some '/' ↔ ['/'] <:+ directory.toList := by
    rw [List.getLast?_eq_some_iff]
    exact exists_congr fun _ => eq_comm
  simp only [join, inDirectory, Bool.or_eq_true, decide_eq_true_eq, hslash,
    String.toList_eq_nil_iff]

theorem candidates_eq (w : Surroundings) : candidates w.home w.configDirectory = w.searched := by
  have hjoin : join = inDirectory := by
    funext directory file
    exact join_eq directory file
  rw [candidates, searched, hjoin]
  cases w.home <;> cases w.configDirectory <;> rfl

theorem foundConfig_eq (w : Surroundings) (paths : List String) :
    foundConfig w paths =
      match paths.findSome? w.textAt? with
      | some text => (Config.ofToml text).toOption.getD unconfigured
      | none => unconfigured := by
  induction paths with
  | nil => rfl
  | cons path paths ih =>
    rw [foundConfig, List.findSome?_cons, textAt?]
    cases w.bytesOf path with
    | error e => exact ih
    | ok bytes =>
      simp only [Config.ofBytes]
      cases Text.Utf8.decode? bytes with
      | none => exact ih
      | some text =>
        simp only [Option.map_some]
        cases Config.ofToml (String.ofList text) <;> rfl

theorem namedConfig_of_text {w : Surroundings} {path text : String} {c : Config}
    (htext : w.textAt? path = some text) (hc : Config.ofToml text = .ok c) :
    namedConfig w path = .ok c := by
  unfold textAt? at htext
  unfold namedConfig
  cases hbytes : w.bytesOf path with
  | error e => simp [hbytes] at htext
  | ok bytes =>
    simp only [hbytes, Option.map_eq_some_iff] at htext
    obtain ⟨s, hs, rfl⟩ := htext
    simp only [Config.ofBytes, hs, hc, Except.mapError]

def baseConfig (w : Surroundings) (a : Arguments) : Except Trouble Config :=
  match a.config with
  | some path => namedConfig w path
  | none => .ok (foundConfig w w.searched)

theorem config_eq (w : Surroundings) (a : Arguments) :
    config w a = (baseConfig w a).map fun c => c.under a.noCheckErrors := by
  rw [config, baseConfig, candidates_eq]
  cases a.config with
  | some path => cases namedConfig w path <;> rfl
  | none => rfl

theorem baseConfig_of_configFor? {w : Surroundings} {a : Arguments} {c : Config}
    (h : w.configFor? a.config = some c) : baseConfig w a = .ok c := by
  unfold configFor? at h
  unfold baseConfig
  cases hnamed : a.config with
  | some path =>
    simp only [hnamed, Option.bind_eq_some_iff] at h
    obtain ⟨text, htext, hc⟩ := h
    cases hparse : Config.ofToml text with
    | error e => simp [hparse, Except.toOption] at hc
    | ok c' =>
      obtain rfl : c' = c := by simpa [hparse, Except.toOption] using hc
      exact namedConfig_of_text htext hparse
  | none =>
    simp only [hnamed] at h
    simp only [foundConfig_eq]
    split at h <;> · cases h; rfl

theorem log_of_logFor? {w : Surroundings} {a : Arguments} {bytes : List UInt8}
    (h : w.logFor? a.logFile = some bytes) : log w a = .ok bytes := by
  unfold log
  unfold logFor? at h
  cases hfile : a.logFile with
  | none =>
    simp only [hfile, Option.some.injEq] at h
    rw [h]
  | some path =>
    simp only [hfile] at h
    cases hbytes : w.bytesOf path with
    | error e => simp [hbytes, Except.toOption] at h
    | ok bs =>
      obtain rfl : bs = bytes := by simpa [hbytes, Except.toOption] using h
      simp only [hbytes]

theorem textAt?_eq {w w' : Surroundings} {path : String} (h : w'.bytesOf path = w.bytesOf path) :
    w'.textAt? path = w.textAt? path := by
  rw [textAt?, textAt?, h]

theorem findSome?_textAt?_eq {w w' : Surroundings} {paths : List String}
    (h : ∀ path ∈ w.upToText paths, w'.bytesOf path = w.bytesOf path) :
    paths.findSome? w'.textAt? = paths.findSome? w.textAt? := by
  induction paths with
  | nil => rfl
  | cons path paths ih =>
    rw [upToText] at h
    cases htext : w.textAt? path with
    | some text =>
      -- neither looks behind a text
      rw [htext, Option.isSome_some, if_pos rfl, List.forall_mem_singleton] at h
      rw [List.findSome?_cons, List.findSome?_cons, textAt?_eq h, htext]
    | none =>
      rw [htext, Option.isSome_none, if_neg Bool.false_ne_true, List.forall_mem_cons] at h
      rw [List.findSome?_cons, List.findSome?_cons, textAt?_eq h.1, htext]
      exact ih h.2

/-- Whether other surroundings differ at most where it does not count for a run. -/
structure SameFor (a : Arguments) (w w' : Surroundings) : Prop where
  input : a.logFile = none → w'.input = w.input
  home : a.config = none → w'.home = w.home
  configDirectory : a.config = none → w'.configDirectory = w.configDirectory
  bytesOf : ∀ path ∈ w.decisive a, w'.bytesOf path = w.bytesOf path

theorem baseConfig_of_same {a : Arguments} {w w' : Surroundings} (h : SameFor a w w') :
    baseConfig w' a = baseConfig w a := by
  have hbytes := (List.forall_mem_append.mp h.bytesOf).2
  unfold baseConfig
  cases hnamed : a.config with
  | some path =>
    rw [hnamed] at hbytes
    have hpath := hbytes path (List.mem_singleton.mpr rfl)
    simp only [namedConfig, hpath]
  | none =>
    rw [hnamed] at hbytes
    have hsearched : w'.searched = w.searched := by
      rw [searched, searched, h.home hnamed, h.configDirectory hnamed]
    simp only [foundConfig_eq, hsearched, findSome?_textAt?_eq hbytes]

theorem log_of_same {a : Arguments} {w w' : Surroundings} (h : SameFor a w w') :
    log w' a = log w a := by
  have hbytes := (List.forall_mem_append.mp h.bytesOf).1
  unfold log
  cases hfile : a.logFile with
  | none => simp only [h.input hfile]
  | some path =>
    rw [hfile] at hbytes
    have hpath := hbytes path (List.mem_singleton.mpr rfl)
    simp only [hpath]

theorem run_of_same {arguments : List String} {a : Arguments}
    (ha : Arguments.parse arguments = .ok a) {w w' : Surroundings} (h : SameFor a w w') :
    run w' arguments = run w arguments := by
  simp only [run, ha, report, artifact, config_eq, baseConfig_of_same h, log_of_same h]

theorem artifact_eq {w : Surroundings} {a : Arguments} {c : Config} {bytes : List UInt8}
    (hconfig : w.configFor? a.config = some c) (hlog : w.logFor? a.logFile = some bytes) :
    let fed := (a.kind.session a.url (c.under a.noCheckErrors).options).feed bytes
    artifact w a =
      match fed.2 with
      | some f => .error ⟨f.messages.headD "", f.messages.tail⟩
      | none => .ok fed.1.artifact := by
  have hbase := baseConfig_of_configFor? hconfig
  have hbytes := log_of_logFor? hlog
  simp only [artifact, config_eq, hbase, hbytes, Except.map, bind, Except.bind, pure, Except.pure]
  obtain ⟨s, _ | f⟩ := (a.kind.session a.url (c.under a.noCheckErrors).options).feed bytes <;> rfl

def lastCandidate : String := "etc/th-log-parser/config.toml"

/-- Three candidates: the first is no text, and the second one decides, though it is no
configuration. -/
def brokenCandidate : Surroundings where
  bytesOf path :=
    if path = ".th-log-parser.toml" then .ok [0xFF]
    else if path = "home/.th-log-parser.toml" then .ok "check_errors = 0".toUTF8.toList
    else if path = lastCandidate then .ok "max_step_errors = 1".toUTF8.toList
    else .error .notFound
  home := some "home"
  configDirectory := some "etc"
  input := "builder: x\r\n".toUTF8.toList

end CommandLine
end BuildLog
