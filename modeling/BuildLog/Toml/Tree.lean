import BuildLog.Dictionary
import BuildLog.Toml.Basic

namespace BuildLog.Toml

/-- How a table came about: by its own header, on the way of another header, or by dotted keys. -/
inductive Origin where
  | header
  | implied
  | dotted
deriving DecidableEq

/-- A value that is settled, a table that may still grow, or an array of such tables, the latest
first. -/
inductive Node where
  | value (v : Toml)
  | table (origin : Origin) (entries : List (String × Node))
  | tables (latest : List (String × Node)) (earlier : List (List (String × Node)))

abbrev Entries := Dictionary Node

mutual
def Node.freeze : Node → Toml
  | .value v => v
  | .table _ entries => .table (freezeEntries entries)
  | .tables latest earlier =>
    .array ((freezeTables earlier).reverse ++ [.table (freezeEntries latest)])

def freezeEntries : List (String × Node) → List (String × Toml)
  | [] => []
  | (k, n) :: es => (k, n.freeze) :: freezeEntries es

def freezeTables : List (List (String × Node)) → List Toml
  | [] => []
  | es :: ts => .table (freezeEntries es) :: freezeTables ts
end

/-- Changes the table at a path. Tables on the way that are not there come about as `made`, and
those that are there can be entered if `enter` allows it. `change` is told how the table at the end
of the path came about. -/
def changeAt (made : Origin) (enter : Origin → Bool) (change : Origin → Entries → Option Entries) :
    (path : List String) → (here : Origin) → Entries → Option Entries
  | [], here, es => change here es
  | k :: ks, _, es =>
    match Dictionary.get? es k with
    | none =>
      (changeAt made enter change ks made []).map fun t => Dictionary.insert k (.table made t) es
    | some (.table o sub) =>
      if enter o then
        (changeAt made enter change ks o sub).map fun t => Dictionary.insert k (.table o t) es
      else none
    | some (.tables latest earlier) =>
      (changeAt made enter change ks .header latest).map fun t =>
        Dictionary.insert k (.tables t earlier) es
    | some (.value _) => none

/-- Gives a value to a key. Dotted keys do not reach into a table with a header of its own, and no
key is given twice. -/
def assign (path : List String) (key : String) (v : Toml) (es : Entries) : Option Entries :=
  changeAt .dotted (· ≠ .header) (fun here es =>
    if (path.isEmpty || here = .dotted) && (Dictionary.get? es key).isNone then
      some (Dictionary.insert key (.value v) es)
    else none) path .header es

def assignKeys (keys : List String) (v : Toml) (es : Entries) : Option Entries :=
  match keys.getLast? with
  | some key => assign keys.dropLast key v es
  | none => none

def changeAtHeader (change : Entries → Option Entries) (path : List String) (es : Entries) :
    Option Entries :=
  changeAt .implied (fun _ => true) (fun _ es => change es) path .header es

/-- Opens the table of a header. Only a table on the way of other headers may be there before. -/
def openTable (keys : List String) (es : Entries) : Option Entries :=
  match keys.getLast? with
  | none => none
  | some key =>
    changeAtHeader (fun es =>
      match Dictionary.get? es key with
      | none => some (Dictionary.insert key (.table .header []) es)
      | some (.table .implied sub) => some (Dictionary.insert key (.table .header sub) es)
      | _ => none) keys.dropLast es

def openElement (keys : List String) (es : Entries) : Option Entries :=
  match keys.getLast? with
  | none => none
  | some key =>
    changeAtHeader (fun es =>
      match Dictionary.get? es key with
      | none => some (Dictionary.insert key (.tables [] []) es)
      | some (.tables latest earlier) =>
        some (Dictionary.insert key (.tables [] (latest :: earlier)) es)
      | _ => none) keys.dropLast es

end BuildLog.Toml
