import BuildLog.Json.Skip

namespace BuildLog.Json
open Text

def wrongType {α : Type} (wanted : String) (s : List Char) : Except Failure α :=
  match s with
  | '[' :: _ => mismatched (.wrongType (array []) wanted)
  | '{' :: _ => mismatched (.wrongType (object []) wanted)
  | r => do
    let (j, _) ← readScalar r
    mismatched (.wrongType j wanted)

/-- A scalar that `pick` accepts; `pick` is asked only if `starts` likes the first character. -/
def readPick {α : Type} (wanted : String) (starts : Char → Bool)
    (pick : Json → Except Mismatch α) : Reader α := fun s =>
  match skip s with
  | [] => failAt .endOfValue []
  | c :: r =>
    if starts c then do
      let (j, t) ← readScalar (c :: r)
      match pick j with
      | .ok a => return (a, t)
      | .error m => mismatched m
    else wrongType wanted (c :: r)

def readText : Reader String :=
  readPick "a string" (· = '"') fun
    | string s => .ok s
    | j => .error (.wrongType j "a string")

def readFlag : Reader Bool :=
  readPick "a boolean" (fun c => c = 't' || c = 'f') fun
    | bool b => .ok b
    | j => .error (.wrongType j "a boolean")

def startsNumber (c : Char) : Bool := c = '-' || isAsciiDigit c

def readInteger (low high : Int) (wanted : String) : Reader Int :=
  readPick wanted startsNumber fun
    | int n => if low ≤ n && n ≤ high then .ok n else .error (.wrongValue n wanted)
    | j => .error (.wrongType j wanted)

def readCount : Reader Nat := fun s => do
  let (n, r) ← readInteger 0 (Int.pow 2 64 - 1) "usize" s
  return (n.toNat, r)

def readInt64 : Reader Int := readInteger (-Int.pow 2 63) (Int.pow 2 63 - 1) "i64"

def readOptional {α : Type} (item : Reader α) : Reader (Option α) := fun s =>
  match skip s with
  | 'n' :: r => do
    let (_, t) ← readLetters ['u', 'l', 'l'] r
    return (none, t)
  | r => do
    let (a, t) ← item r
    return (some a, t)

def readList {α : Type} (item : Reader α) : Reader (List α) := fun s =>
  match skip s with
  | [] => failAt .endOfValue []
  | '[' :: r => readElements item r
  | r => wrongType "a sequence" r

def readNull : Reader Unit :=
  readPick "unit" (· = 'n') fun
    | null => .ok ()
    | j => .error (.wrongType j "unit")

def variant? {α : Type} (variants : List (String × α)) (name : String) : Except Failure α :=
  match variants.find? fun v => v.1 = name with
  | some v => .ok v.2
  | none => mismatched (.unknownVariant name (variants.map (·.1)))

/-- One of the named variants: its name, or an object with its name and null. -/
def readVariant {α : Type} (variants : List (String × α)) : Reader α := fun s =>
  match skip s with
  | [] => failAt .endOfValue []
  | '"' :: r => do
    let (name, t) ← readString r
    let a ← variant? variants name
    return (a, t)
  | '{' :: r =>
    match skip r with
    | [] => failAt .endOfObject []
    | '}' :: t => failAt .expectedValue ('}' :: t)
    | '"' :: t => do
      let (name, t) ← readString t
      let a ← variant? variants name
      let (_, t) ← readColon t
      let (_, t) ← readNull t
      match skip t with
      | [] => failBefore .endOfObject []
      | '}' :: t => return (a, t)
      | t => failBefore .expectedValue t
    | t => failAt .keyNotString t
  | r => failAt .expectedValue r

/-- The fields of a record in order, as nested pairs. `absent` is the value of a field that an
object lacks, if it may; `mayEnd` tells whether an array may lack it, too. -/
inductive Record : Type → Type 1 where
  | done : Record Unit
  | field {α β : Type} (name : String) (item : Reader α) (absent : Option α) (mayEnd : Bool)
      (rest : Record β) : Record (α × β)

namespace Record

def Draft : {β : Type} → Record β → Type
  | _, .done => Unit
  | _, .field (α := α) _ _ _ _ rest => Option α × rest.Draft

def blank : {β : Type} → (r : Record β) → r.Draft
  | _, .done => ()
  | _, .field _ _ _ _ rest => (none, rest.blank)

def size : {β : Type} → Record β → Nat
  | _, .done => 0
  | _, .field _ _ _ _ rest => rest.size + 1

def assign : {β : Type} → (r : Record β) → (name : String) → r.Draft → Reader r.Draft
  | _, .done, _, d => fun s => do
    let (_, s) ← readColon s
    let (_, s) ← pass s
    return (d, s)
  | _, .field (α := α) own item _ _ rest, name, d => fun s =>
    let known : Option α × rest.Draft := d
    if name = own then
      match known.1 with
      | some _ => mismatched (.duplicateField own)
      | none => do
        let (_, s) ← readColon s
        let (v, s) ← item s
        return ((some v, known.2), s)
    else do
      let (others, s) ← rest.assign name known.2 s
      return ((known.1, others), s)

def finish : {β : Type} → (r : Record β) → r.Draft → Except Failure β
  | _, .done, _ => .ok ()
  | _, .field (α := α) name _ absent _ rest, d =>
    let known : Option α × rest.Draft := d
    match known.1.or absent with
    | none => mismatched (.missingField name)
    | some v => do
      let b ← rest.finish known.2
      return (v, b)

def nextElement {α : Type} (item : Reader α) (before : Nat) : Reader (Option α) := fun s =>
  match skip s with
  | [] => failAt .endOfArray []
  | ']' :: r => .ok (none, ']' :: r)
  | c :: r =>
    if before = 0 then do
      let (a, t) ← item (c :: r)
      return (some a, t)
    else if c = ',' then
      match skip r with
      | ']' :: t => failAt .trailingComma (']' :: t)
      | t => do
        let (a, t) ← item t
        return (some a, t)
    else failAt .expectedArrayCommaOrEnd (c :: r)

def arrayEnd : Reader Unit := fun s =>
  match skip s with
  | ']' :: r => .ok ((), r)
  | [] => failAt .endOfArray []
  | ',' :: r =>
    match skip r with
    | ']' :: t => failAt .trailingComma (']' :: t)
    | t => failAt .trailingCharacters t
  | r => failAt .trailingCharacters r

/-- The fields from an array of which `before` elements have been read; `wanted` names the
record. -/
def fromElements (wanted : String) : {β : Type} → Record β → (before : Nat) → Reader β
  | _, .done, _ => arrayEnd
  | _, .field _ item absent mayEnd rest, before => fun s => do
    let (a, s) ← nextElement item before s
    let known := if mayEnd then a.or absent else a
    match known with
    | none => mismatched (.wrongLength before wanted)
    | some v =>
      let (b, s) ← rest.fromElements wanted (before + 1) s
      return ((v, b), s)

def read {β : Type} (name : String) (r : Record β) : Reader β := fun s =>
  match skip s with
  | [] => failAt .endOfValue []
  | '[' :: t =>
    let fields := if r.size = 1 then " element" else " elements"
    r.fromElements ("struct " ++ name ++ " with " ++ String.ofList (natText r.size) ++ fields) 0 t
  | '{' :: t => do
    let (d, t) ← Json.readFields r.assign r.blank t
    let b ← r.finish d
    return (b, t)
  | t => wrongType ("struct " ++ name) t

end Record
end BuildLog.Json
