import BuildLog.Json.Token

namespace BuildLog.Json

/-- Further elements and the closing bracket. Each takes a comma, so the text is `fuel` enough. -/
def readMoreElements {α : Type} (item : Reader α) : (fuel : List Char) → Reader (List α)
  | [], s => failAt .endOfArray s
  | _ :: fuel, s =>
    match skip s with
    | [] => failAt .endOfArray []
    | ']' :: r => .ok ([], r)
    | ',' :: r =>
      match skip r with
      | ']' :: t => failAt .trailingComma (']' :: t)
      | t => do
        let (a, r) ← item t
        let (as, r) ← readMoreElements item fuel r
        return (a :: as, r)
    | r => failAt .expectedArrayCommaOrEnd r

def readElements {α : Type} (item : Reader α) : Reader (List α) := fun s =>
  match skip s with
  | [] => failAt .endOfArray []
  | ']' :: r => .ok ([], r)
  | r => do
    let (a, r) ← item r
    let (as, r) ← readMoreElements item r r
    return (a :: as, r)

def readColon : Reader Unit := fun s =>
  match skip s with
  | ':' :: r => .ok ((), r)
  | [] => failAt .endOfObject []
  | r => failAt .expectedColon r

def readMoreFields {σ : Type} (field : String → σ → Reader σ) :
    (fuel : List Char) → σ → Reader σ
  | [], _, s => failAt .endOfObject s
  | _ :: fuel, x, s =>
    match skip s with
    | [] => failAt .endOfObject []
    | '}' :: r => .ok (x, r)
    | ',' :: r =>
      match skip r with
      | [] => failAt .endOfValue []
      | '"' :: t => do
        let (name, r) ← readString t
        let (x, r) ← field name x r
        readMoreFields field fuel x r
      | '}' :: t => failAt .trailingComma ('}' :: t)
      | t => failAt .keyNotString t
    | r => failAt .expectedObjectCommaOrEnd r

/-- The fields of an object after its opening brace: `field` reads on after each name, the colon
included, and updates what is known of the object. -/
def readFields {σ : Type} (field : String → σ → Reader σ) (x : σ) : Reader σ := fun s =>
  match skip s with
  | [] => failAt .endOfObject []
  | '}' :: r => .ok (x, r)
  | '"' :: r => do
    let (name, r) ← readString r
    let (x, r) ← field name x r
    readMoreFields field r x r
  | r => failAt .keyNotString r

def readValueWith (compound : Reader Json) : Reader Json := fun s =>
  match skip s with
  | '[' :: r => compound ('[' :: r)
  | '{' :: r => compound ('{' :: r)
  | r => readScalar r

/-- A field of an object whose values are read by `item`; the last value of a name counts. -/
def readField (item : Reader Json) (name : String) (known : Dictionary Json) :
    Reader (Dictionary Json) := fun s => do
  let (_, s) ← readColon s
  let (j, s) ← item s
  return (known.insert name j, s)

/-- A value with at most `depth` levels of arrays and objects. -/
def readValue : (depth : Nat) → Reader Json
  | 0 => readValueWith (failAt .nestingTooDeep)
  | depth + 1 => readValueWith fun s =>
    match s with
    | '[' :: r => do
      let (js, r) ← readElements (readValue depth) r
      return (array js, r)
    | '{' :: r => do
      let (fs, r) ← readFields (readField (readValue depth)) [] r
      return (object fs, r)
    | r => failAt .expectedValue r

def maxDepth : Nat := 127

def readAll {α : Type} (reader : Reader α) (text : String) : Except Error α :=
  match reader text.toList with
  | .error e => .error (e.report text)
  | .ok (a, s) =>
    match skip s with
    | [] => .ok a
    | r => .error ((Failure.defect .trailingCharacters (byteCount r - 1)).report text)

def parse (text : String) : Except Error Json := readAll (readValue maxDepth) text

def parseArray (text : String) : Except Error (List Json) :=
  readAll (fun s =>
    match skip s with
    | '[' :: r => readElements (readValue (maxDepth - 1)) r
    | r => do
      let (j, _) ← readValue maxDepth r
      mismatched (.wrongType j "a sequence")) text

end BuildLog.Json
