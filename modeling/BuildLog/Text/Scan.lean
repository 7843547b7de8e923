namespace BuildLog.Text

def after? : List Char → List Char → Option (List Char)
  | [], s => some s
  | _ :: _, [] => none
  | a :: w, c :: s => if a = c then after? w s else none

def word (w : List Char) (k : List Char → Bool) (s : List Char) : Bool :=
  match after? w s with
  | some r => k r
  | none => false

/-- Whether `k` accepts what follows some run of the class `p`, the empty run included. -/
def run (p : Char → Bool) (k : List Char → Bool) : List Char → Bool
  | [] => k []
  | c :: s => k (c :: s) || (p c && run p k s)

def run1 (p : Char → Bool) (k : List Char → Bool) : List Char → Bool
  | [] => false
  | c :: s => p c && run p k s

/-- Whether `k` accepts the text from some position on, its end included. -/
def anywhere (k : List Char → Bool) : List Char → Bool
  | [] => k []
  | c :: s => k (c :: s) || anywhere k s

def occurs (w s : List Char) : Bool := anywhere (fun r => w.isPrefixOf r) s

def first? {α : Type} (k : List Char → Option α) : List Char → Option α
  | [] => k []
  | c :: s =>
    match k (c :: s) with
    | some a => some a
    | none => first? k s

/-- The shortest run of the class `p` after which `k` has an answer, with that answer. -/
def shortest? {α : Type} (p : Char → Bool) (k : List Char → Option α) :
    List Char → Option (List Char × α)
  | [] => (k []).map ([], ·)
  | c :: s =>
    match k (c :: s) with
    | some a => some ([], a)
    | none => if p c then (shortest? p k s).map fun x => (c :: x.1, x.2) else none

def longest? {α : Type} (p : Char → Bool) (k : List Char → Option α) :
    List Char → Option (List Char × α)
  | [] => (k []).map ([], ·)
  | c :: s =>
    match if p c then longest? p k s else none with
    | some x => some (c :: x.1, x.2)
    | none => (k (c :: s)).map ([], ·)

def longest1? {α : Type} (p : Char → Bool) (k : List Char → Option α) :
    List Char → Option (List Char × α)
  | [] => none
  | c :: s => if p c then (longest? p k s).map fun x => (c :: x.1, x.2) else none

def inLine (c : Char) : Bool := c ≠ '\n'

/-- The text before and after the first occurrence of the word `w`. -/
def splitAt? (w s : List Char) : Option (List Char × List Char) :=
  shortest? (fun _ => true) (after? w) s

end BuildLog.Text
