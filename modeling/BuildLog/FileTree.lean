namespace BuildLog

inductive FileError where
  | notFound
  | notDirectory
  | isDirectory
  | nameTooLong
  | other (text : String)
deriving DecidableEq

def FileError.message : FileError → String
  | notFound => "No such file or directory (os error 2)"
  | notDirectory => "Not a directory (os error 20)"
  | isDirectory => "Is a directory (os error 21)"
  | nameTooLong => "File name too long (os error 36)"
  | other text => text

inductive FileTree where
  | file (bytes : List UInt8)
  | directory (entries : List (String × FileTree))
deriving Inhabited

namespace FileTree

def maxName : Nat := 255

def maxPath : Nat := 4095

def entry? (name : String) : FileTree → Option FileTree
  | file _ => none
  | directory es => (es.find? fun e => e.1 = name).map (·.2)

/-- Follows the parts of a path from the directory `here`, whose parent and further ancestors are
`above`. The topmost directory is its own parent. -/
def follow : (above : List FileTree) → (here : FileTree) → (parts : List String) →
    Except FileError FileTree
  | _, here, [] => .ok here
  | _, file _, _ :: _ => .error .notDirectory
  | above, here, part :: parts =>
    if part = "" || part = "." then follow above here parts
    else if part = ".." then
      match above with
      | [] => follow [] here parts
      | parent :: above => follow above parent parts
    else if maxName < part.utf8ByteSize then .error .nameTooLong
    else
      match here.entry? part with
      | none => .error .notFound
      | some next => follow (here :: above) next parts

/-- The bytes of the file at a path, which starts in the directory `start` if it is relative. -/
def read (root : FileTree) (start path : String) : Except FileError (List UInt8) :=
  let full := if "/".isPrefixOf path then path else start ++ "/" ++ path
  if maxPath < path.utf8ByteSize then .error .nameTooLong
  else
    match follow [] root (full.splitOn "/") with
    | .error e => .error e
    | .ok (directory _) => .error .isDirectory
    | .ok (file bytes) => .ok bytes

/-- The tree with a file at the given parts of a path. -/
def addFile (bytes : List UInt8) : (parts : List String) → FileTree → FileTree
  | [], _ => file bytes
  | part :: parts, t =>
    let next := addFile bytes parts ((t.entry? part).getD (directory []))
    match t with
    | file _ => directory [(part, next)]
    | directory es => directory ((part, next) :: es.filter fun e => e.1 ≠ part)

end FileTree
end BuildLog
