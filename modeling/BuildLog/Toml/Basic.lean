namespace BuildLog

inductive Toml where
  | string (s : String)
  | integer (n : Int)
  | float (text : String)
  | boolean (b : Bool)
  | datetime (text : String)
  | array (elements : List Toml)
  | table (entries : List (String × Toml))
deriving Inhabited

end BuildLog
