namespace BuildLog.Text

def takeThrough {α : Type} [DecidableEq α] (sep : α) : List α → List α
  | [] => []
  | a :: s => if a = sep then [a] else a :: takeThrough sep s

/-- The list without its last element if that is `x`. -/
def dropEnd {α : Type} [DecidableEq α] (x : α) (s : List α) : List α :=
  if s.getLast? = some x then s.dropLast else s

/-- A line without its ending: a line feed, a carriage return, or one before the other. -/
def dropEnding (line : List UInt8) : List UInt8 := dropEnd 13 (dropEnd 10 line)

theorem takeThrough_eq_nil_iff {α : Type} [DecidableEq α] (sep : α) (s : List α) :
    takeThrough sep s = [] ↔ s = [] := by
  cases s with
  | nil => exact Iff.rfl
  | cons a s =>
    rw [takeThrough]
    split <;> simp

end BuildLog.Text
