import BuildLog.Proofs.JsonValues
import BuildLog.Text.Scan.Lemmas

namespace BuildLog.Json
open Text

theorem pair_of_pure {α : Type} {a b : α} {r t : List Char}
    (h : (pure (a, r) : Except Failure (α × List Char)) = .ok (b, t)) : a = b ∧ r = t :=
  Prod.mk.inj (Except.ok.inj h)

theorem gather_le {limit n : Nat} (hn : n ≤ limit) (count : Nat) (s : List Char) :
    (gather limit n count s).1 ≤ limit := by
  induction s generalizing n count with
  | nil => exact hn
  | cons c s ih =>
    rw [gather]
    split
    · rename_i h
      simp only [Bool.and_eq_true, decide_eq_true_eq] at h
      exact ih h.2 (count + 1)
    · exact hn

theorem fitsWord_of_integer? {negative : Bool} {n : Nat} {i : Int} (hn : n ≤ significandLimit)
    (h : integer? negative n = some i) : FitsWord i := by
  have hlimit : significandLimit = 18446744073709551615 := rfl
  have hpow : Nat.pow 2 63 = 9223372036854775808 := rfl
  have hlow : Int.pow 2 63 = 9223372036854775808 := rfl
  have hhigh : Int.pow 2 64 = 18446744073709551616 := rfl
  unfold integer? at h
  unfold FitsWord
  split at h
  · cases h
    omega
  · split at h
    · rename_i hfits
      simp only [Bool.and_eq_true, decide_eq_true_eq] at hfits
      cases h
      omega
    · contradiction

def IsDouble (result : Except Failure (Json × List Char)) : Prop :=
  ∀ j r, result = .ok (j, r) → ∃ x, j = double x

theorem isDouble_error (e : Failure) : IsDouble (.error e) := by
  intro j r h
  contradiction

theorem isDouble_readDecimal (negative : Bool) (n : Nat) (e : Int) (s : List Char) :
    IsDouble (readDecimal negative n e s) := by
  unfold readDecimal
  split
  · intro j r h
    cases h
    exact ⟨_, rfl⟩
  · exact isDouble_error _

theorem isDouble_readExponent (negative : Bool) (n : Nat) (e : Int) (s : List Char) :
    IsDouble (readExponent negative n e s) := by
  unfold readExponent
  split
  split
  · exact isDouble_error _
  · split
    · exact isDouble_error _
    · split
      split
      · split
        · exact isDouble_error _
        · exact isDouble_readDecimal _ _ _ _
      · exact isDouble_readDecimal _ _ _ _

theorem isDouble_readDecimalEnd (negative : Bool) (n : Nat) (e : Int) (s : List Char) :
    IsDouble (readDecimalEnd negative n e s) := by
  unfold readDecimalEnd
  split
  · exact isDouble_readExponent _ _ _ _
  · exact isDouble_readExponent _ _ _ _
  · exact isDouble_readDecimal _ _ _ _

theorem isDouble_readFraction (negative : Bool) (n : Nat) (e : Int) (s : List Char) :
    IsDouble (readFraction negative n e s) := by
  unfold readFraction
  split
  split
  · exact isDouble_readDecimalEnd _ _ _ _
  · split
    · exact isDouble_readDecimalEnd _ _ _ _
    · split
      · exact isDouble_error _
      · exact isDouble_error _

theorem isDouble_readFractionOrEnd (negative : Bool) (n : Nat) (e : Int) (s : List Char) :
    IsDouble (readFractionOrEnd negative n e s) := by
  unfold readFractionOrEnd
  split
  · exact isDouble_readFraction _ _ _ _
  · exact isDouble_readDecimalEnd _ _ _ _

inductive Scalar : Json → Prop where
  | null : Scalar null
  | bool (b : Bool) : Scalar (bool b)
  | int {i : Int} (h : FitsWord i) : Scalar (int i)
  | double (x : Double) : Scalar (double x)
  | string (s : String) : Scalar (string s)

theorem scalar_of_isDouble {result : Except Failure (Json × List Char)} (h : IsDouble result)
    {j : Json} {r : List Char} (hread : result = .ok (j, r)) : j.Scalar := by
  obtain ⟨x, rfl⟩ := h j r hread
  exact .double x

theorem scalar_of_readUnsigned {negative : Bool} {s : List Char} {j : Json} {r : List Char}
    (h : readUnsigned negative s = .ok (j, r)) : j.Scalar := by
  have hlimit : (gather significandLimit 0 0 s).1 ≤ significandLimit :=
    gather_le (Nat.zero_le _) 0 s
  cases s with
  | nil => contradiction
  | cons c t =>
    rw [readUnsigned] at h
    split at h
    · contradiction
    · split at h
      · contradiction
      · split at h
        rename_i n count rest hgather
        rw [hgather] at hlimit
        -- what is no integer within the limit is read as a double
        split at h
        · exact scalar_of_isDouble (isDouble_readFractionOrEnd _ _ _ _) h
        · split at h
          · exact scalar_of_isDouble (isDouble_readFractionOrEnd _ _ _ _) h
          · exact scalar_of_isDouble (isDouble_readFractionOrEnd _ _ _ _) h
          · exact scalar_of_isDouble (isDouble_readFractionOrEnd _ _ _ _) h
          · split at h
            · rename_i i hi
              cases h
              exact .int (fitsWord_of_integer? hlimit hi)
            · exact scalar_of_isDouble (isDouble_readDecimal _ _ _ _) h

theorem scalar_of_readScalar {s : List Char} {j : Json} {r : List Char}
    (h : readScalar s = .ok (j, r)) : j.Scalar := by
  unfold readScalar at h
  split at h
  · contradiction
  · obtain ⟨x, -, hx⟩ := exists_of_bind h
    rw [← (pair_of_pure hx).1]
    exact .null
  · obtain ⟨x, -, hx⟩ := exists_of_bind h
    rw [← (pair_of_pure hx).1]
    exact .bool true
  · obtain ⟨x, -, hx⟩ := exists_of_bind h
    rw [← (pair_of_pure hx).1]
    exact .bool false
  · exact scalar_of_readUnsigned h
  · obtain ⟨x, -, hx⟩ := exists_of_bind h
    rw [← (pair_of_pure hx).1]
    exact .string x.1
  · split at h
    · exact scalar_of_readUnsigned h
    · contradiction

theorem Scalar.wellFormed {j : Json} (h : j.Scalar) : j.WellFormed := by
  cases h with
  | null => exact .null
  | bool b => exact .bool b
  | int h => exact .int h
  | double x => exact .double x
  | string s => exact .string s

section Elements

variable {α : Type} {item : Reader α} {P : α → Prop}

theorem readMoreElements_all (hitem : ∀ s a r, item s = .ok (a, r) → P a) {fuel s : List Char}
    {as : List α} {r : List Char} (h : readMoreElements item fuel s = .ok (as, r)) :
    ∀ a ∈ as, P a := by
  induction fuel generalizing s as r with
  | nil => contradiction
  | cons f fuel ih =>
    rw [readMoreElements] at h
    split at h
    · contradiction
    · cases h
      intro a ha
      contradiction
    · split at h
      · contradiction
      · obtain ⟨x, hx, h⟩ := exists_of_bind h
        obtain ⟨y, hy, h⟩ := exists_of_bind h
        rw [← (pair_of_pure h).1]
        exact List.forall_mem_cons.mpr ⟨hitem _ x.1 x.2 hx, ih hy⟩
    · contradiction

/-- What holds of every value that a reader answers holds of all elements of an array. -/
theorem readElements_all (hitem : ∀ s a r, item s = .ok (a, r) → P a) {s : List Char}
    {as : List α} {r : List Char} (h : readElements item s = .ok (as, r)) : ∀ a ∈ as, P a := by
  unfold readElements at h
  split at h
  · contradiction
  · cases h
    intro a ha
    contradiction
  · obtain ⟨x, hx, h⟩ := exists_of_bind h
    obtain ⟨y, hy, h⟩ := exists_of_bind h
    rw [← (pair_of_pure h).1]
    exact List.forall_mem_cons.mpr ⟨hitem _ x.1 x.2 hx, readMoreElements_all hitem hy⟩

end Elements

section Fields

variable {σ : Type} {field : String → σ → Reader σ} {P : σ → Prop}

theorem readMoreFields_invariant
    (hfield : ∀ name x s y r, P x → field name x s = .ok (y, r) → P y) {fuel : List Char} {x : σ}
    (hx : P x) {s : List Char} {y : σ} {r : List Char}
    (h : readMoreFields field fuel x s = .ok (y, r)) : P y := by
  induction fuel generalizing x s with
  | nil => contradiction
  | cons f fuel ih =>
    rw [readMoreFields] at h
    split at h
    · contradiction
    · cases h
      exact hx
    · split at h
      · contradiction
      · obtain ⟨name, -, h⟩ := exists_of_bind h
        obtain ⟨z, hz, h⟩ := exists_of_bind h
        exact ih (hfield name.1 x name.2 z.1 z.2 hx hz) h
      · contradiction
      · contradiction
    · contradiction

theorem readFields_invariant
    (hfield : ∀ name x s y r, P x → field name x s = .ok (y, r) → P y) {x : σ} (hx : P x)
    {s : List Char} {y : σ} {r : List Char} (h : readFields field x s = .ok (y, r)) : P y := by
  unfold readFields at h
  split at h
  · contradiction
  · cases h
    exact hx
  · obtain ⟨name, -, h⟩ := exists_of_bind h
    obtain ⟨z, hz, h⟩ := exists_of_bind h
    exact readMoreFields_invariant hfield (hfield name.1 x name.2 z.1 z.2 hx hz) h
  · contradiction

end Fields

section Values

variable {P : Json → Prop}

theorem readField_all {item : Reader Json} (hitem : ∀ s j r, item s = .ok (j, r) → P j)
    (name : String) (fs : Dictionary Json) (s : List Char) (gs : Dictionary Json) (r : List Char)
    (hfs : ∀ f ∈ fs, P f.2) (h : readField item name fs s = .ok (gs, r)) : ∀ f ∈ gs, P f.2 := by
  unfold readField at h
  obtain ⟨x, -, h⟩ := exists_of_bind h
  obtain ⟨y, hy, h⟩ := exists_of_bind h
  rw [← (pair_of_pure h).1]
  intro f hf
  obtain rfl | hf := Dictionary.mem_insert hf
  · exact hitem _ y.1 y.2 hy
  · exact hfs f hf

theorem readValueWith_all {compound : Reader Json} (hscalar : ∀ j, Scalar j → P j)
    (hcompound : ∀ s j r, compound s = .ok (j, r) → P j) {s : List Char} {j : Json}
    {r : List Char} (h : readValueWith compound s = .ok (j, r)) : P j := by
  unfold readValueWith at h
  split at h
  · exact hcompound _ j r h
  · exact hcompound _ j r h
  · exact hscalar j (scalar_of_readScalar h)

end Values

/-- Whether some fields make a well-formed object. -/
def FieldsWellFormed (fs : Dictionary Json) : Prop := fs.Ascends ∧ ∀ f ∈ fs, f.2.WellFormed

theorem readField_wellFormed {item : Reader Json}
    (hitem : ∀ s j r, item s = .ok (j, r) → j.WellFormed) (name : String) (fs : Dictionary Json)
    (s : List Char) (gs : Dictionary Json) (r : List Char) (hfs : FieldsWellFormed fs)
    (h : readField item name fs s = .ok (gs, r)) : FieldsWellFormed gs := by
  refine ⟨?_, readField_all hitem name fs s gs r hfs.2 h⟩
  unfold readField at h
  obtain ⟨x, -, h⟩ := exists_of_bind h
  obtain ⟨y, -, h⟩ := exists_of_bind h
  rw [← (pair_of_pure h).1]
  exact Dictionary.ascends_insert hfs.1 name y.1

theorem wellFormed_of_readValue (depth : Nat) (s : List Char) (j : Json) (r : List Char)
    (h : readValue depth s = .ok (j, r)) : j.WellFormed := by
  induction depth generalizing s j r with
  | zero =>
    apply readValueWith_all (fun _ => Scalar.wellFormed) _ h
    intro s j r h
    contradiction
  | succ depth ih =>
    apply readValueWith_all (fun _ => Scalar.wellFormed) _ h
    intro s j r h
    split at h
    · obtain ⟨x, hx, h⟩ := exists_of_bind h
      rw [← (pair_of_pure h).1]
      exact .array (readElements_all ih hx)
    · obtain ⟨x, hx, h⟩ := exists_of_bind h
      rw [← (pair_of_pure h).1]
      have hempty : FieldsWellFormed [] := ⟨.nil, fun f hf => nomatch hf⟩
      obtain ⟨hascends, hfs⟩ := readFields_invariant (readField_wellFormed ih) hempty hx
      exact .object hascends hfs
    · contradiction

theorem readValue_of_parse {text : String} {j : Json} (h : parse text = .ok j) :
    ∃ r, readValue maxDepth text.toList = .ok (j, r) := by
  unfold parse readAll at h
  split at h
  · contradiction
  · rename_i k r hread
    split at h
    · cases h
      exact ⟨r, hread⟩
    · contradiction

theorem wellFormed_of_parse {text : String} {j : Json} (h : parse text = .ok j) :
    j.WellFormed := by
  obtain ⟨r, hread⟩ := readValue_of_parse h
  exact wellFormed_of_readValue maxDepth text.toList j r hread

inductive Nested : (depth : Nat) → Json → Prop where
  | scalar (depth : Nat) {j : Json} (h : j.Scalar) : Nested depth j
  | array {depth : Nat} {js : List Json} (h : ∀ j ∈ js, Nested depth j) :
    Nested (depth + 1) (array js)
  | object {depth : Nat} {fs : List (String × Json)} (h : ∀ f ∈ fs, Nested depth f.2) :
    Nested (depth + 1) (object fs)

theorem nested_of_readValue (depth : Nat) (s : List Char) (j : Json) (r : List Char)
    (h : readValue depth s = .ok (j, r)) : Nested depth j := by
  induction depth generalizing s j r with
  | zero =>
    apply readValueWith_all (fun _ => .scalar _) _ h
    intro s j r h
    contradiction
  | succ depth ih =>
    apply readValueWith_all (fun _ => .scalar _) _ h
    intro s j r h
    split at h
    · obtain ⟨x, hx, h⟩ := exists_of_bind h
      rw [← (pair_of_pure h).1]
      exact .array (readElements_all ih hx)
    · obtain ⟨x, hx, h⟩ := exists_of_bind h
      rw [← (pair_of_pure h).1]
      exact .object (readFields_invariant (readField_all ih) (List.forall_mem_nil _) hx)
    · contradiction

theorem nested_of_parse {text : String} {j : Json} (h : parse text = .ok j) :
    Nested maxDepth j := by
  obtain ⟨r, hread⟩ := readValue_of_parse h
  exact nested_of_readValue maxDepth text.toList j r hread

/-- A value without doubles stays one within its levels. -/
theorem plain_of_nested {depth levels : Nat} {j : Json} (hj : Plain depth j)
    (h : Nested levels j) : Plain levels j := by
  induction hj generalizing levels with
  | null => exact .null levels
  | bool _ b => exact .bool levels b
  | int _ i => exact .int levels i
  | string _ s => exact .string levels s
  | array _ ih =>
    cases h with
    | scalar _ h => cases h
    | array hjs => exact .array fun j hj => ih j hj (hjs j hj)
  | object _ ih =>
    cases h with
    | scalar _ h => cases h
    | object hfs => exact .object fun f hf => ih f hf (hfs f hf)

end BuildLog.Json
