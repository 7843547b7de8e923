import BuildLog.Toml.Range
import BuildLog.Toml.Tree

namespace BuildLog.Toml

def tableAt (key : String) (es : Dictionary Toml) : Dictionary Toml :=
  match Dictionary.get? es key with
  | some (.table sub) => sub
  | _ => []

def put (v : Toml) : List String → Dictionary Toml → Dictionary Toml
  | [], es => es
  | [k], es => Dictionary.insert k v es
  | k :: k' :: ks, es => Dictionary.insert k (.table (put v (k' :: ks) (tableAt k es))) es

/-- Whether dotted keys lead to the end of a path, where nothing stands yet. -/
def Free : List String → Entries → Prop
  | [], _ => False
  | [k], es => Dictionary.get? es k = none
  | k :: k' :: ks, es =>
    ∀ n, Dictionary.get? es k = some n → ∃ sub, n = .table .dotted sub ∧ Free (k' :: ks) sub

theorem freezeEntries_insert (key : String) (n : Node) (es : Entries) :
    freezeEntries (Dictionary.insert key n es) =
      Dictionary.insert key n.freeze (freezeEntries es) := by
  induction es with
  | nil => rfl
  | cons e es ih =>
    rw [Dictionary.insert, freezeEntries, Dictionary.insert]
    split
    · rfl
    · split
      · rfl
      · rw [freezeEntries, ih]

theorem get?_freezeEntries (es : Entries) (key : String) :
    Dictionary.get? (freezeEntries es) key = (Dictionary.get? es key).map Node.freeze := by
  induction es with
  | nil => rfl
  | cons e es ih =>
    obtain ⟨k, n⟩ := e
    rw [freezeEntries, Dictionary.get?_cons, Dictionary.get?_cons, ih]
    split <;> rfl

theorem free_nil {ks : List String} (h : ks ≠ []) : Free ks [] := by
  match ks, h with
  | [_], _ => rfl
  | _ :: _ :: _, _ => exact nofun

theorem Free.insert_of_ne {k p : String} {ks : List String} {es : Entries} {n : Node}
    (h : Free (k :: ks) es) (hne : p ≠ k) : Free (k :: ks) (Dictionary.insert p n es) := by
  cases ks with
  | nil => rwa [Free, Dictionary.get?_insert, if_neg hne]
  | cons k' ks => rwa [Free, Dictionary.get?_insert, if_neg hne]

/-- Whether `sub` is what dotted keys have put at a key, nothing if the key is not there. -/
def Under (p : String) (es sub : Entries) : Prop :=
  Dictionary.get? es p = none ∧ sub = [] ∨ Dictionary.get? es p = some (.table .dotted sub)

theorem Under.free {p : String} {ks : List String} {es sub : Entries} (hsub : Under p es sub)
    (h : Free (p :: ks) es) (hne : ks ≠ []) : Free ks sub := by
  obtain ⟨k, ks, rfl⟩ := List.exists_cons_of_ne_nil hne
  rcases hsub with ⟨-, rfl⟩ | hget
  · exact free_nil hne
  · obtain ⟨_, hsame, hfree⟩ := h _ hget
    cases hsame
    exact hfree

theorem Free.exists_under {p : String} {ks : List String} {es : Entries} (h : Free (p :: ks) es)
    (hne : ks ≠ []) : ∃ sub, Under p es sub := by
  obtain ⟨k, ks, rfl⟩ := List.exists_cons_of_ne_nil hne
  cases hget : Dictionary.get? es p with
  | none => exact ⟨[], .inl ⟨hget, rfl⟩⟩
  | some n =>
    obtain ⟨sub, rfl, -⟩ := h n hget
    exact ⟨sub, .inr hget⟩

theorem Under.tableAt_eq {p : String} {es sub : Entries} (hsub : Under p es sub) :
    tableAt p (freezeEntries es) = freezeEntries sub := by
  rw [tableAt, get?_freezeEntries]
  rcases hsub with ⟨hget, rfl⟩ | hget
  · rw [hget]
    rfl
  · rw [hget]
    rfl

/-- What is put at a key keeps a path free if it does so for the rest of the path. -/
theorem Under.free_insert {p : String} {path : List String} {es sub t : Entries}
    (hsub : Under p es sub)
    (hkeep : ∀ ks, Free ks sub → ¬ path <+: ks → ¬ ks <+: path → Free ks t) {ks : List String}
    (h : Free ks es) (hthrough : ¬ p :: path <+: ks) (hstop : ¬ ks <+: p :: path) :
    Free ks (Dictionary.insert p (.table .dotted t) es) := by
  cases ks with
  | nil => exact h
  | cons k ks =>
    by_cases hne : p = k
    · subst hne
      rw [List.cons_prefix_cons] at hthrough hstop
      cases ks with
      | nil => exact absurd ⟨rfl, List.nil_prefix⟩ hstop
      | cons k' ks =>
        rw [Free]
        intro n hn
        rw [Dictionary.get?_insert, if_pos rfl] at hn
        have hfree : Free (k' :: ks) sub := hsub.free h (List.cons_ne_nil k' ks)
        exact ⟨t, (Option.some.inj hn).symm,
          hkeep _ hfree (fun h => hthrough ⟨rfl, h⟩) fun h => hstop ⟨rfl, h⟩⟩
    · exact h.insert_of_ne hne

/-- The value is put at the end of a free path, and paths that neither lead through it nor stop on
the way to it are as free as before. -/
theorem changeAt_of_free {outermost : Bool} {key : String} (v : Toml) {path : List String}
    {here : Origin} {es : Entries} (h : Free (path ++ [key]) es)
    (hhere : path = [] → (outermost || here = .dotted) = true) :
    ∃ es', changeAt .dotted (· ≠ .header) (fun here es =>
        if (outermost || here = .dotted) && (Dictionary.get? es key).isNone then
          some (Dictionary.insert key (.value v) es)
        else none) path here es = some es' ∧
      freezeEntries es' = put v (path ++ [key]) (freezeEntries es) ∧
      ∀ ks, Free ks es → ¬ path ++ [key] <+: ks → ¬ ks <+: path ++ [key] → Free ks es' := by
  induction path generalizing here es with
  | nil =>
    have hnone : Dictionary.get? es key = none := h
    refine ⟨Dictionary.insert key (.value v) es, ?_, freezeEntries_insert _ _ _, ?_⟩
    · rw [changeAt, if_pos]
      rw [hhere rfl, hnone]
      rfl
    · intro ks hks hthrough _
      cases ks with
      | nil => exact hks
      | cons k ks =>
        apply hks.insert_of_ne
        rintro rfl
        exact hthrough ⟨ks, rfl⟩
  | cons p path ih =>
    have hne : path ++ [key] ≠ [] := List.append_ne_nil_of_right_ne_nil path (List.cons_ne_nil _ _)
    rw [List.cons_append] at h ⊢
    obtain ⟨sub, hsub⟩ := h.exists_under hne
    have hdotted : path = [] → (outermost || Origin.dotted = .dotted) = true :=
      fun _ => Bool.or_true outermost
    obtain ⟨t, ht, hput, hkeep⟩ := ih (hsub.free h hne) hdotted
    refine ⟨Dictionary.insert p (.table .dotted t) es, ?_, ?_, ?_⟩
    · rcases hsub with ⟨hget, rfl⟩ | hget
      · simp only [changeAt, hget, ht, Option.map_some]
      · simp only [changeAt, hget, ht, Option.map_some]
        rfl
    · obtain ⟨q, rest, hrest⟩ := List.exists_cons_of_ne_nil hne
      rw [hrest, put, ← hrest, freezeEntries_insert, hsub.tableAt_eq, ← hput]
      rfl
    · exact fun ks hks => hsub.free_insert hkeep hks

theorem assignKeys_of_free {ks : List String} {es : Entries} (h : Free ks es) (v : Toml) :
    ∃ es', assignKeys ks v es = some es' ∧ freezeEntries es' = put v ks (freezeEntries es) ∧
      ∀ ks', Free ks' es → ¬ ks <+: ks' → ¬ ks' <+: ks → Free ks' es' := by
  rcases List.eq_nil_or_concat ks with rfl | ⟨path, key, rfl⟩
  · exact h.elim
  · rw [List.concat_eq_append] at h ⊢
    have houtermost : path = [] → (path.isEmpty || (Origin.header = .dotted : Bool)) = true := by
      rintro rfl
      rfl
    obtain ⟨es', hes', hrest⟩ := changeAt_of_free v h houtermost
    refine ⟨es', ?_, hrest⟩
    rw [assignKeys, List.getLast?_concat, List.dropLast_concat]
    exact hes'

theorem entriesInRange_iff {es : List (String × Toml)} :
    entriesInRange es = true ↔ ∀ e ∈ es, inRange e.2 = true := by
  induction es with
  | nil => simp [entriesInRange]
  | cons e es ih => rw [entriesInRange, Bool.and_eq_true, List.forall_mem_cons, ih]

theorem elementsInRange_iff {vs : List Toml} :
    elementsInRange vs = true ↔ ∀ v ∈ vs, inRange v = true := by
  induction vs with
  | nil => simp [elementsInRange]
  | cons v vs ih => rw [elementsInRange, Bool.and_eq_true, List.forall_mem_cons, ih]

theorem inRange_insert {v : Toml} (hv : inRange v = true) (k : String) {es : Dictionary Toml}
    (hes : ∀ e ∈ es, inRange e.2 = true) :
    ∀ e ∈ Dictionary.insert k v es, inRange e.2 = true := by
  intro e he
  rcases Dictionary.mem_insert he with rfl | he
  · exact hv
  · exact hes e he

theorem inRange_tableAt (k : String) {es : Dictionary Toml}
    (hes : ∀ e ∈ es, inRange e.2 = true) : ∀ e ∈ tableAt k es, inRange e.2 = true := by
  unfold tableAt
  split
  · rename_i sub hget
    obtain ⟨e, he, heq⟩ := Option.map_eq_some_iff.mp hget
    have hsub := hes e (List.mem_of_find?_eq_some he)
    rw [heq, inRange, entriesInRange_iff] at hsub
    exact hsub
  · exact nofun

theorem inRange_put {v : Toml} (hv : inRange v = true) (ks : List String) {es : Dictionary Toml}
    (hes : ∀ e ∈ es, inRange e.2 = true) : ∀ e ∈ put v ks es, inRange e.2 = true := by
  fun_induction put v ks es with
  | case1 => exact hes
  | case2 => exact inRange_insert hv _ hes
  | case3 _ _ _ _ ih =>
    apply inRange_insert _ _ hes
    rw [inRange, entriesInRange_iff]
    exact ih (inRange_tableAt _ hes)

theorem inRange_foldl_put {ps : List (List String × Toml)}
    (hps : ∀ p ∈ ps, inRange p.2 = true) {es : Dictionary Toml}
    (hes : ∀ e ∈ es, inRange e.2 = true) :
    ∀ e ∈ ps.foldl (fun es p => put p.2 p.1 es) es, inRange e.2 = true := by
  induction ps generalizing es with
  | nil => exact hes
  | cons p ps ih =>
    obtain ⟨hp, hps⟩ := List.forall_mem_cons.mp hps
    exact ih hps (inRange_put hp p.1 hes)

end BuildLog.Toml
