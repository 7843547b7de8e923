namespace BuildLog

/-- A finite map from texts. Its entries ascend, so equal maps are equal lists. -/
abbrev Dictionary (α : Type) := List (String × α)

namespace Dictionary

def insert {α : Type} (key : String) (value : α) : Dictionary α → Dictionary α
  | [] => [(key, value)]
  | e :: es =>
    if key < e.1 then (key, value) :: e :: es
    else if key = e.1 then (key, value) :: es
    else e :: insert key value es

/-- The map of a list of entries, of which the last with a key counts. -/
def ofList {α : Type} (entries : List (String × α)) : Dictionary α :=
  entries.foldl (fun d e => d.insert e.1 e.2) []

def get? {α : Type} (d : Dictionary α) (key : String) : Option α :=
  (d.find? fun e => e.1 = key).map (·.2)

theorem get?_insert {α : Type} (d : Dictionary α) (k k' : String) (v : α) :
    get? (insert k v d) k' = if k = k' then some v else get? d k' := by
  induction d with
  | nil => by_cases h : k = k' <;> simp [insert, get?, h]
  | cons e es ih =>
    rw [insert]
    split
    · by_cases h : k = k' <;> simp [get?, h]
    · split
      · rename_i h
        by_cases hk : k = k' <;> simp [get?, ← h, hk]
      · rename_i h
        by_cases he : e.1 = k'
        · have hk : k ≠ k' := fun hk => h (hk.trans he.symm)
          simp [get?, he, hk]
        · simpa [get?, he] using ih

/-- Of several values put at a key the last one stays. -/
theorem get?_foldl_insert {α β : Type} (key : β → String) (value : β → α) (xs : List β)
    (d : Dictionary α) (k : String) :
    get? (xs.foldl (fun d x => insert (key x) (value x) d) d) k =
      (((xs.filter fun x => key x = k).getLast?).map value).or (get? d k) := by
  induction xs generalizing d with
  | nil => rfl
  | cons x xs ih =>
    rw [List.foldl_cons, ih, get?_insert]
    by_cases hx : key x = k
    · rw [List.filter_cons_of_pos (by simpa using hx), List.getLast?_cons, if_pos hx]
      cases (xs.filter fun x => key x = k).getLast? <;> rfl
    · rw [List.filter_cons_of_neg (by simpa using hx), if_neg hx]

theorem mem_insert {α : Type} {d : Dictionary α} {k : String} {v : α} {e : String × α}
    (h : e ∈ insert k v d) : e = (k, v) ∨ e ∈ d := by
  induction d with
  | nil => simpa [insert] using h
  | cons e' es ih =>
    rw [insert] at h
    split at h
    · exact List.mem_cons.mp h
    · split at h
      · exact (List.mem_cons.mp h).imp_right (List.mem_cons_of_mem e')
      · obtain rfl | h := List.mem_cons.mp h
        · exact .inr List.mem_cons_self
        · exact (ih h).imp_right (List.mem_cons_of_mem e')

def Ascends {α : Type} (d : Dictionary α) : Prop := (d.map Prod.fst).Pairwise (· < ·)

theorem mem_keys_insert {α : Type} {d : Dictionary α} {k k' : String} {v : α}
    (h : k' ∈ (insert k v d).map Prod.fst) : k' = k ∨ k' ∈ d.map Prod.fst := by
  induction d with
  | nil => simpa [insert] using h
  | cons e es ih =>
    rw [insert] at h
    split at h
    · simpa using h
    · split at h
      · rw [List.map_cons, List.mem_cons] at h ⊢
        exact h.imp_right .inr
      · rw [List.map_cons, List.mem_cons] at h ⊢
        obtain h | h := h
        · exact .inr (.inl h)
        · exact (ih h).imp_right .inr

theorem ascends_insert {α : Type} {d : Dictionary α} (h : d.Ascends) (k : String) (v : α) :
    (insert k v d).Ascends := by
  induction d with
  | nil => simp [insert, Ascends]
  | cons e es ih =>
    obtain ⟨hfirst, hes⟩ := List.pairwise_cons.mp h
    rw [insert]
    split
    · rename_i hlt
      apply List.pairwise_cons.mpr
      refine ⟨?_, h⟩
      intro k' hk'
      obtain rfl | hk' := List.mem_cons.mp hk'
      · exact hlt
      · exact String.lt_trans hlt (hfirst k' hk')
    · rename_i hlt
      split
      · rename_i heq
        apply List.pairwise_cons.mpr
        refine ⟨?_, hes⟩
        rw [heq]
        exact hfirst
      · rename_i hne
        have hgt : e.1 < k := by
          apply String.not_le.mp
          intro hle
          exact hne (String.le_antisymm hle (String.not_lt.mp hlt))
        apply List.pairwise_cons.mpr
        refine ⟨?_, ih hes⟩
        intro k' hk'
        obtain rfl | hk' := mem_keys_insert hk'
        · exact hgt
        · exact hfirst k' hk'

theorem ascends_foldl_insert {α β : Type} (key : β → String) (value : β → α) (xs : List β)
    {d : Dictionary α} (h : d.Ascends) :
    Ascends (xs.foldl (fun d x => insert (key x) (value x) d) d) := by
  induction xs generalizing d with
  | nil => exact h
  | cons x xs ih => exact ih (ascends_insert h (key x) (value x))

theorem ascends_ofList {α : Type} (entries : List (String × α)) : (ofList entries).Ascends :=
  ascends_foldl_insert Prod.fst Prod.snd entries .nil

theorem get?_cons {α : Type} (e : String × α) (d : Dictionary α) (k : String) :
    get? (e :: d) k = if e.1 = k then some e.2 else get? d k := by
  by_cases h : e.1 = k <;> simp [get?, h]

theorem get?_eq_some_iff {α : Type} {d : Dictionary α} (h : d.Ascends) {k : String} {v : α} :
    get? d k = some v ↔ (k, v) ∈ d := by
  induction d with
  | nil => simp [get?]
  | cons e d ih =>
    obtain ⟨hfirst, hd⟩ := List.pairwise_cons.mp h
    rw [get?_cons, List.mem_cons]
    by_cases hk : e.1 = k
    · -- the key of the first entry stands in no later one
      have hlater : (k, v) ∉ d := by
        intro hmem
        have hlt : e.1 < k := hfirst k (List.mem_map_of_mem hmem)
        rw [hk] at hlt
        exact String.lt_irrefl k hlt
      rw [if_pos hk, ← hk, Option.some.injEq, Prod.ext_iff, or_iff_left (hk ▸ hlater)]
      exact ⟨fun hv => ⟨rfl, hv.symm⟩, fun hv => hv.2.symm⟩
    · have hfront : (k, v) ≠ e := fun he => hk (congrArg Prod.fst he).symm
      rw [if_neg hk, ih hd, or_iff_right hfront]

theorem nodup_of_ascends {α : Type} {d : Dictionary α} (h : d.Ascends) :
    (d.map Prod.fst).Nodup :=
  h.imp fun hlt => String.ne_of_lt hlt

theorem insert_perm {α : Type} {d : Dictionary α} {k : String} (hk : k ∉ d.map Prod.fst) (v : α) :
    (insert k v d).Perm ((k, v) :: d) := by
  induction d with
  | nil => exact .refl _
  | cons e es ih =>
    rw [List.map_cons, List.mem_cons, not_or] at hk
    rw [insert]
    split
    · exact .refl _
    · rw [if_neg hk.1]
      exact ((ih hk.2).cons e).trans (.swap (k, v) e es)

theorem foldl_insert_perm {α : Type} {entries : List (String × α)} {d : Dictionary α}
    (h : ((entries ++ d).map Prod.fst).Nodup) :
    (entries.foldl (fun d e => d.insert e.1 e.2) d).Perm (entries ++ d) := by
  induction entries generalizing d with
  | nil => exact .refl _
  | cons e es ih =>
    rw [List.cons_append, List.map_cons, List.nodup_cons] at h
    have hd : e.1 ∉ d.map Prod.fst := by
      intro he
      apply h.1
      rw [List.map_append]
      exact List.mem_append_right _ he
    have hinsert : (d.insert e.1 e.2).Perm (e :: d) := insert_perm hd e.2
    have hes : (es ++ d.insert e.1 e.2).Perm (e :: (es ++ d)) :=
      (hinsert.append_left es).trans List.perm_middle
    have hnodup : ((es ++ d.insert e.1 e.2).map Prod.fst).Nodup := by
      rw [(hes.map Prod.fst).nodup_iff, List.map_cons, List.nodup_cons]
      exact h
    exact (ih hnodup).trans hes

theorem ofList_perm {α : Type} {entries : List (String × α)}
    (h : (entries.map Prod.fst).Nodup) : (ofList entries).Perm entries := by
  have hperm := foldl_insert_perm (d := []) (by rwa [List.append_nil])
  rwa [List.append_nil] at hperm

theorem get?_ofList_eq_some_iff {α : Type} {entries : List (String × α)}
    (h : (entries.map Prod.fst).Nodup) {k : String} {v : α} :
    get? (ofList entries) k = some v ↔ (k, v) ∈ entries := by
  rw [get?_eq_some_iff (ascends_ofList entries), (ofList_perm h).mem_iff]

theorem ofList_of_perm {α : Type} {d : Dictionary α} (h : d.Ascends) {entries : List (String × α)}
    (hperm : d.Perm entries) : ofList entries = d := by
  have hnodup : (entries.map Prod.fst).Nodup := by
    rw [← (hperm.map Prod.fst).nodup_iff]
    exact nodup_of_ascends h
  have hsame : (ofList entries).Perm d := (ofList_perm hnodup).trans hperm.symm
  apply hsame.eq_of_pairwise _ (List.pairwise_map.mp (ascends_ofList entries))
    (List.pairwise_map.mp h)
  intro a b _ _ hab hba
  exact absurd (String.lt_trans hab hba) (String.lt_irrefl _)

end Dictionary
end BuildLog
