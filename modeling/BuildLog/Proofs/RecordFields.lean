import BuildLog.Json.Record
import BuildLog.Proofs.JsonSkipping

namespace BuildLog.Json
open Text

section Pick

variable {α : Type} {wanted : String} {starts : Char → Bool} {pick : Json → Except Mismatch α}

theorem reads_readPick {j : Json} {a : α} (hj : ReadsScalar j)
    (hstarts : ∀ c t, compactText j = c :: t → starts c = true) (hpick : pick j = .ok a) :
    Reads (readPick wanted starts pick) j a := by
  refine ⟨hj.starts, ?_⟩
  intro r hr
  have hread := hj.read hr
  have hskip := skip_of_startsHere hj.starts r
  obtain ⟨c, t, ht, -, -, -⟩ := exists_cons_of_startsHere hj.starts
  have hc : starts c = true := hstarts c t ht
  rw [ht, List.cons_append] at hread hskip ⊢
  simp only [readPick, hskip, hc, hread, hpick, if_true, bind, Except.bind, pure, Except.pure]

end Pick

theorem readsBack_readText (s : String) : ReadsBack readText (string s) s := by
  refine readsBack_of_reads nofun nofun ?_
  refine reads_readPick (readsScalar_string s) ?_ ?_
  · intro c t ht
    rw [compactText_string, List.cons_append, List.cons.injEq] at ht
    rw [← ht.1]
    rfl
  · rfl

theorem readsBack_readFlag (b : Bool) : ReadsBack readFlag (bool b) b := by
  refine readsBack_of_reads nofun nofun ?_
  refine reads_readPick (readsScalar_bool b) ?_ ?_
  · intro c t ht
    rw [compactText_bool] at ht
    cases b with
    | false =>
      rw [if_neg Bool.false_ne_true, List.cons.injEq] at ht
      rw [← ht.1]
      rfl
    | true =>
      rw [if_pos rfl, List.cons.injEq] at ht
      rw [← ht.1]
      rfl
  · rfl

theorem reads_readInteger {low high i : Int} {wanted : String} (hword : FitsWord i)
    (hlow : low ≤ i) (hhigh : i ≤ high) : Reads (readInteger low high wanted) (int i) i := by
  apply reads_readPick (readsScalar_int hword)
  · intro c t ht
    obtain ⟨d, u, hd, hfront⟩ := exists_cons_intText i
    rw [compactText_int, hd, List.cons.injEq] at ht
    rw [← ht.1]
    simpa [startsNumber] using hfront
  · simp only [hlow, hhigh, decide_true, Bool.and_self, if_true]

def FitsCount (n : Nat) : Prop := n < Nat.pow 2 64

theorem readsBack_readCount {n : Nat} (hn : FitsCount n) : ReadsBack readCount (int n) n := by
  have hpow : Nat.pow 2 64 = 18446744073709551616 := rfl
  have hlow : Int.pow 2 63 = 9223372036854775808 := rfl
  have hhigh : Int.pow 2 64 = 18446744073709551616 := rfl
  unfold FitsCount at hn
  have hread : Reads (readInteger 0 (Int.pow 2 64 - 1) "usize") (int n) n := by
    apply reads_readInteger
    · unfold FitsWord
      omega
    · omega
    · omega
  refine readsBack_of_reads nofun nofun ?_
  refine ⟨hread.starts, ?_⟩
  intro r hr
  simp only [readCount, hread.read hr, bind, Except.bind, pure, Except.pure, Int.toNat_natCast]

def FitsSigned (i : Int) : Prop := -Int.pow 2 63 ≤ i ∧ i < Int.pow 2 63

theorem readsBack_readInt64 {i : Int} (hi : FitsSigned i) : ReadsBack readInt64 (int i) i := by
  have hlow : Int.pow 2 63 = 9223372036854775808 := rfl
  have hhigh : Int.pow 2 64 = 18446744073709551616 := rfl
  unfold FitsSigned at hi
  refine readsBack_of_reads nofun nofun ?_
  apply reads_readInteger
  · unfold FitsWord
    omega
  · omega
  · omega

section Parts

variable {α : Type} {item : Reader α}

theorem reads_readOptional_none : Reads (readOptional item) null none where
  starts := readsScalar_null.starts
  read _ := by rw [compactText_null]; rfl

theorem reads_readOptional_some {j : Json} {a : α} (h : Reads item j a)
    (hnull : (compactText j).head? ≠ some 'n') : Reads (readOptional item) j (some a) := by
  refine ⟨h.starts, ?_⟩
  intro r hr
  have hread := h.read hr
  have hskip := skip_of_startsHere h.starts r
  obtain ⟨c, t, ht, -, -, -⟩ := exists_cons_of_startsHere h.starts
  have hc : c ≠ 'n' := by simpa [ht] using hnull
  rw [ht, List.cons_append] at hread hskip ⊢
  rw [readOptional, hskip]
  simp [hc, hread, bind, Except.bind, pure, Except.pure]

theorem reads_readList {js : List Json} {as : List α} (h : List.Forall₂ (Reads item) js as) :
    Reads (readList item) (array js) as := by
  refine ⟨by cases js <;> rfl, ?_⟩
  intro r _
  obtain ⟨t, ht, hread⟩ := readElements_compact h r
  rw [ht, readList, skip_cons rfl]
  exact hread

end Parts

theorem readsBack_readOptional {α : Type} {item : Reader α} {toJson : α → Json} {x : Option α}
    (h : ∀ a, x = some a → ReadsBack item (toJson a) a ∧
      ∀ k, (toJson a).Rearranged k → (compactText k).head? ≠ some 'n') :
    ReadsBack (readOptional item) (ofOption toJson x) x := by
  cases x with
  | none => exact readsBack_of_reads nofun nofun reads_readOptional_none
  | some a =>
    intro k hk
    exact reads_readOptional_some ((h a rfl).1 k hk) ((h a rfl).2 k hk)

theorem readsBack_readList {α : Type} {item : Reader α} {toJson : α → Json} {as : List α}
    (h : ∀ a ∈ as, ReadsBack item (toJson a) a) :
    ReadsBack (readList item) (array (as.map toJson)) as := by
  intro k hk
  obtain ⟨ks, rfl, hks⟩ := rearranged_array hk
  apply reads_readList
  apply List.Forall₂.flip
  rw [List.forall₂_map_left_iff] at hks
  exact forall₂_imp_of_mem hks fun a ha k hak => h a ha k hak

theorem readsBack_readVariant {α : Type} {name : α → String} {all : List α}
    (hnames : (all.map name).Nodup) {a : α} (ha : a ∈ all) :
    ReadsBack (readVariant (all.map fun a => (name a, a))) (string (name a)) a := by
  have hfind : (all.map fun a => (name a, a)).find? (fun v => v.1 = name a) = some (name a, a) := by
    induction all with
    | nil => contradiction
    | cons b bs ih =>
      rw [List.map_cons, List.nodup_cons] at hnames
      obtain rfl | ha := List.mem_cons.mp ha
      · simp
      · have hne : name b ≠ name a := by
          intro heq
          rw [heq] at hnames
          exact hnames.1 (List.mem_map_of_mem ha)
        simpa [hne] using ih hnames.2 ha
  refine readsBack_of_reads nofun nofun ?_
  refine ⟨(readsScalar_string (name a)).starts, ?_⟩
  intro r _
  have hread := readString_of_text (name a) r
  rw [compactText_string, List.cons_append, List.cons_append, List.append_assoc,
    List.singleton_append, readVariant, skip_cons rfl]
  simp only [hread, variant?, hfind, bind, Except.bind, pure, Except.pure]

namespace Record

def names : {β : Type} → Record β → List String
  | _, .done => []
  | _, .field name _ _ _ rest => name :: rest.names

/-- Whether a value of the given name is read as the record's field of that name. -/
def Takes : {β : Type} → Record β → β → (name : String) → Json → Prop
  | _, .done, _, _, _ => False
  | _, .field (α := α) (β := β) own item _ _ rest, v, name, j =>
    let value : α × β := v
    if name = own then Reads item j value.1 else rest.Takes value.2 name j

/-- Whether every field without a value of its name is the default. -/
def DefaultsBeyond : {β : Type} → Record β → β → (present : List String) → Prop
  | _, .done, _, _ => True
  | _, .field (α := α) (β := β) own _ absent _ rest, v, present =>
    let value : α × β := v
    (own ∈ present ∨ absent = some value.1) ∧ rest.DefaultsBeyond value.2 present

/-- The fields of a record after those with the given names have been read. -/
def draft : {β : Type} → (r : Record β) → β → (present : List String) → r.Draft
  | _, .done, _, _ => ()
  | _, .field (α := α) (β := β) own _ _ _ rest, v, present =>
    let value : α × β := v
    (if own ∈ present then some value.1 else none, rest.draft value.2 present)

theorem draft_nil {β : Type} (r : Record β) (v : β) : r.draft v [] = r.blank := by
  induction r with
  | done => rfl
  | field own item absent mayEnd rest ih => rw [draft, blank, ih, if_neg List.not_mem_nil]

theorem draft_cons_of_not_mem {β : Type} {r : Record β} {name : String} (h : name ∉ r.names)
    (v : β) (present : List String) : r.draft v (name :: present) = r.draft v present := by
  induction r with
  | done => rfl
  | field own item absent mayEnd rest ih =>
    rw [names, List.mem_cons, not_or] at h
    have hmem : own ∈ name :: present ↔ own ∈ present := by
      rw [List.mem_cons, or_iff_right (Ne.symm h.1)]
    rw [draft, draft, ih h.2, if_congr hmem rfl rfl]

theorem assign_draft {β : Type} {r : Record β} (hnames : r.names.Nodup) {v : β} {name : String}
    {j : Json} (h : r.Takes v name j) {present : List String} (hnew : name ∉ present)
    {s : List Char} (hs : endsHere s = true) :
    r.assign name (r.draft v present) (':' :: (compactText j ++ s)) =
      .ok (r.draft v (name :: present), s) := by
  induction r with
  | done => exact h.elim
  | field own item absent mayEnd rest ih =>
    rw [names, List.nodup_cons] at hnames
    rw [Takes] at h
    by_cases hown : name = own
    · subst hown
      rw [if_pos rfl] at h
      have hcolon : readColon (':' :: (compactText j ++ s)) = .ok ((), compactText j ++ s) := rfl
      simp only [assign, draft, hnew, hcolon, h.read hs, draft_cons_of_not_mem hnames.1,
        List.mem_cons_self, if_true, if_false, bind, Except.bind, pure, Except.pure]
    · rw [if_neg hown] at h
      have hmem : own ∈ name :: present ↔ own ∈ present := by
        rw [List.mem_cons, or_iff_right (Ne.symm hown)]
      simp only [assign, draft, hown, ih hnames.2 h, hmem, if_false, bind, Except.bind, pure,
        Except.pure]

theorem assign_of_not_mem {β : Type} {r : Record β} {name : String} (h : name ∉ r.names)
    (d : r.Draft) (j : Json) {s : List Char} (hs : endsHere s = true) :
    r.assign name d (':' :: (compactText j ++ s)) = .ok (d, s) := by
  induction r with
  | done =>
    have hcolon : readColon (':' :: (compactText j ++ s)) = .ok ((), compactText j ++ s) := rfl
    simp only [assign, hcolon, passes_pass j s hs, bind, Except.bind, pure, Except.pure]
  | field own item absent mayEnd rest ih =>
    rw [names, List.mem_cons, not_or] at h
    simp only [assign, if_neg h.1, ih h.2, bind, Except.bind, pure, Except.pure]
    rfl

theorem finish_draft {β : Type} {r : Record β} {v : β} {present : List String}
    (h : r.DefaultsBeyond v present) : r.finish (r.draft v present) = .ok v := by
  induction r with
  | done => rfl
  | field own item absent mayEnd rest ih =>
    obtain ⟨hown, hrest⟩ := h
    have hvalue : (if own ∈ present then some v.1 else none).or absent = some v.1 := by
      by_cases hmem : own ∈ present
      · rw [if_pos hmem, Option.some_or]
      · rw [if_neg hmem, Option.none_or]
        exact hown.resolve_left hmem
    simp only [finish, draft, hvalue, ih hrest, bind, Except.bind, pure, Except.pure]

theorem defaultsBeyond_of_subset {β : Type} {r : Record β} {v : β} {present more : List String}
    (hsub : present ⊆ more) (h : r.DefaultsBeyond v present) : r.DefaultsBeyond v more := by
  induction r with
  | done => trivial
  | field own item absent mayEnd rest ih =>
    exact ⟨h.1.imp_left fun hmem => hsub hmem, ih h.2⟩

/-- Fields with different names are read one after the other, those of unknown names for nothing. -/
theorem readsFields_assign {β : Type} {r : Record β} (hnames : r.names.Nodup) {v : β}
    {fs : List (String × Json)} (htakes : ∀ f ∈ fs, f.1 ∈ r.names → r.Takes v f.1 f.2)
    (hfs : (fs.map Prod.fst).Nodup) {present : List String}
    (hnew : ∀ f ∈ fs, f.1 ∉ present) :
    ReadsFields r.assign (r.draft v present) fs
      (r.draft v ((fs.map Prod.fst).reverse ++ present)) := by
  induction fs generalizing present with
  | nil => exact .nil _
  | cons f fs ih =>
    rw [List.map_cons, List.nodup_cons] at hfs
    obtain ⟨htake, htakes⟩ := List.forall_mem_cons.mp htakes
    obtain ⟨hfresh, hnew⟩ := List.forall_mem_cons.mp hnew
    rw [List.map_cons, List.reverse_cons, List.append_assoc, List.singleton_append]
    have hassign {s : List Char} (hs : endsHere s = true) :
        r.assign f.1 (r.draft v present) (':' :: (compactText f.2 ++ s)) =
          .ok (r.draft v (f.1 :: present), s) := by
      by_cases hknown : f.1 ∈ r.names
      · exact assign_draft hnames (htake hknown) hfresh hs
      · rw [draft_cons_of_not_mem hknown]
        exact assign_of_not_mem hknown _ f.2 hs
    refine .cons hassign (ih htakes hfs.2 ?_)
    -- no later field goes by the name that has just been read
    intro g hg
    rw [List.mem_cons, not_or]
    refine ⟨?_, hnew g hg⟩
    intro heq
    apply hfs.1
    rw [← heq]
    exact List.mem_map_of_mem hg

/-- A record is read from an object with its fields and any others, in any order. -/
theorem reads_object {β : Type} {r : Record β} (hnames : r.names.Nodup) (recordName : String)
    {v : β} {fs : List (String × Json)} (hfs : (fs.map Prod.fst).Nodup)
    (htakes : ∀ f ∈ fs, f.1 ∈ r.names → r.Takes v f.1 f.2)
    (habsent : r.DefaultsBeyond v (fs.map Prod.fst)) :
    Reads (r.read recordName) (object fs) v := by
  have hfields : ReadsFields r.assign (r.draft v []) fs
      (r.draft v ((fs.map Prod.fst).reverse ++ [])) :=
    readsFields_assign hnames htakes hfs fun f _ => List.not_mem_nil
  rw [draft_nil, List.append_nil] at hfields
  have hfinish : r.finish (r.draft v (fs.map Prod.fst).reverse) = .ok v := by
    apply finish_draft
    apply defaultsBeyond_of_subset _ habsent
    intro name hname
    exact List.mem_reverse.mpr hname
  refine ⟨by cases fs <;> rfl, ?_⟩
  intro t _
  obtain ⟨u, hu, hread⟩ := readFields_compact hfields t
  rw [hu, read, skip_cons rfl]
  simp only [hread, hfinish, bind, Except.bind, pure, Except.pure]

theorem reads {β : Type} {r : Record β} (hnames : r.names.Nodup) (recordName : String) {v : β}
    {fs : List (String × Json)} (hfs : (fs.map Prod.fst).Nodup)
    (htakes : ∀ f ∈ fs, ∀ k, f.2.Rearranged k → r.Takes v f.1 k)
    (habsent : r.DefaultsBeyond v (fs.map Prod.fst)) {k : Json}
    (h : (ofFields fs).Rearranged k) : Reads (r.read recordName) k v := by
  obtain ⟨gs, hs, rfl, hperm, hsame, hvalues⟩ := rearranged_object h
  have hgs : fs.Perm gs := (Dictionary.ofList_perm hfs).symm.trans hperm
  have hkeys : (fs.map Prod.fst).Perm (hs.map Prod.fst) := by
    rw [← hsame]
    exact hgs.map Prod.fst
  apply reads_object hnames recordName (hkeys.nodup_iff.mp hfs)
  · intro f hf _
    obtain ⟨j, hj, hjf⟩ := exists_field_of_rearranged hsame hvalues hf
    exact htakes (f.1, j) (hgs.mem_iff.mpr hj) f.2 hjf
  · apply defaultsBeyond_of_subset _ habsent
    intro name hname
    exact hkeys.mem_iff.mp hname

end Record
end BuildLog.Json
