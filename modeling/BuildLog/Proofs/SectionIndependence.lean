import BuildLog.Proofs.SessionRun

namespace BuildLog

namespace Section

theorem name_readLine (s : Section) (line : String) (n : Nat) :
    (s.readLine line n).1.name = s.name := by
  cases s with
  | header h => rfl
  | steps l => rfl
  | details ds =>
    unfold readLine
    dsimp only
    split <;> rfl
  | measurements m => rfl

theorem name_readAll (s : Section) (lines : List (String × Nat)) :
    (s.readAll lines).name = s.name := by
  induction lines generalizing s with
  | nil => rfl
  | cons x lines ih => exact (ih _).trans (s.name_readLine x.1 x.2)

theorem name_ne_urlKey (s : Section) : s.name ≠ Session.urlKey := by
  cases s <;> simp [name, Session.urlKey]

end Section

namespace Session

def firstFailure? (sections : List Section) (line : String) (lineNumber : Nat) :
    Option Malformed :=
  sections.findSome? fun s => s.failure? line lineNumber

/-- Whether no section before section `i` fails on a line of the log. -/
def reaches (s : Session) (lines : List String) (i : Nat) (x : String × Nat) : Bool :=
  (firstFailure? ((s.before lines x.2).sections.take i) x.1 x.2).isNone

theorem dispatch_snd (sections : List Section) (line : String) (n : Nat) :
    (dispatch line n sections).2 = firstFailure? sections line n := by
  induction sections with
  | nil => rfl
  | cons s sections ih =>
    unfold firstFailure?
    cases h : s.failure? line n with
    | none =>
      rw [dispatch_cons_of_none h, List.findSome?_cons, h]
      exact ih
    | some e => rw [dispatch_cons_of_failure h, List.findSome?_cons, h]

/-- A section reads a line, for itself, unless one before it fails on the line. -/
theorem getElem?_dispatch (sections : List Section) (line : String) (n i : Nat) :
    (dispatch line n sections).1[i]? = sections[i]?.map fun s =>
      if (firstFailure? (sections.take i) line n).isNone then (s.readLine line n).1 else s := by
  induction sections generalizing i with
  | nil => rfl
  | cons s sections ih =>
    cases h : s.failure? line n with
    | none =>
      rw [dispatch_cons_of_none h]
      cases i with
      | zero => rfl
      | succ i =>
        rw [List.getElem?_cons_succ, List.getElem?_cons_succ, ih, List.take_succ_cons,
          firstFailure?, firstFailure?, List.findSome?_cons, h]
    | some e =>
      rw [dispatch_cons_of_failure h]
      cases i with
      | zero => rfl
      | succ i =>
        rw [List.getElem?_cons_succ, List.getElem?_cons_succ, List.take_succ_cons, firstFailure?,
          List.findSome?_cons, h]
        cases sections[i]? <;> rfl

theorem names_dispatch (sections : List Section) (line : String) (n : Nat) :
    (dispatch line n sections).1.map Section.name = sections.map Section.name := by
  ext i : 1
  rw [List.getElem?_map, List.getElem?_map, getElem?_dispatch, Option.map_map]
  congr 1
  funext s
  dsimp only [Function.comp]
  split
  · exact s.name_readLine line n
  · rfl

/-- Later lines have no say in which sections an earlier line reaches. -/
theorem reaches_append (s : Session) {lines : List String} (rest : List String) (i : Nat)
    {x : String × Nat} (hx : x.2 ≤ lines.length) :
    s.reaches (lines ++ rest) i x = s.reaches lines i x := by
  rw [reaches, reaches, before, before, List.take_append_of_le_length hx]

/-- Section `i` becomes what it would become alone on the lines that reach it. -/
theorem getElem?_sections_readEach {s : Session} (hzero : s.lineNumber = 0) (lines : List String)
    (i : Nat) :
    (s.readEach lines).1.sections[i]? = s.sections[i]?.map fun x =>
      x.readAll ((lines.map s.truncation.cut).zipIdx.filter (s.reaches lines i)) := by
  induction lines using List.reverseRecOn with
  | nil => cases h : s.sections[i]? <;> simp [readEach_nil, Section.readAll, h]
  | append_singleton lines line ih =>
    -- which lines reach the section is settled by the lines before each, so the last one only adds
    let seen := (lines.map s.truncation.cut).zipIdx
    let last := (s.truncation.cut line, lines.length)
    have hseen : ((lines ++ [line]).map s.truncation.cut).zipIdx = seen ++ [last] := by
      simp [seen, last, List.zipIdx_append]
    have hearlier : seen.filter (s.reaches (lines ++ [line]) i) =
        seen.filter (s.reaches lines i) := by
      apply List.filter_congr
      intro x hx
      have hlt : x.2 < lines.length := by simpa [seen] using List.snd_lt_of_mem_zipIdx hx
      exact reaches_append s [line] i (by omega)
    have hlast : s.reaches (lines ++ [line]) i last =
        (firstFailure? ((s.readEach lines).1.sections.take i) last.1 last.2).isNone := by
      rw [reaches_append s [line] i (Nat.le_refl lines.length), reaches, before]
      simp [last]
    obtain ⟨-, hcut, -⟩ := readEach_frame s lines
    have hnumber := lineNumber_readEach s lines
    rw [hzero, Nat.zero_add] at hnumber
    rw [readEach_concat, readLine, hcut, hnumber]
    dsimp only
    rw [getElem?_dispatch, ih, hseen, List.filter_append, hearlier, Option.map_map]
    congr 1
    funext x
    dsimp only [Function.comp]
    rw [List.filter_cons, List.filter_nil, hlast]
    split
    · rw [Section.readAll, Section.readAll, List.foldl_append]
      rfl
    · rw [List.append_nil]

theorem names_readEach {s : Session} (hzero : s.lineNumber = 0) (lines : List String) :
    (s.readEach lines).1.sections.map Section.name = s.sections.map Section.name := by
  ext i : 1
  rw [List.getElem?_map, List.getElem?_map, getElem?_sections_readEach hzero, Option.map_map]
  congr 1
  funext x
  exact x.name_readAll _

theorem ascends_foldl_insert (sections : List Section) {d : Dictionary Json} (h : d.Ascends) :
    Dictionary.Ascends
      (sections.foldl (fun a x => Dictionary.insert x.name x.artifact a) d) :=
  Dictionary.ascends_foldl_insert Section.name Section.artifact sections h

theorem getElem?_results_readEach {s : Session} (hzero : s.lineNumber = 0) {lines : List String}
    {k : Nat} {line : String} (h : lines[k]? = some line) :
    (s.readEach lines).2[k]? =
      some (firstFailure? (s.before lines k).sections (s.truncation.cut line) k) := by
  have hk : k ≤ lines.length := by
    have := (List.getElem?_eq_some_iff.mp h).1
    omega
  have hnumber : (s.before lines k).lineNumber = k := by
    rw [before, lineNumber_readEach, hzero, List.length_take]
    omega
  have hcut : (s.before lines k).truncation = s.truncation :=
    (readEach_frame s (lines.take k)).2.1
  rw [getElem?_readEach s h, readLine, hcut, hnumber]
  exact congrArg some (dispatch_snd _ _ _)

theorem exists_entries_artifact {s : Session} {url : Option String}
    (hurl : s.assembled = [(urlKey, .ofOption .string url)]) :
    ∃ entries : Dictionary Json, s.artifact = .object entries ∧ entries.Ascends ∧
      ∀ key, entries.get? key =
        if key = urlKey then some (.ofOption .string url)
        else ((s.sections.filter fun x => x.name = key).getLast?).map Section.artifact := by
  refine ⟨s.assemble.assembled, rfl, ?_, ?_⟩
  · apply ascends_foldl_insert
    rw [hurl]
    exact List.pairwise_singleton _ _
  · intro key
    have h := get?_foldl_insert s.sections s.assembled key
    rw [assemble, h, hurl]
    split
    · rename_i hkey
      -- no section goes by the key of the address, so that its entry stays
      have hnone : s.sections.filter (fun x => x.name = key) = [] := by
        apply List.filter_eq_nil_iff.mpr
        intro x _
        rw [hkey]
        simpa using x.name_ne_urlKey
      rw [hnone, hkey]
      simp [Dictionary.get?]
    · rename_i hkey
      have hother : ¬ urlKey = key := fun h => hkey h.symm
      simp [Dictionary.get?, hother]

def shadowed : List String := ["TinderboxPrint: TALOSDATA: [x]", "TinderboxPrint: TALOSDATA"]

def measurementsFirst : Session :=
  .start "" none [.measurements .empty, .details []] Truncation.standard

end Session
end BuildLog
