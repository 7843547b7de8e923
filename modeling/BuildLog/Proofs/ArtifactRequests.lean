import BuildLog.Proofs.SectionIndependence
import Mathlib.Data.List.ReduceOption
import Mathlib.Data.List.Sort

namespace BuildLog

namespace Dictionary

theorem ext_get? {α : Type} {d d' : Dictionary α} (h : d.Ascends) (h' : d'.Ascends)
    (hget : ∀ k, get? d k = get? d' k) : d = d' := by
  have : Std.Antisymm fun e f : String × α => e.1 < f.1 :=
    ⟨fun _ _ hlt hgt => absurd (String.lt_trans hlt hgt) (String.lt_irrefl _)⟩
  have : Std.Irrefl fun e f : String × α => e.1 < f.1 := ⟨fun e => String.lt_irrefl e.1⟩
  apply List.Pairwise.eq_of_mem_iff (List.pairwise_map.mp h) (List.pairwise_map.mp h')
  intro e
  rw [← get?_eq_some_iff h, ← get?_eq_some_iff h', hget]

end Dictionary

inductive Request where
  | line (text : String)
  | lines (texts : List String)
  | artifact

/-- What a request is answered with: the failure that reading came to, if any, or the artifact. -/
inductive Answer where
  | read (failure : Option Malformed)
  | artifact (value : Json)

/-- What can be seen after a request: its answer, which sections are complete, and how many lines
have been read. -/
structure Observation where
  answer : Answer
  complete : List Bool
  lineNumber : Nat

namespace Session

def answer (s : Session) : Request → Session × Answer
  | .line text => ((s.readLine text).1, .read (s.readLine text).2)
  | .lines texts => ((s.readLines texts).1, .read (s.readLines texts).2)
  | .artifact => (s.takeArtifact.1, .artifact s.takeArtifact.2)

def observe (s : Session) (a : Answer) : Observation :=
  ⟨a, s.sections.map Section.isComplete, s.lineNumber⟩

def answerAll (s : Session) : List Request → Session × List Observation
  | [] => (s, [])
  | r :: rs =>
    let (t, a) := s.answer r
    let (u, os) := t.answerAll rs
    (u, t.observe a :: os)

/-- The requests of a course in which `none` stands for an artifact that is taken on the side. -/
def requests (course : List (Option Request)) : List Request :=
  course.map fun r => r.getD .artifact

def seen (s : Session) (course : List (Option Request)) : List Observation :=
  ((course.zip (s.answerAll (requests course)).2).map fun x => x.1.map fun _ => x.2).reduceOption

theorem foldl_insert_overwrites {xs ys : List Section}
    (hnames : ys.map Section.name = xs.map Section.name) {d : Dictionary Json} (hd : d.Ascends) :
    ys.foldl (fun a x => Dictionary.insert x.name x.artifact a)
        (xs.foldl (fun a x => Dictionary.insert x.name x.artifact a) d) =
      ys.foldl (fun a x => Dictionary.insert x.name x.artifact a) d := by
  have hxs := ascends_foldl_insert xs hd
  apply Dictionary.ext_get? (ascends_foldl_insert ys hxs) (ascends_foldl_insert ys hd)
  intro key
  rw [get?_foldl_insert, get?_foldl_insert, get?_foldl_insert]
  cases hlast : (ys.filter fun x => x.name = key).getLast? with
  | some y => rfl
  | none =>
    -- a key that no later section goes by is that of no earlier one
    have hys : key ∉ ys.map Section.name := by
      rw [List.getLast?_eq_none_iff, List.filter_eq_nil_iff] at hlast
      simpa using hlast
    have hnone : xs.filter (fun x => x.name = key) = [] := by
      rw [List.filter_eq_nil_iff]
      rw [hnames] at hys
      simpa using hys
    rw [hnone]
    rfl

theorem assemble_assemble {s : Session} (h : s.assembled.Ascends) :
    s.assemble.assemble = s.assemble :=
  congrArg (fun d => { s with assembled := d }) (foldl_insert_overwrites rfl h)

theorem ascends_assemble {s : Session} (h : s.assembled.Ascends) : s.assemble.assembled.Ascends :=
  ascends_foldl_insert s.sections h

theorem readLine_assemble (s : Session) (line : String) :
    s.assemble.readLine line =
      ({ (s.readLine line).1 with assembled := s.assemble.assembled }, (s.readLine line).2) := rfl

/-- An assembly before a line leaves nothing for the assembly after it. -/
theorem assemble_readLine_assemble {s : Session} (h : s.assembled.Ascends) (line : String) :
    (s.assemble.readLine line).1.assemble = (s.readLine line).1.assemble := by
  have hnames : (s.readLine line).1.sections.map Section.name = s.sections.map Section.name :=
    names_dispatch s.sections (s.truncation.cut line) s.lineNumber
  rw [readLine_assemble]
  exact congrArg (fun d => { (s.readLine line).1 with assembled := d })
    (foldl_insert_overwrites hnames h)

/-- Sessions that come to the same once the artifact is assembled. -/
structure Alike (s t : Session) : Prop where
  ascends : s.assembled.Ascends
  ascends' : t.assembled.Ascends
  assemble : s.assemble = t.assemble

theorem alike_refl {s : Session} (h : s.assembled.Ascends) : Alike s s := ⟨h, h, rfl⟩

theorem sections_of_alike {s t : Session} (h : Alike s t) : s.sections = t.sections := by
  have hassemble : s.assemble.sections = t.assemble.sections := by rw [h.assemble]
  exact hassemble

theorem lineNumber_of_alike {s t : Session} (h : Alike s t) : s.lineNumber = t.lineNumber := by
  have hassemble : s.assemble.lineNumber = t.assemble.lineNumber := by rw [h.assemble]
  exact hassemble

theorem alike_assemble {s t : Session} (h : Alike s t) : Alike s.assemble t :=
  ⟨ascends_assemble h.ascends, h.ascends', (assemble_assemble h.ascends).trans h.assemble⟩

theorem takeArtifact_of_alike {s t : Session} (h : Alike s t) :
    s.takeArtifact = t.takeArtifact := by
  simp only [takeArtifact, h.assemble]

theorem alike_readLine {s t : Session} (h : Alike s t) (line : String) :
    Alike (s.readLine line).1 (t.readLine line).1 ∧
      (s.readLine line).2 = (t.readLine line).2 := by
  refine ⟨⟨h.ascends, h.ascends', ?_⟩, ?_⟩
  -- the two are compared by way of what they are after an assembly, which is the same
  · calc (s.readLine line).1.assemble
      _ = (s.assemble.readLine line).1.assemble := (assemble_readLine_assemble h.ascends line).symm
      _ = (t.assemble.readLine line).1.assemble := by rw [h.assemble]
      _ = (t.readLine line).1.assemble := assemble_readLine_assemble h.ascends' line
  · calc (s.readLine line).2
      _ = (s.assemble.readLine line).2 := by rw [readLine_assemble]
      _ = (t.assemble.readLine line).2 := by rw [h.assemble]
      _ = (t.readLine line).2 := by rw [readLine_assemble]

theorem alike_readLines {s t : Session} (h : Alike s t) (lines : List String) :
    Alike (s.readLines lines).1 (t.readLines lines).1 ∧
      (s.readLines lines).2 = (t.readLines lines).2 := by
  induction lines generalizing s t with
  | nil => exact ⟨h, rfl⟩
  | cons line lines ih =>
    obtain ⟨hline, hfailure⟩ := alike_readLine h line
    cases hs : (s.readLine line).2 with
    | some e =>
      rw [readLines_cons_of_failure hs, readLines_cons_of_failure (hfailure ▸ hs)]
      exact ⟨hline, rfl⟩
    | none =>
      rw [readLines_cons_of_none hs, readLines_cons_of_none (hfailure ▸ hs)]
      exact ih hline

theorem alike_answer {s t : Session} (h : Alike s t) (r : Request) :
    Alike (s.answer r).1 (t.answer r).1 ∧ (s.answer r).2 = (t.answer r).2 := by
  cases r with
  | line text =>
    obtain ⟨hread, hfailure⟩ := alike_readLine h text
    exact ⟨hread, congrArg Answer.read hfailure⟩
  | lines texts =>
    obtain ⟨hread, hfailure⟩ := alike_readLines h texts
    exact ⟨hread, congrArg Answer.read hfailure⟩
  | artifact =>
    have htake := takeArtifact_of_alike h
    refine ⟨⟨ascends_assemble h.ascends, ascends_assemble h.ascends', ?_⟩, ?_⟩
    · exact congrArg (fun x => assemble x.1) htake
    · exact congrArg (fun x => Answer.artifact x.2) htake

theorem observe_of_alike {s t : Session} (h : Alike s t) (a : Answer) :
    s.observe a = t.observe a := by
  rw [observe, observe, sections_of_alike h, lineNumber_of_alike h]

theorem seen_cons_none (s : Session) (course : List (Option Request)) :
    s.seen (none :: course) = s.assemble.seen course :=
  List.reduceOption_cons_of_none _

theorem seen_cons_some (s : Session) (r : Request) (course : List (Option Request)) :
    s.seen (some r :: course) =
      (s.answer r).1.observe (s.answer r).2 :: (s.answer r).1.seen course :=
  List.reduceOption_cons_of_some _ _

theorem seen_eq_answerAll {s t : Session} (h : Alike s t) (course : List (Option Request)) :
    s.seen course = (t.answerAll course.reduceOption).2 ∧
      Alike (s.answerAll (requests course)).1 (t.answerAll course.reduceOption).1 := by
  induction course generalizing s t with
  | nil => exact ⟨rfl, h⟩
  | cons r course ih =>
    cases r with
    | none =>
      -- the one session assembles, the other does nothing, and they stay alike
      rw [seen_cons_none, List.reduceOption_cons_of_none]
      exact ih (alike_assemble h)
    | some r =>
      obtain ⟨hnext, hanswer⟩ := alike_answer h r
      obtain ⟨hseen, hfinal⟩ := ih hnext
      rw [seen_cons_some, List.reduceOption_cons_of_some, hanswer, observe_of_alike hnext, hseen]
      exact ⟨rfl, hfinal⟩

/-- Two courses that differ only in the artifacts taken on the side show the same after each of the
other requests, those for lines and those for artifacts. They leave the same sections with the same
number of lines read and the same final artifact, which is the one that a last request is answered
with. -/
theorem artifacts_on_the_side (name : String) (url : Option String) (sections : List Section)
    (t : Truncation) (course course' : List (Option Request))
    (h : course.reduceOption = course'.reduceOption) :
    let start := Session.start name url sections t
    let final := (start.answerAll (requests course)).1
    let final' := (start.answerAll (requests course')).1
    start.seen course = start.seen course' ∧
      final.sections = final'.sections ∧ final.lineNumber = final'.lineNumber ∧
      final.artifact = final'.artifact ∧
      (final.answer .artifact).2 = .artifact final.artifact := by
  intro start final final'
  have hstart : Alike start start := alike_refl (List.pairwise_singleton _ _)
  obtain ⟨hseen, hfinal⟩ := seen_eq_answerAll hstart course
  obtain ⟨hseen', hfinal'⟩ := seen_eq_answerAll hstart course'
  rw [h] at hseen hfinal
  have hsame : Alike final final' :=
    ⟨hfinal.ascends, hfinal'.ascends, hfinal.assemble.trans hfinal'.assemble.symm⟩
  refine ⟨hseen.trans hseen'.symm, ?_, ?_, ?_, rfl⟩
  · exact sections_of_alike hsame
  · exact lineNumber_of_alike hsame
  · exact congrArg Prod.snd (takeArtifact_of_alike hsame)

def undisturbed : List (Option Request) :=
  [some (.line "TALOSDATA: [x]"), some (.lines ["TinderboxPrint: a", "TALOSDATA: [1]"]),
    some .artifact]

def disturbed : List (Option Request) :=
  [none, some (.line "TALOSDATA: [x]"), none, none,
    some (.lines ["TinderboxPrint: a", "TALOSDATA: [1]"]), none, some .artifact, none]

theorem artifacts_on_the_side_of_three :
    let start : Session :=
      .start "" (some "u") [.measurements .empty, .details [], .details []] Truncation.standard
    disturbed.reduceOption = undisturbed.reduceOption ∧
      start.seen disturbed = start.seen undisturbed ∧
      (start.seen disturbed).map (fun o => (o.complete, o.lineNumber)) =
        [([false, false, false], 1), ([true, false, false], 3), ([true, false, false], 3)] ∧
      (start.answerAll (requests disturbed)).1.artifact =
        (start.answerAll (requests undisturbed)).1.artifact := by
  intro start
  have hcourse : disturbed.reduceOption = undisturbed.reduceOption := rfl
  obtain ⟨hseen, -, -, hartifact, -⟩ := artifacts_on_the_side "" (some "u")
    [.measurements .empty, .details [], .details []] Truncation.standard disturbed undisturbed
    hcourse
  refine ⟨hcourse, hseen, ?_, hartifact⟩
  decide +kernel

end Session
end BuildLog
