import Mathlib.Control.Monad.Basic
import DocRoutes.Inspect
import DocRoutes.Proofs.LoadFailures
import DocRoutes.Proofs.Suspensions

/-!
# Inspection as a walk along the paths

An inspection queues the loads of all paths at once and waits for them twice, first for the units
that it has added and then for the documentation. What it ends with is stated here without loads: one
path is taken after the other.

**One path** (`documentation`). The files to look for are the path itself and the path with the suffix
that it does not end in (`candidatesWith`). The first that is a file is read, and what it documents
is what the path contributes. A path without a file contributes nothing.

**All paths** (`documented`). The first failure ends the walk. Otherwise all contributions are put one
after the other, and narrowed to one controller if it is given.

**Schedules** (`Inspection.Run`). While the inspection waits, any load that has not ended may go on.
Every state of a run keeps what was added (`Inspection.Sound`), and each step uses up a suspension or
brings the inspection closer to its end, so that every run ends.

Main result: `inspect_along_paths`.
-/

namespace DocRoutes

/-! ## One path after the other -/

/-- The documentation in a file. -/
def documentationIn (files : Files) (file : String) : Except LoadError ControllerDoc :=
  match files.readText file with
  | .error fault => .error (.read file fault)
  | .ok source =>
    match (readUnit .comments source).1 with
    | .error error => .error (.parse file error)
    | .ok doc => .ok doc

/-- The documentation in the file for a path, where `candidates` are the files to look for; a path
without a file has none. -/
def documentation (files : Files) (candidates : String → List String) (path : String) :
    Except LoadError (Option ControllerDoc) :=
  match (candidates path).find? files.isFile with
  | none => .ok none
  | some file => (documentationIn files file).map some

/-- The documentation in the files for some paths, up to the first failure. -/
def documentationOf (files : Files) (candidates : String → List String) :
    List String → Except LoadError (List ControllerDoc)
  | [] => .ok []
  | path :: rest => do
    let doc ← documentation files candidates path
    let docs ← documentationOf files candidates rest
    return doc.toList ++ docs

/-- The path itself, and the path with a suffix that it does not end in. -/
def candidatesWith (suffix path : String) : List String :=
  if suffix.toList <:+ path.toList then [path] else [path, path ++ suffix]

/-- What is documented along some paths, narrowed to one controller if it is given. -/
def documented (files : Files) (candidates : String → List String) (paths : List String)
    (controller : Option String) : Except InspectError (List ControllerDoc) :=
  match documentationOf files candidates paths with
  | .error error => .error (.assembly (.load error))
  | .ok docs => narrow docs controller

variable {files : Files} {candidates : String → List String} {paths : List String}

theorem documentationOf_cons_of_error {path : String} {error : LoadError}
    (h : documentation files candidates path = .error error) (rest : List String) :
    documentationOf files candidates (path :: rest) = .error error := by
  rw [documentationOf, h]
  rfl

theorem documentationOf_cons_of_ok {path : String} {doc : Option ControllerDoc}
    (h : documentation files candidates path = .ok doc) (rest : List String) :
    documentationOf files candidates (path :: rest) =
      (documentationOf files candidates rest).map (doc.toList ++ ·) := by
  rw [documentationOf, h]
  cases hrest : documentationOf files candidates rest with
  | error e => rfl
  | ok docs => rfl

/-- The failure is that of the first path that fails. -/
theorem documentationOf_eq_error_iff {error : LoadError} :
    documentationOf files candidates paths = .error error ↔
      ∃ before path after, paths = before ++ path :: after ∧
        documentation files candidates path = .error error ∧
        ∀ p ∈ before, ∃ doc, documentation files candidates p = .ok doc := by
  constructor
  · intro h
    induction paths with
    | nil => cases h
    | cons path rest ih =>
      cases hpath : documentation files candidates path with
      | error e =>
        rw [documentationOf_cons_of_error hpath] at h
        cases h
        exact ⟨[], path, rest, rfl, hpath, nofun⟩
      | ok doc =>
        rw [documentationOf_cons_of_ok hpath] at h
        cases hrest : documentationOf files candidates rest with
        | ok docs =>
          rw [hrest] at h
          cases h
        | error e =>
          rw [hrest] at h
          cases h
          obtain ⟨before, p, after, rfl, hp, hbefore⟩ := ih hrest
          exact ⟨path :: before, p, after, rfl, hp,
            List.forall_mem_cons.2 ⟨⟨doc, hpath⟩, hbefore⟩⟩
  · rintro ⟨before, path, after, rfl, hpath, hbefore⟩
    induction before with
    | nil => exact documentationOf_cons_of_error hpath after
    | cons p before ih =>
      obtain ⟨⟨doc, hp⟩, hbefore⟩ := List.forall_mem_cons.1 hbefore
      rw [List.cons_append, documentationOf_cons_of_ok hp, ih hbefore]
      rfl

theorem forall_documentation_of_ok {docs : List ControllerDoc}
    (h : documentationOf files candidates paths = .ok docs) :
    ∀ p ∈ paths, ∃ doc, documentation files candidates p = .ok doc := by
  induction paths generalizing docs with
  | nil => exact nofun
  | cons path rest ih =>
    cases hpath : documentation files candidates path with
    | error e =>
      rw [documentationOf_cons_of_error hpath] at h
      cases h
    | ok doc =>
      rw [documentationOf_cons_of_ok hpath] at h
      cases hrest : documentationOf files candidates rest with
      | error e =>
        rw [hrest] at h
        cases h
      | ok docs => exact List.forall_mem_cons.2 ⟨⟨doc, hpath⟩, ih hrest⟩

/-- Without a failure every path contributes what is in its file, each time that it is listed. -/
theorem documentationOf_of_contribution {contribution : String → Option ControllerDoc}
    (h : ∀ p ∈ paths, documentation files candidates p = .ok (contribution p)) :
    documentationOf files candidates paths = .ok (paths.filterMap contribution) := by
  induction paths with
  | nil => rfl
  | cons path rest ih =>
    obtain ⟨hpath, hrest⟩ := List.forall_mem_cons.1 h
    rw [documentationOf_cons_of_ok hpath, ih hrest, List.filterMap_cons]
    cases contribution path <;> rfl

/-- What a path contributes, if it does not fail. -/
def contribution (files : Files) (candidates : String → List String) (path : String) :
    Option ControllerDoc :=
  match documentation files candidates path with
  | .error _ => none
  | .ok doc => doc

theorem documentationOf_eq_ok_iff {docs : List ControllerDoc} :
    documentationOf files candidates paths = .ok docs ↔
      (∀ p ∈ paths, ∃ doc, documentation files candidates p = .ok doc) ∧
        docs = paths.filterMap (contribution files candidates) := by
  have hcontribution (h : ∀ p ∈ paths, ∃ doc, documentation files candidates p = .ok doc) :
      documentationOf files candidates paths =
        .ok (paths.filterMap (contribution files candidates)) := by
    refine documentationOf_of_contribution fun p hp => ?_
    obtain ⟨doc, hdoc⟩ := h p hp
    rw [contribution, hdoc]
  constructor
  · intro h
    have hall : ∀ p ∈ paths, ∃ doc, documentation files candidates p = .ok doc :=
      forall_documentation_of_ok h
    refine ⟨hall, ?_⟩
    rw [hcontribution hall] at h
    exact (Except.ok.inj h).symm
  · rintro ⟨hall, rfl⟩
    exact hcontribution hall

/-! ## Loads -/

theorem find?_candidatesWith (loader : Loader) (files : Files) (path : String) :
    (candidatesWith loader.suffix path).find? files.isFile = loader.locate files path := by
  have hends : (loader.suffix.isEmpty || Loader.endsWith path loader.suffix) = true ↔
      loader.suffix.toList <:+ path.toList := by
    rw [Bool.or_eq_true, Loader.endsWith, List.isSuffixOf_iff_suffix, String.isEmpty_iff]
    constructor
    · rintro (hempty | hsuffix)
      · rw [hempty]
        exact List.nil_suffix
      · exact hsuffix
    · exact .inr
  unfold candidatesWith Loader.locate
  by_cases hfile : files.isFile path
  · rw [if_pos hfile]
    split <;> exact List.find?_cons_of_pos hfile
  · rw [if_neg hfile]
    by_cases hsuffix : loader.suffix.toList <:+ path.toList
    · rw [if_pos hsuffix, if_pos (hends.2 hsuffix), List.find?_cons_of_neg hfile]
      rfl
    · rw [if_neg hsuffix, if_neg (mt hends.1 hsuffix), List.find?_cons_of_neg hfile]
      by_cases hother : files.isFile (path ++ loader.suffix)
      · rw [if_pos hother, List.find?_cons_of_pos hother]
      · rw [if_neg hother, List.find?_cons_of_neg hother]
        rfl

/-- Loads of an inspection: no load breaks off, and what is loaded is what is documented. -/
def inspectionLoader (suffix : String) : Loader := { resolver := .empty, suffix }

theorem map_loadFile (suffix : String) (files : Files) (path file : String) :
    (((inspectionLoader suffix).loadFile files file []).outcome path).map (Option.map (·.doc)) =
      (documentationIn files file).map some := by
  rw [Loader.loadFile, documentationIn]
  cases files.readText file with
  | error fault => rfl
  | ok source =>
    have hextractor : (inspectionLoader suffix).extractor = .comments := rfl
    simp only [hextractor]
    cases (readUnit .comments source).1 with
    | error e => rfl
    | ok doc => rfl

theorem map_loadOutcome (suffix : String) (files : Files) (path : String) :
    (Assembly.loadOutcome (inspectionLoader suffix) files [] path).map (Option.map (·.doc)) =
      documentation files (candidatesWith suffix) path := by
  have hfind : (candidatesWith suffix path).find? files.isFile =
      (inspectionLoader suffix).locate files path := find?_candidatesWith (inspectionLoader suffix) ..
  rw [documentation, hfind, Assembly.loadOutcome, Loader.load]
  cases (inspectionLoader suffix).locate files path with
  | none => rfl
  | some file => exact map_loadFile suffix files path file

/-- The documentation along the paths, from the outcomes of their loads. -/
theorem documentationOf_eq_outcomes (suffix : String) (files : Files) (paths : List String) :
    let outcomes := paths.map (Assembly.loadOutcome (inspectionLoader suffix) files [])
    documentationOf files (candidatesWith suffix) paths =
      match loadFailures outcomes with
      | e :: _ => .error e
      | [] => .ok ((loadedUnits outcomes).map (·.doc)) := by
  induction paths with
  | nil => rfl
  | cons path rest ih =>
    have hpath := map_loadOutcome suffix files path
    intro outcomes
    cases houtcome : Assembly.loadOutcome (inspectionLoader suffix) files [] path with
    | error e =>
      rw [houtcome] at hpath
      rw [documentationOf_cons_of_error hpath.symm]
      simp only [outcomes, List.map_cons, houtcome, loadFailures_cons_error]
    | ok unit =>
      rw [houtcome] at hpath
      rw [documentationOf_cons_of_ok hpath.symm, ih]
      simp only [outcomes, List.map_cons, houtcome, loadFailures_cons_ok]
      cases loadFailures (rest.map (Assembly.loadOutcome (inspectionLoader suffix) files [])) with
      | cons e es => rfl
      | nil => cases unit <;> rfl

/-! ## Schedules -/

namespace Assembly

/-- How many times the loads of the queue suspend before all have ended. -/
def suspensions (a : Assembly) : Nat := (a.queue.units.map Pending.suspensions).sum

theorem suspensions_advance {a : Assembly} {index : Nat} {rest : Pending LoadOutcome}
    (h : a.queue.units[index]? = some (.suspended rest)) :
    (a.advance index).suspensions + 1 = a.suspensions :=
  Pending.sum_suspensions_modify h

/-- A load goes on as long as not all have ended. -/
theorem ready_or_exists_suspended (a : Assembly) :
    a.ready = true ∨ ∃ (index : Nat) (rest : Pending LoadOutcome),
      a.queue.units[index]? = some (.suspended rest) := by
  cases hready : a.ready with
  | true => exact .inl rfl
  | false =>
    obtain ⟨unit, hunit, hnone⟩ := List.all_eq_false.1 hready
    obtain ⟨index, hindex⟩ := List.mem_iff_getElem?.1 (List.mem_of_mem_drop hunit)
    cases unit with
    | done outcome => exact absurd rfl hnone
    | suspended rest => exact .inr ⟨index, rest, hindex⟩

theorem suspensions_addUnits (a : Assembly) (files : Files) (paths : List String)
    (args : List Json) :
    (a.addUnits files paths args).1.suspensions = a.suspensions + paths.length := by
  have hone : ((paths.map fun path => (a.loader.task files path args).map (·.outcome path)).map
      Pending.suspensions).sum = paths.length := by
    induction paths with
    | nil => rfl
    | cons path rest ih =>
      rw [List.map_cons, List.map_cons, List.sum_cons, ih, Pending.suspensions_map,
        List.length_cons, Nat.add_comm]
      rfl
  rw [suspensions, units_addUnits, List.map_append, List.sum_append, hone, suspensions]

end Assembly

/-- An inspection: it waits for the units that it has added, then it asks for the documentation and
waits again. -/
inductive Inspection where
  | adding (a : Assembly)
  | asking (a : Assembly)
  | ended (result : Except InspectError (List ControllerDoc))

namespace Inspection

section Steps

variable (files : Files) (config : Configuration) (paths : List String) (controller : Option String)

/-- The assembly to which the units have been added, and what comes of adding them. -/
def added : Assembly × Assembly.Addition :=
  (Assembly.withConfiguration { loader := { resolver := .empty } } config).addUnits files paths []

/-- What an inspection answers to the documentation that it has asked for. -/
def answer (reply : Except AssemblyError (List ControllerDoc)) :
    Except InspectError (List ControllerDoc) :=
  match reply with
  | .error error => .error (.assembly error)
  | .ok docs => narrow docs controller

/-- While an inspection waits, any load that has not ended may go on. -/
inductive Step : Inspection → Inspection → Prop
  | resumeAdding (a : Assembly) (index : Nat) {rest : Pending LoadOutcome} :
      a.queue.units[index]? = some (.suspended rest) → Step (.adding a) (.adding (a.advance index))
  | failed (a : Assembly) {error : AssemblyError} :
      a.ready → (added files config paths).2.wait = .error error →
      Step (.adding a) (.ended (.error (.assembly error)))
  | added (a : Assembly) {summary : LoadSummary} :
      a.ready → (added files config paths).2.wait = .ok summary → Step (.adding a) (.asking a)
  | resumeAsking (a : Assembly) (index : Nat) {rest : Pending LoadOutcome} :
      a.queue.units[index]? = some (.suspended rest) → Step (.asking a) (.asking (a.advance index))
  | answered (a : Assembly) :
      a.ready → Step (.asking a) (.ended (answer controller a.mapping.result))

/-- What an inspection may come to in so many steps. -/
inductive Run : Nat → Inspection → Prop
  | start : Run 0 (.adding (added files config paths).1)
  | step {n : Nat} {s t : Inspection} :
      Run n s → Step files config paths controller s t → Run (n + 1) t

end Steps

variable {files : Files} {config : Configuration} {paths : List String}
  {controller : Option String}

/-! ## What every inspection keeps -/

/-- The outcomes of all loads. -/
def outcomes (files : Files) (config : Configuration) (paths : List String) : List LoadOutcome :=
  paths.map (Assembly.loadOutcome (inspectionLoader config.sourceSuffix) files [])

theorem entered_added : (added files config paths).1.Entered :=
  (Assembly.entered_fresh (inspectionLoader config.sourceSuffix) _ {}).addUnits files paths []

theorem outcomes_added : (added files config paths).1.outcomes = outcomes files config paths :=
  Assembly.outcomes_addUnits _ files paths []

theorem wait_added : (added files config paths).2.wait =
    (LoadSummary.ofOutcomes (outcomes files config paths)).mapError .load := by
  rw [added, Assembly.addition_addUnits, Loader.wait_addition]
  rfl

/-- Adding fails with what is documented. -/
theorem documented_of_wait_error {error : AssemblyError}
    (h : (added files config paths).2.wait = .error error) :
    documented files (candidatesWith config.sourceSuffix) paths controller =
      .error (.assembly error) := by
  rw [wait_added] at h
  cases hsummary : LoadSummary.ofOutcomes (outcomes files config paths) with
  | ok summary =>
    rw [hsummary] at h
    cases h
  | error e =>
    rw [hsummary] at h
    cases h
    have hhead := head?_loadFailures_eq_some_iff.2 (LoadSummary.ofOutcomes_eq_error_iff.1 hsummary)
    obtain ⟨rest, hfailures⟩ := List.head?_eq_some_iff.1 hhead
    have hdocs := documentationOf_eq_outcomes config.sourceSuffix files paths
    rw [outcomes] at hfailures
    simp only [hfailures] at hdocs
    rw [documented, hdocs]

theorem documented_of_loaded (h : loadFailures (outcomes files config paths) = []) :
    documented files (candidatesWith config.sourceSuffix) paths controller =
      narrow ((loadedUnits (outcomes files config paths)).map (·.doc)) controller := by
  have hdocs := documentationOf_eq_outcomes config.sourceSuffix files paths
  rw [outcomes] at h
  simp only [h] at hdocs
  rw [documented, hdocs]
  rfl

/-- If adding succeeds, no load has failed. -/
theorem loadFailures_of_wait_ok {summary : LoadSummary}
    (h : (added files config paths).2.wait = .ok summary) :
    loadFailures (outcomes files config paths) = [] := by
  rw [wait_added] at h
  cases hfailures : loadFailures (outcomes files config paths) with
  | nil => rfl
  | cons e rest =>
    have hhead : (loadFailures (outcomes files config paths)).head? = some e := by
      rw [hfailures, List.head?_cons]
    rw [LoadSummary.ofOutcomes_eq_error_iff.2 (head?_loadFailures_eq_some_iff.1 hhead)] at h
    cases h

/-- The reply of an assembly whose loads have all succeeded. -/
theorem answer_mapping {a : Assembly} (h : a.Entered)
    (houtcomes : a.outcomes = outcomes files config paths)
    (hloaded : loadFailures (outcomes files config paths) = []) :
    answer controller a.mapping.result =
      documented files (candidatesWith config.sourceSuffix) paths controller := by
  have hfailures : a.settle.1.failures = [] := by rw [h.failures_settle, houtcomes, hloaded]
  have hdocs : a.settle.1.registry.docs =
      (loadedUnits (outcomes files config paths)).map (·.doc) := by
    rw [h.registry_settle, Registry.docs_registerAll, houtcomes]
    exact List.nil_append _
  rw [Assembly.mapping, Assembly.afterSettling_of_loaded hfailures, documented_of_loaded hloaded,
    ← hdocs]
  rfl

variable (files config paths controller) in
/-- What has been added stays the same while the loads go on, the documentation is asked for when
all have succeeded, and what comes out is what is documented along the paths. -/
def Sound : Inspection → Prop
  | adding a => a.Entered ∧ a.outcomes = outcomes files config paths
  | asking a => a.Entered ∧ a.outcomes = outcomes files config paths ∧
      loadFailures (outcomes files config paths) = []
  | ended result =>
      result = documented files (candidatesWith config.sourceSuffix) paths controller

/-- A bound for the steps that are left. -/
def remaining : Inspection → Nat
  | adding a => a.suspensions + 2
  | asking a => a.suspensions + 1
  | ended _ => 0

variable {s t : Inspection}

theorem Sound.step (h : Sound files config paths controller s)
    (hstep : Step files config paths controller s t) :
    Sound files config paths controller t ∧ t.remaining < s.remaining := by
  cases hstep with
  | resumeAdding a index hsuspended =>
    obtain ⟨hentered, houtcomes⟩ := h
    refine ⟨⟨hentered.advance _, (a.outcomes_advance _).trans houtcomes⟩, ?_⟩
    have hless := Assembly.suspensions_advance hsuspended
    simp only [remaining]
    omega
  | failed a _ hwait =>
    exact ⟨(documented_of_wait_error hwait).symm, Nat.succ_pos _⟩
  | added a _ hwait =>
    obtain ⟨hentered, houtcomes⟩ := h
    exact ⟨⟨hentered, houtcomes, loadFailures_of_wait_ok hwait⟩, Nat.lt_succ_self _⟩
  | resumeAsking a index hsuspended =>
    obtain ⟨hentered, houtcomes, hloaded⟩ := h
    refine ⟨⟨hentered.advance _, (a.outcomes_advance _).trans houtcomes, hloaded⟩, ?_⟩
    have hless := Assembly.suspensions_advance hsuspended
    simp only [remaining]
    omega
  | answered a _ =>
    obtain ⟨hentered, houtcomes, hloaded⟩ := h
    exact ⟨answer_mapping hentered houtcomes hloaded, Nat.succ_pos _⟩

/-- An inspection goes on until it has ended. -/
theorem ended_or_exists_step (s : Inspection) :
    (∃ result, s = .ended result) ∨ ∃ t, Step files config paths controller s t := by
  cases s with
  | adding a =>
    rcases a.ready_or_exists_suspended with hready | ⟨index, rest, hsuspended⟩
    · cases hwait : (Inspection.added files config paths).2.wait with
      | error error => exact .inr ⟨_, .failed a hready hwait⟩
      | ok summary => exact .inr ⟨_, .added a hready hwait⟩
    · exact .inr ⟨_, .resumeAdding a index hsuspended⟩
  | asking a =>
    rcases a.ready_or_exists_suspended with hready | ⟨index, rest, hsuspended⟩
    · exact .inr ⟨_, .answered a hready⟩
    · exact .inr ⟨_, .resumeAsking a index hsuspended⟩
  | ended result => exact .inl ⟨result, rfl⟩

/-- A run is sound, and it pays for each step. -/
theorem Run.sound {n : Nat} (h : Run files config paths controller n s) :
    Sound files config paths controller s ∧ n + s.remaining ≤ paths.length + 2 := by
  induction h with
  | start =>
    refine ⟨⟨entered_added, outcomes_added⟩, ?_⟩
    have hcount : (Inspection.added files config paths).1.suspensions = 0 + paths.length :=
      Assembly.suspensions_addUnits _ files paths []
    simp only [remaining]
    omega
  | step _ hstep ih =>
    obtain ⟨hsound, hcount⟩ := ih
    obtain ⟨hsound', hless⟩ := hsound.step hstep
    exact ⟨hsound', by omega⟩

end Inspection

/-! ## Main result -/

theorem inspect_eq_documented (files : Files) (config : Configuration) (paths : List String)
    (controller : Option String) : (inspect files config paths controller).1 =
      documented files (candidatesWith config.sourceSuffix) paths controller := by
  have hadded : (Assembly.withConfiguration { loader := { resolver := .empty } } config).addUnits
      files paths [] = Inspection.added files config paths := rfl
  simp only [inspect, hadded]
  cases hwait : (Inspection.added files config paths).2.wait with
  | error error => exact (Inspection.documented_of_wait_error hwait).symm
  | ok summary =>
    have hanswer : Inspection.answer controller
        (Inspection.added files config paths).1.mapping.result =
        documented files (candidatesWith config.sourceSuffix) paths controller :=
      Inspection.answer_mapping Inspection.entered_added Inspection.outcomes_added
        (Inspection.loadFailures_of_wait_ok hwait)
    rw [← hanswer]
    cases (Inspection.added files config paths).1.mapping.result with
    | error error => rfl
    | ok docs => rfl

/-- Narrowing fails if nothing is left, and is a filter otherwise. -/
theorem narrow_cases (docs : List ControllerDoc) (name : String) :
    (docs.filter (·.name = name) = [] ∧
        narrow docs (some name) = .error (.noSuchController name)) ∨
      (docs.filter (·.name = name) ≠ [] ∧
        narrow docs (some name) = .ok (docs.filter (·.name = name))) := by
  cases hfilter : docs.filter (·.name = name) with
  | nil => exact .inl ⟨rfl, by simp only [narrow, hfilter]⟩
  | cons doc rest => exact .inr ⟨List.cons_ne_nil _ _, by simp only [narrow, hfilter]⟩

/-- What a controller asked for changes about what is documented. -/
theorem documented_some {files : Files} {candidates : String → List String}
    {paths : List String} (name : String) :
    (documented files candidates paths (some name) = .error (.noSuchController name) ↔
      ∃ docs, documented files candidates paths none = .ok docs ∧ ∀ doc ∈ docs, doc.name ≠ name) ∧
    (documented files candidates paths (some name) ≠ .error (.noSuchController name) →
      documented files candidates paths (some name) =
        (documented files candidates paths none).map fun docs => docs.filter (·.name = name)) := by
  rw [documented, documented]
  cases documentationOf files candidates paths with
  | error e =>
    refine ⟨⟨nofun, ?_⟩, fun _ => rfl⟩
    rintro ⟨docs, hdocs, -⟩
    cases hdocs
  | ok docs =>
    rcases narrow_cases docs name with ⟨hnone, hnarrow⟩ | ⟨hsome, hnarrow⟩
    · refine ⟨⟨fun _ => ⟨docs, rfl, fun doc hdoc => ?_⟩, fun _ => hnarrow⟩, fun h => absurd hnarrow h⟩
      simpa using List.filter_eq_nil_iff.1 hnone doc hdoc
    · refine ⟨⟨fun h => ?_, ?_⟩, fun _ => hnarrow⟩
      · simp only [hnarrow] at h
        cases h
      · rintro ⟨docs', hdocs', hname⟩
        cases hdocs'
        exact absurd (List.filter_eq_nil_iff.2 fun doc hdoc => by simpa using hname doc hdoc) hsome

/-- **An inspection goes along the paths.** However the loads are scheduled, an inspection ends
after as many steps as there are paths and two more at most, and what it ends with is what one gets
by taking the paths in order: the failure of the first path that fails, or what the files document,
once for each time that a path is listed, narrowed to one controller if it is given. It fails for
want of that controller exactly if no load fails and no file documents it, and otherwise narrows
what it would end with. -/
theorem inspect_along_paths (files : Files) (config : Configuration) (paths : List String)
    (controller : Option String) :
    let candidates := candidatesWith config.sourceSuffix
    let result := documented files candidates paths controller
    (inspect files config paths controller).1 = result ∧
      (∀ n s, Inspection.Run files config paths controller n s → n ≤ paths.length + 2 ∧
        (∀ r, s = .ended r → r = result) ∧
        ((∃ r, s = .ended r) ∨ ∃ t, Inspection.Step files config paths controller s t)) ∧
      (∀ error, documentationOf files candidates paths = .error error ↔
        ∃ before path after, paths = before ++ path :: after ∧
          documentation files candidates path = .error error ∧
          ∀ p ∈ before, ∃ doc, documentation files candidates p = .ok doc) ∧
      (∀ docs, documentationOf files candidates paths = .ok docs ↔
        (∀ p ∈ paths, ∃ doc, documentation files candidates p = .ok doc) ∧
          docs = paths.filterMap (contribution files candidates)) ∧
      ∀ name,
        let all := (inspect files config paths none).1
        let narrowed := (inspect files config paths (some name)).1
        (narrowed = .error (.noSuchController name) ↔
          ∃ docs, all = .ok docs ∧ ∀ doc ∈ docs, doc.name ≠ name) ∧
        (narrowed ≠ .error (.noSuchController name) →
          narrowed = all.map fun docs => docs.filter (·.name = name)) := by
  intro candidates result
  refine ⟨inspect_eq_documented .., fun n s hrun => ?_, fun error => documentationOf_eq_error_iff,
    fun docs => documentationOf_eq_ok_iff, fun name => ?_⟩
  · obtain ⟨hsound, hcount⟩ := hrun.sound
    refine ⟨Nat.le_of_add_right_le hcount, ?_, s.ended_or_exists_step⟩
    rintro r rfl
    exact hsound
  · intro all narrowed
    have hall : all = documented files candidates paths none := inspect_eq_documented ..
    have hnarrowed : narrowed = documented files candidates paths (some name) :=
      inspect_eq_documented ..
    rw [hall, hnarrowed]
    exact documented_some name

/-- Files with one unit in them, which documents a controller `A`. -/
def filesWithUnit (file : String) : Files :=
  ⟨fun path => path = file, fun _ => .ok (Text.utf8Bytes "//! @module A\n")⟩

/-- A unit is listed twice, with a path without a file in between; the last load ends first. -/
theorem inspect_twice :
    let files := filesWithUnit "a.rs"
    let paths := ["a", "b", "a.rs"]
    let docs : List ControllerDoc := [⟨"A", "", []⟩, ⟨"A", "", []⟩]
    (inspect files {} paths (some "A")).1 = .ok docs ∧
      (inspect files {} paths (some "B")).1 = .error (.noSuchController "B") ∧
      ∃ result, Inspection.Run files {} paths (some "A") 5 (.ended result) ∧ result = .ok docs := by
  intro files paths docs
  have hdocs : documented files (candidatesWith ".rs") paths (some "A") = .ok docs := by
    decide +kernel
  have hall : documented files (candidatesWith ".rs") paths none = .ok docs := by
    decide +kernel
  obtain ⟨hresult, hruns, -, -, hname⟩ := inspect_along_paths files {} paths (some "A")
  have hwait : (Inspection.added files {} paths).2.wait = .ok ⟨2, 1⟩ := by decide +kernel
  have hrun : Inspection.Run files {} paths (some "A") 5 (.ended _) :=
    .step (.step (.step (.step (.step .start (.resumeAdding _ 2 rfl)) (.resumeAdding _ 0 rfl))
      (.resumeAdding _ 1 rfl)) (.added _ rfl hwait)) (.answered _ rfl)
  refine ⟨hresult.trans hdocs, (hname "B").1.2 ⟨docs, ?_, ?_⟩, _, hrun, ?_⟩
  · exact (inspect_along_paths files {} paths none).1.trans hall
  · decide
  · exact ((hruns _ _ hrun).2.1 _ rfl).trans hdocs

/-- A file is not looked for under a path with the suffix added if the path ends in the suffix. -/
theorem suffix_not_repeated :
    let files := filesWithUnit "a.rs.rs"
    (inspect files {} ["a.rs"] none).1 = .ok [] ∧
      documented files (fun path => [path, path ++ ".rs"]) ["a.rs"] none =
        .ok [⟨"A", "", []⟩] := by
  decide +kernel

end DocRoutes
