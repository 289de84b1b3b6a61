import DocRoutes.Configuration
import DocRoutes.Files.Tree
import DocRoutes.Load.Loader

/-!
# Where the file of a unit is

A unit is requested by a path, and its file is the path itself or the path with a suffix. A
configuration gives the suffix, and it is checked there.

**The file for a path** (`Loader.Locates`). The rule, case by case: the path if it is a file, else
the path with the suffix, else nothing. Directories are not files, and it makes no difference whether
the path leads to one.

**The directory** (`directory`). A path up to its last slash. A suffix that has passed the check holds
no slash, so that it makes the last component longer and nothing else (`directory_append`).

**What a load says** (`Loader.Fails`). The reasons for which the load of a file fails, each with the
path of the file.

Main result: `Loader.locate_beside_path`.
-/

namespace DocRoutes

/-! ## Directories -/

/-- A path up to its last slash. -/
def directory (path : String) : List Char := (path.toList.reverse.dropWhile (· != '/')).reverse

theorem directory_append_fileName (path : String) :
    directory path ++ fileName path = path.toList := by
  rw [directory, fileName, ← List.reverse_append, List.takeWhile_append_dropWhile,
    List.reverse_reverse]

theorem directory_append {suffix : String} (h : '/' ∉ suffix.toList) (path : String) :
    directory (path ++ suffix) = directory path := by
  have hname : ∀ c ∈ suffix.toList.reverse, (c != '/') = true := by
    intro c hc
    have hne : c ≠ '/' := fun hslash => h (hslash ▸ List.mem_reverse.1 hc)
    simpa using hne
  rw [directory, directory, String.toList_append, List.reverse_append,
    List.dropWhile_append_of_pos hname]

/-- A suffix that has passed the check stays within a directory. -/
theorem Configuration.slash_not_mem_sourceSuffix {c : Configuration} (h : c.validate = .ok c) :
    '/' ∉ c.sourceSuffix.toList := by
  intro hslash
  have hseparator : c.sourceSuffix.toList.any isSeparator = true :=
    List.any_eq_true.2 ⟨'/', hslash, rfl⟩
  have hfault : c.fault? ≠ none := by
    rw [fault?, hseparator]
    split <;> simp
  rw [validate] at h
  cases hcases : c.fault? with
  | none => exact hfault hcases
  | some error =>
    rw [hcases] at h
    cases h

namespace Loader

/-! ## The file for a path -/

/-- The file for a path, if there is one. -/
inductive Locates (files : Files) (suffix path : String) : Option String → Prop
  /-- The path as it was requested. -/
  | path : files.isFile path → Locates files suffix path (some path)
  /-- The path with the suffix, which is added once. -/
  | suffixed : ¬files.isFile path → suffix ≠ "" → ¬suffix.toList <:+ path.toList →
      files.isFile (path ++ suffix) → Locates files suffix path (some (path ++ suffix))
  | nowhere : ¬files.isFile path →
      (suffix ≠ "" → ¬suffix.toList <:+ path.toList → ¬files.isFile (path ++ suffix)) →
      Locates files suffix path none

variable {l : Loader} {files : Files} {path file : String}

theorem locates_locate (l : Loader) (files : Files) (path : String) :
    Locates files l.suffix path (l.locate files path) := by
  have hends : (l.suffix.isEmpty || endsWith path l.suffix) = true ↔
      l.suffix = "" ∨ l.suffix.toList <:+ path.toList := by
    rw [Bool.or_eq_true, endsWith, List.isSuffixOf_iff_suffix, String.isEmpty_iff]
  unfold locate
  by_cases hfile : files.isFile path
  · rw [if_pos hfile]
    exact .path hfile
  rw [if_neg hfile]
  by_cases hsuffix : l.suffix = "" ∨ l.suffix.toList <:+ path.toList
  · rw [if_pos (hends.2 hsuffix)]
    exact .nowhere hfile fun hne hends => absurd hsuffix (not_or.2 ⟨hne, hends⟩)
  · rw [if_neg (mt hends.1 hsuffix)]
    obtain ⟨hne, hnot⟩ := not_or.1 hsuffix
    by_cases hother : files.isFile (path ++ l.suffix)
    · rw [if_pos hother]
      exact .suffixed hfile hne hnot hother
    · rw [if_neg hother]
      exact .nowhere hfile fun _ _ => hother

/-- The rule leaves no choice. -/
theorem Locates.unique {suffix : String} {found found' : Option String}
    (h : Locates files suffix path found) (h' : Locates files suffix path found') :
    found = found' := by
  cases h with
  | path hfile => cases h' with
    | path => rfl
    | suffixed hno => exact absurd hfile hno
    | nowhere hno => exact absurd hfile hno
  | suffixed hno hne hends hother => cases h' with
    | path hfile => exact absurd hfile hno
    | suffixed => rfl
    | nowhere _ hnowhere => exact absurd hother (hnowhere hne hends)
  | nowhere hno hnowhere => cases h' with
    | path hfile => exact absurd hfile hno
    | suffixed _ hne hends hother => exact absurd hother (hnowhere hne hends)
    | nowhere => rfl

theorem locate_eq_iff {found : Option String} :
    l.locate files path = found ↔ Locates files l.suffix path found := by
  constructor
  · rintro rfl
    exact l.locates_locate files path
  · intro h
    exact (l.locates_locate files path).unique h

theorem isFile_of_locate (h : l.locate files path = some file) : files.isFile file := by
  cases locate_eq_iff.1 h with
  | path hfile => exact hfile
  | suffixed _ _ _ hfile => exact hfile

/-- A file is its own file. -/
theorem locate_of_isFile (h : files.isFile file) : l.locate files file = some file :=
  locate_eq_iff.2 (.path h)

/-- The suffix is not added to a path that ends in it. -/
theorem eq_of_locate_of_suffix (h : l.locate files path = some file)
    (hsuffix : l.suffix.toList <:+ path.toList) : file = path := by
  cases locate_eq_iff.1 h with
  | path _ => rfl
  | suffixed _ _ hends _ => exact absurd hsuffix hends

theorem directory_of_locate (hslash : '/' ∉ l.suffix.toList)
    (h : l.locate files path = some file) : directory file = directory path := by
  cases locate_eq_iff.1 h with
  | path _ => rfl
  | suffixed _ _ _ _ => exact directory_append hslash path

/-! ## What a load says -/

/-- The load of a file fails for this reason. -/
inductive Fails (l : Loader) (files : Files) (args : List Json) (file : String) : LoadError → Prop
  | read {fault : ReadFault} :
      files.readText file = .error fault → Fails l files args file (.read file fault)
  | parse {source : String} {error : UnitError} :
      files.readText file = .ok source → (readUnit l.extractor source).1 = .error error →
      Fails l files args file (.parse file error)
  | resolve {source : String} {doc : ControllerDoc} {error : ResolveError} :
      files.readText file = .ok source → (readUnit l.extractor source).1 = .ok doc →
      l.resolver.resolve doc.name file args = .refused error →
      Fails l files args file (.resolve file error)

variable {args : List Json}

theorem loadFile_eq_error_iff {error : LoadError} :
    l.loadFile files file args = .finished (.error error) ↔ l.Fails files args file error := by
  constructor
  · intro h
    unfold loadFile at h
    split at h
    · next hread =>
      cases h
      exact .read hread
    · next hread =>
      split at h
      · next hparse =>
        cases h
        exact .parse hread hparse
      · next hparse =>
        split at h
        · next hresolve =>
          cases h
          exact .resolve hread hparse hresolve
        · cases h
        · cases h
  · intro h
    cases h with
    | read hread => simp [loadFile, hread]
    | parse hread hparse => simp [loadFile, hread, hparse]
    | resolve hread hparse hresolve => simp [loadFile, hread, hparse, hresolve]

theorem loadFile_ne_skipped : l.loadFile files file args ≠ .finished (.ok none) := by
  intro h
  unfold loadFile at h
  split at h
  · cases h
  · split at h
    · cases h
    · split at h <;> cases h

theorem path_of_loadFile {unit : LoadedUnit}
    (h : l.loadFile files file args = .finished (.ok (some unit))) : unit.path = file := by
  unfold loadFile at h
  split at h
  · cases h
  · split at h
    · cases h
    · split at h
      · cases h
      · cases h
      · cases h
        rfl

theorem load_of_locate_eq_none (h : l.locate files path = none) :
    l.load files path args = .finished (.ok none) := by
  simp [load, h]

theorem load_of_locate_eq_some (h : l.locate files path = some file) :
    l.load files path args = l.loadFile files file args := by
  simp [load, h]

/-- A load has nothing to load exactly if there is no file. -/
theorem load_eq_skipped_iff :
    l.load files path args = .finished (.ok none) ↔ l.locate files path = none := by
  cases hlocate : l.locate files path with
  | none => simp [load_of_locate_eq_none hlocate]
  | some file => simp [load_of_locate_eq_some hlocate, loadFile_ne_skipped]

theorem load_eq_error_iff {error : LoadError} :
    l.load files path args = .finished (.error error) ↔
      ∃ file, l.locate files path = some file ∧ l.Fails files args file error := by
  cases hlocate : l.locate files path with
  | none => simp [load_of_locate_eq_none hlocate]
  | some file => simp [load_of_locate_eq_some hlocate, loadFile_eq_error_iff]

theorem locate_of_load {unit : LoadedUnit}
    (h : l.load files path args = .finished (.ok (some unit))) :
    l.locate files path = some unit.path := by
  cases hlocate : l.locate files path with
  | none =>
    rw [load_of_locate_eq_none hlocate] at h
    cases h
  | some file =>
    rw [load_of_locate_eq_some hlocate] at h
    rw [path_of_loadFile h]

/-! ## Main result -/

/-- **A unit is found where it was requested.** With a suffix from a configuration that has passed the
checks, and whatever files there are: the file for a path is the one of the rule, it is a file of the
directory of the path, its own file, and the path itself if the path ends in the suffix. A load has
nothing to load exactly if there is no file for the path; every failure is one of the file that was
found and tells its path, and so does the unit that is loaded. -/
theorem locate_beside_path (config : Configuration) (hconfig : config.validate = .ok config)
    (l : Loader) (hsuffix : l.suffix = config.sourceSuffix) (files : Files) (path : String)
    (args : List Json) :
    (∀ found, l.locate files path = found ↔ Locates files l.suffix path found) ∧
      (∀ file, l.locate files path = some file →
        files.isFile file ∧ directory file = directory path ∧
          file.toList = directory path ++ fileName file ∧ l.locate files file = some file ∧
          (l.suffix.toList <:+ path.toList → file = path)) ∧
      (l.load files path args = .finished (.ok none) ↔ l.locate files path = none) ∧
      (∀ error, l.load files path args = .finished (.error error) ↔
        ∃ file, l.locate files path = some file ∧ l.Fails files args file error) ∧
      ∀ unit, l.load files path args = .finished (.ok (some unit)) →
        l.locate files path = some unit.path := by
  have hslash : '/' ∉ l.suffix.toList := by
    rw [hsuffix]
    exact Configuration.slash_not_mem_sourceSuffix hconfig
  refine ⟨fun found => locate_eq_iff, fun file h => ⟨?_, ?_, ?_, ?_, ?_⟩, load_eq_skipped_iff,
    fun error => load_eq_error_iff, fun unit => locate_of_load⟩
  · exact isFile_of_locate h
  · exact directory_of_locate hslash h
  · rw [← directory_of_locate hslash h, directory_append_fileName]
  · exact locate_of_isFile (isFile_of_locate h)
  · exact eq_of_locate_of_suffix h

/-- The path `api/users` is a directory, and the file beside it documents no controller. For
`api/items.rs` there is no file, although the suffix could be added once more. -/
theorem locate_beside_directory :
    let files := ((({} : FileTree).putDirectory "api/users").putFile "api/users.rs" []).putFile
      "api/items.rs.rs" [] |>.files
    let l : Loader := { resolver := .table ∅ }
    ({} : Configuration).validate = .ok {} ∧
      l.locate files "api/users" = some "api/users.rs" ∧
      directory "api/users.rs" = "api/".toList ∧
      l.load files "api/users" [] = .finished (.error (.parse "api/users.rs" .missingModule)) ∧
      l.locate files "api/items.rs" = none ∧
      l.load files "api/items.rs" [] = .finished (.ok none) := by
  intro files l
  have hconfig : ({} : Configuration).validate = .ok {} := rfl
  have hdirectory : files.isFile "api/users" = false := by decide +kernel
  have husers : files.isFile ("api/users" ++ l.suffix) = true := by decide +kernel
  have hread : files.readText "api/users.rs" = .ok "" := rfl
  have hempty : (readUnit l.extractor "").1 = .error .missingModule := rfl
  have hitems : files.isFile "api/items.rs" = false := by decide +kernel
  obtain ⟨hlocate, -, -, herror, -⟩ :=
    locate_beside_path {} hconfig l rfl files "api/users" []
  obtain ⟨hlocate', -, hskipped, -, -⟩ :=
    locate_beside_path {} hconfig l rfl files "api/items.rs" []
  have hadded : "api/users" ++ l.suffix = "api/users.rs" := by decide
  have hfound : l.locate files "api/users" = some "api/users.rs" := by
    rw [← hadded]
    exact (hlocate _).2 (.suffixed (by simp [hdirectory]) (by decide) (by decide) husers)
  have hnone : l.locate files "api/items.rs" = none :=
    (hlocate' _).2 (.nowhere (by simp [hitems]) fun _ hends => absurd (by decide) hends)
  refine ⟨hconfig, hfound, by decide, ?_, hnone, hskipped.2 hnone⟩
  exact (herror _).2 ⟨_, hfound, .parse hread hempty⟩

end Loader

end DocRoutes
