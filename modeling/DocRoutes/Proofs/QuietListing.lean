import DocRoutes.Listing.Format
import DocRoutes.Proofs.Declarations
import DocRoutes.Proofs.RoutableRecords

/-!
# Quiet listings read back

A quiet listing has a line for each route, with its verb and its path. A route that comes from a
record has a path that can be read (`DocRecord.isPath_of_toRoute`), and such a path is one line. So the
lines of the listing can be told apart, and each of them is itself the payload of a route tag.

**Theorem (`quiet_lines`).** Where all routes come from records and there is at least one, the lines
of a quiet listing are the routes in their order, and each line is read as the verb and the path of
its route.
-/

namespace DocRoutes

open Text

/-! ## Routes from records -/

theorem isPath_of_parseRoute {payload path : String} {verb : Verb}
    (h : parseRoute payload = some (verb, path)) : IsPath path.toList := by
  have hchars := parseRoute_eq_some_iff.1 h
  simp only [parseRouteChars, Option.bind_eq_bind, Option.bind_eq_some_iff] at hchars
  obtain ⟨verb', -, path', hpath, heq⟩ := hchars
  cases heq
  exact isPath_of_parsePath hpath

theorem DocRecord.isPath_of_toRoute {record : DocRecord} {r : Route}
    (h : record.toRoute = .ok r) : IsPath r.path.toList := by
  obtain ⟨_, _, -, -, hroute, -⟩ := toRoute_eq_ok_iff.1 h
  exact isPath_of_parseRoute hroute

/-! ## Lines -/

namespace Listing

theorem toList_quietLine (r : Route) :
    (quietLine r).toList = r.verb.capitals.toList ++ ' ' :: r.path.toList := by
  simp [quietLine]

theorem newline_not_mem_quietLine {r : Route} (h : IsPath r.path.toList) :
    '\n' ∉ (quietLine r).toList := by
  have hverb : '\n' ∉ r.verb.capitals.toList := by cases r.verb <;> decide
  simp [toList_quietLine, hverb, h.oneLine]

/-- **A line is the payload of a route tag.** -/
theorem parseRoute_quietLine {r : Route} (h : IsPath r.path.toList) :
    parseRoute (quietLine r) = some (r.verb, r.path) := by
  have hverb : Verb.ofName? (.ofList r.verb.capitals.toList) = some r.verb := by
    cases r.verb <;> decide
  have hall : r.verb.capitals.toList.all (!isBlank ·) = true := by cases r.verb <;> decide
  have hword : ∀ c ∈ r.verb.capitals.toList, isBlank c = false := by simpa using hall
  exact parseRoute_of_toList (toList_quietLine r) hverb hword h

theorem toList_quiet (docs : List ControllerDoc) :
    (quiet docs).toList =
      join ['\n'] ((docs.flatMap (·.routes)).map fun r => (quietLine r).toList) := by
  have hroutes : (routes docs).map (fun r => (quietLine r.2).toList) =
      (docs.flatMap (·.routes)).map fun r => (quietLine r).toList := by
    simp [routes, List.map_flatMap, Function.comp_def]
  rw [quiet, String.toList_intercalate, List.map_map, ← hroutes]
  rfl

theorem splitAt_quiet {docs : List ControllerDoc}
    (hpath : ∀ r ∈ docs.flatMap (·.routes), IsPath r.path.toList)
    (hsome : docs.flatMap (·.routes) ≠ []) :
    splitAt '\n' (quiet docs).toList =
      (docs.flatMap (·.routes)).map fun r => (quietLine r).toList := by
  rw [toList_quiet]
  refine splitAt_join (mt List.map_eq_nil_iff.1 hsome) fun line hline => ?_
  obtain ⟨r, hr, rfl⟩ := List.mem_map.1 hline
  exact newline_not_mem_quietLine (hpath r hr)

/-- **A quiet listing can be read back.** It has a line for each route in the order of the
controllers and of their routes, and each line is read as the verb and the path of its route. -/
theorem quiet_lines (colours : Bool) {docs : List ControllerDoc}
    (hrecords : ∀ doc ∈ docs, ∀ r ∈ doc.routes, ∃ record : DocRecord, record.toRoute = .ok r)
    (hsome : ∃ doc ∈ docs, doc.routes ≠ []) :
    splitAt '\n' (render ⟨.quiet, colours⟩ docs).toList =
        (docs.flatMap (·.routes)).map (fun r => (quietLine r).toList) ∧
      (splitAt '\n' (render ⟨.quiet, colours⟩ docs).toList).map
          (fun line => parseRoute (.ofList line)) =
        (docs.flatMap (·.routes)).map fun r => some (r.verb, r.path) := by
  have hpath : ∀ r ∈ docs.flatMap (·.routes), IsPath r.path.toList := by
    intro r hr
    obtain ⟨doc, hdoc, hr⟩ := List.mem_flatMap.1 hr
    obtain ⟨record, hrecord⟩ := hrecords doc hdoc r hr
    exact DocRecord.isPath_of_toRoute hrecord
  have hne : docs.flatMap (·.routes) ≠ [] := by
    obtain ⟨doc, hdoc, hroutes⟩ := hsome
    exact fun hnil => hroutes (List.flatMap_eq_nil_iff.1 hnil doc hdoc)
  have hrender : render ⟨.quiet, colours⟩ docs = quiet docs := rfl
  rw [hrender, splitAt_quiet hpath hne]
  refine ⟨rfl, ?_⟩
  rw [List.map_map]
  refine List.map_congr_left fun r hr => ?_
  rw [Function.comp_apply, String.ofList_toList, parseRoute_quietLine (hpath r hr)]

/-- A path may be a blank alone, hold blanks, and end in one. -/
theorem quiet_lines_of_blank_paths :
    let record (route : String) : DocRecord :=
      ({ description := "", context := some "show" } : DocRecord).addTags
        [⟨"apiRoute", route, none, none, []⟩, ⟨"apiReturns", "{Object}", none, none, []⟩]
    let route (verb : Verb) (path : String) : Route := ⟨"show", "", verb, path, [], ⟨"Object", ""⟩⟩
    let docs : List ControllerDoc :=
      [⟨"A", "", [route .get "\t", route .post "/a b "]⟩, ⟨"B", "", []⟩,
        ⟨"C", "", [route .get "x"]⟩]
    (record "get \n \t").toRoute = .ok (route .get "\t") ∧
      (record " PoSt \t/a b ").toRoute = .ok (route .post "/a b ") ∧
      (splitAt '\n' (render ⟨.quiet, true⟩ docs).toList).map (fun line => parseRoute (.ofList line)) =
        [some (.get, "\t"), some (.post, "/a b "), some (.get, "x")] := by
  intro record route docs
  have hblank : (record "get \n \t").toRoute = .ok (route .get "\t") := by rfl
  have hpost : (record " PoSt \t/a b ").toRoute = .ok (route .post "/a b ") := by rfl
  have hword : (record "get x").toRoute = .ok (route .get "x") := by rfl
  refine ⟨hblank, hpost, (@quiet_lines true docs ?_ ?_).2⟩
  · intro doc hdoc r hr
    simp only [docs, List.mem_cons, List.not_mem_nil, or_false] at hdoc
    rcases hdoc with rfl | rfl | rfl
    · simp only [List.mem_cons, List.not_mem_nil, or_false] at hr
      rcases hr with rfl | rfl
      · exact ⟨_, hblank⟩
      · exact ⟨_, hpost⟩
    · cases hr
    · rw [List.mem_singleton.1 hr]
      exact ⟨_, hword⟩
  · exact ⟨_, List.mem_cons_self, List.cons_ne_nil _ _⟩

end Listing

end DocRoutes
