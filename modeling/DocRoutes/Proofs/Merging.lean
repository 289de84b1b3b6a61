import DocRoutes.Proofs.Replay

/-!
# Units of one name

Units that are registered one after the other may have the same name. They then share a live
controller, in which the methods of the later ones replace those of the earlier ones.

**Entries** (`Dict.ext_get?`). A dictionary is determined by what is found in it, because its keys
are in order. So a merge is associative, and the empty dictionary is neutral.

**One name at a time** (`Registry.controller?_registerAll`). The live controller of a name is the
merge of the units of that name, in their order. Units of other names have no influence on it.

**Theorem (`Registry.last_definition_lives`).** The live method is the one of the last unit of the
name that defines it (`LastDefinition`). A call runs this method and no other, and without one it
fails with status 404.
-/

namespace DocRoutes

/-! ## Entries -/

namespace Keyed

variable {α : Type} {key : String} {e : String × α} {entries other rest : List (String × α)}

theorem isSome_get?_iff : (get? key entries).isSome ↔ key ∈ entries.map (·.1) := by
  simp [get?]

theorem Ordered.get?_head_eq_none (h : Ordered (e :: rest)) : get? e.1 rest = none :=
  get?_eq_none_of_forall_ne fun _ he => (String.ne_of_lt ((List.pairwise_cons.1 h).1 _ he)).symm

/-- No key is less than the first one. -/
theorem Ordered.head_le (h : Ordered (e :: rest)) (hkey : (get? key (e :: rest)).isSome) :
    e.1 ≤ key := by
  rw [isSome_get?_iff, List.map_cons, List.mem_cons, List.mem_map] at hkey
  rcases hkey with rfl | ⟨e', he', rfl⟩
  · exact String.le_refl _
  · exact String.not_lt.1 (String.lt_asymm ((List.pairwise_cons.1 h).1 e' he'))

theorem Ordered.ext (h : Ordered entries) (hother : Ordered other)
    (hget : ∀ key, get? key entries = get? key other) : entries = other := by
  induction entries generalizing other with
  | nil =>
    cases other with
    | nil => rfl
    | cons e rest => simpa [get?_cons, get?] using hget e.1
  | cons e rest ih =>
    cases other with
    | nil => simpa [get?_cons, get?] using hget e.1
    | cons e' rest' =>
      -- Each of the first keys is found in the other list, where it is not the lesser one.
      have hkey : e.1 = e'.1 := String.le_antisymm
        (h.head_le (by simp [hget, get?_cons])) (hother.head_le (by simp [← hget, get?_cons]))
      have hvalue : e.2 = e'.2 := by simpa [get?_cons, hkey] using hget e.1
      obtain rfl : e = e' := Prod.ext hkey hvalue
      have hrest (key : String) : get? key rest = get? key rest' := by
        -- The first key tells nothing about the rest, but it does not occur there.
        by_cases hk : e.1 = key
        · rw [← hk, h.get?_head_eq_none, hother.get?_head_eq_none]
        · simpa [get?_cons, hk] using hget key
      rw [ih (List.pairwise_cons.1 h).2 (List.pairwise_cons.1 hother).2 hrest]

end Keyed

namespace Dict

variable {α : Type}

/-- Dictionaries in which the same is found are equal. -/
theorem ext_get? {d other : Dict α} (h : ∀ key, d.get? key = other.get? key) : d = other := by
  obtain ⟨entries, ordered⟩ := d
  obtain ⟨entries', ordered'⟩ := other
  obtain rfl : entries = entries' := ordered.ext ordered' h
  rfl

theorem merge_assoc (a b c : Dict α) : (a.merge b).merge c = a.merge (b.merge c) :=
  ext_get? fun key => by rw [get?_merge, get?_merge, get?_merge, get?_merge, Option.or_assoc]

theorem empty_merge (d : Dict α) : (∅ : Dict α).merge d = d :=
  ext_get? fun _ => (get?_merge _ _ _).trans Option.or_none

theorem mem_keys_iff {d : Dict α} {key : String} : key ∈ d.keys ↔ d.get? key ≠ none := by
  rw [Option.ne_none_iff_isSome]
  exact Keyed.isSome_get?_iff.symm

theorem pairwise_keys (d : Dict α) : d.keys.Pairwise (· < ·) :=
  List.pairwise_map.2 d.ordered

theorem get?_map {β : Type} (f : α → β) (d : Dict α) (key : String) :
    (d.map f).get? key = (d.get? key).map f :=
  Keyed.get?_map f key d.entries

end Dict

/-! ## One name at a time -/

namespace Registry

/-- What a unit of a name leaves of a live controller. -/
def enter (live : Option Controller) (unit : LoadedUnit) : Option Controller :=
  some ((live.getD ∅).merge unit.controller)

theorem controller?_register (r : Registry) (unit : LoadedUnit) (name : String) :
    (r.register unit.doc unit.controller).1.controller? name =
      if unit.doc.name = name then enter (r.controller? name) unit else r.controller? name := by
  by_cases hname : unit.doc.name = name
  · subst hname
    cases hlive : r.controllers.get? unit.doc.name <;>
      simp [register, controller?, hlive, enter, Dict.empty_merge]
  · cases hlive : r.controllers.get? unit.doc.name <;>
      simp [register, controller?, hlive, hname]

theorem registerAll_cons (r : Registry) (unit : LoadedUnit) (rest : List LoadedUnit) :
    r.registerAll (unit :: rest) = ((r.register unit.doc unit.controller).1).registerAll rest :=
  rfl

/-- Only the units of a name have a part in its live controller. -/
theorem controller?_registerAll (r : Registry) (units : List LoadedUnit) (name : String) :
    (r.registerAll units).controller? name =
      (units.filter (·.doc.name = name)).foldl enter (r.controller? name) := by
  induction units generalizing r with
  | nil => rfl
  | cons unit rest ih =>
    rw [registerAll_cons, ih, controller?_register]
    by_cases hname : unit.doc.name = name <;> simp [hname]

/-- Every unit of a name is in the live controller, so there is one as soon as there is a unit. -/
theorem foldl_enter_ne_none {live : Option Controller} {units : List LoadedUnit} :
    units.foldl enter live ≠ none ↔ live ≠ none ∨ units ≠ [] := by
  induction units generalizing live with
  | nil => simp
  | cons unit rest ih =>
    rw [List.foldl_cons, ih]
    simp [enter]

theorem controller?_registerAll_ne_none {units : List LoadedUnit} {name : String} :
    (({} : Registry).registerAll units).controller? name ≠ none ↔
      ∃ unit ∈ units, unit.doc.name = name := by
  have hempty : ({} : Registry).controller? name = none := rfl
  rw [controller?_registerAll, foldl_enter_ne_none, hempty]
  simp

/-- The units of a name, and their order, are all that matters. -/
theorem controllers_registerAll_congr {units others : List LoadedUnit} {r : Registry}
    (h : ∀ name, others.filter (·.doc.name = name) = units.filter (·.doc.name = name)) :
    (r.registerAll others).controllers = (r.registerAll units).controllers :=
  Dict.ext_get? fun name =>
    ((r.controller?_registerAll others name).trans (congrArg _ (h name))).trans
      (r.controller?_registerAll units name).symm

/-- Units of different names commute. -/
theorem controllers_registerAll_comm (r : Registry) {unit next : LoadedUnit}
    (h : unit.doc.name ≠ next.doc.name) :
    (r.registerAll [unit, next]).controllers = (r.registerAll [next, unit]).controllers := by
  refine controllers_registerAll_congr fun name => ?_
  by_cases hunit : unit.doc.name = name
  · have hnext : next.doc.name ≠ name := fun hnext => h (hunit.trans hnext.symm)
    simp [hunit, hnext]
  · by_cases hnext : next.doc.name = name <;> simp [hunit, hnext]

/-! ## The last definition -/

/-- The last unit of a name decides on a method, among those that have it. -/
theorem method?_registerAll (r : Registry) (units : List LoadedUnit)
    (controller method : String) :
    (r.registerAll units).method? controller method =
      (units.reverse.findSome? fun unit =>
        if unit.doc.name = controller then unit.controller.get? method else none).or
        (r.method? controller method) := by
  induction units generalizing r with
  | nil => rfl
  | cons unit rest ih =>
    rw [registerAll_cons, ih, method?_register, List.reverse_cons, List.findSome?_append,
      Option.or_assoc]
    by_cases hname : unit.doc.name = controller
    · simp [hname]
    · simp [hname]

end Registry

/-- A unit of a name defines the method, and no later unit of that name does. -/
def LastDefinition (units : List LoadedUnit) (name method : String) (m : Method) : Prop :=
  ∃ before unit after, units = before ++ unit :: after ∧ unit.doc.name = name ∧
    unit.controller.get? method = some m ∧
    ∀ later ∈ after, later.doc.name = name → later.controller.get? method = none

/-- No unit of a name defines the method. -/
def Undefined (units : List LoadedUnit) (name method : String) : Prop :=
  ∀ unit ∈ units, unit.doc.name = name → unit.controller.get? method = none

section LastDefinition

variable {units : List LoadedUnit} {name method : String} {m : Method}

theorem findSome?_reverse_eq_some_iff :
    (units.reverse.findSome? fun unit =>
      if unit.doc.name = name then unit.controller.get? method else none) = some m ↔
      LastDefinition units name method m := by
  rw [Keyed.findSome?_reverse_eq_some_iff]
  constructor
  · rintro ⟨before, unit, after, hunits, hdefined, hafter⟩
    obtain ⟨hname, hdefined⟩ := Option.ite_none_right_eq_some.1 hdefined
    refine ⟨before, unit, after, hunits, hname, hdefined, ?_⟩
    intro later hlater hlaterName
    simpa [hlaterName] using hafter later hlater
  · rintro ⟨before, unit, after, hunits, hname, hdefined, hafter⟩
    refine ⟨before, unit, after, hunits, by simpa [hname] using hdefined, ?_⟩
    intro later hlater
    simpa using hafter later hlater

theorem findSome?_reverse_eq_none_iff :
    (units.reverse.findSome? fun unit =>
      if unit.doc.name = name then unit.controller.get? method else none) = none ↔
      Undefined units name method := by
  simp [Undefined]

end LastDefinition

namespace Registry

variable {units : List LoadedUnit} {name method : String} {m : Method}

theorem method?_eq_some_iff :
    (({} : Registry).registerAll units).method? name method = some m ↔
      LastDefinition units name method m := by
  have hempty : ({} : Registry).method? name method = none := rfl
  rw [method?_registerAll, hempty, Option.or_none, findSome?_reverse_eq_some_iff]

theorem method?_eq_none_iff :
    (({} : Registry).registerAll units).method? name method = none ↔
      Undefined units name method := by
  have hempty : ({} : Registry).method? name method = none := rfl
  rw [method?_registerAll, hempty, Option.or_none, findSome?_reverse_eq_none_iff]

/-- More units replace a method or leave it as it is. -/
theorem method?_registerAll_of_some {r : Registry} (h : r.method? name method = some m)
    (more : List LoadedUnit) :
    ∃ m', (r.registerAll more).method? name method = some m' ∧
      (LastDefinition more name method m' ∨ m' = m ∧ Undefined more name method) := by
  rw [method?_registerAll, h]
  cases hmore : more.reverse.findSome? fun unit =>
      if unit.doc.name = name then unit.controller.get? method else none with
  | some m' => exact ⟨m', rfl, .inl (findSome?_reverse_eq_some_iff.1 hmore)⟩
  | none => exact ⟨m, rfl, .inr ⟨rfl, findSome?_reverse_eq_none_iff.1 hmore⟩⟩

/-! ## Calls -/

/-- Put other methods in the place of all methods. -/
def mapMethods (r : Registry) (f : Method → Method) : Registry :=
  { r with controllers := r.controllers.map (·.map f) }

theorem controller?_mapMethods (r : Registry) (f : Method → Method) (name : String) :
    (r.mapMethods f).controller? name = (r.controller? name).map (·.map f) :=
  Dict.get?_map _ _ _

theorem method?_mapMethods (r : Registry) (f : Method → Method) (name method : String) :
    (r.mapMethods f).method? name method = (r.method? name method).map f := by
  rw [method?, method?, controller?_mapMethods]
  cases r.controller? name with
  | none => rfl
  | some c => exact Dict.get?_map f c method

/-- A call without a live method fails, and tells whether there is a live controller. -/
theorem call_of_method?_eq_none {r : Registry} (h : r.method? name method = none)
    (args : List Json) :
    r.call name method args = .error (if r.controller? name = none then noSuchController name
      else Controller.noSuchMethod method) := by
  cases hlive : r.controller? name with
  | none => simp [call, hlive]
  | some c =>
    have hmethod : c.get? method = none := by simpa [method?, hlive] using h
    simp [call, hlive, Controller.call, hmethod]

/-- Both failures have status 404. -/
theorem property?_of_missing (r : Registry) (name method : String) :
    (if r.controller? name = none then noSuchController name
      else Controller.noSuchMethod method).property? "httpCode" = some (.ofNat 404) := by
  split <;> rfl

theorem call_mapMethods_of_method? {r : Registry} (h : r.method? name method = some m)
    (f : Method → Method) (args : List Json) :
    (r.mapMethods f).call name method args = (f m).invoke args :=
  call_of_method? (by rw [method?_mapMethods, h, Option.map_some]) args

/-- Without a live method a call runs none. -/
theorem call_mapMethods_of_method?_eq_none {r : Registry} (h : r.method? name method = none)
    (f : Method → Method) (args : List Json) :
    (r.mapMethods f).call name method args = r.call name method args := by
  have hmapped : (r.mapMethods f).method? name method = none := by
    rw [method?_mapMethods, h, Option.map_none]
  rw [call_of_method?_eq_none h, call_of_method?_eq_none hmapped, controller?_mapMethods]
  simp only [Option.map_eq_none_iff]

/-! ## Main result -/

/-- **Units that are registered one after the other.** All are documented, each name has one live
controller, and a live method stays until a later unit replaces it. How the units of different
names come between each other makes no difference. A call runs the live method and no other: when
all methods are exchanged, it comes to what stands in the place of the live one. Without a live
method it runs none and fails. -/
theorem last_definition_lives (units : List LoadedUnit) :
    let r := ({} : Registry).registerAll units
    r.docs = units.map (·.doc) ∧
      r.controllers.keys.Pairwise (· < ·) ∧
      (∀ name, name ∈ r.controllers.keys ↔ ∃ unit ∈ units, unit.doc.name = name) ∧
      (∀ name method m, r.method? name method = some m ↔ LastDefinition units name method m) ∧
      (∀ name method, r.method? name method = none ↔ Undefined units name method) ∧
      (∀ name method m more, r.method? name method = some m →
        ∃ m', (r.registerAll more).method? name method = some m' ∧
          (LastDefinition more name method m' ∨ m' = m ∧ Undefined more name method)) ∧
      (∀ others : List LoadedUnit, (∀ name, others.filter (·.doc.name = name) =
        units.filter (·.doc.name = name)) →
        (({} : Registry).registerAll others).controllers = r.controllers) ∧
      (∀ unit next, unit.doc.name ≠ next.doc.name →
        (r.registerAll [unit, next]).controllers = (r.registerAll [next, unit]).controllers) ∧
      (∀ a b c : Controller, (a.merge b).merge c = a.merge (b.merge c)) ∧
      ∀ name method args,
        (∀ m, LastDefinition units name method m → r.call name method args = m.invoke args ∧
          ∀ f, (r.mapMethods f).call name method args = (f m).invoke args) ∧
        (Undefined units name method →
          ∃ failure, r.call name method args = .error failure ∧
            failure.property? "httpCode" = some (.ofNat 404) ∧
            ∀ f, (r.mapMethods f).call name method args = .error failure) := by
  intro r
  have hlive (name method : String) (m : Method) :
      r.method? name method = some m ↔ LastDefinition units name method m := method?_eq_some_iff
  have hmissing (name method : String) :
      r.method? name method = none ↔ Undefined units name method := method?_eq_none_iff
  refine ⟨docs_registerAll {} units, r.controllers.pairwise_keys, ?_, hlive, hmissing, ?_, ?_, ?_,
    Dict.merge_assoc, ?_⟩
  · intro name
    exact Dict.mem_keys_iff.trans controller?_registerAll_ne_none
  · intro name method m more h
    exact method?_registerAll_of_some h more
  · intro others hothers
    exact controllers_registerAll_congr hothers
  · intro unit next hnames
    exact r.controllers_registerAll_comm hnames
  · intro name method args
    constructor
    · intro m hm
      have hmethod := (hlive name method m).2 hm
      exact ⟨call_of_method? hmethod args, fun f => call_mapMethods_of_method? hmethod f args⟩
    · intro hnone
      have hmethod := (hmissing name method).2 hnone
      have hcall := call_of_method?_eq_none hmethod args
      refine ⟨_, hcall, r.property?_of_missing name method, fun f => ?_⟩
      rw [call_mapMethods_of_method?_eq_none hmethod, hcall]

/-- Two units of the name `Users`, and one of another name between them. The second one replaces
`get` and leaves `list`. -/
theorem two_units_of_users :
    let unit (name : String) (methods : List (String × String)) : LoadedUnit :=
      ⟨"", ⟨name, "", []⟩, .ofList (methods.map fun (method, value) =>
        (method, .immediate fun _ => .returned (.str value)))⟩
    let first := unit "Users" [("list", "v1-list"), ("get", "v1-get")]
    let other := unit "Accounts" [("drop", "account")]
    let second := unit "Users" [("get", "v2-get")]
    let r := ({} : Registry).registerAll [first, other, second]
    r.call "Users" "list" [] = .ok (.str "v1-list") ∧
      r.call "Users" "get" [] = .ok (.str "v2-get") ∧
      (∃ failure, r.call "Users" "drop" [] = .error failure ∧
        failure.property? "httpCode" = some (.ofNat 404)) ∧
      (({} : Registry).registerAll [first, second, other]).controllers = r.controllers ∧
      (r.registerAll [first, other]).controllers = (r.registerAll [other, first]).controllers ∧
      ∃ m, (r.registerAll [first]).method? "Users" "get" = some m ∧
        LastDefinition [first] "Users" "get" m := by
  intro unit first other second r
  have hnames : first.doc.name ≠ other.doc.name := by decide
  have hget : LastDefinition [first, other, second] "Users" "get"
      (.immediate fun _ => .returned (.str "v2-get")) :=
    ⟨[first, other], second, [], rfl, rfl, rfl, nofun⟩
  have hlist : LastDefinition [first, other, second] "Users" "list"
      (.immediate fun _ => .returned (.str "v1-list")) := by
    refine ⟨[], first, [other, second], rfl, rfl, rfl, ?_⟩
    simp only [List.forall_mem_cons]
    exact ⟨fun h => absurd h hnames.symm, fun _ => rfl, nofun⟩
  have hdrop : Undefined [first, other, second] "Users" "drop" := by
    simp only [Undefined, List.forall_mem_cons]
    exact ⟨fun _ => rfl, fun h => absurd h hnames.symm, fun _ => rfl, nofun⟩
  obtain ⟨-, -, -, hlive, -, hmore, hothers, hcomm, -, hcalls⟩ :=
    last_definition_lives [first, other, second]
  obtain ⟨failure, hfailure, hstatus, -⟩ := (hcalls "Users" "drop" []).2 hdrop
  refine ⟨((hcalls "Users" "list" []).1 _ hlist).1, ((hcalls "Users" "get" []).1 _ hget).1,
    ⟨failure, hfailure, hstatus⟩, hothers _ fun name => ?_, hcomm first other hnames, ?_⟩
  · by_cases hother : other.doc.name = name
    · have husers : first.doc.name ≠ name := fun h => hnames (h.trans hother.symm)
      have husers' : second.doc.name ≠ name := husers
      simp [hother, husers, husers']
    · simp [List.filter_cons, hother]
  · obtain ⟨m, hm, hlast | ⟨-, hnone⟩⟩ := hmore "Users" "get" _ [first] ((hlive _ _ _).2 hget)
    · exact ⟨m, hm, hlast⟩
    · cases hnone first (List.mem_singleton_self first) rfl

end Registry

end DocRoutes
