import DocRoutes.Listing.Format
import DocRoutes.Proofs.JsonLayout

/-!
# JSON listings read back

**Theorem (`json_lossless`).** A JSON listing is the text of one array with an object for each
controller, and the controllers are recovered from it. So two lists of controllers with the same
listing are equal.

The text is read back by `Json.read?_pretty`, which leaves the members of each object in key order. What
is left to show is that a record is recovered from its object wherever the members stand
(`Json.Recovers`), one level after the other: results and parameters, routes, controllers.

**Members that are left out.** A missing description has no member and an empty one has an empty
text. No types and an empty list of types are the same thing, so there the missing member is read as
the empty list.
-/

namespace DocRoutes

/-! ## Reading members -/

namespace Json

/-- The member of an object under a key, read in some way. -/
def member? {α : Type} (key : String) (read : Json → Option α) (v : Json) : Option α :=
  (v.get? key).bind read

/-- The same for a member that may be left out. -/
def memberOr? {α : Type} (absent : α) (key : String) (read : Json → Option α) (v : Json) :
    Option α :=
  match v.get? key with
  | none => some absent
  | some member => read member

def list? {α : Type} (read : Json → Option α) : Json → Option (List α)
  | .arr items => items.mapM read
  | _ => none

/-- What is written is recovered after the members of all objects were put in key order. -/
def Recovers {α : Type} (read : Json → Option α) (write : α → Json) : Prop :=
  ∀ a, read (write a).keyed = some a

theorem recovers_string : Recovers string? .str := fun _ => rfl

theorem recovers_bool : Recovers bool? .bool := fun _ => rfl

theorem Recovers.list {α : Type} {read : Json → Option α} {write : α → Json}
    (h : Recovers read write) : Recovers (list? read) fun as => .arr (as.map write) := by
  intro as
  have hread : read ∘ keyed ∘ write = pure := funext h
  rw [keyed, keyedItems_eq, List.map_map, list?, List.mapM_map, hread, List.mapM_pure, List.map_id']
  rfl

/-- The order of the members does not matter where their keys are distinct. -/
theorem get?_keyed {fields : List (String × Json)} (h : fields.Pairwise fun a b => a.1 ≠ b.1)
    (key : String) : (keyed (.obj fields)).get? key = (Keyed.get? key fields).map keyed := by
  have hkeyed : (fields.map fun f => (f.1, f.2.keyed)).Pairwise fun a b => a.1 ≠ b.1 :=
    List.pairwise_map.2 h
  rw [keyed, keyedFields_eq, object, get?, Keyed.get?_insertAll hkeyed, Keyed.get?_map]
  exact Option.or_none

end Json

open Json

/-! ## Records from their objects -/

def Source.ofName? (name : String) : Option Source :=
  [.path, .query, .body, .local].find? (·.name = name)

def Source.ofJson? (v : Json) : Option Source := v.string?.bind ofName?

def Verb.ofJson? (v : Json) : Option Verb := v.string?.bind ofName?

def Param.ofJson? (v : Json) : Option Param := do
  return {
    name := ← v.member? "name" string?
    source := ← v.member? "source" Source.ofJson?
    optional := ← v.member? "optional" bool?
    description := ← v.memberOr? none "description" (·.string?.map some)
    types := ← v.memberOr? [] "types" (list? string?) }

def Returns.ofJson? (v : Json) : Option Returns := do
  return {
    type := ← v.member? "type_name" string?
    description := ← v.member? "description" string? }

def Route.ofJson? (v : Json) : Option Route := do
  return {
    name := ← v.member? "name" string?
    description := ← v.member? "description" string?
    verb := ← v.member? "verb" Verb.ofJson?
    path := ← v.member? "path" string?
    params := ← v.member? "params" (list? Param.ofJson?)
    returns := ← v.member? "returns" Returns.ofJson? }

def ControllerDoc.ofJson? (v : Json) : Option ControllerDoc := do
  return {
    name := ← v.member? "name" string?
    description := ← v.member? "description" string?
    routes := ← v.member? "methods" (list? Route.ofJson?) }

theorem recovers_source : Recovers Source.ofJson? fun s => .str s.name := by
  intro s
  cases s <;> decide

theorem recovers_verb : Recovers Verb.ofJson? fun v => .str v.name := by
  intro v
  cases v <;> decide

theorem recovers_param : Recovers Param.ofJson? Param.toJson := by
  intro p
  obtain ⟨name, source, optional, description, types⟩ := p
  by_cases htypes : types = [] <;> cases description <;>
    simp [Param.ofJson?, Param.toJson, member?, memberOr?, get?_keyed, Keyed.get?, htypes,
      recovers_string _, recovers_source _, recovers_bool _, recovers_string.list _]

example : Param.ofJson? (Param.toJson ⟨"id", .path, false, some "", []⟩).keyed =
    some ⟨"id", .path, false, some "", []⟩ := by
  decide

theorem recovers_returns : Recovers Returns.ofJson? Returns.toJson := by
  intro r
  simp [Returns.ofJson?, Returns.toJson, member?, get?_keyed, Keyed.get?, recovers_string _]

theorem recovers_route : Recovers Route.ofJson? Route.toJson := by
  intro r
  simp [Route.ofJson?, Route.toJson, member?, get?_keyed, Keyed.get?, recovers_string _,
    recovers_verb _, recovers_param.list _, recovers_returns _]

theorem recovers_controllerDoc : Recovers ControllerDoc.ofJson? ControllerDoc.toJson := by
  intro c
  simp [ControllerDoc.ofJson?, ControllerDoc.toJson, member?, get?_keyed, Keyed.get?,
    recovers_string _, recovers_route.list _]

/-! ## Depth -/

theorem Param.plain_toJson (p : Param) (depth : Nat) : Plain (depth + 2) p.toJson := by
  refine .obj (List.forall_mem_append.2 ⟨List.forall_mem_append.2 ⟨?_, ?_⟩, ?_⟩)
  · simp [Plain.str, Plain.bool]
  · simp [Plain.str]
  · split
    · simp
    · simp only [List.mem_singleton, forall_eq]
      exact .arr (by simp [Plain.str])

theorem Returns.plain_toJson (r : Returns) (depth : Nat) : Plain (depth + 1) r.toJson :=
  .obj (by simp [Plain.str])

theorem Route.plain_toJson (r : Route) (depth : Nat) : Plain (depth + 4) r.toJson := by
  have hparams : Plain (depth + 3) (.arr (r.params.map (·.toJson))) :=
    .arr (List.forall_mem_map.2 fun p _ => p.plain_toJson depth)
  exact .obj (by simp [Plain.str, hparams, r.returns.plain_toJson])

theorem ControllerDoc.plain_toJson (c : ControllerDoc) (depth : Nat) :
    Plain (depth + 6) c.toJson := by
  have hroutes : Plain (depth + 5) (.arr (c.routes.map (·.toJson))) :=
    .arr (List.forall_mem_map.2 fun r _ => r.plain_toJson depth)
  exact .obj (by simp [Plain.str, hroutes])

/-! ## Listings -/

theorem Listing.read?_render (colours : Bool) (docs : List ControllerDoc) :
    Json.read? (render ⟨.json, colours⟩ docs) = some (.arr (docs.map fun c => c.toJson.keyed)) := by
  have hplain : Plain maxDepth (.arr (docs.map (·.toJson))) :=
    .arr (List.forall_mem_map.2 fun c _ => c.plain_toJson 120)
  show Json.read? (json docs) = _
  rw [json, read?_pretty hplain, keyed, keyedItems_eq, List.map_map]
  rfl

theorem ControllerDoc.mapM_ofJson? (docs : List ControllerDoc) :
    (docs.map fun c => c.toJson.keyed).mapM ofJson? = some docs := by
  have hrecovers := recovers_controllerDoc.list docs
  rwa [keyed, keyedItems_eq, List.map_map] at hrecovers

/-- **A JSON listing is lossless.** Two lists of controllers with the same listing are equal. The
listing is always one array with an object for each controller, and the controllers are read from
these objects. -/
theorem json_lossless (colours : Bool) :
    Function.Injective (Listing.render ⟨.json, colours⟩) ∧
      ∀ docs, ∃ objects, Json.read? (Listing.render ⟨.json, colours⟩ docs) = some (.arr objects) ∧
        objects.length = docs.length ∧ (∀ o ∈ objects, ∃ fields, o = .obj fields) ∧
        objects.mapM ControllerDoc.ofJson? = some docs := by
  constructor
  · intro docs docs' h
    have hobjects := Listing.read?_render colours docs
    rw [h, Listing.read?_render colours docs', Option.some.injEq, Json.arr.injEq] at hobjects
    have hdocs := ControllerDoc.mapM_ofJson? docs
    rw [← hobjects, ControllerDoc.mapM_ofJson? docs'] at hdocs
    exact (Option.some.inj hdocs).symm
  · intro docs
    refine ⟨docs.map fun c => c.toJson.keyed, Listing.read?_render colours docs, List.length_map _,
      ?_, ControllerDoc.mapM_ofJson? docs⟩
    intro o ho
    obtain ⟨c, -, rfl⟩ := List.mem_map.1 ho
    exact ⟨_, rfl⟩

end DocRoutes
