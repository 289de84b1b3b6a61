import DocRoutes.Proofs.ItemNames

/-!
# Reading is local

Two things are looked up beyond the lines of a comment: whether the next line still belongs to it,
and on which line its item is. A line of code answers both. It belongs to no comment, and no search
for an item goes past it. So a text that ends in a line of code is read on its own, whatever stands
below it.

**Below the line** (`Block.ofLinesFrom_add`, `Block.toRecord_moveDown`). Only the numbers of lines
depend on what stands above, and they are used in reports alone.

**Above the line** (`Block.toRecord_followedBy`). Every run above a line of code has this line after
it. The search for its item ends there at the latest, so that more lines after it change nothing.

**Units** (`splitModule_append`). The first record with a module tag names the controller. If it
stands above the line, then it is the same for every text below, and if it stands below, then all
records above count as routes.

**Theorem (`extract_local`).** The records of both texts together are the records of the first and
then the records of the second, and the controller of the first text has the routes of the second
added at its end. Hence nothing that is written below a line of code changes what is declared above.
-/

namespace DocRoutes

open Text

/-! ## Lines of code -/

instance (line : List Char) : Decidable (Skipped line) :=
  inferInstanceAs (Decidable (trim line = [] ∨ "#[".toList <+: trim line))

/-- A line that is not blank, is no documentation, and does not begin with an attribute. -/
def IsCode (line : List Char) : Prop := docLine? line = none ∧ ¬Skipped line

instance (line : List Char) : Decidable (IsCode line) :=
  inferInstanceAs (Decidable (docLine? line = none ∧ ¬Skipped line))

/-- Lines of which the last one is code. -/
def EndsInCode (lines : List (List Char)) : Prop :=
  ∃ line, lines.getLast? = some line ∧ IsCode line

instance (lines : List (List Char)) : Decidable (EndsInCode lines) :=
  decidable_of_iff (∃ line ∈ lines.getLast?, IsCode line) (by simp [EndsInCode])

/-! ## Numbers of lines -/

/-- The report for a text with `k` more lines above. -/
def NamelessParam.moveDown (k : Nat) (p : NamelessParam) : NamelessParam :=
  { p with line := p.line + k }

def NumberedTag.moveDown (k : Nat) (t : NumberedTag) : NumberedTag :=
  { t with number := t.number + k }

theorem NumberedTag.toTag_moveDown (k : Nat) (t : NumberedTag) :
    (t.moveDown k).toTag = (t.toTag.1, t.toTag.2.map (·.moveDown k)) := by
  by_cases hkind : String.ofList t.kind = Tag.paramKind
  · cases hfields : paramFields? t.payload <;>
      simp [toTag, moveDown, NamelessParam.moveDown, hkind, hfields]
  · simp [toTag, moveDown, hkind]

theorem tagsFrom_add (number k : Nat) (texts : List (List Char)) :
    tagsFrom (number + k) texts = (tagsFrom number texts).map (·.moveDown k) := by
  induction texts generalizing number with
  | nil => rfl
  | cons text rest ih =>
    have hrest := ih (number + 1)
    rw [Nat.add_right_comm] at hrest
    cases htext : tagLine? text with
    | none => simp [tagsFrom, htext, hrest]
    | some d => simp [tagsFrom, htext, hrest, NumberedTag.moveDown]

namespace Block

def moveDown (k : Nat) (b : Block) : Block := { b with number := b.number + k }

theorem toRecord_moveDown (k : Nat) (b : Block) :
    (b.moveDown k).toRecord = (b.toRecord.1, b.toRecord.2.map (·.moveDown k)) := by
  have htags : (tagsFrom (b.number + k) (b.texts.map trim)).map (·.toTag) =
      ((tagsFrom b.number (b.texts.map trim)).map (·.toTag)).map fun d =>
        (d.1, d.2.map (·.moveDown k)) := by
    simp [tagsFrom_add, NumberedTag.toTag_moveDown]
  simp only [toRecord, moveDown, htags, List.map_map, List.flatMap_map, List.map_flatMap]
  rfl

theorem ofLinesFrom_add (number k : Nat) (lines : List (List Char)) :
    ofLinesFrom (number + k) lines = (ofLinesFrom number lines).map (moveDown k) := by
  induction lines using lines_induction generalizing number with
  | nil => rfl
  | plain line rest hline ih =>
    rw [ofLinesFrom_cons_of_none hline, ofLinesFrom_cons_of_none hline, Nat.add_right_comm, ih]
  | run marker run texts rest hrun hne hrest ih =>
    rw [ofLinesFrom_isRun hrun hne hrest, ofLinesFrom_isRun hrun hne hrest, Nat.add_right_comm, ih]
    rfl

/-! ## Searches that end -/

/-- The search for an item ends at the first line that is not skipped. -/
theorem context?_followedBy {b : Block} {line : List Char} (hline : line ∈ b.following)
    (hcode : ¬Skipped line) (more : List (List Char)) :
    (b.followedBy more).context? = b.context? := by
  have hsome : ((b.following.map trim).find? mayBeginItem).isSome = true := by
    rw [List.find?_isSome]
    refine ⟨trim line, List.mem_map_of_mem hline, ?_⟩
    rw [← Bool.not_eq_false, mayBeginItem_eq_false_iff]
    exact hcode
  obtain ⟨text, htext⟩ := Option.isSome_iff_exists.1 hsome
  have hmore : ((b.following ++ more).map trim).find? mayBeginItem = some text := by
    rw [List.map_append, List.find?_append, htext, Option.some_or]
  simp only [context?, followedBy, htext, hmore]

/-- The last line stands after every run, if it is not in a run itself. -/
theorem mem_following {number : Nat} {lines : List (List Char)} {b : Block} {line : List Char}
    (hb : b ∈ ofLinesFrom number lines) (hlast : lines.getLast? = some line)
    (hline : docLine? line = none) : line ∈ b.following := by
  obtain ⟨before, run, rfl, -, hrun, hne, -, -⟩ := exists_isRun_of_mem hb
  by_cases hfollowing : b.following = []
  · have hrunne : run ≠ [] := List.length_pos_iff.1 (hrun.length_pos hne)
    obtain ⟨text, htext⟩ := (ends_append before hrunne).2 (hrun.ends hne)
    rw [hfollowing, List.append_nil] at hlast
    rw [hlast, Option.bind_some, hline] at htext
    cases htext
  · rw [← List.append_assoc, List.getLast?_append_of_ne_nil _ hfollowing] at hlast
    exact List.mem_of_getLast? hlast

/-- **More lines below a line of code do not change the records above it.** -/
theorem toRecord_followedBy {number : Nat} {lines : List (List Char)} {b : Block}
    (hb : b ∈ ofLinesFrom number lines) (hlines : EndsInCode lines) (more : List (List Char)) :
    (b.followedBy more).toRecord = b.toRecord := by
  obtain ⟨line, hlast, hdoc, hskipped⟩ := hlines
  have hcontext : (b.followedBy more).context? = b.context? :=
    context?_followedBy (mem_following hb hlast hdoc) hskipped more
  rw [toRecord, hcontext]
  rfl

end Block

/-! ## Records -/

theorem EndsInCode.apart {lines : List (List Char)} (h : EndsInCode lines)
    (rest : List (List Char)) : Block.Apart lines rest := by
  intro marker hends
  obtain ⟨line, hlast, hdoc, -⟩ := h
  obtain ⟨text, htext⟩ := hends
  rw [hlast, Option.bind_some, hdoc] at htext
  cases htext

/-- **The records of lines and of more lines.** -/
theorem map_toRecord_append {lines : List (List Char)} (h : EndsInCode lines)
    (rest : List (List Char)) :
    (Block.ofLines (lines ++ rest)).map Block.toRecord =
      (Block.ofLines lines).map Block.toRecord ++
        ((Block.ofLines rest).map Block.toRecord).map fun d =>
          (d.1, d.2.map (·.moveDown lines.length)) := by
  have habove : ((Block.ofLines lines).map (·.followedBy rest)).map Block.toRecord =
      (Block.ofLines lines).map Block.toRecord := by
    rw [List.map_map]
    exact List.map_congr_left fun b hb => Block.toRecord_followedBy hb h rest
  have hbelow : (Block.ofLinesFrom (1 + lines.length) rest).map Block.toRecord =
      ((Block.ofLines rest).map Block.toRecord).map fun d =>
        (d.1, d.2.map (·.moveDown lines.length)) := by
    rw [Block.ofLinesFrom_add, List.map_map, List.map_map]
    exact List.map_congr_left fun b _ => b.toRecord_moveDown lines.length
  have happend : Block.ofLines (lines ++ rest) =
      (Block.ofLines lines).map (·.followedBy rest) ++
        Block.ofLinesFrom (1 + lines.length) rest := Block.ofLinesFrom_append (h.apart rest) 1
  rw [happend, List.map_append, habove, hbelow]

theorem extract_append {above : String} (hfeed : above.toList.getLast? = some '\n')
    (hcode : EndsInCode (lines above.toList)) (below : String) :
    extract (above ++ below) =
      ((extract above).1 ++ (extract below).1,
        (extract above).2 ++ (extract below).2.map (·.moveDown (lines above.toList).length)) := by
  have hlines : lines (above ++ below).toList = lines above.toList ++ lines below.toList := by
    rw [String.toList_append, lines_append hfeed]
  rw [extract, hlines, map_toRecord_append hcode]
  simp [extract, List.map_flatMap, List.flatMap_map]

/-! ## Units -/

/-- The routes that records declare. -/
def declaredRoutes (records : List DocRecord) : List Route :=
  records.filterMap (·.toRoute.toOption)

theorem interpretAll_fst (controller : String) (records : List DocRecord) :
    (interpretAll controller records).1 = declaredRoutes records := by
  induction records with
  | nil => rfl
  | cons r rest ih =>
    cases hr : r.toRoute <;> simp [interpretAll, declaredRoutes, hr, Except.toOption] <;> exact ih

theorem declaredRoutes_append (records more : List DocRecord) :
    declaredRoutes (records ++ more) = declaredRoutes records ++ declaredRoutes more :=
  List.filterMap_append

/-- The records that may declare routes: all but the first one with a module tag. -/
def otherRecords (records : List DocRecord) : List DocRecord :=
  match splitModule records with
  | some (_, others) => others
  | none => records

theorem splitModule_append (records more : List DocRecord) :
    splitModule (records ++ more) =
      match splitModule records with
      | some (m, others) => some (m, others ++ more)
      | none => (splitModule more).map fun (m, others) => (m, records ++ others) := by
  induction records with
  | nil =>
    show splitModule more = (splitModule more).map fun d => d
    rw [Option.map_id']
  | cons r rest ih =>
    by_cases hr : r.isModule
    · simp [splitModule, hr]
    · cases hrest : splitModule rest with
      | some d => simp [splitModule, hr, hrest, ih]
      | none => simp [splitModule, hr, hrest, ih, Function.comp_def]

/-- The controller of a unit: named by one record, with the routes of the others. -/
def unitOf (m : DocRecord) (others : List DocRecord) : Except UnitError ControllerDoc :=
  if m.moduleName.isEmpty then .error .emptyModuleName
  else .ok ⟨m.moduleName, m.description, declaredRoutes others⟩

theorem readUnit_fst (source : String) :
    (readUnit .comments source).1 =
      match splitModule (extract source).1 with
      | some (m, others) => unitOf m others
      | none => .error .missingModule := by
  simp only [readUnit, Extractor.comments, ControllerDoc.ofRecords]
  cases splitModule (extract source).1 with
  | none => rfl
  | some d =>
    by_cases hname : d.1.moduleName.isEmpty
    · simp [unitOf, hname]
    · simp [unitOf, hname, ← interpretAll_fst d.1.moduleName]

/-- **A unit with its module tag above.** -/
theorem readUnit_append_of_module {above : String} (hfeed : above.toList.getLast? = some '\n')
    (hcode : EndsInCode (lines above.toList)) (hmodule : ∃ r ∈ (extract above).1, r.isModule = true)
    (below : String) :
    (readUnit .comments (above ++ below)).1 =
      (readUnit .comments above).1.map fun doc =>
        { doc with routes := doc.routes ++ declaredRoutes (extract below).1 } := by
  obtain ⟨m, tag, others, hheaded⟩ := exists_headed hmodule
  have hsplit : splitModule (extract above).1 = some (m, others) := hheaded.splitModule
  have happend : splitModule (extract (above ++ below)).1 =
      some (m, others ++ (extract below).1) := by
    rw [extract_append hfeed hcode, splitModule_append, hsplit]
  simp only [readUnit_fst, happend, hsplit]
  by_cases hname : m.moduleName.isEmpty
  · simp [unitOf, hname, Except.map]
  · simp [unitOf, hname, Except.map, declaredRoutes_append]

/-- **Routes that are declared above come first.** -/
theorem declaredRoutes_isPrefix {above below : String}
    (hfeed : above.toList.getLast? = some '\n') (hcode : EndsInCode (lines above.toList))
    {doc : ControllerDoc} (h : (readUnit .comments (above ++ below)).1 = .ok doc) :
    declaredRoutes (otherRecords (extract above).1) <+: doc.routes := by
  rw [readUnit_fst, extract_append hfeed hcode, splitModule_append] at h
  have hunit {m : DocRecord} {others : List DocRecord} (h : unitOf m others = .ok doc) :
      doc.routes = declaredRoutes others := by
    unfold unitOf at h
    split at h
    · cases h
    · cases h
      rfl
  cases habove : splitModule (extract above).1 with
  | some d =>
    simp only [habove] at h
    rw [hunit h, declaredRoutes_append, otherRecords, habove]
    exact List.prefix_append _ _
  | none =>
    cases hbelow : splitModule (extract below).1 with
    | none => simp [habove, hbelow] at h
    | some d =>
      simp only [habove, hbelow, Option.map_some] at h
      rw [hunit h, declaredRoutes_append, otherRecords, habove]
      exact List.prefix_append _ _

/-! ## Main result -/

/-- **Reading is local.** Let a text consist of whole lines of which the last one is code. The records
of this text with any text below are its own records and then those of the other text, and reports
from below give lines that are moved down. If its own records name the controller, then the
controller of both texts is its own controller with the routes from below added at the end, and it
is refused for the same reason. For any two texts below, the routes that it declares itself come first
in both controllers, and both have the same name and description if it names the controller. -/
theorem extract_local {above : String} (hfeed : above.toList.getLast? = some '\n')
    (hcode : EndsInCode (lines above.toList)) :
    (∀ below, extract (above ++ below) =
      ((extract above).1 ++ (extract below).1,
        (extract above).2 ++ (extract below).2.map (·.moveDown (lines above.toList).length))) ∧
    (∀ below, (∃ r ∈ (extract above).1, r.isModule = true) →
      (readUnit .comments (above ++ below)).1 =
        (readUnit .comments above).1.map fun doc =>
          { doc with routes := doc.routes ++ declaredRoutes (extract below).1 }) ∧
    ∀ below below' doc doc', (readUnit .comments (above ++ below)).1 = .ok doc →
      (readUnit .comments (above ++ below')).1 = .ok doc' →
      declaredRoutes (otherRecords (extract above).1) <+: doc.routes ∧
        declaredRoutes (otherRecords (extract above).1) <+: doc'.routes ∧
        ((∃ r ∈ (extract above).1, r.isModule = true) →
          doc.name = doc'.name ∧ doc.description = doc'.description) := by
  refine ⟨extract_append hfeed hcode, fun below hmodule => ?_, ?_⟩
  · exact readUnit_append_of_module hfeed hcode hmodule below
  · intro below below' doc doc' hdoc hdoc'
    refine ⟨declaredRoutes_isPrefix hfeed hcode hdoc, declaredRoutes_isPrefix hfeed hcode hdoc', ?_⟩
    intro hmodule
    rw [readUnit_append_of_module hfeed hcode hmodule] at hdoc hdoc'
    cases hown : (readUnit .comments above).1 with
    | error e =>
      rw [hown] at hdoc
      cases hdoc
    | ok own =>
      rw [hown] at hdoc hdoc'
      cases hdoc
      cases hdoc'
      exact ⟨rfl, rfl⟩

/-- A comment above the line has no item, although one stands below. -/
theorem local_units :
    let above := "//! @module A\n/// @apiRoute get /a\n/// @apiReturns {T}\nfn a() {}\n" ++
      "/// @param {X}\nuse b;\n"
    let below := "fn c() {}\n/// @apiRoute post /d\n/// @apiReturns {T}\n/// @param\nfn d() {}\n"
    above.toList.getLast? = some '\n' ∧ EndsInCode (lines above.toList) ∧
      (extract (above ++ below)).1.map (·.context) = [none, some "a", none, some "d"] ∧
      (extract (above ++ below)).2 = [⟨5, "\x7bX\x7d"⟩, ⟨10, ""⟩] ∧
      (readUnit .comments (above ++ below)).1 = .ok ⟨"A", "",
        [⟨"a", "", .get, "/a", [], ⟨"T", ""⟩⟩,
          ⟨"d", "", .post, "/d", [⟨"", .body, false, none, []⟩], ⟨"T", ""⟩⟩]⟩ := by
  intro above below
  obtain ⟨hfeed, hcode, hmodule⟩ : above.toList.getLast? = some '\n' ∧
      EndsInCode (lines above.toList) ∧ ∃ r ∈ (extract above).1, r.isModule = true := by
    decide +kernel
  obtain ⟨hrecords, hunit, -⟩ := extract_local hfeed hcode
  rw [hrecords below, hunit below hmodule]
  refine ⟨hfeed, hcode, ?_⟩
  decide +kernel

/-- Where the first text ends in a comment, its item may stand below. -/
example : (extract "/// a\n").1.map (·.context) = [none] ∧
    (extract ("/// a\n" ++ "fn b() {}\n")).1.map (·.context) = [some "b"] := by decide +kernel

end DocRoutes
