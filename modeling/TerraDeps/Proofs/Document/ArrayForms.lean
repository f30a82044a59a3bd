import Mathlib.Logic.Relation
import TerraDeps.Proofs.Document
import TerraDeps.Proofs.Traversal

/-!
# Forms of a JSON document

The modules of a document can be given as one object or as an array of objects, and the bodies under
a name as one value or as an array. `IsRewritten` has the ways to go from one form to another. All
forms give the same blocks or fail alike, since a group counts by its entries only, each a name with
one body (`groupedBlocks_of_objects`), and none of the ways changes the entries.

A body that is itself an array stands apart. Among the bodies of an array it is refused, whereas
alone under its name it would be taken for an array of bodies.
-/

set_option autoImplicit false

namespace TerraDeps

/-- The value is an array. -/
def Json.isArray : Json → Bool
  | array _ => true
  | _ => false

/-- A value that is no array is its own only item. -/
theorem Json.items_of_not_isArray {v : Json} (h : v.isArray = false) : v.items = [v] := by
  cases v with
  | array items => contradiction
  | _ => rfl

namespace Document

/-! ## Other forms of a document -/

/-- The members as an object, if there are any. -/
def unlessEmpty : List (String × Json) → List (List (String × Json))
  | [] => []
  | members => [members]

/-- The bodies under one name, each in an object of its own. -/
def oneEach (name : String) (bodies : List Json) : List (List (String × Json)) :=
  bodies.map fun body => [(name, body)]

/-- Objects with the members of the lists may stand for the object with the members. -/
inductive IsRegrouped : List (String × Json) → List (List (String × Json)) → Prop
  /-- A body that is no array is put into one. -/
  | wrapBody {before after : List (String × Json)} {name : String} {body : Json} :
      body.isArray = false →
      IsRegrouped (before ++ (name, body) :: after) [before ++ (name, .array [body]) :: after]
  /-- The members are cut in two. -/
  | split (before after : List (String × Json)) : IsRegrouped (before ++ after) [before, after]
  /-- The bodies of an array, none of which is an array, get an object each. -/
  | spread {before after : List (String × Json)} {name : String} {bodies : List Json} :
      (∀ body ∈ bodies, body.isArray = false) →
      IsRegrouped (before ++ (name, .array bodies) :: after)
        (unlessEmpty before ++ oneEach name bodies ++ unlessEmpty after)

/-- The second value may stand for the first under the key `module`. -/
inductive IsReformed : Json → Json → Prop
  /-- A value that is no array is put into one. -/
  | wrap {modules : Json} : modules.isArray = false → IsReformed modules (.array [modules])
  /-- One object takes the place of the only one. -/
  | object {members regrouped : List (String × Json)} : IsRegrouped members [regrouped] →
      IsReformed (.object members) (.object regrouped)
  /-- An array of objects takes the place of the only one. -/
  | array {members : List (String × Json)} {groups : List (List (String × Json))} :
      IsRegrouped members groups →
      IsReformed (.object members) (.array (groups.map Json.object))
  /-- Objects take the place of one in an array. -/
  | element {before after : List Json} {members : List (String × Json)}
      {groups : List (List (String × Json))} : IsRegrouped members groups →
      IsReformed (.array (before ++ .object members :: after))
        (.array (before ++ groups.map Json.object ++ after))

/-- The second document has another form of the modules of the first. -/
inductive IsRewritten : Json → Json → Prop
  | modules {before after : List (String × Json)} {modules reformed : Json} :
      "module" ∉ before.map Prod.fst → IsReformed modules reformed →
      IsRewritten (.object (before ++ ("module", modules) :: after))
        (.object (before ++ ("module", reformed) :: after))

/-! ## What a document holds -/

/-- The groups of modules. -/
def groupsIn (document : Json) : List Json :=
  match document.get? "module" with
  | none => []
  | some modules => modules.items

/-- Each name with each of its bodies, in order. -/
def entriesOf (members : List (String × Json)) : List (String × Json) :=
  members.flatMap fun member => member.2.items.map fun body => (member.1, body)

/-- The entries of a group; a value that is no object has none. -/
def entriesIn : Json → List (String × Json)
  | .object members => entriesOf members
  | _ => []

/-- The block is the one that a body gives under a name. -/
structure IsBlockOf (entry : String × Json) (block : ModuleBlock) : Prop where
  isObject : ∃ members, entry.2 = .object members
  name : block.name = entry.1
  source : (entry.2.get? "source" = none ∧ block.source = none) ∨
    ∃ s, entry.2.get? "source" = some (.string s) ∧ ¬ HasTemplate s ∧ block.source = some s
  version : block.version = (entry.2.get? "version").map versionText
  line : block.line = 0

/-! ## Groups by their entries -/

/-- The blocks of several groups, in order. -/
def groupedBlocks (groups : List Json) : Except ScanError (List ModuleBlock) :=
  (groups.mapM groupBlocks).map List.flatten

/-- The block of an entry. -/
def entryBlock (entry : String × Json) : Except ScanError ModuleBlock :=
  blockOf entry.1 entry.2

/-- The blocks of a document are those of its groups. -/
theorem blocks_eq_groupedBlocks (document : Json) :
    blocks document = groupedBlocks (groupsIn document) := by
  unfold blocks groupsIn
  cases document.get? "module" with
  | none => rfl
  | some modules => rfl

/-- The blocks of an object are those of its entries. -/
theorem groupBlocks_object (members : List (String × Json)) :
    groupBlocks (.object members) = (entriesOf members).mapM entryBlock := rfl

/-- The blocks of two lists of groups are those of the one and then those of the other. -/
theorem groupedBlocks_append (groups more : List Json) :
    groupedBlocks (groups ++ more) = do
      let blocks ← groupedBlocks groups
      let others ← groupedBlocks more
      return blocks ++ others := by
  simp only [groupedBlocks, List.mapM_append]
  cases groups.mapM groupBlocks <;> cases more.mapM groupBlocks <;>
    simp [Except.map, bind, Except.bind, pure, Except.pure]

/-- The blocks of groups are those of the first and then those of the rest. -/
theorem groupedBlocks_cons (group : Json) (groups : List Json) :
    groupedBlocks (group :: groups) = do
      let blocks ← groupBlocks group
      let others ← groupedBlocks groups
      return blocks ++ others := by
  simp only [groupedBlocks, List.mapM_cons]
  cases groupBlocks group <;> cases groups.mapM groupBlocks <;>
    simp [Except.map, bind, Except.bind, pure, Except.pure]

/-- How entries are grouped in objects makes no difference. -/
theorem groupedBlocks_of_objects {groups : List Json}
    (objects : ∀ group ∈ groups, ∃ members, group = .object members) :
    groupedBlocks groups = (groups.flatMap entriesIn).mapM entryBlock := by
  induction groups with
  | nil => rfl
  | cons group groups ih =>
    obtain ⟨⟨members, rfl⟩, others⟩ := List.forall_mem_cons.mp objects
    rw [groupedBlocks_cons, ih others, groupBlocks_object, List.flatMap_cons, List.mapM_append,
      entriesIn]

/-- The blocks of objects are those of all their entries. -/
theorem groupedBlocks_map_object (groups : List (List (String × Json))) :
    groupedBlocks (groups.map Json.object) = (groups.flatMap entriesOf).mapM entryBlock := by
  rw [groupedBlocks_of_objects (by simp), List.flatMap_map]
  rfl

/-- The entries of two lists of members are those of the one and then those of the other. -/
theorem entriesOf_append (members more : List (String × Json)) :
    entriesOf (members ++ more) = entriesOf members ++ entriesOf more :=
  List.flatMap_append

/-- The entries of members are the items of the first under its name and then the entries of the
rest. -/
theorem entriesOf_cons (name : String) (body : Json) (members : List (String × Json)) :
    entriesOf ((name, body) :: members) =
      (body.items.map fun item => (name, item)) ++ entriesOf members :=
  List.flatMap_cons

/-- To leave out an object without members leaves out no entry. -/
theorem flatMap_unlessEmpty (members : List (String × Json)) :
    (unlessEmpty members).flatMap entriesOf = entriesOf members := by
  cases members <;> simp [unlessEmpty, entriesOf]

/-- An object for each body has the bodies as its entries. -/
theorem flatMap_oneEach {name : String} {bodies : List Json}
    (plain : ∀ body ∈ bodies, body.isArray = false) :
    (oneEach name bodies).flatMap entriesOf = bodies.map fun body => (name, body) := by
  rw [oneEach, List.flatMap_map, List.map_eq_flatMap]
  refine List.flatMap_congr fun body inside => ?_
  simp [entriesOf, Json.items_of_not_isArray (plain body inside)]

/-- Regrouping keeps the entries. -/
theorem flatMap_entriesOf_of_isRegrouped {members : List (String × Json)}
    {groups : List (List (String × Json))} (h : IsRegrouped members groups) :
    groups.flatMap entriesOf = entriesOf members := by
  cases h with
  | wrapBody single =>
    rw [List.flatMap_singleton, entriesOf_append, entriesOf_append, entriesOf_cons, entriesOf_cons,
      Json.items_of_not_isArray single, Json.items]
  | split before after =>
    rw [List.flatMap_cons, List.flatMap_singleton, entriesOf_append]
  | spread plain =>
    rw [List.flatMap_append, List.flatMap_append, flatMap_unlessEmpty, flatMap_unlessEmpty,
      flatMap_oneEach plain, entriesOf_append, entriesOf_cons, Json.items, List.append_assoc]

/-- Regrouped members have the blocks of the one object that they stand for. -/
theorem groupedBlocks_of_isRegrouped {members : List (String × Json)}
    {groups : List (List (String × Json))} (h : IsRegrouped members groups) :
    groupedBlocks (groups.map Json.object) = groupedBlocks [.object members] := by
  have alone := groupedBlocks_map_object [members]
  rw [List.flatMap_singleton] at alone
  rw [groupedBlocks_map_object, flatMap_entriesOf_of_isRegrouped h, ← alone, List.map_singleton]

/-- Modules in another form have the same blocks. -/
theorem groupedBlocks_of_isReformed {modules reformed : Json} (h : IsReformed modules reformed) :
    groupedBlocks reformed.items = groupedBlocks modules.items := by
  cases h with
  | wrap single => rw [Json.items_of_not_isArray single, Json.items]
  | object regrouped | array regrouped => exact groupedBlocks_of_isRegrouped regrouped
  | @element before after members groups regrouped =>
    rw [Json.items, Json.items, groupedBlocks_append, groupedBlocks_append,
      groupedBlocks_of_isRegrouped regrouped, ← groupedBlocks_append, ← groupedBlocks_append,
      List.append_assoc, List.singleton_append]

/-- The first member with a key has the value under it. -/
theorem get?_of_not_mem {before after : List (String × Json)} {value : Json} {key : String}
    (first : key ∉ before.map Prod.fst) :
    (Json.object (before ++ (key, value) :: after)).get? key = some value := by
  have notBefore : before.lookup key = none := by
    rw [List.lookup_eq_none_iff]
    intro m inside
    have other : key ≠ m.1 := fun same => first (same ▸ List.mem_map_of_mem inside)
    simpa using other
  simp [Json.get?, List.lookup_append, notBefore]

/-- A document in another form has the same blocks. -/
theorem blocks_of_isRewritten {document other : Json} (h : IsRewritten document other) :
    blocks other = blocks document := by
  obtain ⟨first, reformed⟩ := h
  rw [blocks_eq_groupedBlocks, blocks_eq_groupedBlocks, groupsIn, groupsIn,
    get?_of_not_mem first, get?_of_not_mem first]
  exact groupedBlocks_of_isReformed reformed

/-! ## Documents that give blocks -/

/-- A source is accepted if it is missing or a string without templates. -/
theorem literalSource_eq_ok_iff {name : String} {value : Option Json} {source : Option String} :
    literalSource name value = .ok source ↔ (value = none ∧ source = none) ∨
      ∃ s, value = some (.string s) ∧ ¬ HasTemplate s ∧ source = some s := by
  match value with
  | none => simp [literalSource, eq_comm]
  | some (.string s) =>
    cases templated : isTemplated s with
    | true => simp [literalSource, templated, isTemplated_iff.mp templated]
    | false =>
      have literal : ¬ HasTemplate s := by simp [← isTemplated_iff, templated]
      simp [literalSource, templated, literal, eq_comm]
  | some .null | some (.bool _) | some (.number _) | some (.array _) | some (.object _) =>
    simp [literalSource]

/-- An entry is read as the block that it is. -/
theorem entryBlock_eq_ok_iff {entry : String × Json} {block : ModuleBlock} :
    entryBlock entry = .ok block ↔ IsBlockOf entry block := by
  obtain ⟨name, body⟩ := entry
  cases body with
  | object members =>
    simp only [entryBlock, blockOf, map_eq_ok_iff, literalSource_eq_ok_iff]
    constructor
    · rintro ⟨source, given, rfl⟩
      exact ⟨⟨members, rfl⟩, rfl, given, rfl, rfl⟩
    · rintro ⟨-, rfl, given, version, line⟩
      exact ⟨block.source, given, by rw [← version, ← line]⟩
  | _ =>
    constructor
    · intro h
      cases h
    · rintro ⟨⟨members, same⟩, -⟩
      cases same

/-- Groups that have blocks are objects. -/
theorem objects_of_groupedBlocks {groups : List Json} {found : List ModuleBlock}
    (h : groupedBlocks groups = .ok found) :
    ∀ group ∈ groups, ∃ members, group = .object members := by
  obtain ⟨blocks, read, -⟩ := map_eq_ok_iff.mp h
  intro group inside
  obtain ⟨own, reads⟩ := exists_forall₂_iff.mp ⟨blocks, mapM_eq_ok_iff.mp read⟩ group inside
  cases group with
  | object members => exact ⟨members, rfl⟩
  | _ => cases reads

/-- Groups have blocks exactly when they are objects with a block for each entry. -/
theorem groupedBlocks_eq_ok_iff {groups : List Json} {found : List ModuleBlock} :
    groupedBlocks groups = .ok found ↔ (∀ group ∈ groups, ∃ members, group = .object members) ∧
      List.Forall₂ IsBlockOf (groups.flatMap entriesIn) found := by
  have entries (objects : ∀ group ∈ groups, ∃ members, group = .object members) :
      groupedBlocks groups = .ok found ↔
        List.Forall₂ IsBlockOf (groups.flatMap entriesIn) found := by
    rw [groupedBlocks_of_objects objects, mapM_eq_ok_iff]
    simp only [entryBlock_eq_ok_iff]
  constructor
  · intro h
    have objects := objects_of_groupedBlocks h
    exact ⟨objects, (entries objects).mp h⟩
  · rintro ⟨objects, related⟩
    exact (entries objects).mpr related

/-- Whatever form a document is brought to, it gives the same blocks or fails alike. It gives blocks
exactly when all groups and all bodies are objects and no source is more than a literal string; then
each entry gives one block, in the order of the groups, the members and the bodies. -/
theorem blocks_of_rewritten {document other : Json}
    (rewritten : Relation.EqvGen IsRewritten document other) :
    blocks other = blocks document ∧
      ∀ found, blocks document = .ok found ↔
        (∀ group ∈ groupsIn document, ∃ members, group = .object members) ∧
        List.Forall₂ IsBlockOf ((groupsIn document).flatMap entriesIn) found := by
  constructor
  · induction rewritten with
    | rel document other step => exact blocks_of_isRewritten step
    | refl document => rfl
    | symm document other _ ih => exact ih.symm
    | trans document between other _ _ first second => exact second.trans first
  · intro found
    rw [blocks_eq_groupedBlocks, groupedBlocks_eq_ok_iff]

/-- The one object is cut after its first member, and the two bodies of that get an object each. -/
theorem blocks_of_rewritten_two_steps :
    let body (source : String) : Json := .object [("source", .string source)]
    let document : Json := .object [("module", .object
      [("a", .array [body "./x", body "./y"]), ("b", body "./z")])]
    let other : Json := .object [("module", .array [.object [("a", body "./x")],
      .object [("a", body "./y")], .object [("b", body "./z")]])]
    Relation.EqvGen IsRewritten document other ∧ blocks other = blocks document ∧
      blocks document = .ok [⟨"a", some "./x", none, 0⟩, ⟨"a", some "./y", none, 0⟩,
        ⟨"b", some "./z", none, 0⟩] := by
  intro body document other
  have cut : IsRewritten document (.object [("module", .array
      [.object [("a", .array [body "./x", body "./y"])], .object [("b", body "./z")]])]) :=
    @IsRewritten.modules [] [] _ _ (by simp)
      (.array (.split [("a", .array [body "./x", body "./y"])] [("b", body "./z")]))
  have spread : IsRewritten (.object [("module", .array
      [.object [("a", .array [body "./x", body "./y"])], .object [("b", body "./z")]])]) other :=
    @IsRewritten.modules [] [] _ _ (by simp)
      (@IsReformed.element [] _ _ _ (@IsRegrouped.spread [] [] _ _ (by simp [body, Json.isArray])))
  have rewritten : Relation.EqvGen IsRewritten document other :=
    .trans _ _ _ (.rel _ _ cut) (.rel _ _ spread)
  exact ⟨rewritten, (blocks_of_rewritten rewritten).1, by decide⟩

/-- A body that is an array is refused among the bodies of an array; in an object of its own it is
taken for an array of bodies. -/
theorem blocks_nested_bodies :
    let nested : Json := .array [.object [("source", .string "./x")]]
    let document (modules : Json) : Json := .object [("module", modules)]
    blocks (document (.object [("a", .array [nested])])) = .error ⟨0, .moduleNotObject "a"⟩ ∧
      blocks (document (.array ((oneEach "a" [nested]).map Json.object))) =
        .ok [⟨"a", some "./x", none, 0⟩] := by
  decide

end Document

end TerraDeps
