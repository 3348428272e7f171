import PropCatalog.Proofs.Component.Beside
import PropCatalog.Proofs.Scope.Collection
import PropCatalog.Proofs.Wrapping.Analysis

/-! What exporting changes about a module: nothing that is found out about its components. Each
declaration defines the same components with the word `export` in front of it, and what only exports
names that there are already defines none. -/

namespace PropCatalog

open Syntax

namespace Syntax

/-- The objects that re-exports assign to, if they assign at all. -/
def exportObjects (assigning : Bool) : List String :=
  if assigning then ["module", "exports"] else []

/-- An item stays as it is, or a declaration is exported where it stands. -/
inductive Item.Exported : Item → Item → Prop
  | kept (item : Item) : Item.Exported item item
  | declared (span span' : Span) (declaration : Decl) :
    Item.Exported (.stmt (.decl span declaration)) (.exportDecl span' declaration)

/-- An item only exports names that there are: one by default, some in a list, or one by assigning
it to a member of an object. Wrappers may stand around the name. -/
inductive Item.Reexports (objects : List String) : Item → Prop
  | byDefault (span : Span) {e : Expr} (named : e.unwrap.isName = true) :
    Item.Reexports objects (.exportDefaultExpr span e)
  | listed (span : Span) : Item.Reexports objects (.other span)
  | assigned (span inside place start : Span) {object : String} (listed : object ∈ objects)
    (key : Key) {e : Expr} (named : e.unwrap.isName = true) :
    Item.Reexports objects
      (.stmt (.expr span (.assign inside true (.expr (.member place (.name start object) key)) e)))

end Syntax

namespace Scope

variable {scope other : Scope} {names : List String}

/-- What stands above two scopes does not tell them apart. -/
theorem Beside.above (beside : scope.Beside names other) (top : Scope) :
    (top.above scope).Beside names (top.above other) := by
  -- A lookup goes on below when it finds nothing above.
  refine ⟨congrArg (top.bindings ++ ·) beside.bindings, fun object unlisted member => ?_⟩
  have below := beside.assigned? object unlisted member
  simp only [Scope.assigned?, Scope.above, List.lookup_append] at below ⊢
  rw [below]

/-- An item adds the same to both scopes. -/
theorem Beside.bindItem (beside : scope.Beside names other) (item : Item) :
    (scope.bindItem item).Beside names (other.bindItem item) := by
  -- An item adds what it would add to the empty scope, whatever is there already.
  have added : ∀ scope : Scope, scope.bindItem item = (empty.bindItem item).above scope :=
    fun scope => bindItem_above empty scope item
  rw [added scope, added other]
  exact beside.above _

/-- A member of one of the names may be assigned. -/
theorem Beside.assign (beside : scope.Beside names other) {object : String}
    (listed : object ∈ names) (member : String) (value : Expr) :
    scope.Beside names (other.assign object member value) := by
  -- Assignments to any other object are looked up as before.
  refine ⟨beside.bindings, fun object' unlisted member' => ?_⟩
  have differs : object' ≠ object := fun same => unlisted (same ▸ listed)
  rw [beside.assigned? object' unlisted, assigned?_assign, if_neg (differs ·.1)]

/-- What only exports names binds nothing, and assigns members of the objects for exports. -/
theorem Beside.reexport (beside : scope.Beside names other) {item : Item}
    (again : item.Reexports names) : scope.Beside names (other.bindItem item) := by
  -- Only an assignment adds anything, and what it is made to is one of the names.
  cases again with
  | byDefault _ _ => exact beside
  | listed _ => exact beside
  | assigned span inside place start listed key named =>
    simp only [Scope.bindItem, Scope.assignExpr]
    split
    · exact beside.assign listed _ _
    · exact beside

/-- A module and what it becomes by exporting have scopes that differ in members of the objects for
exports only. -/
theorem beside_of_exported {items items' : List Item}
    (exported : Interspersed Item.Exported (Item.Reexports names) items items') :
    (ofModule ⟨items⟩).Beside names (ofModule ⟨items'⟩) := by
  -- The induction is on the items, for any two such scopes to start with.
  have general : ∀ scope other : Scope, scope.Beside names other →
      (items.foldl bindItem scope).Beside names (items'.foldl bindItem other) := by
    induction exported with
    | nil => exact fun _ _ beside => beside
    | cons here _ ih =>
      intro scope other beside
      cases here with
      | kept => exact ih _ _ (beside.bindItem _)
      | declared span span' declaration =>
        exact ih _ _ (beside.bindItem (.exportDecl span' declaration))
    | between here _ ih =>
      intro scope other beside
      exact ih _ _ (beside.reexport here)
  exact general empty empty ⟨rfl, fun _ _ _ => rfl⟩

end Scope

/-- What exports a value is an assignment of it to an object for exports. -/
theorem exportedValue?_eq_some {e value : Expr} {name : Option String}
    (exported : exportedValue? e = some (name, value)) :
    ∃ span inside object key property,
      e = .assign span true (.expr (.member inside object key)) value ∧
        exportName? object property = some name := by
  -- Nothing but the assignment of a value to a member passes all of the checks.
  cases assigns : e.assignsMember with
  | false =>
    rw [exportedValue?_of_hidden assigns] at exported
    cases exported
  | true =>
    unfold Expr.assignsMember at assigns
    split at assigns
    · rw [exportedValue?_assign] at exported
      split at exported
      · -- A name is not exported as a value.
        cases exported
      · obtain ⟨property, -, exported⟩ := Option.bind_eq_some_iff.mp exported
        obtain ⟨_, found, ⟨⟩⟩ := Option.map_eq_some_iff.mp exported
        exact ⟨_, _, _, _, property, rfl, found⟩
    · cases assigns

/-- What an assignment does not mention is not mentioned in the value that it exports. -/
theorem unmentioned_exportedValue? {names : List String} {e value : Expr} {name : Option String}
    (free : Unmentioned names e.mentions) (exported : exportedValue? e = some (name, value)) :
    Unmentioned names value.mentions := by
  -- The value is the right side of the assignment.
  obtain ⟨_, _, _, _, _, rfl, _⟩ := exportedValue?_eq_some exported
  exact (unmentioned_or.mp free).2

/-- Nothing is exported but through the objects for exports. -/
theorem exportName?_eq_none {object : Expr}
    (free : Unmentioned (exportObjects true) object.mentions) (property : String) :
    exportName? object property = none := by
  -- What is assigned to is a member of a name, or a member of a member of a name.
  have other : ∀ {text : String}, text ∉ exportObjects true →
      text ≠ "module" ∧ text ≠ "exports" := by
    simp [exportObjects]
  unfold exportName?
  split
  · rename_i span text named
    obtain ⟨noModule, noExports⟩ := other (notMem_of_unwrap free named)
    rw [if_neg noModule, if_neg noExports]
  · rename_i span inner key accessed
    have inside : Unmentioned (exportObjects true) inner.mentions := by
      rw [← object.unmentioned_unwrap, accessed] at free
      exact (unmentioned_or.mp free).1
    split
    · rename_i text named
      rw [if_neg fun same => (other (notMem_of_unwrap inside named)).1 same.1]
    · rfl
  · rfl

/-- Nothing is exported under the name of an object for exports, unless they are mentioned. -/
theorem unnamed_of_exportedValue? {assigning : Bool} {e value : Expr} {name : Option String}
    (free : Unmentioned (exportObjects assigning) e.mentions)
    (exported : exportedValue? e = some (name, value)) :
    Unnamed (exportObjects assigning) name := by
  -- A name that an assignment exports is reached through one of the objects for exports.
  obtain ⟨_, _, object, _, property, rfl, found⟩ := exportedValue?_eq_some exported
  cases assigning with
  | false =>
    -- There are no names to leave out.
    exact fun _ _ => List.not_mem_nil
  | true =>
    have objects := (unmentioned_or.mp (unmentioned_or.mp free).1).1
    rw [exportName?_eq_none objects] at found
    cases found

namespace Analysis

variable {analysis : Analysis}

/-- An item of a module that does not mention the objects for exports defines the same components,
exported or not. -/
theorem Beside.itemComponents {other : Analysis} {assigning : Bool}
    (beside : analysis.Beside (exportObjects assigning) other) {item item' : Item}
    (exported : item.Exported item') (free : Unmentioned (exportObjects assigning) item.mentions) :
    List.Forall₂ (Component.Same (exportObjects assigning)) (analysis.itemComponents item)
      (other.itemComponents item') := by
  -- Each form of an item is judged by parts that do not mention the objects.
  cases exported with
  | declared span span' declaration =>
    -- Only the place changes.
    exact beside.declComponents _ _ free
  | kept =>
    cases item with
    | exportDecl span declaration => exact beside.declComponents _ _ free
    | exportDefaultClass span name definition =>
      simp only [Analysis.itemComponents, ← isComponentClass_congr beside.scope.origin?]
      split
      · exact .cons ⟨rfl, rfl, unnamed_own (unmentioned_or.mp free).1, trivial⟩ .nil
      · exact .nil
    | exportDefaultFunction span name body =>
      simp only [Analysis.itemComponents]
      split
      · exact .cons ⟨rfl, rfl, unnamed_own (unmentioned_or.mp free).1, trivial⟩ .nil
      · exact .nil
    | exportDefaultExpr span value =>
      simp only [Analysis.itemComponents]
      split
      · exact .nil
      · exact beside.component? free unnamed_none _ _
    | stmt statement =>
      cases statement with
      | decl span declaration => exact beside.declComponents _ _ free
      | expr span e =>
        simp only [Analysis.itemComponents]
        split
        · rename_i name value exported
          exact beside.component? (unmentioned_exportedValue? free exported)
            (unnamed_of_exportedValue? free exported) _ _
        · exact .nil
      | _ => exact .nil
    | _ => exact .nil

/-- What only exports names that there are defines no component. -/
theorem itemComponents_of_reexports (analysis : Analysis) {item : Item} {objects : List String}
    (again : item.Reexports objects) : analysis.itemComponents item = [] := by
  -- What is exported again is a name, and a name defines nothing.
  cases again with
  | byDefault span named => simp only [itemComponents, named, if_true]
  | listed span => rfl
  | assigned span inside place start listed key named =>
    simp only [itemComponents, exportedValue?_assign, named, if_true]

/-- The components of a declaration are found at one place. -/
theorem position_of_mem_declComponents {position : Nat} {declaration : Decl}
    {component : Component} (member : component ∈ analysis.declComponents position declaration) :
    component.position = position := by
  -- Every component of a declaration is given the position of the declaration.
  unfold declComponents at member
  split at member
  · split at member
    · rw [List.mem_singleton.mp member]
    · cases member
  · split at member
    · rw [List.mem_singleton.mp member]
    · cases member
  · obtain ⟨declarator, _, found⟩ := List.mem_filterMap.mp member
    unfold declaratorComponent? at found
    split at found
    · split at found
      · split at found
        · cases found
          rfl
        · cases found
      · cases found
        rfl
      · cases found
    · cases found
  · cases member

/-- The components of an item are found where it starts. -/
theorem position_of_mem_itemComponents {item : Item} {component : Component}
    (member : component ∈ analysis.itemComponents item) : component.position = item.span.lo := by
  -- Every form of an item hands its start on to what it defines.
  have defined : ∀ {name : Option String} {e : Expr} {position : Nat}, component ∈
      ((analysis.kind? e).map fun kind => (⟨name, kind, position⟩ : Component)).toList →
      component.position = position := by
    intro name e position member
    obtain ⟨kind, _, rfl⟩ := Option.map_eq_some_iff.mp (Option.mem_toList.mp member)
    rfl
  unfold itemComponents at member
  dsimp only at member
  split at member
  · exact position_of_mem_declComponents member
  · exact position_of_mem_declComponents member
  · split at member
    · exact defined member
    · cases member
  · split at member
    · rw [List.mem_singleton.mp member]
    · cases member
  · split at member
    · rw [List.mem_singleton.mp member]
    · cases member
  · split at member
    · cases member
    · exact defined member
  · cases member

section Modules

variable {file other : SourceFile}

/-- Two components are the same up to the places where things stand: they have the same name, are
defined alike and are given members alike. -/
structure SameComponent (m : Matching file other) (before after : Analysis)
    (component component' : Component) : Prop where
  alike : component.Alike m component'
  members : ∀ member, Option.Rel (Expr.Alike m) (before.memberValue? component member)
    (after.memberValue? component' member)

/-- Two items define the same components, the second one where it starts. -/
structure SameDefinitions (m : Matching file other) (before after : Analysis)
    (item item' : Item) : Prop where
  components : List.Forall₂ (SameComponent m before after) (before.itemComponents item)
    (after.itemComponents item')
  positions : ∀ component ∈ after.itemComponents item', component.position = item'.span.lo

variable {m : Matching file other}

/-- Where components are akin, and the second one is kept in a third module, the first and the last
are the same. -/
theorem sameComponent_of_akin {before plain after : Analysis} {names : List String}
    {m : Matching before.file plain.file} (akin : before.Akin plain m.wrapping)
    (beside : plain.Beside names after) {component middle component' : Component}
    (first : component.Akin m.wrapping middle) (second : middle.Same names component') :
    SameComponent m before after component component' := by
  -- Both steps keep the name and the kind, and a member is carried over one step after the other.
  have alike := first.alike
  refine ⟨⟨alike.name.trans second.name, second.kind ▸ alike.kind⟩, fun member => ?_⟩
  rw [← beside.memberValue? second]
  exact rel_imp (akin.memberValue? first member) fun _ _ same => same.alike

/-- Exporting does not change what is discovered. Let two modules be alike up to the places where
things stand, and let any declarations of the second one be exported, with any items between the
others that only export names that there are; if some of these assign to `module` or `exports`, then
the module does not mention these names otherwise. Then all names stand for the same, and each item
defines the same components as before, at the place where it stands now, while what only exports
names defines none: so all components are the same, in the same order. -/
theorem exporting_keeps_components (alike : file.module.Alike m other.module) {assigning : Bool}
    {items : List Item}
    (exported : Interspersed Item.Exported (Item.Reexports (exportObjects assigning))
      other.module.items items)
    (unmentioned : Unmentioned (exportObjects assigning) other.module.mentions)
    (validatorModules : List String) :
    let before := ofFile file validatorModules
    let after := ofFile { other with module := ⟨items⟩ } validatorModules
    List.Forall₂ (fun bound bound' => bound.1 = bound'.1 ∧ bound.2.Alike m bound'.2)
      before.scope.bindings after.scope.bindings ∧
    Interspersed (SameDefinitions m before after) (fun item => after.itemComponents item = [])
      file.module.items items ∧
    List.Forall₂ (SameComponent m before after) before.components after.components := by
  -- The move changes places only, and exporting only adds to the scope of what has been moved.
  intro before after
  have analyses := Analysis.Alike.ofFile alike validatorModules
  have beside : (ofFile other validatorModules).Beside (exportObjects assigning) after :=
    ⟨Scope.beside_of_exported exported, Scope.Avoids.ofModule unmentioned⟩
  -- Items of the second module, exported or not, define what they define in it as it is.
  have kept := exported.imp
    (fun item here _ exported =>
      beside.itemComponents exported (unmentioned_items.mp unmentioned item here))
    fun _ again => itemComponents_of_reexports after again
  have each : Interspersed (SameDefinitions m before after)
      (fun item => after.itemComponents item = []) file.module.items items := by
    refine kept.comp alike fun item _ item' items same => ⟨?_, fun component => ?_⟩
    · exact forall₂_comp (analyses.akin.itemComponents items.akin) same
        fun _ _ _ => sameComponent_of_akin analyses.akin beside
    · exact position_of_mem_itemComponents
  refine ⟨beside.scope.bindings ▸ analyses.scope.bindings, each, ?_⟩
  exact (each.imp (fun _ _ _ same => same.components) fun _ none => none).flatMap

end Modules

namespace Exporting

/-- The text of two components. -/
def componentText (prefixed : String) : String :=
  prefixed ++ "class Button \x7b static label = 'x'; render() \x7b\x7d \x7d\n" ++
    prefixed ++ "const Icon = () => <i />;\nIcon.sizes = \x7b small: 's' \x7d;\n"

/-- The sizes of the second component, at their place. -/
def sizes (start : Nat) : ObjectLiteral :=
  ⟨⟨start, start + 14⟩, [.pair (start + 2) (.name "small") (.string ⟨start + 9, start + 12⟩ "s")]⟩

/-- The class of the first component, at its place. -/
def button (start : Nat) : Decl :=
  .class "Button" (.mk none [
    .field true (.name "label") (some (.string ⟨start + 30, start + 33⟩ "x")),
    .method false (.name "render") []])

/-- The function of the second component, at its place. -/
def icon (start : Nat) : Decl :=
  .variables [.mk (.name "Icon") (some (.arrow ⟨start + 13, start + 24⟩ []
    [.return ⟨start + 19, start + 24⟩ (some (.markup ⟨start + 19, start + 24⟩))]))]

/-- The assignment of the sizes, at its place. -/
def assignment (start : Nat) : Item :=
  .stmt (.expr ⟨start, start + 28⟩ (.assign ⟨start, start + 27⟩ true
    (.expr (.member ⟨start, start + 10⟩ (.name ⟨start, start + 4⟩ "Icon") (.name "sizes")))
    (.object (sizes (start + 13)).span (sizes (start + 13)).properties)))

/-- The module of two components, each item at a place of its own. -/
def items (first second third : Nat) : List Item :=
  [.stmt (.decl ⟨first, first + 48⟩ (button first)),
    .stmt (.decl ⟨second, second + 25⟩ (icon second)), assignment third]

/-- Two components that are not exported. -/
def plain : SourceFile where
  text := componentText ""
  module := ⟨items 0 49 75⟩
  comments := []

/-- The same components at the places where they stand when they are exported. -/
def moved : SourceFile where
  text := componentText "export " ++ "export default Button;\nmodule.exports = (Icon);\n"
  module := ⟨items 7 63 89⟩
  comments := []

/-- The items of the module that exports both components, and once more by their names. -/
def exported : List Item :=
  [.exportDecl ⟨0, 55⟩ (button 7), .exportDecl ⟨56, 88⟩ (icon 63), assignment 89] ++
    [.exportDefaultExpr ⟨118, 140⟩ (.name ⟨133, 139⟩ "Button"),
      .stmt (.expr ⟨141, 165⟩ (.assign ⟨141, 164⟩ true
        (.expr (.member ⟨141, 155⟩ (.name ⟨141, 147⟩ "module") (.name "exports")))
        (.wrapped ⟨158, 164⟩ .parentheses (.name ⟨159, 163⟩ "Icon"))))]

/-- Each module has one literal, that corresponds to the other one. -/
def matching : Matching plain moved where
  literal literal literal' := literal = sizes 88 ∧ literal' = sizes 102
  apart := by
    rintro _ _ _ _ ⟨rfl, rfl⟩ ⟨rfl, rfl⟩
    exact ⟨fun _ => rfl, fun _ => rfl⟩

theorem alike : plain.module.Alike matching moved.module := by
  -- Item by item, both modules have the same form.
  have literals : PropertiesAlike matching (sizes 88).properties (sizes 102).properties :=
    .cons (.pair rfl (.name "small") (.inside (.string "s"))) .nil
  refine .cons (.stmt (.decl (.class "Button" (.mk .none (.cons (.field true (.name "label")
    (.some ?_)) (.cons (.method false (.name "render") .nil) .nil))))) trivial) ?_
  · exact .inside (.string "x")
  refine .cons (.stmt (.decl (.declared (.cons (.mk (.name "Icon") (.some ?_)) .nil))) trivial) ?_
  · exact .inside (.arrow .nil (.cons (.return (.some (.inside .markup))) .nil))
  refine .cons (.stmt (.expr (.inside (.assign true ?_ ?_))) ⟨rfl, rfl⟩) .nil
  · exact .expr (.inside (.member (.inside (.name "Icon")) (.name "sizes")))
  · exact .inside (.object ⟨rfl, rfl⟩ literals)

/-- Both declarations are exported, and both names once more. -/
theorem interspersed : Interspersed Item.Exported (Item.Reexports (exportObjects true))
    moved.module.items exported := by
  -- The exported names come after both of the declarations.
  refine .append (.cons (.declared _ _ _) (.cons (.declared _ _ _) (.cons (.kept _) .nil))) ?_
  refine List.forall_mem_cons.mpr ⟨.byDefault _ rfl, List.forall_mem_singleton.mpr ?_⟩
  exact .assigned _ _ _ _ (by decide) _ rfl

end Exporting

/-- Two components, one of them with an assigned member, that are exported where they are declared
and once more by their names. -/
theorem exporting_keeps_components_twice :
    Exporting.plain.module.Alike Exporting.matching Exporting.moved.module ∧
    Interspersed Item.Exported (Item.Reexports (exportObjects true)) Exporting.moved.module.items
      Exporting.exported ∧
    Unmentioned (exportObjects true) Exporting.moved.module.mentions ∧
    let before := ofFile Exporting.plain []
    let after := ofFile { Exporting.moved with module := ⟨Exporting.exported⟩ } []
    before.components.map (fun component => (component.name, component.position)) =
      [(some "Button", 0), (some "Icon", 49)] ∧
    after.components.map (fun component => (component.name, component.position)) =
      [(some "Button", 0), (some "Icon", 56)] ∧
    Interspersed (SameDefinitions Exporting.matching before after)
      (fun item => after.itemComponents item = []) Exporting.plain.module.items
      Exporting.exported ∧
    List.Forall₂ (SameComponent Exporting.matching before after) before.components
      after.components := by
  -- All of it follows from the form of both modules, and the places are those in the texts.
  have unmentioned : Unmentioned (exportObjects true) Exporting.moved.module.mentions := by
    unfold Unmentioned
    decide +kernel
  obtain ⟨_, definitions, components⟩ :=
    exporting_keeps_components Exporting.alike Exporting.interspersed unmentioned []
  refine ⟨Exporting.alike, Exporting.interspersed, unmentioned, ?_, ?_, definitions, components⟩
  · decide +kernel
  · decide +kernel

end Analysis

end PropCatalog
