import PropCatalog.Component.Discovery

/-! The names of function components. A declaration or a variable defines a function component only
under the name of a component; a default export and an assignment that exports take any name. -/

namespace PropCatalog

open Syntax

namespace Analysis

/-- An item defines a function component under a name without asking whether it is the name of a
component: as a function that is exported by default, or as an assignment that exports. -/
inductive NamesFreely (analysis : Analysis) (name : String) : Item → Prop where
  | byDefault {span : Span} {body : List Stmt} (renders : stmtsHaveMarkup body = true) :
    NamesFreely analysis name (.exportDefaultFunction span (some name) body)
  | assigned {span : Span} {e value : Expr} (exported : exportedValue? e = some (some name, value))
    (renders : analysis.kind? value = some .function) :
    NamesFreely analysis name (.stmt (.expr span e))

/-- A component is a function with a name. -/
structure IsFunctionNamed (component : Component) (name : String) : Prop where
  kind : component.kind = .function
  name : component.name = some name

variable {analysis : Analysis} {component : Component} {name : String}

/-- A variable is a function component only under the name of one. -/
theorem isComponentName_of_declaratorComponent? {position : Nat} {declarator : Declarator}
    (found : analysis.declaratorComponent? position declarator = some component)
    (function : IsFunctionNamed component name) : isComponentName name = true := by
  -- A name is either the one that has been asked about or another one.
  obtain ⟨kind, named⟩ := function
  unfold declaratorComponent? at found
  split at found
  · split at found
    · -- The name has been asked about.
      split at found
      · cases found
        cases named
        assumption
      · cases found
    · rename_i other _
      cases found
      exact absurd kind (other ·)
    · cases found
  · cases found

/-- A declaration defines a function component only under the name of one. -/
theorem isComponentName_of_mem_declComponents {position : Nat} {declaration : Decl}
    (member : component ∈ analysis.declComponents position declaration)
    (function : IsFunctionNamed component name) : isComponentName name = true := by
  -- Each form of a declaration asks about the name of a function before it defines a component.
  cases declaration with
  | «class» text definition =>
    -- A class is no function.
    simp only [declComponents] at member
    split at member
    · rw [List.mem_singleton.mp member] at function
      cases function.kind
    · cases member
  | function text body =>
    simp only [declComponents] at member
    split at member
    · rename_i asked
      rw [List.mem_singleton.mp member] at function
      cases function.name
      exact (Bool.and_eq_true_iff.mp asked).1
    · cases member
  | «variables» declarators =>
    obtain ⟨declarator, _, found⟩ := List.mem_filterMap.mp member
    exact isComponentName_of_declaratorComponent? found function
  | other operands => cases member

/-- What a value defines as a function component is called as it is named. -/
theorem isFunctionNamed_of_mem {value : Expr} {given : Option String} {position : Nat}
    (member : component ∈ ((analysis.kind? value).map fun kind =>
      (⟨given, kind, position⟩ : Component)).toList)
    (function : IsFunctionNamed component name) :
    given = some name ∧ analysis.kind? value = some .function := by
  -- The component is made of the name that is given and the kind that is found.
  obtain ⟨kind, found, rfl⟩ := Option.map_eq_some_iff.mp (Option.mem_toList.mp member)
  obtain ⟨rfl, named⟩ := function
  exact ⟨named, found⟩

/-- An item defines a function component under the name of one, or names it freely. -/
theorem isComponentName_or_namesFreely {item : Item}
    (member : component ∈ analysis.itemComponents item)
    (function : IsFunctionNamed component name) :
    isComponentName name = true ∨ analysis.NamesFreely name item := by
  -- Only values that are exported by default or by assignment are not asked about their names.
  unfold itemComponents at member
  dsimp only at member
  split at member
  · exact .inl (isComponentName_of_mem_declComponents member function)
  · exact .inl (isComponentName_of_mem_declComponents member function)
  · -- An assignment that exports is not asked about its name.
    split at member
    · rename_i exported
      obtain ⟨rfl, renders⟩ := isFunctionNamed_of_mem member function
      exact .inr (.assigned exported renders)
    · cases member
  · -- A class is no function.
    split at member
    · rw [List.mem_singleton.mp member] at function
      cases function.kind
    · cases member
  · -- Neither is a function that is exported by default.
    split at member
    · rename_i renders
      rw [List.mem_singleton.mp member] at function
      cases function.name
      exact .inr (.byDefault renders)
    · cases member
  · -- A value that is exported by default has no name.
    split at member
    · cases member
    · cases (isFunctionNamed_of_mem member function).1
  · cases member

/-- What an item names freely is one of its components. -/
theorem NamesFreely.exists_mem {item : Item} (freely : analysis.NamesFreely name item) :
    ∃ component ∈ analysis.itemComponents item, IsFunctionNamed component name := by
  -- Both forms give the function the name without looking at it.
  cases freely with
  | @byDefault span body renders =>
    refine ⟨⟨some name, .function, span.lo⟩, ?_, rfl, rfl⟩
    simp only [itemComponents, renders, if_true]
    exact List.mem_singleton_self _
  | @assigned span e value exported renders =>
    refine ⟨⟨some name, .function, span.lo⟩, ?_, rfl, rfl⟩
    simp only [itemComponents, exported, renders, Option.map_some]
    exact List.mem_singleton_self _

/-- All function components that have a name have that of a component, in upper case, exactly when
those have one that are named freely: the functions that are exported by default and those that an
assignment exports. Declarations and variables, exported or not, and with any wrappers around the
function, need no condition. -/
theorem isComponentName_function_iff (analysis : Analysis) :
    (∀ component ∈ analysis.components, ∀ name, IsFunctionNamed component name →
      isComponentName name = true) ↔
    ∀ item ∈ analysis.file.module.items, ∀ name, analysis.NamesFreely name item →
      isComponentName name = true := by
  -- A component is asked about its name, or it is named freely by the item that defines it.
  constructor
  · -- What is named freely is among the components.
    intro all item inside name freely
    obtain ⟨component, member, function⟩ := freely.exists_mem
    exact all component (List.mem_flatMap.mpr ⟨item, inside, member⟩) name function
  · intro free component member name function
    obtain ⟨item, inside, member⟩ := List.mem_flatMap.mp member
    exact (isComponentName_or_namesFreely member function).elim id (free item inside name)

namespace Free

/-- A module with a function that is exported by default and one that is assigned, both under names
in lower case. -/
def file : SourceFile where
  text := "export default function button() \x7b return <b />; \x7d\nexports.link = () => <a />;"
  module := ⟨[
    .exportDefaultFunction ⟨0, 50⟩ (some "button")
      [.return ⟨36, 49⟩ (some (.markup ⟨43, 48⟩))],
    .stmt (.expr ⟨51, 78⟩ (.assign ⟨51, 77⟩ true
      (.expr (.member ⟨51, 63⟩ (.name ⟨51, 58⟩ "exports") (.name "link")))
      (.arrow ⟨66, 77⟩ [] [.return ⟨72, 77⟩ (some (.markup ⟨72, 77⟩))])))]⟩
  comments := []

end Free

/-- Function components with names in lower case are found. -/
theorem isComponentName_function_lowerCase :
    (ofFile Free.file []).components =
      [⟨some "button", .function, 0⟩, ⟨some "link", .function, 51⟩] ∧
    isComponentName "button" = false ∧ isComponentName "link" = false :=
  ⟨rfl, by decide, by decide⟩

end Analysis

end PropCatalog
