import PropCatalog.Proofs.Record.Agreement
import PropCatalog.Proofs.Scope.Collection

/-! The items of a module in another order. Where nothing is bound or assigned twice, names mean the
same and every component has the same record. -/

namespace PropCatalog

open Syntax

namespace Analysis

/-- The records of the components that an item defines. -/
def itemRecords (analysis : Analysis) (facets : List Facet) (item : Item) : List Record :=
  (analysis.itemComponents item).map (analysis.record facets)

/-- The records of a module are those of its items, one item after the other. -/
theorem records_eq_flatMap (analysis : Analysis) (facets : List Facet) :
    analysis.records facets = analysis.file.module.items.flatMap (analysis.itemRecords facets) := by
  -- The components of a module are those of its items.
  rw [records, components, List.map_flatMap]
  rfl

/-- With the items in another order, the analysis of a file finds the same behind every name. -/
theorem agree_reordered {file : SourceFile} {items : List Item}
    (once : (Scope.ofModule file.module).Once) (perm : items.Perm file.module.items)
    (validatorModules : List String) :
    (ofFile { file with module := ⟨items⟩ } validatorModules).Agree
      (ofFile file validatorModules) where
  text := rfl
  comments := rfl
  scope := once.agree perm
  parts := Scope.length_parts_ofModule perm
  validatorModules := rfl

/-- Where every name is bound once at most and every member is assigned once at most, the order of
the items of a module does not matter: all names and members stand for the same expressions, and the
records are those that each item has, in the order of the items. -/
theorem records_reordered {file : SourceFile} {items : List Item}
    (once : (Scope.ofModule file.module).Once) (perm : items.Perm file.module.items)
    (validatorModules : List String) (facets : List Facet) :
    let before := ofFile file validatorModules
    let after := ofFile { file with module := ⟨items⟩ } validatorModules
    (∀ name, after.scope.get? name = before.scope.get? name) ∧
    (∀ object member, after.scope.assigned? object member = before.scope.assigned? object member) ∧
    before.records facets = file.module.items.flatMap (before.itemRecords facets) ∧
    after.records facets = items.flatMap (before.itemRecords facets) := by
  -- Items define the same components, about which the same is found out.
  intro before after
  have agree : after.Agree before := agree_reordered once perm validatorModules
  have records : after.itemRecords facets = before.itemRecords facets := by
    funext item
    rw [itemRecords, itemRecords, agree.itemComponents, agree.record]
  refine ⟨fun name => congrFun agree.scope.get? name,
    fun object member => congrFun (congrFun agree.scope.assigned? object) member,
    records_eq_flatMap before facets, ?_⟩
  rw [← records]
  exact records_eq_flatMap after facets

namespace Forward

/-- A module whose first component takes its props from an assignment in front of it, which spreads
what is declared at the beginning. -/
def file : SourceFile where
  text := "import PropTypes from 'prop-types';\nconst Shared = \x7b a: PropTypes.any \x7d;\n" ++
    "Button.propTypes = \x7b ...Shared \x7d;\nconst Button = () => <b />;\n" ++
    "export class Link \x7b render() \x7b\x7d \x7d"
  module := ⟨[
    .importDecl ⟨0, 35⟩ false (some "prop-types") ["PropTypes"],
    .stmt (.decl ⟨36, 72⟩ (.variables [.mk (.name "Shared") (some (.object ⟨51, 71⟩ [
      .pair 53 (.name "a") (.member ⟨56, 69⟩ (.name ⟨56, 65⟩ "PropTypes") (.name "any"))]))])),
    .stmt (.expr ⟨73, 106⟩ (.assign ⟨73, 105⟩ true
      (.expr (.member ⟨73, 89⟩ (.name ⟨73, 79⟩ "Button") (.name "propTypes")))
      (.object ⟨92, 105⟩ [.spread (.name ⟨97, 103⟩ "Shared")]))),
    .stmt (.decl ⟨107, 134⟩ (.variables [.mk (.name "Button") (some
      (.arrow ⟨122, 133⟩ [] [.return ⟨128, 133⟩ (some (.markup ⟨128, 133⟩))]))])),
    .exportDecl ⟨135, 168⟩ (.class "Link" (.mk none [.method false (.name "render") []]))]⟩
  comments := []

theorem once : (Scope.ofModule file.module).Once :=
  ⟨by decide, by decide⟩

end Forward

theorem records_reordered_forward :
    (Scope.ofModule Forward.file.module).Once ∧
    Forward.file.module.items.reverse.Perm Forward.file.module.items ∧
    let before := ofFile Forward.file []
    let after := ofFile { Forward.file with module := ⟨Forward.file.module.items.reverse⟩ } []
    (before.records Facet.all).map (fun record => (record.displayName, record.props.names)) =
      [(some "Button", ["a"]), (some "Link", [])] ∧
    (∀ name, after.scope.get? name = before.scope.get? name) ∧
    (∀ object member,
      after.scope.assigned? object member = before.scope.assigned? object member) ∧
    before.records Facet.all =
      Forward.file.module.items.flatMap (before.itemRecords Facet.all) ∧
    after.records Facet.all =
      Forward.file.module.items.reverse.flatMap (before.itemRecords Facet.all) := by
  -- No name is bound twice, so that the order of the items can be turned round.
  have perm := List.reverse_perm Forward.file.module.items
  exact ⟨Forward.once, perm, by decide +kernel, records_reordered Forward.once perm [] Facet.all⟩

end Analysis

end PropCatalog
