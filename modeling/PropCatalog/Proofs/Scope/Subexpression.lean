import PropCatalog.Proofs.Component.Rendering
import PropCatalog.Proofs.Scope.Parts

/-! Where in the source the values of a scope stand: what a name or a member stands for is a
subexpression of the module, and so are the parts that it can lead to. -/

namespace PropCatalog

open Relation (ReflTransGen)

namespace Syntax

/-! ## Subexpressions -/

/-- The pieces that a member of a class is made of. -/
def ClassMember.pieces : ClassMember → List Piece
  | .field _ key value => .key key :: value.toList.map .expr
  | .method _ key body | .getter _ key body => .key key :: body.map .stmt
  | .setter _ key => [.key key]
  | .other => []

/-- The pieces that a class is made of. -/
def Class.pieces (definition : Class) : List Piece :=
  definition.superClass.toList.map .expr ++ definition.members.flatMap ClassMember.pieces

namespace Piece

/-- The pieces that a function or a class keeps to itself. -/
def kept : Piece → List Piece
  | .expr (.function _ _ body) | .property (.method _ _ body) | .decl (.function _ body) =>
    body.map .stmt
  | .expr (.class _ _ definition) | .decl (.class _ definition) => definition.pieces
  | _ => []

/-- A piece is made of another one and of others, whatever function or class these belong to. -/
def Contains (outer inner : Piece) : Prop :=
  inner ∈ outer.own ++ outer.lent ++ outer.kept

theorem Contains.of_own {outer inner : Piece} (own : inner ∈ outer.own) : Contains outer inner :=
  List.mem_append_left _ (List.mem_append_left _ own)

theorem Contains.of_kept {outer inner : Piece} (kept : inner ∈ outer.kept) :
    Contains outer inner :=
  List.mem_append_right _ kept

end Piece

open Piece (Contains)

/-- Whether an expression occurs in one of some pieces, at any depth. -/
def OccursIn (pieces : List Piece) (e : Expr) : Prop :=
  ∃ piece ∈ pieces, ReflTransGen Contains piece (.expr e)

namespace OccursIn

variable {pieces others : List Piece} {e : Expr}

theorem mono (occurs : OccursIn pieces e) (among : pieces ⊆ others) : OccursIn others e := by
  -- The piece stays the same.
  obtain ⟨piece, member, way⟩ := occurs
  exact ⟨piece, among member, way⟩

theorem of_mem {piece : Piece} (occurs : OccursIn [piece] e) (member : piece ∈ pieces) :
    OccursIn pieces e :=
  occurs.mono (List.cons_subset.mpr ⟨member, List.nil_subset _⟩)

/-- What occurs in the pieces that a piece is made of occurs in it. -/
theorem within {outer : Piece} (occurs : OccursIn pieces e)
    (inside : ∀ piece ∈ pieces, Contains outer piece) : OccursIn [outer] e := by
  -- The way is longer by one piece.
  obtain ⟨piece, member, way⟩ := occurs
  exact ⟨outer, List.mem_singleton_self outer, .head (inside piece member) way⟩

end OccursIn

/-- The pieces that an item is made of. -/
def Item.pieces : Item → List Piece
  | .exportDecl _ declaration => [.decl declaration]
  | .exportDefaultClass _ _ definition => definition.pieces
  | .exportDefaultFunction _ _ body => body.map .stmt
  | .exportDefaultExpr _ value => [.expr value]
  | .stmt statement => [.stmt statement]
  | .importDecl _ _ _ _ | .other _ => []

/-- The pieces that a module is made of. -/
def Module.pieces (source : Module) : List Piece :=
  source.items.flatMap Item.pieces

/-! ## Parts are subexpressions -/

mutual

/-- A part of an expression is a subexpression, unless it is a name, which can come from a
shorthand. -/
theorem Expr.occursIn_of_mem_parts (x e : Expr) (member : x ∈ e.parts)
    (unnamed : x.isName = false) : OccursIn [.expr e] x := by
  -- An expression is one of its parts itself, and otherwise the part lies further inside.
  have self : OccursIn [.expr x] x := ⟨_, List.mem_singleton_self _, .refl⟩
  cases e with
  | wrapped span wrapper inner =>
    refine (Expr.occursIn_of_mem_parts x inner member unnamed).within fun piece inside => ?_
    exact .of_own inside
  | array span elements =>
    rcases List.mem_cons.mp member with rfl | member
    · exact self
    · refine (occursIn_of_mem_elements x elements member unnamed).within fun piece inside => ?_
      exact .of_own inside
  | object span properties =>
    rcases List.mem_cons.mp member with rfl | member
    · exact self
    · refine (occursIn_of_mem_properties x properties member unnamed).within fun piece inside => ?_
      exact .of_own inside
  | member span object key =>
    rcases List.mem_cons.mp member with rfl | member
    · exact self
    · refine (Expr.occursIn_of_mem_parts x object member unnamed).within fun piece inside => ?_
      obtain rfl := List.mem_singleton.mp inside
      exact .of_own List.mem_cons_self
  | call span callee arguments =>
    rcases List.mem_cons.mp member with rfl | member
    · exact self
    · rcases List.mem_append.mp member with member | member
      · refine (Expr.occursIn_of_mem_parts x callee member unnamed).within fun piece inside => ?_
        obtain rfl := List.mem_singleton.mp inside
        exact .of_own List.mem_cons_self
      · refine (occursIn_of_mem_elements x arguments member unnamed).within fun piece inside => ?_
        exact .of_own (List.mem_cons_of_mem _ inside)
  | _ =>
    obtain rfl := List.mem_singleton.mp member
    exact self

theorem occursIn_of_mem_elements (x : Expr) (elements : List Element)
    (member : x ∈ partsOfElements elements) (unnamed : x.isName = false) :
    OccursIn (elements.map .element) x := by
  -- The part is in the first element or in a later one.
  cases elements with
  | nil => simp [partsOfElements] at member
  | cons element rest =>
    have later (member : x ∈ partsOfElements rest) :
        OccursIn ((element :: rest).map .element) x :=
      (occursIn_of_mem_elements x rest member unnamed).mono (List.subset_cons_self _ _)
    cases element with
    | hole => exact later member
    | item value | spread value =>
      rcases List.mem_append.mp member with member | member
      · refine ((Expr.occursIn_of_mem_parts x value member unnamed).within
          fun piece inside => ?_).of_mem List.mem_cons_self
        exact .of_own inside
      · exact later member

theorem occursIn_of_mem_properties (x : Expr) (properties : List Property)
    (member : x ∈ partsOfProperties properties) (unnamed : x.isName = false) :
    OccursIn (properties.map .property) x := by
  -- The part is in the first property or in a later one.
  cases properties with
  | nil => simp [partsOfProperties] at member
  | cons property rest =>
    have later (member : x ∈ partsOfProperties rest) :
        OccursIn ((property :: rest).map .property) x :=
      (occursIn_of_mem_properties x rest member unnamed).mono (List.subset_cons_self _ _)
    cases property with
    | pair start key value =>
      rcases List.mem_append.mp member with member | member
      · refine ((Expr.occursIn_of_mem_parts x value member unnamed).within
          fun piece inside => ?_).of_mem List.mem_cons_self
        exact .of_own (List.mem_cons_of_mem _ inside)
      · exact later member
    | spread value =>
      rcases List.mem_append.mp member with member | member
      · refine ((Expr.occursIn_of_mem_parts x value member unnamed).within
          fun piece inside => ?_).of_mem List.mem_cons_self
        exact .of_own inside
      · exact later member
    | shorthand span text =>
      -- The name of a shorthand is a part that stands nowhere as an expression.
      rcases List.mem_cons.mp member with rfl | member
      · cases unnamed
      · exact later member
    | _ => exact later member

end

/-- What a body returns is the value of one of its statements. -/
theorem mem_of_returned? {body : List Stmt} {e : Expr} (found : returned? body = some e) :
    ∃ span, .return span (some e) ∈ body := by
  -- The first statement that returns a value decides.
  fun_induction returned? body with
  | case1 => cases found
  | case2 span value rest =>
    cases found
    exact ⟨span, List.mem_cons_self⟩
  | case3 first rest _ ih =>
    obtain ⟨span, member⟩ := ih found
    exact ⟨span, List.mem_cons_of_mem _ member⟩

/-- What stands in a member of a class that is static occurs in the member. -/
theorem ClassMember.occursIn_of_mem_parts {x : Expr} {item : ClassMember} (part : x ∈ item.parts)
    (unnamed : x.isName = false) : OccursIn item.pieces x := by
  -- A static member has the parts of its value, or of what its getter returns.
  unfold ClassMember.parts at part
  split at part
  · rename_i key value
    exact (Expr.occursIn_of_mem_parts x value part unnamed).mono
      (List.subset_cons_of_subset _ (List.Subset.refl _))
  · rename_i key body
    cases found : returned? body with
    | none => simp [found] at part
    | some value =>
      rw [found] at part
      obtain ⟨span, member⟩ := mem_of_returned? found
      -- The value is returned by a statement of the body.
      have inside : OccursIn [.stmt (.return span (some value))] x :=
        (Expr.occursIn_of_mem_parts x value part unnamed).within fun piece inside => .of_own inside
      exact inside.of_mem (List.mem_cons_of_mem _ (List.mem_map_of_mem member))
  · cases part

/-- The parts of a class occur in it. -/
theorem Class.occursIn_of_mem_parts {x : Expr} {definition : Class} (part : x ∈ definition.parts)
    (unnamed : x.isName = false) : OccursIn definition.pieces x := by
  -- The parts are those of the members.
  obtain ⟨item, member, part⟩ := List.mem_flatMap.mp part
  refine (ClassMember.occursIn_of_mem_parts part unnamed).mono fun piece inside => ?_
  exact List.mem_append_right _ (List.mem_flatMap.mpr ⟨item, member, inside⟩)

end Syntax

open Syntax

namespace Scope

/-! ## What a module binds and assigns -/

theorem mem_parts_bind_iff {scope : Scope} {name : String} {binding : Binding} {x : Expr} :
    x ∈ (scope.bind name binding).parts ↔ x ∈ binding.parts ∨ x ∈ scope.parts := by
  simp [Scope.parts, bind]

theorem mem_parts_assign_iff {scope : Scope} {object member : String} {value x : Expr} :
    x ∈ (scope.assign object member value).parts ↔ x ∈ value.parts ∨ x ∈ scope.parts := by
  simp [Scope.parts, assign, or_left_comm]

/-- What is added to the parts of a scope step by step is added by one of the steps. -/
theorem mem_parts_foldl {α : Type} {step : Scope → α → Scope} {adds : α → Prop} {x : Expr}
    (single : ∀ scope a, x ∈ (step scope a).parts → adds a ∨ x ∈ scope.parts) {xs : List α}
    {scope : Scope} (part : x ∈ (xs.foldl step scope).parts) :
    (∃ a ∈ xs, adds a) ∨ x ∈ scope.parts := by
  -- The first step is the last one that is looked at, once the others have not added it.
  induction xs generalizing scope with
  | nil => exact .inr part
  | cons a rest ih =>
    rcases ih part with ⟨b, member, added⟩ | part
    · exact .inl ⟨b, List.mem_cons_of_mem _ member, added⟩
    · exact (single scope a part).imp_left fun added => ⟨a, List.mem_cons_self, added⟩

variable {scope : Scope} {x : Expr}

/-- What an object pattern adds are parts of the value that it takes apart. -/
theorem mem_parts_bindField {value : Expr} {field : Field}
    (part : x ∈ (bindField value scope field).parts) : x ∈ value.parts ∨ x ∈ scope.parts := by
  -- A field binds a name to a property of the value, or nothing.
  unfold bindField at part
  split at part
  · exact mem_parts_bind_iff.mp part
  · split at part
    · exact mem_parts_bind_iff.mp part
    · exact .inr part
  · exact .inr part

/-- What a variable adds occurs in its declaration. -/
theorem mem_parts_bindDeclarator {declarator : Declarator}
    (part : x ∈ (scope.bindDeclarator declarator).parts) (unnamed : x.isName = false) :
    OccursIn [.declarator declarator] x ∨ x ∈ scope.parts := by
  -- All that a declarator binds has the parts of its value.
  have ofValue {pattern : Pattern} {value : Expr} (part : x ∈ value.parts) :
      OccursIn [.declarator (.mk pattern (some value))] x :=
    (Expr.occursIn_of_mem_parts x value part unnamed).within fun piece inside =>
      .of_own (List.mem_cons_of_mem _ inside)
  unfold bindDeclarator at part
  split at part
  · exact (mem_parts_bind_iff.mp part).imp_left ofValue
  · exact (mem_parts_foldl (fun _ _ => mem_parts_bindField) part).imp_left
      fun ⟨_, _, part⟩ => ofValue part
  · exact .inr part

/-- What a declaration adds occurs in it. -/
theorem mem_parts_bindDecl {declaration : Decl} (part : x ∈ (scope.bindDecl declaration).parts)
    (unnamed : x.isName = false) : OccursIn [.decl declaration] x ∨ x ∈ scope.parts := by
  -- Functions bring no parts along, and variables are bound one after the other.
  unfold bindDecl at part
  split at part
  · rename_i name definition
    refine (mem_parts_bind_iff.mp part).imp_left fun part => ?_
    exact (Class.occursIn_of_mem_parts part unnamed).within fun piece inside => .of_kept inside
  · rename_i name body
    exact (mem_parts_bind_iff.mp part).imp_left nofun
  · rename_i declarators
    have single (scope : Scope) (declarator : Declarator)
        (part : x ∈ (scope.bindDeclarator declarator).parts) :=
      mem_parts_bindDeclarator part unnamed
    refine (mem_parts_foldl single part).imp_left fun ⟨declarator, member, occurs⟩ => ?_
    have among : OccursIn (declarators.map .declarator) x :=
      occurs.of_mem (List.mem_map_of_mem member)
    exact among.within fun piece inside => .of_own inside
  · exact .inr part

/-- What an assignment adds occurs in it. -/
theorem mem_parts_assignExpr {e : Expr} (part : x ∈ (scope.assignExpr e).parts)
    (unnamed : x.isName = false) : OccursIn [.expr e] x ∨ x ∈ scope.parts := by
  -- Only the value of an assignment to a member is added.
  unfold assignExpr at part
  split at part
  · split at part
    · refine (mem_parts_assign_iff.mp part).imp_left fun part => ?_
      exact (Expr.occursIn_of_mem_parts x _ part unnamed).within fun piece inside =>
        .of_own (List.mem_cons_of_mem _ inside)
    · exact .inr part
  · exact .inr part

/-- What an item adds occurs in it. -/
theorem mem_parts_bindItem {item : Item} (part : x ∈ (scope.bindItem item).parts)
    (unnamed : x.isName = false) : OccursIn item.pieces x ∨ x ∈ scope.parts := by
  -- Each kind of items adds parts of its own.
  unfold bindItem at part
  split at part
  · rename_i names
    -- Imported names stand for nothing in the module.
    have single (scope : Scope) (name : String) (origin : String)
        (part : x ∈ (scope.bind name (.imported origin)).parts) : False ∨ x ∈ scope.parts :=
      (mem_parts_bind_iff.mp part).imp_left nofun
    refine .inr ((mem_parts_foldl (fun scope name => single scope name _) part).resolve_left ?_)
    rintro ⟨_, _, added⟩
    exact added
  · exact mem_parts_bindDecl part unnamed
  · exact (mem_parts_bind_iff.mp part).imp_left fun part => Class.occursIn_of_mem_parts part unnamed
  · exact (mem_parts_bind_iff.mp part).imp_left nofun
  · rename_i span declaration
    refine (mem_parts_bindDecl part unnamed).imp_left fun occurs => ?_
    exact occurs.within fun piece inside => .of_own inside
  · rename_i span value
    refine (mem_parts_assignExpr part unnamed).imp_left fun occurs => ?_
    exact occurs.within fun piece inside => .of_own inside
  · exact .inr part

/-- The parts of the scope of a module are subexpressions of the module. -/
theorem occursIn_of_mem_parts_ofModule {source : Module} (part : x ∈ (ofModule source).parts)
    (unnamed : x.isName = false) : OccursIn source.pieces x := by
  -- The scope starts without parts, so one of the items added it.
  have single (scope : Scope) (item : Item) (part : x ∈ (scope.bindItem item).parts) :=
    mem_parts_bindItem part unnamed
  rcases mem_parts_foldl single part with ⟨item, member, occurs⟩ | none
  · exact occurs.mono fun piece inside => List.mem_flatMap.mpr ⟨item, member, inside⟩
  · cases none

end Scope

end PropCatalog
