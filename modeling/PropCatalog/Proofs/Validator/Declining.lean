import PropCatalog.Proofs.Related
import PropCatalog.Proofs.Validator.Shape

/-! What a validator declines to describe. A call without an argument to look at has no type, which
passes on to what it is an item of, leaves a union to its text, and a shape without the field. -/

namespace PropCatalog

open Syntax

/-! ## The call that decides -/

/-- An access decides when it names a validator without arguments, or one with arguments that it is
called with. -/
inductive Access.Decides (access : Access) : Prop where
  | simple {kind : SimpleKind} (named : access.name? = some kind.name) : Decides access
  | call {kind : CallKind} {arguments : List Element} (named : access.name? = some kind.name)
      (called : access.arguments = some arguments) : Decides access

/-- A call of a validator with arguments decides the type of a chain: it is made on the first access
that decides, or, where none does, it is the root of the chain, with a bare name. -/
inductive Syntax.Expr.DecidingCall (e : Expr) (kind : CallKind) (arguments : List Element) :
    Prop where
  | access {before after : List Access} {access : Access}
      (split : e.accesses = before ++ access :: after) (first : ∀ other ∈ before, ¬ other.Decides)
      (named : access.name? = some kind.name) (called : access.arguments = some arguments) :
      DecidingCall e kind arguments
  | root {span nameSpan : Span} {callee : Expr} (none : ∀ access ∈ e.accesses, ¬ access.Decides)
      (call : e.chainRoot = .call span callee arguments)
      (bare : callee.unwrap = .name nameSpan kind.name) : DecidingCall e kind arguments

namespace Access

variable {access : Access}

/-- An access gives a call as the verdict exactly when it calls the validator that it names. -/
theorem verdict?_eq_call_iff {kind : CallKind} {arguments : List Element} :
    access.verdict? = some (.call kind arguments) ↔
      access.name? = some kind.name ∧ access.arguments = some arguments := by
  -- No validator with arguments has the name of one without.
  constructor
  · intro decided
    obtain ⟨name, spelled, found⟩ := Option.bind_eq_some_iff.mp decided
    split at found
    · cases found
    · rename_i named called
      cases found
      exact ⟨CallKind.ofName?_eq_some_iff.mp named ▸ spelled, called⟩
    · cases found
  · rintro ⟨named, called⟩
    simp [verdict?, named, kind.ofSimpleName?_name, CallKind.ofName?_name, called]

/-- An access gives no verdict exactly when it does not decide. -/
theorem verdict?_eq_none_iff : access.verdict? = none ↔ ¬ access.Decides := by
  -- Each verdict comes from one of the two ways to decide.
  constructor
  · rintro undecided (named | ⟨named, called⟩)
    · simp [verdict?, named, SimpleKind.ofName?_name] at undecided
    · simp [verdict?_eq_call_iff.mpr ⟨named, called⟩] at undecided
  · intro undecided
    by_contra decided
    obtain ⟨verdict, decided⟩ := Option.ne_none_iff_exists'.mp decided
    cases verdict with
    | simple kind =>
      obtain ⟨name, spelled, found⟩ := Option.bind_eq_some_iff.mp decided
      split at found
      · rename_i named
        exact undecided (.simple (SimpleKind.ofName?_eq_some_iff.mp named ▸ spelled))
      · cases found
      · cases found
    | call kind arguments =>
      obtain ⟨named, called⟩ := verdict?_eq_call_iff.mp decided
      exact undecided (.call named called)

end Access

/-- The root of a chain gives a call as the verdict exactly when it is one with a bare name. -/
theorem Syntax.Expr.rootVerdict?_eq_call_iff {root : Expr} {kind : CallKind}
    {arguments : List Element} :
    root.rootVerdict? = some (.call kind arguments) ↔
      ∃ span callee nameSpan, root = .call span callee arguments ∧
        callee.unwrap = .name nameSpan kind.name := by
  -- A bare name gives a verdict, too, but not a call.
  constructor
  · intro decided
    unfold Expr.rootVerdict? at decided
    split at decided
    · simp at decided
    · rename_i span callee others
      split at decided
      · rename_i nameSpan text bare
        obtain ⟨_, named, same⟩ := Option.map_eq_some_iff.mp decided
        cases same
        exact ⟨span, callee, nameSpan, rfl, CallKind.ofName?_eq_some_iff.mp named ▸ bare⟩
      · cases decided
    · cases decided
  · rintro ⟨span, callee, nameSpan, rfl, bare⟩
    simp [Expr.rootVerdict?, bare, CallKind.ofName?_name]

/-- The verdict on a validator is a call exactly when the call decides its type. -/
theorem Syntax.Expr.verdict?_eq_call_iff {e : Expr} {kind : CallKind} {arguments : List Element} :
    e.verdict? = some (.call kind arguments) ↔ e.DecidingCall kind arguments := by
  -- The accesses come first, and the root is asked when none of them decides.
  rw [Expr.verdict?, Option.or_eq_some_iff, List.findSome?_eq_some_iff, List.findSome?_eq_none_iff,
    rootVerdict?_eq_call_iff]
  simp only [Access.verdict?_eq_call_iff, Access.verdict?_eq_none_iff]
  constructor
  · rintro (⟨before, access, after, split, ⟨named, called⟩, first⟩ |
      ⟨none, span, callee, nameSpan, call, bare⟩)
    · exact .access split first named called
    · exact .root none call bare
  · rintro (⟨split, first, named, called⟩ | ⟨none, call, bare⟩)
    · exact .inl ⟨_, _, _, split, ⟨named, called⟩, first⟩
    · exact .inr ⟨none, _, _, _, call, bare⟩

/-! ## Declining -/

/-- The validators whose type is made of that of their argument. -/
inductive CallKind.Wraps : CallKind → Prop where
  | arrayOf : Wraps .arrayOf
  | objectOf : Wraps .objectOf

/-- A validator declines when the call that decides has no argument to look at, and also when it has
to be made of the type of its argument, and this is a spread or declines. -/
inductive Syntax.Expr.Declines : Expr → Prop where
  -- Argument lists have no holes, so that there is no argument at all.
  | missing {e : Expr} {kind : CallKind} {arguments : List Element}
      (decided : e.DecidingCall kind arguments)
      (missing : ∀ first ∈ arguments.head?, first = .hole) : Declines e
  | spread {e : Expr} {kind : CallKind} {argument : Expr} {others : List Element}
      (decided : e.DecidingCall kind (.spread argument :: others)) (wraps : kind.Wraps) : Declines e
  | item {e : Expr} {kind : CallKind} {argument : Expr} {others : List Element}
      (decided : e.DecidingCall kind (.item argument :: others)) (wraps : kind.Wraps)
      (declines : Declines argument) : Declines e

/-- The value of an element that is neither a hole nor a spread. -/
def Syntax.Element.item? : Element → Option Expr
  | .item value => some value
  | .hole | .spread _ => none

/-- The values of elements are those of all but the holes, unless there is a spread. -/
theorem elementValues?_eq_some_iff {elements : List Element} {values : List Expr} :
    elementValues? elements = some values ↔
      (∀ other, .spread other ∉ elements) ∧ values = elements.filterMap Element.item? := by
  -- The walk ends at the first spread.
  fun_induction elementValues? elements generalizing values with
  | case1 => simp [eq_comm]
  | case2 rest ih => simp [ih, List.filterMap_cons, Element.item?]
  | case3 value rest ih => simp [ih, Element.item?, eq_comm]
  | case4 value rest =>
    simp only [reduceCtorEq, List.mem_cons, false_iff, not_and]
    intro unspread
    exact absurd (.inl rfl) (unspread value)

namespace Analysis

variable (analysis : Analysis)

/-- An argument lists values when it stands for an array literal without spreads. They are the
elements of the literal, but for the holes. -/
inductive Lists : Element → List Expr → Prop where
  | array {argument : Expr} {span : Span} {elements : List Element}
      (literal : analysis.scope.value? argument = some (.array span elements))
      (unspread : ∀ other, .spread other ∉ elements) :
      Lists (.item argument) (elements.filterMap Element.item?)

/-- The text of an argument, with the dots of a spread. -/
def argumentText? : Element → Option String
  | .item argument => some (analysis.quote argument)
  | .spread argument => some ("..." ++ analysis.quote argument)
  | .hole => none

variable {analysis} {e : Expr} {kind : CallKind} {arguments others : List Element}
  {argument : Element} {values : List Expr} {type? : Expr → Option PropType}

/-- The values that an argument lists are those that are read from it. -/
theorem lists_iff : analysis.Lists argument values ↔
    argument.item?.bind analysis.elements? = some values := by
  -- An argument that is a spread stands for no literal.
  constructor
  · rintro ⟨literal, unspread⟩
    have read := elementValues?_eq_some_iff.mpr ⟨unspread, rfl⟩
    simp [Element.item?, elements?, literal, read]
  · intro known
    obtain ⟨value, item, read⟩ := Option.bind_eq_some_iff.mp known
    obtain rfl : argument = .item value := by cases argument <;> simp_all [Element.item?]
    unfold elements? at read
    split at read
    · rename_i literal
      obtain ⟨unspread, rfl⟩ := elementValues?_eq_some_iff.mp read
      exact .array literal unspread
    · cases read

/-- A call has no type exactly when it has no argument to look at, or has to be made of the type of
its argument where this is a spread or has no type. -/
theorem callType?_eq_none_iff :
    analysis.callType? type? kind arguments = none ↔
      (∀ first ∈ arguments.head?, first = .hole) ∨
      (∃ argument others, arguments = .spread argument :: others ∧ kind.Wraps) ∨
      ∃ argument others, arguments = .item argument :: others ∧ kind.Wraps ∧
        type? argument = none := by
  -- The first argument is missing, a spread or an expression.
  have wraps : kind.Wraps ↔ kind = .arrayOf ∨ kind = .objectOf :=
    ⟨fun wraps => by cases wraps <;> simp, by rintro (rfl | rfl) <;> constructor⟩
  rw [wraps]
  cases arguments with
  | nil => simp [callType?]
  | cons first others =>
    cases first with
    | hole => simp [callType?]
    | spread argument => cases kind <;> simp [callType?, CallKind.ofSpread?]
    | item argument =>
      -- Only the validators that wrap a type pass on that there is none.
      cases kind with
      | arrayOf | objectOf => simp [callType?, argumentType?]
      | instanceOf => simp [callType?, argumentType?]
      | oneOf | oneOfType | shape =>
        simp only [callType?, argumentType?]
        split <;> simp

/-- An enumeration is known exactly when its argument lists values. -/
theorem callType?_oneOf :
    analysis.callType? type? .oneOf (argument :: others) =
      match argument.item?.bind analysis.elements? with
      | some values => some (.enum (values.map analysis.enumMember))
      | none => (analysis.argumentText? argument).map .enumText := by
  -- A spread is no value to read, so that its text stands.
  cases argument with
  | hole | spread => rfl
  | item argument => rfl

/-- A union is known exactly when its argument lists values that all have a type. -/
theorem callType?_oneOfType :
    analysis.callType? type? .oneOfType (argument :: others) =
      match (argument.item?.bind analysis.elements?).bind fun values => values.mapM type? with
      | some types => some (.union types)
      | none => (analysis.argumentText? argument).map .unionText := by
  -- As for an enumeration, the text of a spread stands.
  cases argument with
  | hole | spread => rfl
  | item argument => rfl

/-! ## Validators without a type -/

/-- The type of a validator with a call that decides is the type of the call. -/
theorem WellNested.type?_of_call (well : analysis.WellNested e)
    (decided : e.DecidingCall kind arguments) :
    analysis.type? e = analysis.callType? analysis.type? kind arguments := by
  -- The type hangs on the verdict, which is the call.
  rw [well.type?_eq]
  simp only [typeStep?, Expr.verdict?_eq_call_iff.mpr decided]

/-- A validator without a type has a call without a type that decides. -/
theorem WellNested.exists_call (well : analysis.WellNested e) (untyped : analysis.type? e = none) :
    ∃ kind arguments, e.DecidingCall kind arguments ∧
      analysis.callType? analysis.type? kind arguments = none := by
  -- Validators without arguments have a type, and so has what nothing decides.
  rw [well.type?_eq, typeStep?] at untyped
  split at untyped
  · cases untyped
  · rename_i kind arguments decided
    exact ⟨kind, arguments, Expr.verdict?_eq_call_iff.mp decided, untyped⟩
  · cases untyped

/-- The argument that a type is made of is read inside of the validator. -/
theorem nests_of_wraps {value : Expr} (decided : e.DecidingCall kind (.item value :: others))
    (wraps : kind.Wraps) : analysis.Nests e value := by
  -- The argument is the one validator that is read inside.
  simp only [Nests, nested, Expr.verdict?_eq_call_iff.mpr decided]
  cases wraps <;> exact List.mem_singleton.mpr rfl

/-- The values that the argument of a union lists are read inside of the validator. -/
theorem Lists.nests (lists : analysis.Lists argument values)
    (decided : e.DecidingCall .oneOfType (argument :: others)) :
    ∀ value ∈ values, analysis.Nests e value := by
  -- The argument is an array without spreads.
  intro value member
  have read := lists_iff.mp lists
  cases lists with
  | array literal unspread =>
    have elements := read
    simp only [Element.item?, Option.bind_some] at elements
    simp only [Nests, nested, Expr.verdict?_eq_call_iff.mpr decided, argumentValidators, elements]
    exact member

/-- The validators of the fields of a shape are read inside of it. -/
theorem nests_of_pair {value target : Expr} {literal : ObjectLiteral} {start : Nat} {key : Key}
    {name : String} (decided : e.DecidingCall .shape (.item target :: others))
    (leads : analysis.scope.object? target = some literal)
    (member : .pair start key value ∈ literal.properties)
    (named : analysis.scope.keyName? key = some name) : analysis.Nests e value := by
  -- A pair with a name gives the validator of a field.
  simp only [Nests, nested, Expr.verdict?_eq_call_iff.mpr decided, argumentValidators, leads]
  exact List.mem_filterMap.mpr ⟨_, member, by simp [fieldValidator?, named]⟩

/-- A validator that does not contain itself has no type exactly when it declines. -/
theorem WellNested.type?_eq_none_iff (well : analysis.WellNested e) :
    analysis.type? e = none ↔ e.Declines := by
  -- What declines inside makes what is around it decline, and nothing else does.
  constructor
  · intro untyped
    -- Validators that wrap each other come to an end.
    induction well.acc with
    | intro e _ ih =>
      obtain ⟨kind, arguments, decided, untyped⟩ := well.exists_call untyped
      rcases callType?_eq_none_iff.mp untyped with missing | ⟨value, others, rfl, wraps⟩ |
        ⟨value, others, rfl, wraps, untyped⟩
      · exact .missing decided missing
      · exact .spread decided wraps
      · have nests : analysis.Nests e value := nests_of_wraps decided wraps
        exact .item decided wraps (ih value nests (well.inner nests) untyped)
  · intro declines
    induction declines with
    | missing decided missing =>
      rw [well.type?_of_call decided]
      exact callType?_eq_none_iff.mpr (.inl missing)
    | spread decided wraps =>
      rw [well.type?_of_call decided]
      exact callType?_eq_none_iff.mpr (.inr (.inl ⟨_, _, rfl, wraps⟩))
    | item decided wraps _ ih =>
      have untyped := ih (well.inner (nests_of_wraps decided wraps))
      rw [well.type?_of_call decided]
      exact callType?_eq_none_iff.mpr (.inr (.inr ⟨_, _, rfl, wraps, untyped⟩))

/-! ## Listed values -/

/-- An enumeration is known exactly when its argument lists values. -/
theorem WellNested.type?_eq_enum_iff (well : analysis.WellNested e)
    (decided : e.DecidingCall .oneOf (argument :: others)) {members : List EnumMember} :
    analysis.type? e = some (.enum members) ↔
      ∃ values, analysis.Lists argument values ∧ members = values.map analysis.enumMember := by
  -- Whether members are texts or known tells both cases apart.
  rw [well.type?_of_call decided, callType?_oneOf]
  simp only [lists_iff]
  cases argument.item?.bind analysis.elements? with
  | none => simp
  | some values => simp [eq_comm]

/-- The text of its argument stands for an enumeration that is not known. -/
theorem WellNested.type?_eq_enumText (well : analysis.WellNested e)
    (decided : e.DecidingCall .oneOf (argument :: others))
    (unlisted : ∀ values, ¬ analysis.Lists argument values) :
    analysis.type? e = (analysis.argumentText? argument).map .enumText := by
  -- What is not listed cannot be read as elements.
  have unread : argument.item?.bind analysis.elements? = none :=
    Option.eq_none_iff_forall_ne_some.mpr fun values read => unlisted values (lists_iff.mpr read)
  rw [well.type?_of_call decided, callType?_oneOf, unread]

/-- A union is known exactly when its argument lists values with types. -/
theorem WellNested.type?_eq_union_iff (well : analysis.WellNested e)
    (decided : e.DecidingCall .oneOfType (argument :: others)) {types : List PropType} :
    analysis.type? e = some (.union types) ↔
      ∃ values, analysis.Lists argument values ∧
        List.Forall₂ (fun value type => analysis.type? value = some type) values types := by
  -- The types of the listed values are read one by one.
  rw [well.type?_of_call decided, callType?_oneOfType]
  simp only [lists_iff, ← mapM_eq_some_iff, ← Option.bind_eq_some_iff]
  cases (argument.item?.bind analysis.elements?).bind fun values => values.mapM analysis.type? with
  | none => simp
  | some read => simp

/-- A union is known exactly when its argument lists values that do not decline. -/
theorem WellNested.exists_union_iff (well : analysis.WellNested e)
    (decided : e.DecidingCall .oneOfType (argument :: others)) :
    (∃ types, analysis.type? e = some (.union types)) ↔
      ∃ values, analysis.Lists argument values ∧ ∀ value ∈ values, ¬ value.Declines := by
  -- The values are read inside of the union, so that those without a type are those that decline.
  simp only [well.type?_eq_union_iff decided]
  rw [exists_comm]
  refine exists_congr fun values => ?_
  rw [exists_and_left, exists_forall₂_iff]
  refine and_congr_right fun lists => forall₂_congr fun value member => ?_
  rw [← (well.inner (lists.nests decided value member)).type?_eq_none_iff,
    ← Option.ne_none_iff_exists', ne_eq]

/-- The text of its argument stands for a union that is not known. -/
theorem WellNested.type?_eq_unionText (well : analysis.WellNested e)
    (decided : e.DecidingCall .oneOfType (argument :: others))
    (unknown : ∀ types, analysis.type? e ≠ some (.union types)) :
    analysis.type? e = (analysis.argumentText? argument).map .unionText := by
  -- A call of this kind makes one of the two.
  rw [well.type?_of_call decided, callType?_oneOfType] at unknown ⊢
  split at unknown
  · exact absurd rfl (unknown _)
  · rfl

/-! ## Fields -/

/-- The names of the fields of a shape are those of the pairs whose values have a type. -/
theorem mem_names_shapeFields_iff {properties : List Property} {name : String} :
    name ∈ (analysis.shapeFields type? properties).map ShapeField.name ↔
      ∃ start key value, .pair start key value ∈ properties ∧
        analysis.scope.keyName? key = some name ∧ type? value ≠ none := by
  -- Fields that are put in keep all names of those before them.
  have names : (analysis.shapeFields type? properties).map ShapeField.name =
      ((properties.filterMap (analysis.shapeField? type?)).map ShapeField.name).eraseDups := by
    have entries := congrArg (List.map Prod.fst) (ShapeField.map_entry_foldl_insert
      (properties.filterMap (analysis.shapeField? type?)))
    have inserted := OrderedMap.names_ofList
      ((properties.filterMap (analysis.shapeField? type?)).map ShapeField.entry)
    rw [List.map_map] at entries inserted
    exact entries.trans inserted
  rw [names, List.mem_eraseDups]
  simp only [List.mem_map, List.mem_filterMap]
  constructor
  · rintro ⟨field, ⟨property, member, described⟩, rfl⟩
    cases property with
    | pair start key value =>
      simp only [shapeField?, Option.bind_eq_some_iff, Option.map_eq_some_iff] at described
      obtain ⟨name, named, type, read, rfl⟩ := described
      exact ⟨start, key, value, member, named, by simp [read]⟩
    | _ => cases described
  · rintro ⟨start, key, value, member, named, typed⟩
    obtain ⟨type, read⟩ := Option.ne_none_iff_exists'.mp typed
    have described : analysis.shapeField? type? (.pair start key value) = some (.mk name type
        (! type.isCustom && value.isRequired) (analysis.file.descriptionAt? start)) := by
      simp [shapeField?, named, read]
    exact ⟨_, ⟨_, member, described⟩, rfl⟩

/-- Properties that describe no field can be dropped. -/
theorem shapeFields_filter {properties : List Property} {keep : Property → Bool}
    (dropped : ∀ property ∈ properties, keep property = false →
      analysis.shapeField? type? property = none) :
    analysis.shapeFields type? (properties.filter keep) =
      analysis.shapeFields type? properties := by
  -- The fields are collected from the properties one by one.
  rw [shapeFields, shapeFields, List.filterMap_filter]
  congr 1
  refine List.filterMap_congr fun property member => ?_
  cases kept : keep property with
  | true => simp
  | false => simp [dropped property member kept]

/-- A validator that does not contain itself has no type exactly when it declines. An enumeration is
known exactly when its argument lists values, and has a member for each of them. A union is known
exactly when its argument lists values that do not decline, and has their types as its members.
Otherwise the text of the argument stands for it. A shape has the fields of all pairs whose values
do not decline, and pairs whose values decline can be dropped from it. -/
theorem type?_declining (well : analysis.WellNested e) :
    (analysis.type? e = none ↔ e.Declines) ∧
    (∀ argument others, e.DecidingCall .oneOf (argument :: others) →
      (∀ members, analysis.type? e = some (.enum members) ↔
        ∃ values, analysis.Lists argument values ∧ members = values.map analysis.enumMember) ∧
      ((∀ values, ¬ analysis.Lists argument values) →
        analysis.type? e = (analysis.argumentText? argument).map .enumText)) ∧
    (∀ argument others, e.DecidingCall .oneOfType (argument :: others) →
      (∀ types, analysis.type? e = some (.union types) ↔
        ∃ values, analysis.Lists argument values ∧
          List.Forall₂ (fun value type => analysis.type? value = some type) values types) ∧
      ((∃ types, analysis.type? e = some (.union types)) ↔
        ∃ values, analysis.Lists argument values ∧ ∀ value ∈ values, ¬ value.Declines) ∧
      ((∀ values, analysis.Lists argument values → ∃ value ∈ values, value.Declines) →
        analysis.type? e = (analysis.argumentText? argument).map .unionText)) ∧
    ∀ target others literal, e.DecidingCall .shape (.item target :: others) →
      analysis.scope.object? target = some literal →
      ∃ fields, analysis.type? e = some (.shape fields) ∧
        (∀ name, name ∈ fields.map ShapeField.name ↔
          ∃ start key value, .pair start key value ∈ literal.properties ∧
            analysis.scope.keyName? key = some name ∧ ¬ value.Declines) ∧
        ∀ keep : Property → Bool,
          (∀ property ∈ literal.properties, keep property = false →
            ∃ start key value, property = .pair start key value ∧ value.Declines) →
          analysis.shapeFields analysis.type? (literal.properties.filter keep) = fields := by
  -- Each call is settled by what is read inside of it.
  refine ⟨well.type?_eq_none_iff,
    fun argument others decided => ⟨fun members => ?_, fun unlisted => ?_⟩,
    fun argument others decided => ⟨fun types => ?_, ?_, fun declining => ?_⟩,
    fun target others literal decided leads => ?_⟩
  · exact well.type?_eq_enum_iff decided
  · exact well.type?_eq_enumText decided unlisted
  · exact well.type?_eq_union_iff decided
  · exact well.exists_union_iff decided
  · -- A union that is known has no value that declines.
    refine well.type?_eq_unionText decided fun types known => ?_
    obtain ⟨values, lists, typed⟩ := (well.exists_union_iff decided).mp ⟨types, known⟩
    obtain ⟨value, member, declines⟩ := declining values lists
    exact typed value member declines
  · -- The values of all pairs with a name are read inside of the shape.
    have untyped : ∀ start key value name, .pair start key value ∈ literal.properties →
        analysis.scope.keyName? key = some name →
        (analysis.type? value = none ↔ value.Declines) := fun start key value name member named =>
      (well.inner (nests_of_pair decided leads member named)).type?_eq_none_iff
    refine ⟨analysis.shapeFields analysis.type? literal.properties, ?_, fun name => ?_,
      fun keep dropped => ?_⟩
    · rw [well.type?_of_call decided]
      simp [callType?, argumentType?, leads]
    · rw [mem_names_shapeFields_iff]
      refine exists_congr fun start => exists_congr fun key => exists_congr fun value => ?_
      refine and_congr_right fun member => and_congr_right fun named => ?_
      rw [ne_eq, untyped start key value name member named]
    · -- A pair whose key is not known describes no field, whatever its value is.
      refine shapeFields_filter fun property member out => ?_
      obtain ⟨start, key, value, rfl, declines⟩ := dropped property member out
      cases named : analysis.scope.keyName? key with
      | none => simp [shapeField?, named]
      | some name =>
        have none := (untyped start key value name member named).mpr declines
        simp [shapeField?, named, none]

namespace Partial

/-- The validator `PropTypes.shape()`. -/
def empty : Expr :=
  .call ⟨75, 92⟩ (Fields.access 75 84 90 "PropTypes" "shape") []

/-- The validator `PropTypes.arrayOf(PropTypes.shape())`. -/
def list : Expr :=
  .call ⟨57, 93⟩ (Fields.access 57 66 74 "PropTypes" "arrayOf") [.item empty]

/-- The validator `PropTypes.number`. -/
def number : Expr :=
  Fields.access 98 107 114 "PropTypes" "number"

/-- The literal `{ a: PropTypes.arrayOf(PropTypes.shape()), b: PropTypes.number }`. -/
def literal : ObjectLiteral where
  span := ⟨52, 116⟩
  properties := [.pair 54 (.name "a") list, .pair 95 (.name "b") number]

/-- The shape of the literal. -/
def shape : Expr :=
  Fields.shape 36 literal

/-- A module with a shape of which one field cannot be described. -/
def module : Analysis where
  file :=
    { text := "import PropTypes from 'prop-types';\n" ++
        "PropTypes.shape(\x7b a: PropTypes.arrayOf(PropTypes.shape()), b: PropTypes.number \x7d);"
      module := ⟨[.importDecl ⟨0, 35⟩ false (some "prop-types") ["PropTypes"],
        .stmt (.expr ⟨36, 118⟩ shape)]⟩
      comments := [] }
  scope := { bindings := [("PropTypes", .imported "prop-types")], assignments := [] }
  validatorModules := []

theorem wellNested : Partial.module.WellNested shape := by
  -- A validator inside of another one is a shorter text.
  have start : shape ∈ [shape, list, number, empty] := by simp
  exact wellNested_of_falls start (fun e => e.span.hi - e.span.lo) (by decide +kernel)

theorem declines : list.Declines := by
  -- The empty shape has no argument, and the list around it wraps its type.
  have inner : empty.Declines :=
    .missing (Expr.verdict?_eq_call_iff.mp rfl : empty.DecidingCall .shape []) (by simp)
  have outer : list.DecidingCall .arrayOf [.item empty] := Expr.verdict?_eq_call_iff.mp rfl
  exact .item outer .arrayOf inner

theorem not_declines_number : ¬ number.Declines := by
  -- A validator without arguments has no call that decides.
  have simple : number.verdict? = some (.simple .number) := rfl
  have uncalled : ∀ kind arguments, ¬ number.DecidingCall kind arguments := by
    intro kind arguments call
    have decided := Expr.verdict?_eq_call_iff.mpr call
    rw [simple] at decided
    cases decided
  intro declines
  cases declines with
  | missing decided | spread decided | item decided => exact uncalled _ _ decided

end Partial

theorem type?_declining_field :
    Partial.module.WellNested Partial.shape ∧ Partial.list.Declines ∧
    ∃ fields, Partial.module.type? Partial.shape = some (.shape fields) ∧
      "a" ∉ fields.map ShapeField.name ∧ "b" ∈ fields.map ShapeField.name ∧
      Partial.module.shapeFields Partial.module.type? (Partial.literal.properties.drop 1) =
        fields := by
  -- The two pairs are those of a list that declines and of a number.
  obtain ⟨-, -, -, shapes⟩ := type?_declining Partial.wellNested
  have decided : Partial.shape.DecidingCall .shape
      [.item (.object Partial.literal.span Partial.literal.properties)] :=
    Expr.verdict?_eq_call_iff.mp rfl
  obtain ⟨fields, described, named, dropped⟩ := shapes _ _ Partial.literal decided rfl
  have pairs : ∀ start key value, .pair start key value ∈ Partial.literal.properties →
      start = 54 ∧ key = .name "a" ∧ value = Partial.list ∨
        start = 95 ∧ key = .name "b" ∧ value = Partial.number := by
    simp [Partial.literal]
  refine ⟨Partial.wellNested, Partial.declines, fields, described, fun known => ?_, ?_, ?_⟩
  · -- The only value under the name declines.
    obtain ⟨start, key, value, member, spelled, typed⟩ := (named "a").mp known
    rcases pairs start key value member with ⟨-, -, rfl⟩ | ⟨-, rfl, -⟩
    · exact typed Partial.declines
    · exact absurd spelled (by decide)
  · refine (named "b").mpr ⟨95, .name "b", Partial.number, by simp [Partial.literal], rfl, ?_⟩
    exact Partial.not_declines_number
  · -- Only the pair of the value that declines bears the name.
    let keep : Property → Bool := fun property =>
      Partial.module.scope.propertyName? property != some "a"
    refine dropped keep fun property member out => ?_
    rcases List.mem_cons.mp member with rfl | member
    · exact ⟨_, _, _, rfl, Partial.declines⟩
    · obtain rfl := List.mem_singleton.mp member
      exact absurd out (by decide)

end Analysis

end PropCatalog
