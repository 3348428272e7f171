import PropCatalog.Proofs.Validator.Finishing

/-! Validators under their bare names, as they are imported one by one, beside the same validators
as accesses to a namespace. Both are decided alike when the chain behind the name calls nothing but
the validator itself. -/

namespace PropCatalog

open Syntax

/-- None of the links is a call. -/
def Uncalled (links : List Link) : Prop :=
  ∀ arguments, .call arguments ∉ links

/-- None of the links is an access that names a validator. -/
def Undeciding (links : List Link) : Prop :=
  ∀ key name, .access key ∈ links → key.accessed? = some name →
    SimpleKind.ofName? name = none ∧ CallKind.ofName? name = none

/-- A name with links behind it is known as a bare name: of a validator without arguments, or of one
with arguments that is called first. All links behind that are accesses. -/
inductive KnownBare (text : String) : List Link → Prop where
  | simple {kind : SimpleKind} {links : List Link} (named : SimpleKind.ofName? text = some kind)
      (uncalled : Uncalled links) : KnownBare text links
  | call {kind : CallKind} {arguments : List Element} {links : List Link}
      (named : CallKind.ofName? text = some kind) (uncalled : Uncalled links) :
      KnownBare text (.call arguments :: links)

/-- Links that name no validator have no access that decides. -/
theorem Undeciding.verdict?_eq_none {links : List Link} (undeciding : Undeciding links)
    {around : Option (List Element)} :
    ∀ access ∈ accessesAlong around links, access.verdict? = none := by
  -- Each access is the one of a link.
  have keys : ∀ links : List Link, ∀ access ∈ accessesAlong around links,
      .access access.key ∈ links := by
    intro links
    induction links with
    | nil => simp [accessesAlong]
    | cons link rest ih =>
      cases link with
      | access key => simpa [accessesAlong] using fun access member => .inr (ih access member)
      | call arguments => simpa [accessesAlong] using ih
  intro access member
  refine Option.bind_eq_none_iff.mpr fun name spelled => ?_
  obtain ⟨simple, call⟩ := undeciding access.key name (keys links access member) spelled
  simp [simple, call]

namespace Syntax.Expr.Continues

variable {start e : Expr} {links : List Link} {span : Span} {text : String}

/-- Links lead from an expression to itself only when there are none, and else to no name. -/
theorem unwrap_eq (continues : start.Continues links e) :
    (links = [] ∧ e.unwrap = start.unwrap) ∨
      (links ≠ [] ∧ ∀ span text, e.unwrap ≠ .name span text) := by
  -- The last link is what stands inside all wrappers.
  induction continues with
  | start => exact .inl ⟨rfl, rfl⟩
  | access | call => exact .inr ⟨by simp, by simp [unwrap]⟩
  | wrapped _ ih => exact ih

/-- The root of a chain that goes on from a name is the last call, or the name if there is none. -/
theorem chainRoot_eq (continues : (Expr.name span text).Continues links e) :
    (Uncalled links ∧ e.chainRoot = .name span text) ∨
      ∃ before arguments after outer callee, links = before ++ .call arguments :: after ∧
        Uncalled after ∧ e.chainRoot = .call outer callee arguments ∧
        (Expr.name span text).Continues before callee := by
  -- The links are gone along from the name to the tip.
  induction continues with
  | start => exact .inl ⟨by simp [Uncalled], rfl⟩
  | @access _ _ _ key _ ih =>
    -- An access at the tip is passed on the way to the root.
    rcases ih with ⟨uncalled, same⟩ | ⟨before, arguments, after, outer, callee, rfl, uncalled, rest⟩
    · exact .inl ⟨by simpa [Uncalled] using uncalled, same⟩
    · exact .inr ⟨before, arguments, after ++ [.access key], outer, callee, by simp,
        by simpa [Uncalled] using uncalled, rest⟩
  | @call links outer callee arguments inner _ =>
    exact .inr ⟨links, arguments, [], outer, callee, rfl, by simp [Uncalled], rfl, inner⟩
  | wrapped _ ih => exact ih

end Syntax.Expr.Continues

section Spellings

variable {owner e e' : Expr} {key : Key} {text : String} {links : List Link} {span span' : Span}
  {verdict : Verdict}

/-- An access to a namespace decides all that goes on from it, if it decides anything. -/
theorem verdict?_of_namespace (outside : ∀ access ∈ owner.accesses, access.verdict? = none)
    (continues : (Expr.member span owner key).Continues links e)
    (decides : (⟨key, calledWith none links⟩ : Access).verdict? = some verdict) :
    e.verdict? = some verdict := by
  -- It is the first access behind those of the namespace.
  have accesses : e.accesses =
      owner.accesses ++ ⟨key, calledWith none links⟩ :: accessesAlong none links := by
    rw [Expr.accesses, continues.reverse_accessesInward, accessesInward]
    simp [Expr.accesses]
  have before : owner.accesses.findSome? Access.verdict? = none :=
    List.findSome?_eq_none_iff.mpr outside
  rw [Expr.verdict?, accesses, List.findSome?_append, before]
  simp [decides]

/-- Behind a bare name no access decides, so that the root of the chain does. -/
theorem verdict?_of_bare (undeciding : Undeciding links)
    (continues : (Expr.name span text).Continues links e) :
    e.verdict? = e.chainRoot.rootVerdict? := by
  -- A name has no accesses of its own.
  have accesses : e.accesses = accessesAlong none links := by
    rw [Expr.accesses, continues.reverse_accessesInward]
    rfl
  have nothing : (accessesAlong none links).findSome? Access.verdict? = none :=
    List.findSome?_eq_none_iff.mpr undeciding.verdict?_eq_none
  rw [Expr.verdict?, accesses, nothing, Option.none_or]

/-- A bare name that is known decides what an access of that name decides. -/
theorem KnownBare.exists_verdict (known : KnownBare text links) (undeciding : Undeciding links)
    (spelled : key.accessed? = some text) (continues : (Expr.name span text).Continues links e) :
    ∃ verdict, e.verdict? = some verdict ∧
      (⟨key, calledWith none links⟩ : Access).verdict? = some verdict := by
  -- The access decides by the first link behind it, and the name by what the chain ends at.
  rw [verdict?_of_bare undeciding continues]
  cases known with
  | @simple kind links named uncalled =>
    -- No call ends the way to the root before the name.
    refine ⟨.simple kind, ?_, by simp [Access.verdict?, Access.name?, spelled, named]⟩
    rcases continues.chainRoot_eq with ⟨-, root⟩ | ⟨before, arguments, after, _, _, rfl, -⟩
    · simp [root, Expr.rootVerdict?, named]
    · exact absurd (by simp) (uncalled arguments)
  | @call kind arguments rest named uncalled =>
    -- The only call is the one of the name.
    obtain rfl := CallKind.ofName?_eq_some_iff.mp named
    have simple := kind.ofSimpleName?_name
    refine ⟨.call kind arguments, ?_, by
      simp [Access.verdict?, Access.name?, spelled, named, simple, calledWith, Link.arguments?]⟩
    rcases continues.chainRoot_eq with
      ⟨none, -⟩ | ⟨before, others, after, _, callee, split, -, root, inner⟩
    · exact absurd (by simp) (none arguments)
    · obtain ⟨rfl, rfl⟩ : before = [] ∧ others = arguments := by
        cases before with
        | nil => simp_all
        | cons first between =>
          obtain ⟨-, rfl⟩ := List.cons.inj split
          exact absurd (by simp) (uncalled others)
      rcases inner.unwrap_eq with ⟨-, same⟩ | ⟨some, -⟩
      · simp [root, Expr.rootVerdict?, same, Expr.unwrap, named]
      · exact absurd rfl some

/-- A bare name that decides is known. -/
theorem knownBare_of_verdict? (undeciding : Undeciding links)
    (continues : (Expr.name span text).Continues links e) (decided : e.verdict? = some verdict) :
    KnownBare text links := by
  -- No access on the chain decides, so that its root does.
  rw [verdict?_of_bare undeciding continues] at decided
  rcases continues.chainRoot_eq with ⟨uncalled, root⟩ | ⟨before, arguments, after, _, callee, rfl,
    uncalled, root, inner⟩
  · rw [root, Expr.rootVerdict?] at decided
    obtain ⟨kind, named, -⟩ := Option.map_eq_some_iff.mp decided
    exact .simple named uncalled
  · -- The last call is one of a name only when there is nothing before it.
    rw [root, Expr.rootVerdict?] at decided
    rcases inner.unwrap_eq with ⟨rfl, same⟩ | ⟨-, noName⟩
    · simp only [same, Expr.unwrap] at decided
      obtain ⟨kind, named, -⟩ := Option.map_eq_some_iff.mp decided
      exact .call named uncalled
    · split at decided
      · rename_i name
        exact absurd name (noName _ _)
      · cases decided

namespace Analysis

/-- The ways to read the type of a validator: within any limit on nesting, and within a limit of its
own when it does not contain itself. -/
inductive Reading (analysis : Analysis) (e : Expr) : (Expr → Option PropType) → Prop where
  | within (depth : Nat) : Reading analysis e (analysis.typeWithin? depth)
  | whole (well : analysis.WellNested e) : Reading analysis e analysis.type?

variable {analysis : Analysis} {read? : Expr → Option PropType} {type : PropType}

/-- A validator with a type is read in a step, and so is any other one that has nothing inside that
is not inside of it. -/
theorem Reading.exists_step (reading : analysis.Reading e read?) (found : read? e = some type) :
    ∃ inner? : Expr → Option PropType, ∀ other : Expr,
      analysis.nested other ⊆ analysis.nested e →
        read? other = analysis.typeStep? inner? other := by
  -- A limit leaves one level less for what is inside.
  cases reading with
  | within depth =>
    cases depth with
    | zero => simp [typeWithin?] at found
    | succ depth => exact ⟨analysis.typeWithin? depth, fun other _ => rfl⟩
  | whole well => exact ⟨analysis.type?, fun other fewer => (well.of_subset fewer).type?_eq⟩

/-- A validator that is recognized as an access to a namespace has the same type under its bare name
exactly when it is known by that name with the links behind it: when nothing is called there but,
first of all, a validator with arguments. Otherwise its bare name makes a custom type. -/
theorem type?_bare_iff (outside : ∀ access ∈ owner.accesses, access.verdict? = none)
    (spelled : key.accessed? = some text) (undeciding : Undeciding links)
    (spaced : (Expr.member span owner key).Continues links e)
    (bare : (Expr.name span' text).Continues links e') (reading : analysis.Reading e read?)
    (found : read? e = some type) (recognized : type.isCustom = false) :
    (read? e' = some type ↔ KnownBare text links) ∧
      (¬ KnownBare text links → read? e' = some (.custom (analysis.quote e'))) := by
  -- A type that is not custom comes from a verdict, and the verdict is that of a known name.
  obtain ⟨inner?, step⟩ := reading.exists_step found
  have read := step e (List.Subset.refl _)
  by_cases known : KnownBare text links
  · -- Both spellings are decided alike, and a step hangs on nothing else.
    obtain ⟨verdict, decided', decides⟩ := known.exists_verdict undeciding spelled bare
    have decided := verdict?_of_namespace outside spaced decides
    have inside : analysis.nested e' = analysis.nested e := by
      simp only [nested, decided, decided']
    have same : read? e' = read? e := by
      rw [read, step e' (by simp [inside])]
      cases verdict <;> simp only [typeStep?, decided, decided']
    exact ⟨⟨fun _ => known, fun _ => same.trans found⟩, fun unknown => absurd known unknown⟩
  · -- Nothing decides under the bare name.
    have undecided : e'.verdict? = none := by
      by_contra decides
      obtain ⟨verdict, decided⟩ := Option.ne_none_iff_exists'.mp decides
      exact known (knownBare_of_verdict? undeciding bare decided)
    have inside : analysis.nested e' = [] := by simp only [nested, undecided]
    have custom : read? e' = some (.custom (analysis.quote e')) := by
      rw [step e' (by simp [inside])]
      simp only [typeStep?, undecided]
    refine ⟨⟨fun same => ?_, fun known' => absurd known' known⟩, fun _ => custom⟩
    obtain rfl := Option.some.inj (same.symm.trans custom)
    cases recognized

end Analysis

end Spellings

namespace Analysis

namespace Imported

/-- A literal `{ id: number }`. -/
def item (start : Nat) : Expr :=
  .object ⟨start, start + 14⟩
    [.pair (start + 2) (.name "id") (.name ⟨start + 6, start + 12⟩ "number")]

/-- `PropTypes`, where it starts. -/
def owner (start : Nat) : Expr :=
  .name ⟨start, start + 9⟩ "PropTypes"

/-- `PropTypes.shape`, where it starts. -/
def spaced (start : Nat) : Expr :=
  .member ⟨start, start + 15⟩ (owner start) (.name "shape")

/-- `shape` alone, in the place where it stands behind the namespace. -/
def bare (start : Nat) : Expr :=
  .name ⟨start + 10, start + 15⟩ "shape"

/-- A shape that is required. -/
def required (shape : Expr) : Expr :=
  .member ⟨shape.span.lo, 97⟩ (.call ⟨shape.span.lo, 86⟩ shape [.item (item 71)])
    (.name "isRequired")

/-- A shape with a call behind it. -/
def described (shape : Expr) : Expr :=
  .call ⟨shape.span.lo, 151⟩
    (.member ⟨shape.span.lo, 139⟩ (.call ⟨shape.span.lo, 130⟩ shape [.item (item 115)])
      (.name "describe"))
    [.item (.string ⟨140, 150⟩ "An item.")]

/-- The links behind the shape that is required. -/
def requiredLinks : List Link :=
  [.call [.item (item 71)], .access (.name "isRequired")]

/-- The links behind the shape with a call behind it. -/
def describedLinks : List Link :=
  [.call [.item (item 115)], .access (.name "describe"),
    .call [.item (.string ⟨140, 150⟩ "An item.")]]

/-- A module that imports both the namespace and the validators of `prop-types`. -/
def module : Analysis where
  file :=
    { text := "import PropTypes, \x7b number, shape \x7d from 'prop-types';\n" ++
        "PropTypes.shape(\x7b id: number \x7d).isRequired;\n" ++
        "PropTypes.shape(\x7b id: number \x7d).describe('An item.');"
      module := ⟨[.importDecl ⟨0, 54⟩ false (some "prop-types") ["PropTypes", "number", "shape"],
        .stmt (.expr ⟨55, 98⟩ (required (spaced 55))),
        .stmt (.expr ⟨99, 152⟩ (described (spaced 99)))]⟩
      comments := [] }
  scope :=
    { bindings := [("shape", .imported "prop-types"), ("number", .imported "prop-types"),
        ("PropTypes", .imported "prop-types")]
      assignments := [] }
  validatorModules := []

/-- The type of both shapes. -/
def itemType : PropType :=
  .shape [.mk "id" (.simple .number) false none]

theorem continues_required (shape : Expr) : shape.Continues requiredLinks (required shape) :=
  .access (.call .start)

theorem continues_described (shape : Expr) : shape.Continues describedLinks (described shape) :=
  .call (.access (.call .start))

theorem undeciding_required : Undeciding requiredLinks := by
  -- The one link is an access to `isRequired`, which is the name of no validator.
  intro key name member spelled
  obtain rfl : key = .name "isRequired" := by simpa [requiredLinks] using member
  cases spelled
  decide

theorem undeciding_described : Undeciding describedLinks := by
  -- The one access is to `describe`, which is the name of no validator.
  intro key name member spelled
  obtain rfl : key = .name "describe" := by simpa [describedLinks] using member
  cases spelled
  decide

theorem wellNested_required : Imported.module.WellNested (required (spaced 55)) := by
  -- The only validator inside is a name.
  have start : required (spaced 55) ∈ [required (spaced 55), .name ⟨77, 83⟩ "number"] := by simp
  exact wellNested_of_falls start (fun e => e.span.hi - e.span.lo) (by decide +kernel)

theorem wellNested_described : Imported.module.WellNested (described (spaced 99)) := by
  -- The validator inside is shorter than the one around it.
  have start : described (spaced 99) ∈ [described (spaced 99), .name ⟨121, 127⟩ "number"] := by
    simp
  exact wellNested_of_falls start (fun e => e.span.hi - e.span.lo) (by decide +kernel)

end Imported

theorem type?_bare_iff_required :
    (∀ access ∈ (Imported.owner 55).accesses, access.verdict? = none) ∧
    Undeciding Imported.requiredLinks ∧
    (Imported.spaced 55).Continues Imported.requiredLinks (Imported.required (Imported.spaced 55)) ∧
    (Imported.bare 55).Continues Imported.requiredLinks (Imported.required (Imported.bare 55)) ∧
    Imported.module.WellNested (Imported.required (Imported.spaced 55)) ∧
    Imported.module.type? (Imported.required (Imported.spaced 55)) = some Imported.itemType ∧
    Imported.itemType.isCustom = false ∧ KnownBare "shape" Imported.requiredLinks ∧
    Imported.module.type? (Imported.required (Imported.bare 55)) = some Imported.itemType := by
  -- The shape is the first call on the chain, and nothing else is called there.
  have outside : ∀ access ∈ (Imported.owner 55).accesses, access.verdict? = none := by
    simp [Imported.owner, Expr.accesses, accessesInward]
  have found : Imported.module.type? (Imported.required (Imported.spaced 55)) =
      some Imported.itemType := rfl
  have known : KnownBare "shape" Imported.requiredLinks :=
    .call (CallKind.ofName?_name .shape) (by simp [Uncalled])
  have alike := type?_bare_iff outside rfl Imported.undeciding_required
    (Imported.continues_required _) (Imported.continues_required (Imported.bare 55))
    (.whole Imported.wellNested_required) found rfl
  exact ⟨outside, Imported.undeciding_required, Imported.continues_required _,
    Imported.continues_required _, Imported.wellNested_required, found, rfl, known,
    alike.1.mpr known⟩

/-- A call behind a shape hides it under its bare name, but not in the namespace. -/
theorem type?_bare_described :
    Undeciding Imported.describedLinks ∧
    (Imported.spaced 99).Continues Imported.describedLinks
      (Imported.described (Imported.spaced 99)) ∧
    (Imported.bare 99).Continues Imported.describedLinks (Imported.described (Imported.bare 99)) ∧
    Imported.module.WellNested (Imported.described (Imported.spaced 99)) ∧
    Imported.module.type? (Imported.described (Imported.spaced 99)) = some Imported.itemType ∧
    Imported.itemType.isCustom = false ∧
    Imported.module.type? (Imported.described (Imported.bare 99)) =
      some (.custom "shape(\x7b id: number \x7d).describe('An item.')") := by
  -- The text of the validator is read off its characters.
  have custom : Imported.module.type? (Imported.described (Imported.bare 99)) =
      some (.custom (Imported.module.quote (Imported.described (Imported.bare 99)))) := rfl
  have quoted : Imported.module.quote (Imported.described (Imported.bare 99)) =
      "shape(\x7b id: number \x7d).describe('An item.')" := by
    rw [Analysis.quote, SourceFile.quote_eq (ofList_append_eq (ofList_append_eq rfl rfl) rfl)]
    decide +kernel
  exact ⟨Imported.undeciding_described, Imported.continues_described _,
    Imported.continues_described _, Imported.wellNested_described, rfl, rfl,
    custom.trans (by rw [quoted])⟩

end Analysis

end PropCatalog
