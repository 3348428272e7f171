import Mathlib.Data.List.Forall2

/-! Optional values and lists that are related member by member: what is computed from them in the
same way is related, too. Between the members of one of the lists, others may stand. -/

namespace PropCatalog

variable {α β γ δ : Type} {r : α → β → Prop} {s : γ → δ → Prop}

/-- What related values lead to is related. -/
theorem rel_bind {x : Option α} {y : Option β} {f : α → Option γ} {g : β → Option δ}
    (related : Option.Rel r x y) (steps : ∀ a b, r a b → Option.Rel s (f a) (g b)) :
    Option.Rel s (x.bind f) (y.bind g) := by
  -- Both values are there, or none.
  cases related with
  | none => exact .none
  | some here => exact steps _ _ here

/-- What related values are taken to is related. -/
theorem rel_map {x : Option α} {y : Option β} {f : α → γ} {g : β → δ}
    (related : Option.Rel r x y) (steps : ∀ a b, r a b → s (f a) (g b)) :
    Option.Rel s (x.map f) (y.map g) := by
  -- Both values are there, or none.
  cases related with
  | none => exact .none
  | some here => exact .some (steps _ _ here)

/-- The first of two values that there is is related to the first of two related ones. -/
theorem rel_or {x z : Option α} {y w : Option β} (first : Option.Rel r x y)
    (second : Option.Rel r z w) : Option.Rel r (x.or z) (y.or w) := by
  -- The first values are there on both sides, or on none.
  cases first with
  | none => exact second
  | some here => exact .some here

/-- With related defaults, what there is is related. -/
theorem rel_getD {x : Option α} {y : Option β} {a : α} {b : β} (related : Option.Rel r x y)
    (defaults : r a b) : r (x.getD a) (y.getD b) := by
  -- Both values are there, or both defaults stand for them.
  cases related with
  | none => exact defaults
  | some here => exact here

/-- Related values stand in every relation that follows. -/
theorem rel_imp {t : α → β → Prop} {x : Option α} {y : Option β} (related : Option.Rel r x y)
    (follows : ∀ a b, r a b → t a b) : Option.Rel t x y := by
  -- Both values are there, or none.
  cases related with
  | none => exact .none
  | some here => exact .some (follows _ _ here)

/-- A property that related values share is had by both of two optional values or by none. -/
theorem any_eq_of_rel {x : Option α} {y : Option β} {holds : α → Bool} {holds' : β → Bool}
    (related : Option.Rel r x y) (same : ∀ a b, r a b → holds a = holds' b) :
    x.any holds = y.any holds' := by
  -- Both values are there, or none.
  cases related with
  | none => rfl
  | some here => exact same _ _ here

/-- What is the same of related values is the same of optional ones. -/
theorem bind_eq_of_rel {x : Option α} {y : Option β} {f : α → Option γ} {g : β → Option γ}
    (related : Option.Rel r x y) (same : ∀ a b, r a b → f a = g b) : x.bind f = y.bind g := by
  -- Both values are there, or none.
  cases related with
  | none => rfl
  | some here => exact same _ _ here

variable {xs : List α} {ys : List β}

/-- The first results in related lists are related. -/
theorem rel_findSome? {f : α → Option γ} {g : β → Option δ} (related : List.Forall₂ r xs ys)
    (steps : ∀ a b, r a b → Option.Rel s (f a) (g b)) :
    Option.Rel s (xs.findSome? f) (ys.findSome? g) := by
  -- Both searches end at the same place or go on.
  induction related with
  | nil => exact .none
  | @cons a b _ _ here _ ih =>
    rw [List.findSome?_cons, List.findSome?_cons]
    have first := steps a b here
    generalize f a = found, g b = found' at first
    cases first with
    | none => exact ih
    | some results => exact .some results

/-- Lookups find related values where keys that equal what is looked for stand at the same places.
-/
theorem rel_lookup {κ κ' : Type} [BEq κ] [BEq κ'] {q : κ → κ' → Prop} {pairs : List (κ × α)}
    {pairs' : List (κ' × β)} {key : κ} {key' : κ'}
    (same : ∀ known known', q known known' → (key == known) = (key' == known'))
    (related : List.Forall₂ (fun pair pair' => q pair.1 pair'.1 ∧ r pair.2 pair'.2)
      pairs pairs') :
    Option.Rel r (pairs.lookup key) (pairs'.lookup key') := by
  -- Both lookups end at the same place or go on.
  induction related with
  | nil => exact .none
  | @cons pair pair' _ _ here _ ih =>
    rcases pair with ⟨known, a⟩
    rcases pair' with ⟨known', b⟩
    rw [List.lookup_cons, List.lookup_cons, same known known' here.1]
    cases key' == known'
    · exact ih
    · exact .some here.2

/-- Lookups of one key find related values where the same keys stand at the same places. -/
theorem rel_lookup_self {κ : Type} [BEq κ] {pairs : List (κ × α)} {pairs' : List (κ × β)}
    (related : List.Forall₂ (fun pair pair' => pair.1 = pair'.1 ∧ r pair.2 pair'.2) pairs pairs')
    (key : κ) : Option.Rel r (pairs.lookup key) (pairs'.lookup key) :=
  rel_lookup (q := Eq) (fun _ _ same => congrArg (key == ·) same) related

/-- What is made of related members, where it can be made of all, is related. -/
theorem rel_mapM {f : α → Option γ} {g : β → Option δ} (related : List.Forall₂ r xs ys)
    (steps : ∀ a b, r a b → Option.Rel s (f a) (g b)) :
    Option.Rel (List.Forall₂ s) (xs.mapM f) (ys.mapM g) := by
  -- The first members that fail end both in the same place.
  induction related with
  | nil => exact .some .nil
  | cons here _ ih =>
    rw [List.mapM_cons, List.mapM_cons]
    refine rel_bind (steps _ _ here) fun _ _ first => ?_
    exact rel_bind ih fun _ _ others => .some (.cons first others)

/-- What is made of all members of a list is made of them one by one. -/
theorem mapM_eq_some_iff {f : α → Option β} :
    xs.mapM f = some ys ↔ List.Forall₂ (fun a b => f a = some b) xs ys := by
  -- The first member has to be made, and then the others.
  induction xs generalizing ys with
  | nil => simp [List.forall₂_nil_left_iff, eq_comm]
  | cons a rest ih =>
    simp only [List.mapM_cons, Option.bind_eq_bind, Option.bind_eq_some_iff, ih,
      List.forall₂_cons_left_iff]
    constructor
    · rintro ⟨b, first, bs, others, same⟩
      exact ⟨b, bs, first, others, (Option.some.inj same).symm⟩
    · rintro ⟨b, bs, first, others, rfl⟩
      exact ⟨b, first, bs, others, rfl⟩

/-- What is made of all members of a list, if no member fails, is made of them one by one. -/
theorem forall₂_of_mapM_ok {ε : Type} {f : α → Except ε β} (known : xs.mapM f = .ok ys) :
    List.Forall₂ (fun a b => f a = .ok b) xs ys := by
  -- No member fails, so that each has led to the one in its place.
  induction xs generalizing ys with
  | nil => cases known; exact .nil
  | cons a rest ih =>
    rw [List.mapM_cons] at known
    cases first : f a with
    | error cause => simp [first, bind, Except.bind] at known
    | ok b =>
      cases others : rest.mapM f with
      | error cause => simp [first, others, bind, Except.bind] at known
      | ok bs =>
        obtain rfl : b :: bs = ys := by
          simpa [first, others, bind, Except.bind, pure, Except.pure] using known
        exact .cons first (ih others)

/-- What each member of a list is mapped to is mapped back. -/
theorem mapM_map_of_inverse {f : α → β} {g : β → Option α} (inverse : ∀ x, g (f x) = some x)
    (xs : List α) : (xs.map f).mapM g = some xs := by
  -- Member by member, mapping back undoes the mapping.
  induction xs with
  | nil => rfl
  | cons x rest ih => simp [inverse, ih]

/-- A property that related members share is had by some member of both lists or of none. -/
theorem any_eq_of_forall₂ {holds : α → Bool} {holds' : β → Bool} (related : List.Forall₂ r xs ys)
    (same : ∀ a b, r a b → holds a = holds' b) : xs.any holds = ys.any holds' := by
  -- The lists are searched in step.
  induction related with
  | nil => rfl
  | cons here _ ih => rw [List.any_cons, List.any_cons, same _ _ here, ih]

/-- What is made the same of related members is the same list. -/
theorem map_eq_of_forall₂ {f : α → γ} {g : β → γ} (related : List.Forall₂ r xs ys)
    (same : ∀ a b, r a b → f a = g b) : xs.map f = ys.map g := by
  -- Member by member, the same is made of both.
  induction related with
  | nil => rfl
  | cons here _ ih => rw [List.map_cons, List.map_cons, same _ _ here, ih]

/-- A member of the first of related lists is related to one of the second. -/
theorem exists_mem_of_forall₂ (related : List.Forall₂ r xs ys) {a : α} (member : a ∈ xs) :
    ∃ b ∈ ys, r a b := by
  -- The member is the first one, or it is among the others.
  induction related with
  | nil => cases member
  | @cons _ b _ _ here _ ih =>
    rcases List.mem_cons.1 member with rfl | later
    · exact ⟨b, List.mem_cons_self, here⟩
    · obtain ⟨b, member, related⟩ := ih later
      exact ⟨b, List.mem_cons_of_mem _ member, related⟩

/-- The members of a list can be related one by one exactly when each can be related. -/
theorem exists_forall₂_iff : (∃ ys, List.Forall₂ r xs ys) ↔ ∀ x ∈ xs, ∃ y, r x y := by
  -- The relation is built from the first member on, with a choice for each.
  constructor
  · rintro ⟨ys, pairs⟩ x member
    obtain ⟨y, -, here⟩ := exists_mem_of_forall₂ pairs member
    exact ⟨y, here⟩
  · intro each
    induction xs with
    | nil => exact ⟨[], .nil⟩
    | cons x rest ih =>
      obtain ⟨first, others⟩ := List.forall_mem_cons.mp each
      obtain ⟨y, here⟩ := first
      obtain ⟨ys, pairs⟩ := ih others
      exact ⟨y :: ys, .cons here pairs⟩

/-- Lists that are both related to a third one are related by what follows for the members. -/
theorem forall₂_comp {q : β → γ → Prop} {t : α → γ → Prop} {zs : List γ}
    (first : List.Forall₂ r xs ys) (second : List.Forall₂ q ys zs)
    (both : ∀ a b c, r a b → q b c → t a c) : List.Forall₂ t xs zs := by
  -- The second list is taken apart along the first.
  induction first generalizing zs with
  | nil =>
    cases second
    exact .nil
  | cons here _ ih =>
    cases second with
    | cons next others => exact .cons (both _ _ _ here next) (ih others)

/-- What is made of the same members in related ways is related. -/
theorem forall₂_map_self {xs : List α} {f : α → γ} {g : α → δ} (each : ∀ x ∈ xs, s (f x) (g x)) :
    List.Forall₂ s (xs.map f) (xs.map g) := by
  -- Both lists have the members in the same places.
  rw [List.forall₂_map_left_iff, List.forall₂_map_right_iff]
  exact List.forall₂_same.2 each

/-- What the same members lead to in related ways is related. -/
theorem forall₂_flatMap_self {xs : List α} {f : α → List γ} {g : α → List δ}
    (each : ∀ x ∈ xs, List.Forall₂ s (f x) (g x)) :
    List.Forall₂ s (xs.flatMap f) (xs.flatMap g) :=
  List.rel_flatten (forall₂_map_self each)

/-- A list whose members are related to those of another one in the same order, but for further
members between them. -/
inductive Interspersed (related : α → β → Prop) (further : β → Prop) : List α → List β → Prop
  | nil : Interspersed related further [] []
  | cons {a : α} {b : β} {as : List α} {bs : List β} (here : related a b)
    (others : Interspersed related further as bs) :
    Interspersed related further (a :: as) (b :: bs)
  | between {as : List α} {b : β} {bs : List β} (here : further b)
    (others : Interspersed related further as bs) : Interspersed related further as (b :: bs)

variable {related : α → β → Prop} {further : β → Prop} {as : List α} {bs : List β}

namespace Interspersed

/-- Further members can all stand at the end. -/
theorem append (pairs : List.Forall₂ related as bs) {cs : List β} (rest : ∀ c ∈ cs, further c) :
    Interspersed related further as (bs ++ cs) := by
  -- Behind the pairs, only further members are left.
  induction pairs with
  | nil =>
    induction cs with
    | nil => exact .nil
    | cons c cs ih =>
      obtain ⟨here, others⟩ := List.forall_mem_cons.mp rest
      exact .between here (ih others)
  | cons here _ ih => exact .cons here ih

/-- What follows for each of the members follows for the list. -/
theorem imp {related' : α → β → Prop} {further' : β → Prop}
    (between : Interspersed related further as bs)
    (pairs : ∀ a ∈ as, ∀ b, related a b → related' a b) (rest : ∀ b, further b → further' b) :
    Interspersed related' further' as bs := by
  -- Each step of the one list is a step of the other one.
  induction between with
  | nil => exact .nil
  | cons here _ ih =>
    obtain ⟨first, pairs⟩ := List.forall_mem_cons.mp pairs
    exact .cons (first _ here) (ih pairs)
  | between here _ ih => exact .between (rest _ here) (ih pairs)

/-- The list may be compared to one whose members are related to those of the first. -/
theorem comp {cs : List γ} {before : γ → α → Prop} {through : γ → β → Prop}
    (between : Interspersed related further as bs) (pairs : List.Forall₂ before cs as)
    (both : ∀ c a b, before c a → related a b → through c b) :
    Interspersed through further cs bs := by
  -- A pair is compared in its place, and a further member has nothing to be compared with.
  induction between generalizing cs with
  | nil =>
    cases pairs
    exact .nil
  | cons here _ ih =>
    cases pairs with
    | cons first pairs => exact .cons (both _ _ _ first here) (ih pairs)
  | between here _ ih => exact .between here (ih pairs)

/-- Where the further members lead to nothing, related lists come out. -/
theorem flatMap {f : α → List γ} {g : β → List δ} {r : γ → δ → Prop}
    (between : Interspersed (fun a b => List.Forall₂ r (f a) (g b)) (fun b => g b = []) as bs) :
    List.Forall₂ r (as.flatMap f) (bs.flatMap g) := by
  -- A further member adds nothing to what comes out.
  induction between with
  | nil => exact .nil
  | cons here _ ih => exact List.rel_append here ih
  | between here _ ih => rwa [List.flatMap_cons, here, List.nil_append]

end Interspersed

end PropCatalog
