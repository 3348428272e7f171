/-! Maps that remember the order in which their names came in. -/

namespace PropCatalog

/-- Replaces the value of a name where it stands, or adds the name at the end. -/
def insertEntry {α : Type} (name : String) (value : α) :
    List (String × α) → List (String × α)
  | [] => [(name, value)]
  | (other, old) :: rest =>
    if other = name then (name, value) :: rest else (other, old) :: insertEntry name value rest

/-- Inserting adds the name at the end unless it is there. -/
theorem map_fst_insertEntry {α : Type} (name : String) (value : α) (entries : List (String × α)) :
    (insertEntry name value entries).map Prod.fst =
      if name ∈ entries.map Prod.fst then entries.map Prod.fst
      else entries.map Prod.fst ++ [name] := by
  -- The walk stops at the name and copies every other entry.
  induction entries with
  | nil => simp [insertEntry]
  | cons entry rest ih =>
    rcases entry with ⟨other, old⟩
    by_cases same : other = name
    · simp [insertEntry, same]
    · have differs : ¬ name = other := fun equal => same equal.symm
      simp only [insertEntry, if_neg same, List.map_cons, ih, List.mem_cons, differs, false_or]
      split <;> simp

/-- A map from names to values in the order of their first insertion, with no name twice. -/
structure OrderedMap (α : Type) where
  toList : List (String × α)
  nodup : (toList.map Prod.fst).Nodup := by simp

namespace OrderedMap

variable {α : Type}

def empty : OrderedMap α where
  toList := []

instance : Inhabited (OrderedMap α) := ⟨empty⟩

def isEmpty (m : OrderedMap α) : Bool :=
  m.toList.isEmpty

def names (m : OrderedMap α) : List String :=
  m.toList.map Prod.fst

def get? (m : OrderedMap α) (name : String) : Option α :=
  m.toList.lookup name

/-- Gives a name a value. A new name comes last, and a known one keeps its place. -/
def insert (m : OrderedMap α) (name : String) (value : α) : OrderedMap α where
  toList := insertEntry name value m.toList
  nodup := by
    rw [map_fst_insertEntry]
    split
    · exact m.nodup
    · rename_i fresh
      rw [List.nodup_append]
      refine ⟨m.nodup, by simp, ?_⟩
      intro a known b last
      rw [List.mem_singleton.1 last]
      exact fun same => fresh (same ▸ known)

/-- Changes the value of a name, from a default if the name is new. -/
def update (m : OrderedMap α) (name : String) (initial : α) (change : α → α) : OrderedMap α :=
  m.insert name (change ((m.get? name).getD initial))

/-- Inserts all entries of another map in their order. -/
def insertAll (m others : OrderedMap α) : OrderedMap α :=
  others.toList.foldl (fun m (name, value) => m.insert name value) m

/-- Inserts pairs one after the other. -/
def ofList (pairs : List (String × α)) : OrderedMap α :=
  pairs.foldl (fun m (name, value) => m.insert name value) empty

@[simp]
theorem names_insert (m : OrderedMap α) (name : String) (value : α) :
    (m.insert name value).names = if name ∈ m.names then m.names else m.names ++ [name] :=
  map_fst_insertEntry name value m.toList

/-- Insertion decides the value of its name and of no other. -/
theorem get?_insert (m : OrderedMap α) (name other : String) (value : α) :
    (m.insert name value).get? other = if other = name then some value else m.get? other := by
  -- The walk passes every other name, and a lookup stops at the first entry of its own.
  have general : ∀ entries : List (String × α),
      (insertEntry name value entries).lookup other =
        if other = name then some value else entries.lookup other := by
    intro entries
    induction entries with
    | nil =>
      by_cases same : other = name
      · simp [insertEntry, same]
      · simp [insertEntry, List.lookup_cons, beq_eq_false_iff_ne.2 same, same]
    | cons entry rest ih =>
      rcases entry with ⟨known, old⟩
      by_cases found : known = name
      · by_cases same : other = name
        · simp [insertEntry, found, same]
        · simp [insertEntry, found, List.lookup_cons, beq_eq_false_iff_ne.2 same, same]
      · by_cases here : other = known
        · have differs : ¬ other = name := fun same => found (here ▸ same)
          simp [insertEntry, found, here]
        · simp [insertEntry, found, List.lookup_cons, beq_eq_false_iff_ne.2 here, ih]
  exact general m.toList

end OrderedMap

end PropCatalog
