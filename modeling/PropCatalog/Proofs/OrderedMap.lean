import PropCatalog.OrderedMap
import PropCatalog.Proofs.Occurrence

/-! Ordered maps hold the last value of every name at its first place, so that a map stands for the
list of insertions that built it. -/

namespace PropCatalog

namespace OrderedMap

variable {α : Type}

/-- A map is determined by its entries in their order. -/
theorem ext {m others : OrderedMap α} (same : m.toList = others.toList) : m = others := by
  -- That no name is there twice is no further entry.
  cases m
  cases others
  simpa using same

/-- Two maps are equal when they have the same names in the same order and the same values. -/
theorem eq_of_names_of_get? {m others : OrderedMap α} (names : m.names = others.names)
    (values : ∀ name, m.get? name = others.get? name) : m = others := by
  -- The first name of both lists has one value, and it does not come again in the rest.
  have general : ∀ xs ys : List (String × α), (xs.map Prod.fst).Nodup →
      xs.map Prod.fst = ys.map Prod.fst → (∀ name, xs.lookup name = ys.lookup name) → xs = ys := by
    intro xs
    induction xs with
    | nil =>
      intro ys _ names _
      exact (List.map_eq_nil_iff.mp names.symm).symm
    | cons entry rest ih =>
      rcases entry with ⟨name, value⟩
      intro ys nodup names values
      cases ys with
      | nil => simp at names
      | cons entry others =>
        rcases entry with ⟨name', value'⟩
        simp only [List.map_cons, List.cons.injEq] at names
        obtain ⟨rfl, names⟩ := names
        obtain ⟨fresh, nodup⟩ := List.nodup_cons.mp nodup
        have head : value = value' := by simpa using values name
        have tail : ∀ other, rest.lookup other = others.lookup other := by
          intro other
          by_cases same : other = name
          · -- The name is in neither rest.
            subst other
            have absent : ∀ entries : List (String × α), name ∉ entries.map Prod.fst →
                entries.lookup name = none := by
              intro entries missing
              refine List.lookup_eq_none_iff.mpr fun entry member => ?_
              simpa using fun equal : name = entry.1 =>
                missing (List.mem_map.mpr ⟨entry, member, equal.symm⟩)
            rw [absent rest fresh, absent others (names ▸ fresh)]
          · simpa [List.lookup_cons, beq_eq_false_iff_ne.2 same] using values other
        rw [head, ih others nodup names tail]
  exact ext (general m.toList others.toList m.nodup names values)

end OrderedMap

/-- Writing a name replaces what was written to it before, and does so wherever it stands among the
writes of other names. -/
structure LastWriteWins {σ α : Type} (write : σ → String × α → σ) : Prop where
  again : ∀ state name old new,
    write (write state (name, old)) (name, new) = write state (name, new)
  apart : ∀ state name old new other value, other ≠ name →
    write (write (write state (name, old)) (other, value)) (name, new) =
      write (write state (name, new)) (other, value)

namespace LastWriteWins

variable {σ α : Type} {write : σ → String × α → σ}

/-- Writing a name at the end is writing it where it was written before, when only other names have
been written since. -/
theorem foldl_write (wins : LastWriteWins write) {name : String} (old new : α)
    {pairs : List (String × α)} (fresh : name ∉ pairs.map Prod.fst) (state : σ) :
    write (pairs.foldl write (write state (name, old))) (name, new) =
      pairs.foldl write (write state (name, new)) := by
  -- After each write the state is still one in which the name has just been written.
  induction pairs generalizing state with
  | nil => exact wins.again state name old new
  | cons pair rest ih =>
    rcases pair with ⟨other, value⟩
    simp only [List.map_cons, List.mem_cons, not_or] at fresh
    have differs : other ≠ name := fun same => fresh.1 same.symm
    have written : ∀ current,
        write (write (write state (name, old)) (other, value)) (name, current) =
          write (write state (name, current)) (other, value) :=
      fun current => wins.apart state name old current other value differs
    simp only [List.foldl_cons]
    rw [← written old, ih fresh.2, written new]

/-- Replacing the value of an entry where it stands is writing it at the end. -/
theorem foldl_insertEntry (wins : LastWriteWins write) (name : String) (value : α)
    {entries : List (String × α)} (nodup : (entries.map Prod.fst).Nodup) (state : σ) :
    (insertEntry name value entries).foldl write state =
      write (entries.foldl write state) (name, value) := by
  -- The walk writes the entries before the name, and nothing after it bears the name again.
  induction entries generalizing state with
  | nil => rfl
  | cons entry rest ih =>
    rcases entry with ⟨other, old⟩
    obtain ⟨fresh, nodup⟩ := List.nodup_cons.mp nodup
    by_cases same : other = name
    · subst other
      simp only [insertEntry, if_pos, List.foldl_cons]
      exact (wins.foldl_write old value fresh state).symm
    · simp only [insertEntry, if_neg same, List.foldl_cons]
      exact ih nodup _

/-- Writing the entries of a map has the effect of writing every pair that was inserted into it. -/
theorem foldl_ofList (wins : LastWriteWins write) (pairs : List (String × α)) (state : σ) :
    (OrderedMap.ofList pairs).toList.foldl write state = pairs.foldl write state := by
  -- Each insertion adds one write at the end.
  induction pairs using List.reverseRecOn with
  | nil => rfl
  | append_singleton pairs pair ih =>
    rcases pair with ⟨name, value⟩
    have inserted : OrderedMap.ofList (pairs ++ [(name, value)]) =
        (OrderedMap.ofList pairs).insert name value := by
      simp [OrderedMap.ofList]
    rw [inserted, List.foldl_append, ← ih]
    exact wins.foldl_insertEntry name value (OrderedMap.ofList pairs).nodup state

end LastWriteWins

namespace OrderedMap

variable {α : Type}

/-- Gives a name a value that is made of a new one and of the value before. Insertions and updates
are such writes. -/
def write {β : Type} (change : β → Option α → α) (m : OrderedMap α) (pair : String × β) :
    OrderedMap α :=
  m.insert pair.1 (change pair.2 (m.get? pair.1))

section Write

variable {β : Type} (change : β → Option α → α)

/-- A write adds its name at the end unless it is there. -/
theorem names_write (m : OrderedMap α) (pair : String × β) :
    (m.write change pair).names = if pair.1 ∈ m.names then m.names else m.names ++ [pair.1] :=
  names_insert ..

/-- A write decides the value of its name and of no other. -/
theorem get?_write (m : OrderedMap α) (pair : String × β) (name : String) :
    (m.write change pair).get? name =
      if name = pair.1 then some (change pair.2 (m.get? pair.1)) else m.get? name :=
  get?_insert ..

/-- The last write of a name wins when a change leaves nothing of the changes before it. -/
theorem write_wins
    (settles : ∀ old new entry, change new (some (change old entry)) = change new entry) :
    LastWriteWins (write change) where
  again m name old new := by
    -- A map is told by its names and by what is found under each of them.
    refine eq_of_names_of_get? ?_ fun other => ?_
    · by_cases known : name ∈ m.names <;> simp [names_write, known]
    · by_cases same : other = name <;> simp [get?_write, same, settles]
  apart m name old new other value differs := by
    refine eq_of_names_of_get? ?_ fun third => ?_
    · by_cases known : name ∈ m.names <;> by_cases known' : other ∈ m.names <;>
        simp [names_write, known, known', differs]
    · by_cases first : third = name
      · simp [get?_write, first, differs.symm, settles]
      · simp [get?_write, first, differs]

/-- The names after writes: those before them, then the new ones where they first come. -/
theorem names_foldl_write (pairs : List (String × β)) (m : OrderedMap α) :
    (pairs.foldl (write change) m).names = (m.names ++ pairs.map Prod.fst).eraseDups := by
  -- A write adds its name at the end unless it is there, as a first place does.
  induction pairs using List.reverseRecOn with
  | nil =>
    have nodup : m.names.Nodup := m.nodup
    simpa using (eraseDups_eq_self nodup).symm
  | append_singleton pairs pair ih =>
    rw [List.foldl_append, List.map_append, ← List.append_assoc, List.map_singleton,
      eraseDups_concat, List.foldl_cons, List.foldl_nil, names_write, ih]
    simp only [List.mem_eraseDups]

/-- The value after writes: what the last write of the name makes of the value before them all. -/
theorem get?_foldl_write
    (settles : ∀ old new entry, change new (some (change old entry)) = change new entry)
    (pairs : List (String × β)) (m : OrderedMap α) (name : String) :
    (pairs.foldl (write change) m).get? name =
      match pairs.reverse.lookup name with
      | some value => some (change value (m.get? name))
      | none => m.get? name := by
  -- The last write decides, if it is one of the name.
  induction pairs using List.reverseRecOn with
  | nil => simp
  | append_singleton pairs pair ih =>
    rcases pair with ⟨other, value⟩
    rw [List.foldl_append, List.reverse_append, List.foldl_cons, List.foldl_nil, get?_write]
    by_cases same : name = other
    · subst name
      cases before : pairs.reverse.lookup other with
      | none => simp [ih, before]
      | some old => simp [ih, before, settles]
    · simp [same, List.lookup_cons, beq_eq_false_iff_ne.2 same, ih]

end Write

/-- Inserting all entries of a map inserts every pair that was inserted into it. -/
theorem insertAll_ofList (m : OrderedMap α) (pairs : List (String × α)) :
    m.insertAll (ofList pairs) = pairs.foldl (fun m (name, value) => m.insert name value) m :=
  -- The entries of a map are a shorter list of writes with the same effect.
  (write_wins (fun value _ => value) fun _ _ _ => rfl).foldl_ofList pairs m

/-- The names of a map that was built by insertions, in the order in which they first come. -/
theorem names_ofList (pairs : List (String × α)) :
    (ofList pairs).names = (pairs.map Prod.fst).eraseDups :=
  -- Nothing stands before the first insertion.
  names_foldl_write (fun value _ => value) pairs empty

/-- The value of a name in a map that was built by insertions is the last one inserted. -/
theorem get?_ofList (pairs : List (String × α)) (name : String) :
    (ofList pairs).get? name = pairs.reverse.lookup name := by
  -- A name that is not inserted has no value.
  have written :=
    get?_foldl_write (fun (value : α) _ => value) (fun _ _ _ => rfl) pairs empty name
  refine written.trans ?_
  cases pairs.reverse.lookup name <;> rfl

/-- A map is what its own entries make when they are inserted. -/
theorem ofList_toList (m : OrderedMap α) : ofList m.toList = m := by
  -- No name comes twice among them, so that first and last entries are the same.
  refine eq_of_names_of_get? ?_ fun name => ?_
  · rw [names_ofList]
    exact eraseDups_eq_self m.nodup
  · rw [get?_ofList]
    exact (lookup_perm (List.reverse_perm m.toList).symm m.nodup name).symm

/-- The value of a name is that of any entry with the name. -/
theorem get?_of_mem (m : OrderedMap α) {entry : String × α} (member : entry ∈ m.toList) :
    m.get? entry.1 = some entry.2 := by
  -- The entry can be moved to the front, for its name stands nowhere else.
  obtain ⟨before, after, split⟩ := List.append_of_mem member
  have perm : m.toList.Perm (entry :: (before ++ after)) := split ▸ List.perm_middle
  rw [get?, lookup_perm perm m.nodup]
  exact List.lookup_cons_self

/-- The entries of a map are its names in their order, each with its value. -/
theorem toList_eq_filterMap (m : OrderedMap α) :
    m.toList = m.names.filterMap fun name => (m.get? name).map (name, ·) := by
  -- Each name is looked up as the entry that it comes from.
  rw [names, List.filterMap_map]
  refine (List.filterMap_some).symm.trans (List.filterMap_congr fun entry member => ?_)
  simp [m.get?_of_mem member]

/-- The value after the writes of a map's entries: what the entry of the name makes of the value
before. -/
theorem get?_foldl_write_toList {β : Type} {change : β → Option α → α}
    (settles : ∀ old new entry, change new (some (change old entry)) = change new entry)
    (entries : OrderedMap β) (m : OrderedMap α) (name : String) :
    (entries.toList.foldl (write change) m).get? name =
      match entries.get? name with
      | some value => some (change value (m.get? name))
      | none => m.get? name := by
  -- The only entry of a name is its last one.
  rw [get?_foldl_write change settles, ← get?_ofList, ofList_toList]

/-- Names stay where they are, before all that writes add. -/
theorem names_prefix_foldl_write {β : Type} (change : β → Option α → α) (pairs : List (String × β))
    (m : OrderedMap α) : m.names <+: (pairs.foldl (write change) m).names := by
  -- No name of the map comes twice, so that only what is written can be left out as known.
  have once : m.names.eraseDups = m.names := eraseDups_eq_self m.nodup
  rw [names_foldl_write, List.eraseDups_append, once]
  exact List.prefix_append ..

/-- Writing the entries of a map again changes nothing when a change leaves nothing of the changes
before it. -/
theorem foldl_write_toList_again {β : Type} {change : β → Option α → α}
    (settles : ∀ old new entry, change new (some (change old entry)) = change new entry)
    (entries : OrderedMap β) (m : OrderedMap α) :
    entries.toList.foldl (write change) (entries.toList.foldl (write change) m) =
      entries.toList.foldl (write change) m := by
  -- The maps have the same names in their order, and the same value under each of them.
  refine eq_of_names_of_get? ?_ fun name => ?_
  · -- All names are known the second time.
    have known : entries.toList.map Prod.fst ⊆ (entries.toList.foldl (write change) m).names := by
      intro name member
      rw [names_foldl_write, List.mem_eraseDups]
      exact List.mem_append_right _ member
    rw [names_foldl_write, eraseDups_append_of_subset known]
    exact eraseDups_eq_self (nodup _)
  · rw [get?_foldl_write_toList settles, get?_foldl_write_toList settles]
    cases entries.get? name with
    | none => rfl
    | some value => simp [settles]

/-- The value of a name is the one inserted last, or the one before if none is inserted. -/
theorem get?_insertAll (m others : OrderedMap α) (name : String) :
    (m.insertAll others).get? name = (others.get? name).or (m.get? name) := by
  -- Inserting is writing without regard to what is there.
  have written :=
    @get?_foldl_write_toList α α (fun value _ => value) (fun _ _ _ => rfl) others m name
  refine written.trans ?_
  cases others.get? name <;> rfl

/-- A lookup among selected pairs is a search in what they are selected from. -/
theorem lookup_filterMap {β : Type} (pick? : α → Option (String × β)) (xs : List α)
    (name : String) :
    (xs.filterMap pick?).lookup name =
      xs.findSome? fun x =>
        (pick? x).bind fun pair => if name = pair.1 then some pair.2 else none := by
  -- The first pair of the name ends both searches.
  induction xs with
  | nil => rfl
  | cons x rest ih =>
    cases picked : pick? x with
    | none => simp [picked, ih]
    | some pair =>
      rcases pair with ⟨other, value⟩
      by_cases same : name = other
      · simp [picked, same]
      · simp [picked, same, List.lookup_cons, beq_eq_false_iff_ne.2 same, ih]

/-- Lists whose members come first in one order make the same maps for every choice of entries
exactly when their members come last in one order, too. -/
theorem ofList_filterMap_eq_iff [DecidableEq α] {xs ys : List α}
    (firsts : xs.eraseDups = ys.eraseDups) :
    (∀ (β : Type) (pick? : α → Option (String × β)),
      ofList (xs.filterMap pick?) = ofList (ys.filterMap pick?)) ↔ xs.dedup = ys.dedup := by
  -- First occurrences are the same anyway, and last ones are what a map of marks can tell.
  constructor
  · -- Entries under one name tell which of the members that a search looks for comes last.
    intro same
    have searched : ∀ holds : α → Bool, xs.reverse.find? holds = ys.reverse.find? holds := by
      intro holds
      have values := congrArg (fun m => m.get? "")
        (same α fun x => if holds x then some ("", x) else none)
      simp only [get?_ofList, ← List.filterMap_reverse, lookup_filterMap] at values
      rw [List.find?_eq_findSome?_guard, List.find?_eq_findSome?_guard]
      convert values using 2 <;> funext x <;> by_cases held : holds x <;> simp [Option.guard, held]
    refine List.reverse_injective (eq_of_find? ?_ ?_ fun holds => ?_)
    · exact List.nodup_reverse.mpr (List.nodup_dedup xs)
    · exact List.nodup_reverse.mpr (List.nodup_dedup ys)
    · rw [List.find?_eq_findSome?_guard, List.find?_eq_findSome?_guard, findSome?_reverse_dedup,
        findSome?_reverse_dedup, ← List.find?_eq_findSome?_guard, ← List.find?_eq_findSome?_guard,
        searched]
  · intro lasts β pick?
    refine eq_of_names_of_get? ?_ fun name => ?_
    · simp only [names_ofList, List.map_filterMap]
      exact eraseDups_filterMap_congr _ firsts
    · simp only [get?_ofList, ← List.filterMap_reverse, lookup_filterMap]
      rw [← findSome?_reverse_dedup, lasts, findSome?_reverse_dedup]

section Restriction

/-- Some of the names are looked at, and the entries of all others are left out. -/
def only (keep : String → Bool) (m : OrderedMap α) : List (String × α) :=
  m.toList.filter fun entry => keep entry.1

variable {keep : String → Bool}

/-- Insertion of a name that is left out changes nothing, and any other name is inserted among those
that are looked at. -/
theorem only_insert (m : OrderedMap α) (name : String) (value : α) :
    (m.insert name value).only keep =
      if keep name then insertEntry name value (m.only keep) else m.only keep := by
  -- The walk to the name passes entries of both kinds.
  have general : ∀ entries : List (String × α),
      (insertEntry name value entries).filter (fun entry => keep entry.1) =
        if keep name then insertEntry name value (entries.filter fun entry => keep entry.1)
        else entries.filter fun entry => keep entry.1 := by
    intro entries
    induction entries with
    | nil => by_cases kept : keep name <;> simp [insertEntry, kept]
    | cons entry rest ih =>
      rcases entry with ⟨other, old⟩
      by_cases same : other = name
      · subst same
        by_cases kept : keep other <;> simp [insertEntry, kept]
      · by_cases kept : keep name <;> by_cases kept' : keep other <;>
          simp [insertEntry, same, kept, kept', ih]
  exact general m.toList

/-- Insertions of names that are left out may be left out themselves. -/
theorem only_foldl_insert (pairs : List (String × α)) (m : OrderedMap α) :
    (pairs.foldl (fun m (name, value) => m.insert name value) m).only keep =
      (pairs.filter fun pair => keep pair.1).foldl
        (fun entries (name, value) => insertEntry name value entries) (m.only keep) := by
  -- One after the other, an insertion is made or left out.
  induction pairs generalizing m with
  | nil => rfl
  | cons pair rest ih =>
    rcases pair with ⟨name, value⟩
    rw [List.foldl_cons, ih, only_insert]
    by_cases kept : keep name <;> simp [kept]

/-- A map that has nothing to be looked at adds nothing to be looked at. -/
theorem only_insertAll (m : OrderedMap α) {others : OrderedMap α}
    (nothing : others.only keep = []) :
    (m.insertAll others).only keep = m.only keep := by
  -- All insertions are left out.
  rw [insertAll, only_foldl_insert, show others.toList.filter _ = [] from nothing]
  rfl

/-- Maps with the same entries to be looked at give these names the same values. -/
theorem get?_eq_of_only {m others : OrderedMap α} (same : m.only keep = others.only keep)
    {name : String} (kept : keep name = true) : m.get? name = others.get? name := by
  -- A lookup of the name passes over all entries that are left out.
  have passed : ∀ entries : List (String × α),
      (entries.filter fun entry => keep entry.1).lookup name = entries.lookup name := by
    intro entries
    induction entries with
    | nil => rfl
    | cons entry rest ih =>
      rcases entry with ⟨other, value⟩
      by_cases here : name = other
      · subst other
        simp [kept]
      · by_cases kept' : keep other = true <;>
          simp [kept', List.lookup_cons, beq_eq_false_iff_ne.2 here, ih]
  rw [get?, get?, ← passed m.toList, ← passed others.toList]
  exact congrArg (List.lookup name) same

/-- Inserting maps with the same entries to be looked at has the same effect on these. -/
theorem only_insertAll_congr {m m' others others' : OrderedMap α}
    (before : m.only keep = m'.only keep) (added : others.only keep = others'.only keep) :
    (m.insertAll others).only keep = (m'.insertAll others').only keep := by
  -- The same insertions are made into the same entries.
  have same : (others.toList.filter fun entry => keep entry.1) =
      others'.toList.filter fun entry => keep entry.1 := added
  rw [insertAll, insertAll, only_foldl_insert, only_foldl_insert, before, same]

section Writes

variable {β : Type} (change : β → Option α → α)

/-- A write of a name that is left out changes nothing that is looked at, and any other write is one
among what is looked at. -/
theorem only_write_congr {m m' : OrderedMap α} (same : m.only keep = m'.only keep)
    (pair : String × β) : (m.write change pair).only keep = (m'.write change pair).only keep := by
  -- A name that is looked at had the same value before.
  rw [write, write, only_insert, only_insert, same]
  by_cases kept : keep pair.1 = true
  · rw [get?_eq_of_only same kept]
  · simp [kept]

/-- Writes that are the same under the names that are looked at have the same effect on these. -/
theorem only_foldl_write_congr {pairs others : List (String × β)}
    (written : (pairs.filter fun pair => keep pair.1) = others.filter fun pair => keep pair.1)
    {m m' : OrderedMap α} (same : m.only keep = m'.only keep) :
    (pairs.foldl (write change) m).only keep = (others.foldl (write change) m').only keep := by
  -- All writes have the effect of those under the names that are looked at.
  have general : ∀ (pairs : List (String × β)) {m m' : OrderedMap α}, m.only keep = m'.only keep →
      (pairs.foldl (write change) m).only keep =
        ((pairs.filter fun pair => keep pair.1).foldl (write change) m').only keep := by
    intro pairs
    induction pairs with
    | nil => exact fun same => same
    | cons pair rest ih =>
      intro m m' same
      by_cases kept : keep pair.1 = true
      · simp only [List.filter_cons, kept, if_true, List.foldl_cons]
        exact ih (only_write_congr change same pair)
      · -- A write that is left out on the one side changes nothing on the other.
        simp only [List.filter_cons, kept, List.foldl_cons, Bool.false_eq_true, if_false]
        refine ih (Eq.trans ?_ same)
        rw [write, only_insert, if_neg kept]
  rw [general pairs same, written, ← general others rfl]

end Writes

/-- Selections that agree on the names that are looked at make the same entries of them. -/
theorem only_ofList_filterMap_congr {β : Type} {pick? other? : β → Option (String × α)}
    {xs : List β}
    (same : ∀ x ∈ xs, (pick? x).filter (fun pair => keep pair.1) =
      (other? x).filter fun pair => keep pair.1) :
    (ofList (xs.filterMap pick?)).only keep = (ofList (xs.filterMap other?)).only keep := by
  -- The entries that are inserted under these names are the same.
  rw [ofList, ofList, only_foldl_insert, only_foldl_insert, List.filter_filterMap,
    List.filter_filterMap, List.filterMap_congr same]

end Restriction

/-- A write of a new name adds it at the end. -/
theorem toList_write_of_notMem {β : Type} (change : β → Option α → α) {m : OrderedMap α}
    {name : String} (fresh : name ∉ m.names) (value : β) :
    (m.write change (name, value)).toList = m.toList ++ [(name, change value none)] := by
  -- The walk passes all entries, and a lookup finds none.
  have appended : ∀ (new : α) (entries : List (String × α)), name ∉ entries.map Prod.fst →
      insertEntry name new entries = entries ++ [(name, new)] := by
    intro new entries fresh
    induction entries with
    | nil => rfl
    | cons entry rest ih =>
      rcases entry with ⟨other, old⟩
      simp only [List.map_cons, List.mem_cons, not_or] at fresh
      have differs : ¬ other = name := fun same => fresh.1 same.symm
      simp [insertEntry, differs, ih fresh.2]
  have unknown : m.get? name = none := by
    refine List.lookup_eq_none_iff.mpr fun entry member => ?_
    have differs : name ≠ entry.1 := by
      rintro rfl
      exact fresh (List.mem_map_of_mem member)
    simpa using differs
  rw [write, unknown]
  exact appended _ _ fresh

/-- Writes of the entries of a map, from nothing, write each of them once. -/
theorem toList_foldl_write_empty {β : Type} (change : β → Option α → α) (entries : OrderedMap β) :
    (entries.toList.foldl (write change) empty).toList =
      entries.toList.map fun (name, value) => (name, change value none) := by
  -- Each name is new when it is written and comes last.
  have general : ∀ (pairs : List (String × β)) (m : OrderedMap α),
      (m.names ++ pairs.map Prod.fst).Nodup →
      (pairs.foldl (write change) m).toList =
        m.toList ++ pairs.map fun (name, value) => (name, change value none) := by
    intro pairs
    induction pairs with
    | nil => simp
    | cons pair rest ih =>
      intro m nodup
      rcases pair with ⟨name, value⟩
      have fresh : name ∉ m.names := by
        intro member
        exact (List.nodup_append.mp nodup).2.2 name member name (by simp) rfl
      have written := toList_write_of_notMem change fresh value
      rw [List.foldl_cons, ih, written]
      · simp
      · rw [names, written]
        simpa [names] using nodup
  simpa [empty] using general entries.toList empty (by simpa [empty, names] using entries.nodup)

end OrderedMap

end PropCatalog
