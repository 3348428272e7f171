import Mathlib.Data.List.Dedup
import Mathlib.Data.List.Induction

/-! The order in which the members of a list come first, and the order in which they come last. What
is read off a list of pairs by name hangs on these two orders only. -/

namespace PropCatalog

variable {α β : Type} [DecidableEq α]

/-- A further member changes the order of first places only if it is new. -/
theorem eraseDups_concat (xs : List α) (x : α) :
    (xs ++ [x]).eraseDups = if x ∈ xs then xs.eraseDups else xs.eraseDups ++ [x] := by
  -- What is left of the last member after the others are removed is it or nothing.
  rw [List.eraseDups_append]
  split <;> rename_i known <;> simp [List.removeAll, List.eraseDups_cons, known]

/-- Members that are there already do not change the order of first places. -/
theorem eraseDups_append_of_subset {xs ys : List α} (known : ys ⊆ xs) :
    (xs ++ ys).eraseDups = xs.eraseDups := by
  -- Removing the known members leaves nothing of the second list.
  have removed : ys.removeAll xs = [] := by
    simp only [List.removeAll, List.filter_eq_nil_iff]
    intro y member
    simpa using known member
  simp [List.eraseDups_append, removed]

/-- The order of first places before a list decides it after the list. -/
theorem eraseDups_append_congr {xs ys : List α}
    (same : xs.eraseDups = ys.eraseDups) (zs : List α) :
    (xs ++ zs).eraseDups = (ys ++ zs).eraseDups := by
  -- Each further member is new to both lists or to neither, since they have the same members.
  induction zs using List.reverseRecOn with
  | nil => simpa using same
  | append_singleton zs z ih =>
    have members : ∀ x, x ∈ xs ↔ x ∈ ys := fun x => by
      rw [← List.mem_eraseDups, same, List.mem_eraseDups]
    simp only [← List.append_assoc, eraseDups_concat, ih, List.mem_append, members]

/-- Members that are there already may be left out in the middle of a list. -/
theorem eraseDups_append_append_of_subset {xs ys : List α} (known : ys ⊆ xs) (zs : List α) :
    (xs ++ (ys ++ zs)).eraseDups = (xs ++ zs).eraseDups := by
  -- They are no news behind the first list, and so they are none for what follows.
  rw [← List.append_assoc]
  exact eraseDups_append_congr (eraseDups_append_of_subset known) zs

/-- A list without repetition is in the order of its first places. -/
theorem eraseDups_eq_self {xs : List α} (nodup : xs.Nodup) : xs.eraseDups = xs := by
  -- Every member is new when it comes.
  induction xs using List.reverseRecOn with
  | nil => rfl
  | append_singleton xs x ih =>
    obtain ⟨nodup, -, apart⟩ := List.nodup_append.mp nodup
    have fresh : x ∉ xs := fun known => apart x known x (by simp) rfl
    rw [eraseDups_concat, if_neg fresh, ih nodup]

/-- The order of first places has no repetition. -/
theorem nodup_eraseDups (xs : List α) : xs.eraseDups.Nodup := by
  -- A member is added only when it is new.
  induction xs using List.reverseRecOn with
  | nil => simp
  | append_singleton xs x ih =>
    rw [eraseDups_concat]
    split
    · exact ih
    · rename_i fresh
      refine List.nodup_append.mpr ⟨ih, by simp, fun a known b last => ?_⟩
      rw [List.mem_singleton.mp last]
      exact fun same => fresh (same ▸ List.mem_eraseDups.mp known)

/-- Repetitions may be left out before more is added. -/
theorem eraseDups_eraseDups_append (xs ys : List α) :
    (xs.eraseDups ++ ys).eraseDups = (xs ++ ys).eraseDups :=
  -- First places are in the order of first places.
  eraseDups_append_congr (eraseDups_eq_self (nodup_eraseDups xs)) ys

/-- A selection from a list keeps the order of first places. -/
theorem eraseDups_filterMap [DecidableEq β] (select? : α → Option β) (xs : List α) :
    (xs.filterMap select?).eraseDups = (xs.eraseDups.filterMap select?).eraseDups := by
  -- A member that is not new selects nothing new.
  induction xs using List.reverseRecOn with
  | nil => rfl
  | append_singleton xs x ih =>
    rw [eraseDups_concat, List.filterMap_append]
    split
    · rename_i known
      rw [← ih]
      apply eraseDups_append_of_subset
      intro y selected
      obtain ⟨z, member, equal⟩ := List.mem_filterMap.mp selected
      rw [List.mem_singleton.mp member] at equal
      exact List.mem_filterMap.mpr ⟨x, known, equal⟩
    · rw [List.filterMap_append]
      exact eraseDups_append_congr ih _

/-- Lists whose members come first in the same order select the same things in the same order. -/
theorem eraseDups_filterMap_congr [DecidableEq β] (select? : α → Option β) {xs ys : List α}
    (same : xs.eraseDups = ys.eraseDups) :
    (xs.filterMap select?).eraseDups = (ys.filterMap select?).eraseDups := by
  rw [eraseDups_filterMap select? xs, same, ← eraseDups_filterMap]

/-- A search from the end finds the same in a list with last places only. -/
theorem findSome?_reverse_dedup (select? : α → Option β) (xs : List α) :
    xs.dedup.reverse.findSome? select? = xs.reverse.findSome? select? := by
  -- An earlier copy of a member is met later, when the last copy has not been selected.
  induction xs with
  | nil => rfl
  | cons x rest ih =>
    by_cases known : x ∈ rest
    · rw [List.dedup_cons_of_mem known, ih]
      simp only [List.reverse_cons, List.findSome?_append]
      cases found : rest.reverse.findSome? select? with
      | some y => rfl
      | none =>
        have nothing := List.findSome?_eq_none_iff.mp found x (List.mem_reverse.mpr known)
        simp [nothing]
    · rw [List.dedup_cons_of_notMem known]
      simp only [List.reverse_cons, List.findSome?_append, ih]

/-- Two lists without repetition are equal when every search finds the same in both. -/
theorem eq_of_find? {xs ys : List α} (nodup : xs.Nodup) (nodup' : ys.Nodup)
    (same : ∀ holds : α → Bool, xs.find? holds = ys.find? holds) : xs = ys := by
  -- A search for anything gives the first member, and one for anything else goes on to the rest.
  induction xs generalizing ys with
  | nil =>
    cases ys with
    | nil => rfl
    | cons y others => simpa using same fun _ => true
  | cons x rest ih =>
    cases ys with
    | nil => simpa using same fun _ => true
    | cons y others =>
      obtain rfl : x = y := by simpa using same fun _ => true
      obtain ⟨fresh, nodup⟩ := List.nodup_cons.mp nodup
      obtain ⟨fresh', nodup'⟩ := List.nodup_cons.mp nodup'
      have passed : ∀ (zs : List α) (holds : α → Bool), x ∉ zs →
          (x :: zs).find? (fun z => ! decide (z = x) && holds z) = zs.find? holds := by
        intro zs holds fresh
        have kept : zs.filter (fun z => ! decide (z = x)) = zs := by
          refine List.filter_eq_self.mpr fun z member => ?_
          simpa using fun equal : z = x => fresh (equal ▸ member)
        rw [List.find?_cons_of_neg (by simp)]
        conv_rhs => rw [← kept, List.find?_filter]
        simp
      have tails : ∀ holds : α → Bool, rest.find? holds = others.find? holds := by
        intro holds
        rw [← passed rest holds fresh, ← passed others holds fresh', same]
      rw [ih nodup nodup' tails]

/-- What a lookup finds is one of the pairs. -/
theorem mem_of_lookup {γ : Type} [BEq γ] [LawfulBEq γ] {xs : List (γ × β)} {name : γ} {value : β}
    (found : xs.lookup name = some value) : (name, value) ∈ xs := by
  -- The pair stands behind others.
  obtain ⟨before, after, rfl, -⟩ := List.lookup_eq_some_iff.mp found
  simp

/-- A lookup of a name does not hang on the pairs of other names. -/
theorem lookup_filter {γ : Type} [BEq γ] [LawfulBEq γ] {xs : List (γ × β)} (kept : γ → Bool)
    {name : γ} (own : kept name = true) : (xs.filter (kept ·.1)).lookup name = xs.lookup name := by
  -- A pair of the name is kept, and the lookup goes past all others.
  induction xs with
  | nil => rfl
  | cons pair rest ih =>
    rcases pair with ⟨other, value⟩
    by_cases here : name = other
    · simp [← here, own]
    · rw [List.filter_cons, List.lookup_cons, beq_eq_false_iff_ne.2 here]
      split
      · rw [List.lookup_cons, beq_eq_false_iff_ne.2 here]
        exact ih
      · exact ih

/-- Where all pairs of a name are left out, a lookup finds none. -/
theorem lookup_filter_eq_none {γ : Type} [BEq γ] [LawfulBEq γ] {xs : List (γ × β)}
    (kept : γ → Bool) {name : γ} (dropped : kept name = false) :
    (xs.filter (kept ·.1)).lookup name = none := by
  -- A pair of the name would have been left out.
  rw [List.lookup_eq_none_iff]
  intro pair member
  rw [bne_iff_ne]
  rintro rfl
  simp [dropped] at member

/-- Where no name comes twice, a lookup hangs on no order. -/
theorem lookup_perm {γ : Type} [BEq γ] [LawfulBEq γ] {xs ys : List (γ × β)} (perm : xs.Perm ys)
    (nodup : (xs.map Prod.fst).Nodup) (name : γ) : xs.lookup name = ys.lookup name := by
  -- Of two neighbours that change places, one at most bears the name.
  induction perm with
  | nil => rfl
  | cons pair _ ih =>
    rw [List.map_cons, List.nodup_cons] at nodup
    rw [List.lookup_cons, List.lookup_cons, ih nodup.2]
  | swap first second rest =>
    rcases first with ⟨key, value⟩
    rcases second with ⟨key', value'⟩
    have differs : key' ≠ key := by
      simp only [List.map_cons, List.nodup_cons, List.mem_cons, not_or] at nodup
      exact nodup.1.1
    by_cases here : name = key
    · have other : (name == key') = false := by simpa [here] using differs.symm
      simp [List.lookup_cons, other]
    · have other : (name == key) = false := beq_eq_false_iff_ne.2 here
      simp [List.lookup_cons, other]
  | trans before _ ihBefore ihAfter =>
    have nodup' := (before.map Prod.fst).nodup_iff.mp nodup
    rw [ihBefore nodup, ihAfter nodup']

end PropCatalog
