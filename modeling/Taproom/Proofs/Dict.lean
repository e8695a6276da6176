import Mathlib.Data.List.Permutation
import Mathlib.Data.List.Sort
import Taproom.Dict
import Taproom.Text.Cut

/-!
Dictionaries and sets of names seen through their keys, and sorted lists of names.
-/

namespace Taproom.Dict

variable {κ α β : Type} [Key κ]

theorem lookup_isSome_iff (k : κ) {l : List (κ × α)} (sorted : l.Pairwise fun a b => a.1 < b.1) :
    (lookup k l).isSome ↔ k ∈ l.map (·.1) := by
  induction l with
  | nil => simp [lookup]
  | cons entry rest ih =>
    obtain ⟨key, value⟩ := entry
    obtain ⟨first, sorted⟩ := List.pairwise_cons.mp sorted
    rw [lookup]
    by_cases below : k < key
    · have absent : k ∉ rest.map (·.1) := by
        intro member
        obtain ⟨later, inRest, rfl⟩ := List.mem_map.mp member
        exact Key.irrefl _ (Key.trans below (first later inRest))
      have ne : k ≠ key := by
        rintro rfl
        exact Key.irrefl _ below
      simp only [below, ↓reduceIte, Option.isSome_none, Bool.false_eq_true, List.map_cons,
        List.mem_cons, ne, absent, or_self]
    · by_cases above : key < k
      · have ne : k ≠ key := by
          rintro rfl
          exact Key.irrefl _ above
        simp only [below, above, ↓reduceIte, ih sorted, List.map_cons, List.mem_cons, ne,
          false_or]
      · obtain rfl := Key.eq_of_not_lt below above
        simp [Key.irrefl]

theorem get?_isSome_iff (d : Dict κ α) (k : κ) : (d.get? k).isSome ↔ k ∈ d.keys :=
  lookup_isSome_iff k d.sorted

theorem contains_iff (d : Dict κ α) (k : κ) : d.contains k ↔ k ∈ d.keys :=
  get?_isSome_iff d k

theorem lookup_eq_some_iff (k : κ) (v : α) {l : List (κ × α)}
    (sorted : l.Pairwise fun a b => a.1 < b.1) : lookup k l = some v ↔ (k, v) ∈ l := by
  induction l with
  | nil => simp [lookup]
  | cons entry rest ih =>
    obtain ⟨key, value⟩ := entry
    obtain ⟨first, sorted⟩ := List.pairwise_cons.mp sorted
    have later : (k, v) ∈ rest → key < k := first (k, v)
    rw [lookup, List.mem_cons, Prod.mk.injEq]
    by_cases below : k < key
    · have absent : (k, v) ∉ rest := fun member =>
        Key.irrefl _ (Key.trans below (later member))
      have ne : k ≠ key := by
        rintro rfl
        exact Key.irrefl _ below
      simp only [below, ↓reduceIte, reduceCtorEq, ne, false_and, absent, or_self]
    · by_cases above : key < k
      · have ne : k ≠ key := by
          rintro rfl
          exact Key.irrefl _ above
        simp only [below, above, ↓reduceIte, ih sorted, ne, false_and, false_or]
      · have absent : (k, v) ∉ rest := fun member => above (later member)
        obtain rfl := Key.eq_of_not_lt below above
        simp only [Key.irrefl, ↓reduceIte, Option.some.injEq, true_and, absent, or_false]
        exact eq_comm

theorem get?_eq_some_iff (d : Dict κ α) (k : κ) (v : α) : d.get? k = some v ↔ (k, v) ∈ d.toList :=
  lookup_eq_some_iff k v d.sorted

theorem mem_values_iff (d : Dict κ α) (v : α) : v ∈ d.values ↔ ∃ k, d.get? k = some v := by
  simp only [get?_eq_some_iff, values, toList, List.mem_map, Prod.exists, exists_eq_right]

@[simp] theorem get?_map (d : Dict κ α) (f : κ → α → β) (k : κ) :
    (d.map f).get? k = (d.get? k).map (f k) := by
  ext v
  simp only [get?_eq_some_iff, Option.map_eq_some_iff, toList, map, List.mem_map, Prod.mk.injEq,
    Prod.exists]
  constructor
  · rintro ⟨_, w, member, rfl, rfl⟩
    exact ⟨w, member, rfl⟩
  · rintro ⟨w, member, rfl⟩
    exact ⟨k, w, member, rfl, rfl⟩

theorem get?_map_eq_some_iff (d : Dict κ α) (f : κ → α → β) (k : κ) (v : β) :
    (d.map f).get? k = some v ↔ ∃ w, d.get? k = some w ∧ f k w = v := by
  rw [get?_map, Option.map_eq_some_iff]

theorem get?_filter (d : Dict κ α) (p : κ → α → Bool) (k : κ) :
    (d.filter p).get? k = (d.get? k).filter (p k) := by
  ext v
  simp only [get?_eq_some_iff, Option.filter_eq_some_iff, toList, filter, List.mem_filter]

theorem get?_erase_self (d : Dict κ α) (k : κ) : (d.erase k).get? k = none := by
  simp [erase, get?_filter, Key.irrefl]

theorem get?_erase_of_ne (d : Dict κ α) {k j : κ} (ne : j ≠ k) : (d.erase k).get? j = d.get? j := by
  have apart : j < k ∨ k < j := by
    by_contra neither
    rw [not_or] at neither
    exact ne (Key.eq_of_not_lt neither.1 neither.2)
  rw [erase, get?_filter]
  cases d.get? j with
  | none => rfl
  | some v => simpa [Option.filter_eq_some_iff] using apart

theorem ext_get? {d e : Dict κ α} (same : ∀ k, d.get? k = e.get? k) : d = e := by
  apply ext_entries
  let r : κ × α → κ × α → Prop := fun a b => a.1 < b.1
  have irrefl : Std.Irrefl r := ⟨fun a => Key.irrefl a.1⟩
  have antisymm : Std.Antisymm r :=
    ⟨fun a b first second => absurd (Key.trans first second) (Key.irrefl a.1)⟩
  refine List.Pairwise.eq_of_mem_iff (r := r) d.sorted e.sorted ?_
  rintro ⟨k, v⟩
  have here := same k
  rw [← toList, ← toList, ← get?_eq_some_iff, ← get?_eq_some_iff, here]

instance [DecidableEq κ] [DecidableEq α] : DecidableEq (Dict κ α) := fun d e =>
  decidable_of_iff (d.entries = e.entries) ⟨ext_entries, congrArg _⟩

theorem getD_insert_self (d : Dict κ α) (k : κ) (v fallback : α) :
    (d.insert k v).getD k fallback = v := by
  simp [getD]

theorem getD_insert_of_ne (d : Dict κ α) {k j : κ} (ne : j ≠ k) (v fallback : α) :
    (d.insert k v).getD j fallback = d.getD j fallback := by
  simp [getD, ne]

theorem mem_keys_insert (d : Dict κ α) (k j : κ) (v : α) :
    j ∈ (d.insert k v).keys ↔ j = k ∨ j ∈ d.keys := by
  rw [← get?_isSome_iff, ← get?_isSome_iff]
  by_cases same : j = k
  · simp [same]
  · simp [same]

theorem mem_keys_foldl_insert (l : List (κ × α)) (d : Dict κ α) (k : κ) :
    k ∈ (l.foldl (fun d e => d.insert e.1 e.2) d).keys ↔ k ∈ l.map (·.1) ∨ k ∈ d.keys := by
  induction l generalizing d with
  | nil => simp
  | cons entry rest ih =>
    rw [List.foldl_cons, ih, mem_keys_insert, List.map_cons, List.mem_cons]
    tauto

theorem mem_keys_ofList (l : List (κ × α)) (k : κ) : k ∈ (ofList l).keys ↔ k ∈ l.map (·.1) := by
  have blank : k ∉ (empty : Dict κ α).keys := List.not_mem_nil
  rw [ofList, mem_keys_foldl_insert, or_iff_left blank]

theorem get?_foldl_insert (l : List (κ × α)) (d : Dict κ α) {k : κ} (absent : k ∉ l.map (·.1)) :
    (l.foldl (fun d e => d.insert e.1 e.2) d).get? k = d.get? k := by
  induction l generalizing d with
  | nil => rfl
  | cons entry rest ih =>
    rw [List.map_cons, List.mem_cons, not_or] at absent
    rw [List.foldl_cons, ih _ absent.2, get?_insert_of_ne _ absent.1]

theorem get?_foldl_insert_cases (l : List (κ × α)) (d : Dict κ α) {k : κ} {v : α}
    (found : (l.foldl (fun d e => d.insert e.1 e.2) d).get? k = some v) :
    (k, v) ∈ l ∨ d.get? k = some v := by
  induction l generalizing d with
  | nil => exact Or.inr found
  | cons entry rest ih =>
    rcases ih (d.insert entry.1 entry.2) found with later | here
    · exact Or.inl (List.mem_cons_of_mem entry later)
    · by_cases same : k = entry.1
      · subst same
        rw [get?_insert_self, Option.some.injEq] at here
        exact Or.inl (by simp [← here])
      · rw [get?_insert_of_ne _ same] at here
        exact Or.inr here

theorem get?_ofList (before after : List (κ × α)) {k : κ} (v : α) (last : k ∉ after.map (·.1)) :
    (ofList (before ++ (k, v) :: after)).get? k = some v := by
  rw [ofList, List.foldl_append, List.foldl_cons, get?_foldl_insert _ _ last, get?_insert_self]

theorem get?_ofList_eq_some_iff {l : List (κ × α)} (distinct : l.Pairwise fun a b => a.1 ≠ b.1)
    (k : κ) (v : α) : (ofList l).get? k = some v ↔ (k, v) ∈ l := by
  constructor
  · intro found
    rcases get?_foldl_insert_cases l _ found with member | none
    · exact member
    · cases none
  · intro member
    obtain ⟨before, after, rfl⟩ := List.append_of_mem member
    refine get?_ofList before after v fun later => ?_
    obtain ⟨e, member, same⟩ := List.mem_map.mp later
    exact (List.pairwise_cons.mp (List.pairwise_append.mp distinct).2.1).1 e member same.symm

theorem toList_distinct (d : Dict κ α) : d.toList.Pairwise fun a b => a.1 ≠ b.1 := by
  refine d.sorted.imp ?_
  rintro a b less same
  rw [same] at less
  exact Key.irrefl _ less

theorem ofList_toList (d : Dict κ α) : ofList d.toList = d := by
  apply ext_get?
  intro k
  ext v
  rw [get?_ofList_eq_some_iff d.toList_distinct, get?_eq_some_iff]

theorem get?_foldl_insert_of_mem {l : List (κ × α)} (distinct : l.Pairwise fun a b => a.1 ≠ b.1)
    (d : Dict κ α) {k : κ} {v : α} (member : (k, v) ∈ l) :
    (l.foldl (fun d e => d.insert e.1 e.2) d).get? k = some v := by
  obtain ⟨before, after, rfl⟩ := List.append_of_mem member
  have last : k ∉ after.map (·.1) := by
    intro later
    obtain ⟨e, member, same⟩ := List.mem_map.mp later
    exact (List.pairwise_cons.mp (List.pairwise_append.mp distinct).2.1).1 e member same.symm
  rw [List.foldl_append, List.foldl_cons, get?_foldl_insert _ _ last, get?_insert_self]

theorem insert_eq_map [DecidableEq κ] (d : Dict κ α) {k : κ} (present : (d.get? k).isSome) (v : α) :
    d.insert k v = d.map fun j w => if j = k then v else w := by
  apply ext_get?
  intro j
  rw [get?_map]
  by_cases same : j = k
  · subst same
    obtain ⟨w, found⟩ := Option.isSome_iff_exists.mp present
    simp [found]
  · rw [get?_insert_of_ne _ same]
    simp [same]

theorem modify_eq_map [DecidableEq κ] (d : Dict κ α) (k : κ) (f : α → α) :
    d.modify k f = d.map fun j w => if j = k then f w else w := by
  rw [modify]
  split
  · rename_i v found
    rw [insert_eq_map d (by rw [found]; rfl)]
    apply ext_get?
    intro j
    rw [get?_map, get?_map]
    by_cases same : j = k
    · simp [same, found]
    · simp [same]
  · rename_i absent
    apply ext_get?
    intro j
    rw [get?_map]
    by_cases same : j = k
    · simp [same, absent]
    · simp [same]

theorem keys_ascending (d : Dict κ α) : d.keys.Pairwise (· < ·) := List.pairwise_map.mpr d.sorted

theorem length_le_size (d : Dict κ α) {l : List κ} (distinct : l.Nodup)
    (known : ∀ k ∈ l, (d.get? k).isSome) : l.length ≤ d.size := by
  have inside : l ⊆ d.keys := fun k member => (d.get?_isSome_iff k).mp (known k member)
  have bound := (List.subperm_of_subset distinct inside).length_le
  rwa [keys, List.length_map] at bound

end Taproom.Dict

namespace Taproom

@[simp] theorem Names.mem_toList_ofList (l : List String) (n : String) :
    n ∈ (Names.ofList l).toList ↔ n ∈ l := by
  rw [Names.toList, Names.ofList, Dict.mem_keys_ofList, List.map_map]
  simp

theorem Names.contains_iff (s : Names) (n : String) : s.contains n ↔ n ∈ s.toList :=
  Dict.contains_iff s n

theorem sortNames_perm (l : List String) : (sortNames l).Perm l := List.mergeSort_perm l _

@[simp] theorem mem_sortNames (l : List String) (n : String) : n ∈ sortNames l ↔ n ∈ l :=
  (sortNames_perm l).mem_iff

theorem sortNames_sorted (l : List String) : (sortNames l).Pairwise (· ≤ ·) := by
  have sorted : (sortNames l).Pairwise fun a b => decide (a ≤ b) := by
    apply List.pairwise_mergeSort
    · intro a b c first second
      simp only [decide_eq_true_eq] at first second ⊢
      exact String.le_trans first second
    · intro a b
      simpa using String.le_total a b
  exact sorted.imp of_decide_eq_true

theorem ascending_of_sorted {l : List String} (sorted : l.Pairwise (· ≤ ·)) (distinct : l.Nodup) :
    l.Pairwise (· < ·) := by
  refine (sorted.and distinct).imp ?_
  rintro a b ⟨le, ne⟩
  by_contra notBelow
  exact ne (String.le_antisymm le (String.not_lt.mp notBelow))

theorem sortNames_ascending {l : List String} (distinct : l.Nodup) :
    (sortNames l).Pairwise (· < ·) :=
  ascending_of_sorted (sortNames_sorted l) ((sortNames_perm l).nodup_iff.mpr distinct)

end Taproom
