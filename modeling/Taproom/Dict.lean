import Taproom.Text.Cut

/-!
Dictionaries kept as association lists in strictly ascending key order, so that two
dictionaries with the same contents are the same value and every listing is sorted.
-/

namespace Taproom

/-- Keys are ordered linearly. -/
class Key (κ : Type) extends LT κ where
  decLt : DecidableLT κ
  irrefl : ∀ a : κ, ¬ a < a
  trans : ∀ {a b c : κ}, a < b → b < c → a < c
  eq_of_not_lt : ∀ {a b : κ}, ¬ a < b → ¬ b < a → a = b

instance Key.instDecidableLT {κ : Type} [Key κ] : DecidableLT κ := Key.decLt

instance : Key String where
  decLt a b := decidable_of_iff (Text.chars a < Text.chars b) (by rw [Text.chars_eq, Text.chars_eq]; rfl)
  irrefl := String.lt_irrefl
  trans := String.lt_trans
  eq_of_not_lt h h' := String.le_antisymm (String.not_lt.1 h') (String.not_lt.1 h)

instance : Key (List String) where
  decLt := @List.decidableLT _ _ _ Key.instDecidableLT
  irrefl := List.lt_irrefl
  trans := List.lt_trans
  eq_of_not_lt h h' := List.le_antisymm (List.not_lt.1 h') (List.not_lt.1 h)

instance : Key Nat where
  decLt := inferInstance
  irrefl := Nat.lt_irrefl
  trans := Nat.lt_trans
  eq_of_not_lt h h' := Nat.le_antisymm (Nat.not_lt.1 h') (Nat.not_lt.1 h)

structure Dict (κ : Type) [Key κ] (α : Type) where
  entries : List (κ × α)
  sorted : entries.Pairwise fun a b => a.1 < b.1

namespace Dict

variable {κ α β : Type} [Key κ]

def empty : Dict κ α := ⟨[], .nil⟩

instance : EmptyCollection (Dict κ α) := ⟨empty⟩
instance : Inhabited (Dict κ α) := ⟨empty⟩

theorem ext_entries {d e : Dict κ α} (h : d.entries = e.entries) : d = e := by
  cases d; cases e; cases h; rfl

instance [BEq κ] [BEq α] : BEq (Dict κ α) := ⟨fun d e => d.entries == e.entries⟩

def toList (d : Dict κ α) : List (κ × α) := d.entries
def keys (d : Dict κ α) : List κ := d.entries.map (·.1)
def values (d : Dict κ α) : List α := d.entries.map (·.2)
def size (d : Dict κ α) : Nat := d.entries.length
def isEmpty (d : Dict κ α) : Bool := d.entries.isEmpty

def lookup (k : κ) : List (κ × α) → Option α
  | [] => none
  | (k', v) :: rest => if k < k' then none else if k' < k then lookup k rest else some v

def get? (d : Dict κ α) (k : κ) : Option α := lookup k d.entries

def contains (d : Dict κ α) (k : κ) : Bool := (d.get? k).isSome

def getD (d : Dict κ α) (k : κ) (fallback : α) : α := (d.get? k).getD fallback

def insertInto (k : κ) (v : α) : List (κ × α) → List (κ × α)
  | [] => [(k, v)]
  | (k', v') :: rest =>
    if k < k' then (k, v) :: (k', v') :: rest
    else if k' < k then (k', v') :: insertInto k v rest
    else (k', v) :: rest

theorem lt_insertInto {a k : κ} {v : α} {l : List (κ × α)} (hk : a < k)
    (h : ∀ e ∈ l, a < e.1) : ∀ e ∈ insertInto k v l, a < e.1 := by
  induction l with
  | nil => simp [insertInto, hk]
  | cons p rest ih =>
    obtain ⟨k', v'⟩ := p
    intro e he
    rw [insertInto] at he
    split at he
    · rcases List.mem_cons.1 he with rfl | he
      · exact hk
      · exact h e he
    · split at he
      · rcases List.mem_cons.1 he with rfl | he
        · exact h _ (List.mem_cons_self ..)
        · exact ih (fun e he => h e (List.mem_cons_of_mem _ he)) e he
      · rcases List.mem_cons.1 he with rfl | he
        · exact h (k', v') (List.mem_cons_self ..)
        · exact h e (List.mem_cons_of_mem _ he)

theorem sorted_insertInto (k : κ) (v : α) {l : List (κ × α)}
    (h : l.Pairwise fun a b => a.1 < b.1) :
    (insertInto k v l).Pairwise fun a b => a.1 < b.1 := by
  induction l with
  | nil => simp [insertInto]
  | cons p rest ih =>
    obtain ⟨k', v'⟩ := p
    rw [List.pairwise_cons] at h
    rw [insertInto]
    split
    · rename_i hlt
      refine List.pairwise_cons.2 ⟨?_, List.pairwise_cons.2 h⟩
      intro e he
      rcases List.mem_cons.1 he with rfl | he
      · exact hlt
      · exact Key.trans hlt (h.1 e he)
    · split
      · rename_i hlt
        exact List.pairwise_cons.2 ⟨lt_insertInto hlt h.1, ih h.2⟩
      · exact List.pairwise_cons.2 ⟨h.1, h.2⟩

def insert (d : Dict κ α) (k : κ) (v : α) : Dict κ α :=
  ⟨insertInto k v d.entries, sorted_insertInto k v d.sorted⟩

def filter (d : Dict κ α) (p : κ → α → Bool) : Dict κ α :=
  ⟨d.entries.filter fun e => p e.1 e.2, d.sorted.filter _⟩

def erase (d : Dict κ α) (k : κ) : Dict κ α :=
  d.filter fun k' _ => decide (k' < k) || decide (k < k')

def map (d : Dict κ α) (f : κ → α → β) : Dict κ β :=
  ⟨d.entries.map fun e => (e.1, f e.1 e.2), by
    simpa [List.pairwise_map] using d.sorted⟩

/-- Later entries of the list win. -/
def ofList (l : List (κ × α)) : Dict κ α :=
  l.foldl (fun d e => d.insert e.1 e.2) empty

/-- Entries of `e` win over those of `d`. -/
def override (d e : Dict κ α) : Dict κ α :=
  e.entries.foldl (fun d e => d.insert e.1 e.2) d

def modify (d : Dict κ α) (k : κ) (f : α → α) : Dict κ α :=
  match d.get? k with
  | some v => d.insert k (f v)
  | none => d

theorem lookup_insertInto_self (k : κ) (v : α) (l : List (κ × α)) :
    lookup k (insertInto k v l) = some v := by
  induction l with
  | nil => simp [insertInto, lookup, Key.irrefl]
  | cons p rest ih =>
    obtain ⟨k', v'⟩ := p
    rw [insertInto]
    split
    · simp [lookup, Key.irrefl]
    · split
      · rename_i h h'
        simp [lookup, h, h', ih]
      · rename_i h h'
        simp [lookup, h, h']

theorem lookup_insertInto_ne {k j : κ} (hne : j ≠ k) (v : α) (l : List (κ × α)) :
    lookup j (insertInto k v l) = lookup j l := by
  induction l with
  | nil =>
    simp only [insertInto, lookup]
    split
    · rfl
    · split
      · rfl
      · rename_i h h'
        exact absurd (Key.eq_of_not_lt h h') hne
  | cons p rest ih =>
    obtain ⟨k', v'⟩ := p
    rw [insertInto]
    split
    · rename_i hk
      rw [lookup]
      split
      · rename_i hj
        simp [lookup, Key.trans hj hk]
      · split
        · rfl
        · rename_i h h'
          exact absurd (Key.eq_of_not_lt h h') hne
    · split
      · simp [lookup, ih]
      · rename_i h h'
        obtain rfl := Key.eq_of_not_lt h h'
        simp only [lookup]
        split
        · rfl
        · split
          · rfl
          · rename_i h h'
            exact absurd (Key.eq_of_not_lt h h') hne

@[simp] theorem get?_insert_self (d : Dict κ α) (k : κ) (v : α) :
    (d.insert k v).get? k = some v :=
  lookup_insertInto_self k v d.entries

@[simp] theorem get?_insert_of_ne (d : Dict κ α) {k j : κ} (h : j ≠ k) (v : α) :
    (d.insert k v).get? j = d.get? j :=
  lookup_insertInto_ne h v d.entries

@[simp] theorem get?_empty (k : κ) : (empty : Dict κ α).get? k = none := rfl

end Dict

abbrev Names := Dict String Unit

namespace Names

def ofList (l : List String) : Names := Dict.ofList (l.map fun n => (n, ()))

def toList (s : Names) : List String := s.keys

def add (s : Names) (n : String) : Names := s.insert n ()

end Names

end Taproom
