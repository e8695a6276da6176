import Taproom.Disk.Action
import Taproom.Proofs.Dict
import Taproom.Proofs.Path

/-!
Walks on a disk. A walk that reached a directory goes on from there, one that meets no link ends
where its names say, and what is added to a disk leaves the walks to what was there as they are.
-/

namespace Taproom.Disk

open Path (IsComponent)

variable {tree tree' : Dict (List String) Entry} {follow : Bool} {links : Nat}
  {here rest first place names : List String} {c : String} {mode body : Nat}

/-- How paths are followed, as one recursion. -/
def walk (tree : Dict (List String) Entry) (follow : Bool) (links : Nat) (here rest : List String) :
    Except Reason Place :=
  match rest with
  | [] => .ok here
  | c :: rest =>
    if c = "" ∨ c = "." then walk tree follow links here rest
    else if c = ".." then walk tree follow links here.dropLast rest
    else if c.utf8ByteSize > maxName then .error .nameTooLong
    else if c.toList.contains '\x00' then .error .invalid
    else
      match tree.get? (here ++ [c]) with
      | none => if rest.isEmpty then .ok (here ++ [c]) else .error .missing
      | some (.dir _) => walk tree follow links (here ++ [c]) rest
      | some (.file _) => if rest.isEmpty then .ok (here ++ [c]) else .error .notDirectory
      | some (.link target) =>
        if rest.isEmpty && !follow then .ok (here ++ [c])
        else
          match links with
          | 0 => .error .tooManyLinks
          | links + 1 =>
            walk tree follow links (if Path.isAbs target then [] else here)
              (splitAt target '/' ++ rest)
termination_by (links, rest.length)

theorem pursue_eq_walk {jump : List String → List String → Except Reason Place}
    (jumps : ∀ here rest, jump here rest = match links with
      | 0 => .error .tooManyLinks
      | links + 1 => walk tree follow links here rest) :
    pursue tree follow jump here rest = walk tree follow links here rest := by
  induction rest generalizing here with
  | nil => rw [pursue, walk]
  | cons c rest ih =>
    have steps : ∀ here, pursue tree follow jump here rest = walk tree follow links here rest := fun _ => ih
    unfold pursue walk
    cases tree.get? (here ++ [c]) with
    | none => simp only [steps]
    | some e => cases e <;> simp only [steps, jumps]

theorem reach_eq_walk : reach tree follow links here rest = walk tree follow links here rest := by
  induction links generalizing here rest with
  | zero =>
    rw [reach_zero]
    exact pursue_eq_walk fun _ _ => rfl
  | succ links ih =>
    rw [reach_succ]
    exact pursue_eq_walk fun _ _ => ih

theorem locate_eq_walk (d : Disk) (follow : Bool) (p : String) :
    d.locate follow p = if p = "" then .error .missing
      else walk d.tree follow maxLinks (if Path.isAbs p then [] else d.cwd) (splitAt p '/') := by
  rw [locate, reach_eq_walk]

/-- Something that a path goes through lies at a place. -/
def HasDir (tree : Dict (List String) Entry) (place : Place) : Prop :=
  place = [] ∨ ∃ mode, tree.get? place = some (.dir mode)

theorem isDir_iff (d : Disk) (p : Place) : d.isDir p ↔ HasDir d.tree p := by
  unfold isDir entry? HasDir
  by_cases root : p = []
  · simp [root]
  · simp only [root, if_false, false_or]
    cases d.tree.get? p with
    | none => simp
    | some e => cases e <;> simp

theorem goesDown (component : IsComponent c.toList) : ¬ (c = "" ∨ c = ".") ∧ c ≠ ".." := by
  obtain ⟨nonempty, notDot, notUp, -⟩ := component
  refine ⟨?_, ?_⟩
  · rintro (rfl | rfl)
    · exact nonempty rfl
    · exact notDot rfl
  · rintro rfl
    exact notUp rfl

def IsName (c : String) : Prop :=
  IsComponent c.toList ∧ c.utf8ByteSize ≤ maxName ∧ '\x00' ∉ c.toList

instance (c : String) : Decidable (IsName c) := inferInstanceAs (Decidable (_ ∧ _))

/-- A component that a walk neither skips nor refuses. -/
def Enters (c : String) : Prop :=
  ¬ (c = "" ∨ c = ".") ∧ c ≠ ".." ∧ ¬ c.utf8ByteSize > maxName ∧ ¬ c.toList.contains '\x00' = true

theorem IsName.enters (named : IsName c) : Enters c := by
  obtain ⟨component, short, clean⟩ := named
  obtain ⟨stays, down⟩ := goesDown component
  exact ⟨stays, down, by omega, by simpa using clean⟩

theorem walk_enters (enters : Enters c) :
    walk tree follow links here (c :: rest) =
      match tree.get? (here ++ [c]) with
      | none => if rest.isEmpty then .ok (here ++ [c]) else .error .missing
      | some (.dir _) => walk tree follow links (here ++ [c]) rest
      | some (.file _) => if rest.isEmpty then .ok (here ++ [c]) else .error .notDirectory
      | some (.link target) =>
        if rest.isEmpty && !follow then .ok (here ++ [c])
        else
          match links with
          | 0 => .error .tooManyLinks
          | links + 1 =>
            walk tree follow links (if Path.isAbs target then [] else here)
              (splitAt target '/' ++ rest) := by
  obtain ⟨stays, down, short, clean⟩ := enters
  rw [walk, if_neg stays, if_neg down, if_neg short]
  exact if_neg clean

theorem walk_dir (named : IsName c) (found : tree.get? (here ++ [c]) = some (.dir mode)) :
    walk tree follow links here (c :: rest) = walk tree follow links (here ++ [c]) rest := by
  rw [walk_enters named.enters, found]

theorem walk_last (enters : Enters c) (noLink : ∀ target, tree.get? (here ++ [c]) ≠ some (.link target)) :
    walk tree follow links here [c] = .ok (here ++ [c]) := by
  rw [walk_enters enters]
  split
  · rfl
  · rw [walk]
  · rfl
  · rename_i target found
    exact absurd found (noLink target)

theorem walk_absent (named : IsName c) (absent : tree.get? (here ++ [c]) = none) :
    walk tree follow links here [c] = .ok (here ++ [c]) :=
  walk_last named.enters (by simp [absent])

theorem walk_file (named : IsName c) (found : tree.get? (here ++ [c]) = some (.file body)) :
    walk tree follow links here [c] = .ok (here ++ [c]) :=
  walk_last named.enters (by simp [found])

/-- How a walk that succeeds takes a component: it ends there, enters a directory or follows a
link. -/
theorem walk_component_cases (component : IsComponent c.toList)
    (reached : walk tree follow links here (c :: rest) = .ok place) :
    (rest = [] ∧ place = here ++ [c] ∧
      ∀ target, tree.get? (here ++ [c]) = some (.link target) → follow = false) ∨
    ((∃ mode, tree.get? (here ++ [c]) = some (.dir mode)) ∧
      walk tree follow links (here ++ [c]) rest = .ok place) ∨
    ∃ target, tree.get? (here ++ [c]) = some (.link target) ∧ (rest ≠ [] ∨ follow = true) := by
  obtain ⟨stays, down⟩ := goesDown component
  rw [walk, if_neg stays, if_neg down] at reached
  split at reached
  · cases reached
  · split at reached
    · cases reached
    · split at reached
      · rename_i absent
        split at reached
        · rename_i last
          cases reached
          exact Or.inl ⟨List.isEmpty_iff.mp last, rfl, by simp [absent]⟩
        · cases reached
      · rename_i mode found
        exact Or.inr (Or.inl ⟨⟨mode, found⟩, reached⟩)
      · rename_i body found
        split at reached
        · rename_i last
          cases reached
          exact Or.inl ⟨List.isEmpty_iff.mp last, rfl, by simp [found]⟩
        · cases reached
      · rename_i target found
        split at reached
        · rename_i last
          simp only [Bool.and_eq_true, List.isEmpty_iff, Bool.not_eq_true'] at last
          cases reached
          exact Or.inl ⟨last.1, rfl, fun _ _ => last.2⟩
        · rename_i further
          refine Or.inr (Or.inr ⟨target, found, ?_⟩)
          simp only [Bool.and_eq_true, List.isEmpty_iff, Bool.not_eq_true', not_and_or,
            Bool.not_eq_false] at further
          exact further

/-- No link is on the way from a place along some names. One at the very end counts only if it would
be followed. -/
def Clear (tree : Dict (List String) Entry) (follow : Bool) (here : Place) (names : List String) : Prop :=
  ∀ before after target, names = before ++ after → before ≠ [] →
    tree.get? (here ++ before) = some (.link target) → after = [] ∧ follow = false

theorem Clear.of_follow (clear : Clear tree true here names) : Clear tree follow here names := by
  intro before after target split some found
  exact absurd (clear before after target split some found).2 (by decide)

theorem Clear.front {more : List String} (clear : Clear tree follow here (names ++ more))
    (further : more ≠ []) : Clear tree true here names := by
  rintro before after target rfl some found
  have ends := (clear before (after ++ more) target (by simp) some found).1
  exact absurd (List.append_eq_nil_iff.mp ends).2 further

theorem Clear.tail (clear : Clear tree follow here (c :: names)) :
    Clear tree follow (here ++ [c]) names := by
  intro before after target split some found
  rw [List.append_assoc, List.singleton_append] at found
  exact clear (c :: before) after target (by rw [split, List.cons_append]) (by simp) found

theorem clear_singleton (tree : Dict (List String) Entry) (here : Place) (c : String) :
    Clear tree false here [c] := by
  intro before after target split some _
  match before, some with
  | [b], _ => exact ⟨by simpa using (List.cons.inj split).2.symm, rfl⟩
  | b :: b' :: more, _ => simp at split

theorem walk_straight (components : ∀ c ∈ names, IsComponent c.toList)
    (clear : Clear tree follow here names)
    (reached : walk tree follow links here names = .ok place) : place = here ++ names := by
  induction names generalizing here with
  | nil =>
    rw [walk, Except.ok.injEq] at reached
    rw [← reached, List.append_nil]
  | cons c rest ih =>
    rcases walk_component_cases (components c List.mem_cons_self) reached with
      ⟨rfl, rfl, -⟩ | ⟨-, onward⟩ | ⟨target, found, further⟩
    · rfl
    · have ends := ih (fun d member => components d (List.mem_cons_of_mem c member)) clear.tail onward
      rw [ends, List.append_assoc, List.singleton_append]
    · obtain ⟨rfl, still⟩ := clear [c] rest target rfl (by simp) found
      simp [still] at further

theorem walk_congr (clear : Clear tree follow here names)
    (components : ∀ c ∈ names, IsComponent c.toList)
    (same : ∀ q, q ≠ [] → q <+: names → tree'.get? (here ++ q) = tree.get? (here ++ q)) :
    walk tree' follow links here names = walk tree follow links here names := by
  induction names generalizing here with
  | nil => rw [walk, walk]
  | cons c rest ih =>
    have step := same [c] (by simp) (by simp)
    have onward : walk tree' follow links (here ++ [c]) rest =
        walk tree follow links (here ++ [c]) rest := by
      apply ih clear.tail
      · exact fun d member => components d (List.mem_cons_of_mem c member)
      · intro q some front
        rw [List.append_assoc, List.singleton_append]
        exact same (c :: q) (by simp) (List.cons_prefix_cons.mpr ⟨rfl, front⟩)
    obtain ⟨stays, down⟩ := goesDown (components c List.mem_cons_self)
    conv_lhs => rw [walk, if_neg stays, if_neg down, step]
    conv_rhs => rw [walk, if_neg stays, if_neg down]
    cases found : tree.get? (here ++ [c]) with
    | none => rfl
    | some e =>
      cases e with
      | dir mode => rw [onward]
      | file body => rfl
      | link target =>
        obtain ⟨rfl, rfl⟩ := clear [c] rest target rfl (by simp) found
        rfl

/-- A walk that reached a directory goes on from there, with the links that it has left. -/
theorem walk_append (further : rest ≠ [] ∨ follow = true)
    (reached : walk tree true links here first = .ok place) (isDir : HasDir tree place) :
    ∃ left, walk tree follow links here (first ++ rest) = walk tree follow left place rest := by
  have present : ∀ {p : Place} {c : String}, p ++ [c] = place → ∃ mode,
      tree.get? (p ++ [c]) = some (.dir mode) := by
    rintro p c rfl
    exact isDir.resolve_left (by simp)
  fun_induction walk tree true links here first with
  | case1 links here =>
    cases reached
    exact ⟨links, rfl⟩
  | case2 links here c more stays ih =>
    rw [List.cons_append, walk, if_pos stays]
    exact ih reached
  | case3 links here more _ ih =>
    rw [List.cons_append, walk, if_neg (by decide), if_pos rfl]
    exact ih reached
  | case6 links here c more _ _ _ _ absent =>
    obtain ⟨mode, found⟩ := present (Except.ok.inj reached)
    rw [absent] at found
    cases found
  | case8 links here c more stays down short clean mode found ih =>
    rw [List.cons_append, walk_enters ⟨stays, down, short, clean⟩, found]
    exact ih reached
  | case9 links here c more _ _ _ _ body isFile =>
    obtain ⟨mode, found⟩ := present (Except.ok.inj reached)
    rw [isFile] at found
    cases found
  | case11 links here c more _ _ _ _ target _ last => simp at last
  | case13 here c more stays down short clean target found _ links ih =>
    have follows : ¬ ((more ++ rest).isEmpty && !follow) = true := by
      rcases further with some | follows
      · simp [some]
      · simp [follows]
    rw [List.cons_append, walk_enters ⟨stays, down, short, clean⟩, found]
    simp only [follows]
    rw [← List.append_assoc]
    exact ih reached
  | _ => cases reached

theorem walk_front (inDir : ∀ p c e, tree.get? (p ++ [c]) = some e → HasDir tree p)
    (start : HasDir tree here) (further : rest ≠ [])
    (reached : walk tree follow links here (first ++ rest) = .ok place) :
    ∃ middle, walk tree true links here first = .ok middle ∧ HasDir tree middle := by
  have up : ∀ p : Place, HasDir tree p → HasDir tree p.dropLast := by
    intro p isDir
    obtain rfl | ⟨init, c, rfl⟩ := List.eq_nil_or_concat' p
    · exact isDir
    · obtain ⟨mode, found⟩ := isDir.resolve_left (by simp)
      rw [List.dropLast_concat]
      exact inDir init c _ found
  fun_induction walk tree true links here first with
  | case1 links here => exact ⟨here, rfl, start⟩
  | case2 links here c more stays ih =>
    rw [List.cons_append, walk, if_pos stays] at reached
    exact ih start reached
  | case3 links here more _ ih =>
    rw [List.cons_append, walk, if_neg (by decide), if_pos rfl] at reached
    exact ih (up here start) reached
  | case4 links here c more stays down long =>
    rw [List.cons_append, walk, if_neg stays, if_neg down, if_pos long] at reached
    cases reached
  | case5 links here c more stays down short unclean =>
    rw [List.cons_append, walk, if_neg stays, if_neg down, if_neg short, if_pos unclean] at reached
    cases reached
  | case6 links here c more stays down short clean absent
  | case7 links here c more stays down short clean absent =>
    rw [List.cons_append, walk_enters ⟨stays, down, short, clean⟩, absent]
      at reached
    simp [further] at reached
  | case8 links here c more stays down short clean mode found ih =>
    rw [List.cons_append, walk_enters ⟨stays, down, short, clean⟩, found]
      at reached
    exact ih (Or.inr ⟨mode, found⟩) reached
  | case9 links here c more stays down short clean body found
  | case10 links here c more stays down short clean body found =>
    rw [List.cons_append, walk_enters ⟨stays, down, short, clean⟩, found]
      at reached
    simp [further] at reached
  | case11 links here c more stays down short clean target found last => simp at last
  | case12 here c more stays down short clean target found =>
    rw [List.cons_append, walk_enters ⟨stays, down, short, clean⟩, found]
      at reached
    simp [further] at reached
  | case13 here c more stays down short clean target found _ links ih =>
    have start : HasDir tree (if Path.isAbs target then [] else here) := by
      split
      · exact Or.inl rfl
      · exact start
    rw [List.cons_append, walk_enters ⟨stays, down, short, clean⟩, found]
      at reached
    simp only [List.isEmpty_eq_false_iff.mpr (List.append_ne_nil_of_right_ne_nil more further),
      Bool.false_and, Bool.false_eq_true, ↓reduceIte] at reached
    rw [← List.append_assoc] at reached
    exact ih start reached

/-- Everything that is in one tree is in the other. -/
def Extends (tree' tree : Dict (List String) Entry) : Prop :=
  ∀ p e, tree.get? p = some e → tree'.get? p = some e

/-- What is no file in one tree is the same in the other. -/
def Keeps (tree tree' : Dict (List String) Entry) : Prop :=
  ∀ p e, tree.get? p = some e → (∀ body, e ≠ .file body) → tree'.get? p = some e

/-- A walk leads where it led if no directory and no link is gone, unless a link is put at its end. -/
theorem walk_of_keeps (kept : Keeps tree tree') (reached : walk tree follow links here rest = .ok place)
    (noLink : place ≠ [] → (∀ target, tree.get? place ≠ some (.link target)) →
      ∀ target, tree'.get? place ≠ some (.link target)) :
    walk tree' follow links here rest = .ok place := by
  fun_induction walk tree follow links here rest with
  | case1 => rw [walk, reached]
  | case2 links here c more stays ih =>
    rw [walk, if_pos stays]
    exact ih reached
  | case3 links here more _ ih =>
    rw [walk, if_neg (by decide), if_pos rfl]
    exact ih reached
  | case6 links here c more stays down short clean found last
  | case9 links here c more stays down short clean body found last =>
    obtain rfl := Except.ok.inj reached
    obtain rfl := List.isEmpty_iff.mp last
    exact walk_last ⟨stays, down, short, clean⟩ (noLink (by simp) (by simp [found]))
  | case8 links here c more stays down short clean mode found ih =>
    rw [walk_enters ⟨stays, down, short, clean⟩, kept _ _ found (by simp)]
    exact ih reached
  | case11 links here c more stays down short clean target found last =>
    rw [walk_enters ⟨stays, down, short, clean⟩, kept _ _ found (by simp)]
    simp only [last, ↓reduceIte]
    exact reached
  | case13 here c more stays down short clean target found further links ih =>
    rw [walk_enters ⟨stays, down, short, clean⟩, kept _ _ found (by simp)]
    simp only [further]
    exact ih reached
  | _ => cases reached

theorem walk_extends (grown : Extends tree' tree)
    (reached : walk tree follow links here rest = .ok place)
    (noLink : place ≠ [] → tree.get? place = none →
      ∀ target, tree'.get? place ≠ some (.link target)) :
    walk tree' follow links here rest = .ok place := by
  refine walk_of_keeps (fun p e found _ => grown p e found) reached fun inner old target new => ?_
  cases found : tree.get? place with
  | none => exact noLink inner found target new
  | some e => exact old target (found.trans ((grown place e found).symm.trans new))

theorem walk_follow (reached : walk tree false links here rest = .ok place)
    (noLink : place ≠ [] → ∀ target, tree.get? place ≠ some (.link target)) :
    walk tree true links here rest = .ok place := by
  fun_induction walk tree false links here rest with
  | case1 => rw [walk, reached]
  | case2 links here c more stays ih =>
    rw [walk, if_pos stays]
    exact ih reached
  | case3 links here more _ ih =>
    rw [walk, if_neg (by decide), if_pos rfl]
    exact ih reached
  | case6 links here c more stays down short clean absent last =>
    rw [walk_enters ⟨stays, down, short, clean⟩, absent]
    simp only [last, ↓reduceIte]
    exact reached
  | case8 links here c more stays down short clean mode found ih =>
    rw [walk_enters ⟨stays, down, short, clean⟩, found]
    exact ih reached
  | case9 links here c more stays down short clean body found last =>
    rw [walk_enters ⟨stays, down, short, clean⟩, found]
    simp only [last, ↓reduceIte]
    exact reached
  | case11 links here c more stays down short clean target found last =>
    obtain rfl := Except.ok.inj reached
    exact absurd found (noLink (by simp) target)
  | case13 here c more stays down short clean target found further links ih =>
    rw [walk_enters ⟨stays, down, short, clean⟩, found]
    simp only [Bool.not_true, Bool.and_false, Bool.false_eq_true, ↓reduceIte]
    exact ih reached
  | _ => cases reached

/-- Below a directory that its first names lead to, a walk ends where its further names say unless it
meets a link. -/
theorem walk_below (there : walk tree true links here first = .ok place) (isDir : HasDir tree place)
    (further : names ≠ []) (components : ∀ c ∈ names, IsComponent c.toList)
    (clear : Clear tree follow place names) {ending : Place}
    (reached : walk tree follow links here (first ++ names) = .ok ending) :
    ending = place ++ names := by
  obtain ⟨left, onward⟩ := walk_append (Or.inl further) there isDir
  rw [onward] at reached
  exact walk_straight components clear reached

/-! ### Cleaned paths -/

def namesOf (p : String) : List String := (Path.stepsOf p).map String.ofList

theorem walk_skip (stays : c = "" ∨ c = ".") :
    walk tree follow links here (c :: rest) = walk tree follow links here rest := by
  rw [walk, if_pos stays]

theorem walk_write {rooted : Bool} {steps : List (List Char)} (done : Path.IsWalked rooted steps) :
    walk tree follow links here ((Path.pieces (Path.write rooted steps)).map String.ofList) =
      walk tree follow links here (steps.map String.ofList) := by
  by_cases none : steps = []
  · subst none
    cases rooted with
    | true => exact (walk_skip (Or.inl rfl)).trans (walk_skip (Or.inl rfl))
    | false => exact walk_skip (Or.inr rfl)
  · cases rooted with
    | true =>
      rw [Path.pieces_write done none]
      exact walk_skip (Or.inl rfl)
    | false =>
      rw [Path.write, if_neg Bool.false_ne_true, if_neg none, Path.pieces_joinWith done none]

def startOf (d : Disk) (p : String) : Place := if Path.isAbs p then [] else d.cwd

theorem locate_clean (d : Disk) (follow : Bool) (p : String) :
    d.locate follow (Path.clean p) = walk d.tree follow maxLinks (d.startOf p) (namesOf p) := by
  have some : Path.clean p ≠ "" := by
    intro empty
    have none := Path.toList_clean p
    rw [empty] at none
    have nonempty : Path.write (Path.isAbs p) (Path.stepsOf p) ≠ [] := by
      have empty := Path.joinWith_eq_nil_iff (Path.stepsOf_isWalked p)
      unfold Path.write
      split
      · simp
      · split
        · simp
        · rwa [ne_eq, empty]
    exact nonempty none.symm
  rw [locate_eq_walk, if_neg some, Path.isAbs_clean, splitAt, Text.chars_eq, Path.toList_clean]
  exact walk_write (Path.stepsOf_isWalked p)

theorem namesOf_components {p : String} (rooted : Path.isAbs p = true) :
    ∀ c ∈ namesOf p, IsComponent c.toList := by
  have done := Path.stepsOf_isWalked p
  rw [rooted] at done
  simpa [namesOf] using done.components

theorem namesOf_ofComponents (components : ∀ c ∈ names, IsComponent c.toList) :
    namesOf (Path.ofComponents names) = names := by
  rw [namesOf, Path.stepsOf_ofComponents components]
  simp

theorem locate_ofComponents (d : Disk) (follow : Bool)
    (components : ∀ c ∈ names, IsComponent c.toList) :
    d.locate follow (Path.ofComponents names) = walk d.tree follow maxLinks [] names := by
  rw [← Path.clean_ofComponents components, locate_clean, startOf, if_pos (by simp),
    namesOf_ofComponents components]

/-- Below a directory that its first part leads to, a path leads to what its further names say
unless it meets a link. -/
theorem locate_below {d : Disk} {dir p : String} {base place : Place}
    (there : d.locate true (Path.clean dir) = .ok base) (isDir : d.isDir base)
    (rooted : Path.isAbs p = Path.isAbs dir) (steps : namesOf p = namesOf dir ++ names)
    (further : names ≠ []) (components : ∀ c ∈ names, IsComponent c.toList)
    (clear : Clear d.tree follow base names) (reached : d.locate follow (Path.clean p) = .ok place) :
    place = base ++ names := by
  rw [locate_clean] at there reached
  have start : d.startOf p = d.startOf dir := by rw [startOf, startOf, rooted]
  rw [start, steps] at reached
  exact walk_below there ((isDir_iff d base).mp isDir) further components clear reached

/-! ### Listings -/

theorem mem_children_iff (d : Disk) (place : Place) (name : String) (e : Entry) :
    (name, e) ∈ d.children place ↔ d.tree.get? (place ++ [name]) = some e := by
  rw [children, List.mem_filterMap, Dict.get?_eq_some_iff]
  constructor
  · rintro ⟨⟨k, e'⟩, stored, image⟩
    simp only [Option.ite_none_right_eq_some, Option.map_eq_some_iff, Bool.and_eq_true,
      beq_iff_eq, Prod.mk.injEq] at image
    obtain ⟨⟨below, length⟩, n, last, rfl, rfl⟩ := image
    obtain ⟨more, rfl⟩ := List.isPrefixOf_iff_prefix.mp below
    obtain ⟨c, rfl⟩ : ∃ c, more = [c] := List.length_eq_one_iff.mp (by simpa using length)
    obtain rfl : c = n := by simpa using last
    exact stored
  · intro stored
    exact ⟨_, stored, by simp [isBelow]⟩

theorem mem_below_iff (d : Disk) (place : Place) (names : List String) (e : Entry) :
    (names, e) ∈ d.below place ↔ names ≠ [] ∧ d.tree.get? (place ++ names) = some e := by
  rw [below, List.mem_filterMap, Dict.get?_eq_some_iff]
  constructor
  · rintro ⟨⟨k, e'⟩, stored, image⟩
    simp only [Option.ite_none_right_eq_some, Bool.and_eq_true, Option.some.injEq, Prod.mk.injEq,
      isBelow, List.isPrefixOf_iff_prefix] at image
    obtain ⟨⟨⟨rest, rfl⟩, longer⟩, rfl, rfl⟩ := image
    rw [List.drop_left]
    refine ⟨?_, stored⟩
    rintro rfl
    simp at longer
  · rintro ⟨further, stored⟩
    refine ⟨(place ++ names, e), stored, ?_⟩
    simp [isBelow, List.length_pos_iff.mpr further]

theorem children_ascending (d : Disk) (place : Place) :
    (d.children place).Pairwise fun a b => a.1 < b.1 := by
  rw [children, List.pairwise_filterMap]
  refine d.tree.sorted.imp ?_
  rintro ⟨k, e⟩ ⟨k', e'⟩ less ⟨n, f⟩ image ⟨n', f'⟩ image'
  simp only [Option.ite_none_right_eq_some, Option.map_eq_some_iff, Bool.and_eq_true,
    beq_iff_eq, Prod.mk.injEq] at image image'
  obtain ⟨⟨below, length⟩, n, last, rfl, rfl⟩ := image
  obtain ⟨⟨below', length'⟩, n', last', rfl, rfl⟩ := image'
  obtain ⟨more, rfl⟩ := List.isPrefixOf_iff_prefix.mp below
  obtain ⟨more', rfl⟩ := List.isPrefixOf_iff_prefix.mp below'
  obtain ⟨c, rfl⟩ : ∃ c, more = [c] := List.length_eq_one_iff.mp (by simpa using length)
  obtain ⟨c', rfl⟩ : ∃ c, more' = [c] := List.length_eq_one_iff.mp (by simpa using length')
  obtain rfl : c = n := by simpa using last
  obtain rfl : c' = n' := by simpa using last'
  dsimp only at less ⊢
  by_contra ascending
  rcases Decidable.em (c' < c) with descending | same
  · exact List.lt_irrefl _ (List.lt_trans less
      (List.append_left_lt (List.cons_lt_cons_iff.mpr (Or.inl descending))))
  · obtain rfl := Key.eq_of_not_lt ascending same
    exact List.lt_irrefl _ less

end Taproom.Disk
