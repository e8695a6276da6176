import Taproom.Proofs.Directories
import Taproom.Proofs.Search

/-!
Ways to a place: cleaned paths, rooted or not, by the names they go along, and walks over trees that
have the same directories, or all but some of them.
-/

namespace Taproom

open Path (IsComponent IsWalked)

/-! ### Cleaned paths by their names -/

namespace Path

open Text (joinWith)

variable {rooted : Bool} {steps cs : List (List Char)} {names more : List String} {name : String}

def written (rooted : Bool) (names : List String) : String :=
  String.ofList (write rooted (names.map String.toList))

theorem toList_written (rooted : Bool) (names : List String) :
    (written rooted names).toList = write rooted (names.map String.toList) :=
  String.toList_ofList

theorem clean_eq_written (p : String) : clean p = written (isAbs p) ((stepsOf p).map String.ofList) := by
  rw [← String.toList_inj, toList_clean, toList_written]
  simp

theorem IsWalked.append (done : IsWalked rooted steps) (components : ∀ c ∈ cs, IsComponent c) :
    IsWalked rooted (steps ++ cs) := by
  obtain ⟨ups, downs, rfl, downOnly, before⟩ := done
  exact ⟨ups, downs ++ cs, List.append_assoc .., downOnly,
    List.forall_mem_append.mpr ⟨before, components⟩⟩

section

variable (done : IsWalked rooted (names.map String.toList))

include done

theorem isAbs_written :
    isAbs (written rooted names) = rooted := by
  rw [isAbs, Text.chars_eq, toList_written, isRooted_write done]

theorem stepsOf_written :
    stepsOf (written rooted names) = names.map String.toList := by
  rw [stepsOf, isAbs_written done, toList_written, walk_write done]

theorem clean_written :
    clean (written rooted names) = written rooted names := by
  rw [clean_eq_written, isAbs_written done, stepsOf_written done]
  simp

end

theorem join_eq_written (root : String) (some : names ≠ [])
    (components : ∀ c ∈ names, IsComponent c.toList) :
    join (root :: names) = written (isAbs root) ((stepsOf root).map String.ofList ++ names) := by
  obtain ⟨c, rest, rfl⟩ := List.exists_cons_of_ne_nil some
  rw [List.forall_mem_cons] at components
  have nonempty : c ≠ "" := by
    rintro rfl
    exact components.1.1 rfl
  have single : (rest.flatMap fun r => pieces r.toList) = rest.map String.toList := by
    have each : ∀ r ∈ rest, pieces r.toList = [r.toList] := fun r member =>
      Text.splitAt_of_notMem (components.2 r member).2.2.2
    rw [List.flatMap_congr each, List.map_eq_flatMap]
  obtain ⟨rooted, steps⟩ := stepsOf_join_component root components.1 rest
  rw [single, foldl_enter_components (by simpa using components.2)] at steps
  rw [← clean_join ⟨c, by simp, nonempty⟩, clean_eq_written, rooted, steps]
  simp [Function.comp_def]

theorem join_ofComponents_append (components : ∀ c ∈ names, IsComponent c.toList) (some : more ≠ [])
    (further : ∀ c ∈ more, IsComponent c.toList) :
    join (ofComponents names :: more) = ofComponents (names ++ more) := by
  rw [join_eq_written _ some further, isAbs_ofComponents, stepsOf_ofComponents components,
    ← String.toList_inj, toList_written, toList_ofComponents]
  simp

theorem write_snoc (some : steps ≠ []) (c : List Char) :
    write rooted (steps ++ [c]) = write rooted steps ++ '/' :: c := by
  have joined : ∀ (w : List Char) (ws : List (List Char)),
      joinWith ['/'] (w :: ws ++ [c]) = joinWith ['/'] (w :: ws) ++ '/' :: c := by
    intro w ws
    induction ws generalizing w with
    | nil => simp [joinWith]
    | cons v ws ih =>
      rw [List.cons_append, List.cons_append, Text.joinWith_cons_cons, Text.joinWith_cons_cons,
        ← List.cons_append, ih]
      simp
  obtain ⟨w, ws, rfl⟩ := List.exists_cons_of_ne_nil some
  cases rooted with
  | true =>
    simp only [write, ↓reduceIte]
    rw [joined, List.cons_append]
  | false => simp [write, ← joined]

theorem toList_written_snoc (some : names ≠ []) (name : String) :
    (written rooted (names ++ [name])).toList = (written rooted names).toList ++ '/' :: name.toList := by
  rw [toList_written, toList_written, List.map_append, List.map_singleton,
    write_snoc (by simpa using some)]

theorem toList_written_singleton (rooted : Bool) (name : String) :
    (written rooted [name]).toList = (if rooted then ['/'] else []) ++ name.toList := by
  cases rooted <;> simp [toList_written, write, joinWith]

theorem written_append (rooted : Bool) (names : List String) (name more : String) :
    written rooted (names ++ [name]) ++ more = written rooted (names ++ [name ++ more]) := by
  rw [← String.toList_inj, String.toList_append]
  by_cases none : names = []
  · subst none
    simp [toList_written_singleton]
  · simp [toList_written_snoc none]

theorem written_ne_empty (done : IsWalked rooted (names.map String.toList)) :
    written rooted names ≠ "" := by
  intro empty
  have cleaned := toList_clean ""
  rw [← empty, clean_written done, empty] at cleaned
  cases cleaned

theorem dir_written_singleton (rooted : Bool) (last : IsComponent name.toList) :
    dir (written rooted [name]) = written rooted [] := by
  cases rooted with
  | true =>
    have chars : (written true [name]).toList = [] ++ '/' :: name.toList := by
      simp [toList_written_singleton]
    rw [dir, Text.chars_eq, chars, dropWhile_concat last.2.2.2]
    decide
  | false =>
    have none : name.toList.reverse.dropWhile (· ≠ '/') = [] := by
      refine List.dropWhile_eq_nil_iff.mpr fun c member => ?_
      have free : c ≠ '/' := fun same => last.2.2.2 (same ▸ List.mem_reverse.mp member)
      simpa using free
    have chars : (written false [name]).toList = name.toList := by
      simp [toList_written_singleton]
    rw [dir, Text.chars_eq, chars, none]
    decide

theorem dir_written (done : IsWalked rooted (names.map String.toList)) (last : IsComponent name.toList) :
    dir (written rooted (names ++ [name])) = written rooted names := by
  by_cases some : names = []
  · subst some
    exact dir_written_singleton rooted last
  have nonempty := written_ne_empty done
  obtain ⟨x, rest, chars⟩ := List.exists_cons_of_ne_nil (by simpa using nonempty :
    (written rooted names).toList ≠ [])
  have same : isAbs (String.ofList ((written rooted names).toList ++ ['/'])) =
      isAbs (written rooted names) := by
    rw [isAbs, isAbs, Text.chars_eq, Text.chars_eq, String.toList_ofList, chars]
    by_cases slash : x = '/' <;> simp [isRooted, slash]
  have rooted' := same.trans (isAbs_written done)
  have steps : stepsOf (String.ofList ((written rooted names).toList ++ ['/'])) =
      names.map String.toList := by
    have stays : ∀ ps, walk rooted (ps ++ [[]]) = walk rooted ps := by simp [walk, enter]
    rw [stepsOf, rooted', String.toList_ofList, pieces, Text.splitAt_append_cons, ← pieces]
    exact (stays _).trans (toList_written rooted names ▸ walk_write done)
  rw [dir, Text.chars_eq, toList_written_snoc some, dropWhile_concat last.2.2.2, List.reverse_cons,
    List.reverse_reverse, clean_eq_written, rooted', steps]
  simp

end Path

namespace Act

variable {rooted : Bool} {names : List String} {name : String}

theorem dropWhile_component {c : List Char} (component : IsComponent c) (before : List Char) :
    (before ++ c).reverse.dropWhile (· = '/') = (before ++ c).reverse := by
  obtain ⟨x, rest, reversed⟩ :=
    List.exists_cons_of_ne_nil (by simpa using component.1 : c.reverse ≠ [])
  have notSlash : x ≠ '/' := by
    rintro rfl
    exact component.2.2.2 (List.mem_reverse.mp (reversed ▸ List.mem_cons_self))
  rw [List.reverse_append, reversed]
  simp [notSlash]

theorem toList_written_concat (rooted : Bool) (names : List String) (name : String) :
    ∃ before, (Path.written rooted (names ++ [name])).toList = before ++ name.toList := by
  by_cases none : names = []
  · subst none
    exact ⟨_, Path.toList_written_singleton rooted name⟩
  · exact ⟨(Path.written rooted names).toList ++ ['/'], by simp [Path.toList_written_snoc none]⟩

theorem parentPart_written (last : IsComponent name.toList) :
    parentPart (Path.written rooted (names ++ [name])) =
      if names = [] then "" else Path.written rooted names := by
  obtain ⟨before, chars⟩ := toList_written_concat rooted names name
  rw [parentPart, chars, dropWhile_component last, ← chars]
  split
  · rename_i none
    subst none
    have all : ∀ x ∈ name.toList.reverse, decide (x ≠ '/') = true := by
      intro x member
      simp only [decide_eq_true_eq]
      rintro rfl
      exact last.2.2.2 (List.mem_reverse.mp member)
    rw [List.nil_append, Path.toList_written_singleton, List.reverse_append,
      List.dropWhile_append_of_pos all]
    cases rooted <;> simp
  · rename_i some
    rw [Path.toList_written_snoc some, Path.dropWhile_concat last.2.2.2]
    simp

theorem makeParents_written (fuel : Nat) (done : IsWalked rooted (names.map String.toList))
    (last : IsComponent name.toList) (mode : Nat) :
    makeParents fuel (Path.written rooted (names ++ [name])) mode =
      if names = [] then pure () else makeDirs fuel (Path.written rooted names) mode := by
  have nonempty := Path.written_ne_empty done
  rw [makeParents, parentPart_written last]
  by_cases none : names = []
  · simp [none]
  · simp [none, nonempty]

theorem inside_written (some : names ≠ []) (last : ∀ c ∈ names.getLast?, c.toList ≠ [] ∧ '/' ∉ c.toList) :
    inside (Path.written rooted names) name = Path.written rooted (names ++ [name]) := by
  obtain ⟨init, c, rfl⟩ := (List.eq_nil_or_concat' names).resolve_left some
  obtain ⟨filled, free⟩ := last c (by simp)
  obtain ⟨before, chars⟩ := toList_written_concat rooted init c
  have noSlash : endsWith (Path.written rooted (init ++ [c])) "/" = false := by
    obtain ⟨x, rest, reversed⟩ :=
      List.exists_cons_of_ne_nil (by simpa using filled : c.toList.reverse ≠ [])
    have notSlash : x ≠ '/' := by
      rintro rfl
      exact free (List.mem_reverse.mp (reversed ▸ List.mem_cons_self))
    have slash : "/".toList.reverse = ['/'] := by decide
    rw [endsWith, Text.chars_eq, Text.chars_eq, Text.dropSuffix?, chars, List.reverse_append, reversed,
      slash, List.cons_append, Text.dropPrefix?, if_neg (Ne.symm notSlash)]
    rfl
  rw [← String.toList_inj, inside, noSlash, if_neg Bool.false_ne_true, Path.toList_written_snoc some]
  simp

end Act

namespace Disk

/-! ### Walks -/

section Walks

variable {tree tree' : Dict (List String) Entry} {follow : Bool} {links links' : Nat}
  {here place : Place} {names rest : List String} {c : String}

theorem isName_of_walk (component : IsComponent c.toList)
    (reached : walk tree follow links here (c :: rest) = .ok place) : IsName c := by
  obtain ⟨stays, down⟩ := goesDown component
  rw [walk, if_neg stays, if_neg down] at reached
  split at reached
  · cases reached
  · rename_i short
    split at reached
    · cases reached
    · rename_i clean
      exact ⟨component, by omega, by simpa using clean⟩

theorem walk_named (components : ∀ c ∈ names, IsComponent c.toList) (clear : Clear tree follow here names)
    (reached : walk tree follow links here names = .ok place) : ∀ c ∈ names, IsName c := by
  induction names generalizing here with
  | nil => simp
  | cons c rest ih =>
    rw [List.forall_mem_cons] at components ⊢
    refine ⟨isName_of_walk components.1 reached, ?_⟩
    rcases walk_component_cases components.1 reached with
      ⟨rfl, -, -⟩ | ⟨-, onward⟩ | ⟨target, found, further⟩
    · simp
    · exact ih components.2 clear.tail onward
    · obtain ⟨rfl, still⟩ := clear [c] rest target rfl (by simp) found
      simp [still] at further

theorem HasDir.keeps (isDir : HasDir tree place) (kept : Keeps tree tree') : HasDir tree' place := by
  rcases isDir with root | ⟨mode, found⟩
  · exact Or.inl root
  · exact Or.inr ⟨mode, kept _ _ found (by simp)⟩

theorem walk_keeps (kept : Keeps tree tree') (reached : walk tree true links here names = .ok place)
    (isDir : HasDir tree place) : walk tree' true links here names = .ok place := by
  refine walk_of_keeps kept reached fun inner _ target => ?_
  obtain ⟨mode, found⟩ := isDir.resolve_left inner
  simp [kept _ _ found (by simp)]

theorem walk_missing (named : IsName c) (absent : tree.get? (here ++ [c]) = none) (further : rest ≠ []) :
    walk tree follow links here (c :: rest) = .error .missing := by
  rw [walk_enters named.enters, absent]
  simp [further]

theorem walk_blocked (named : IsName c) {body : Nat}
    (found : tree.get? (here ++ [c]) = some (.file body)) (further : rest ≠ []) :
    walk tree follow links here (c :: rest) = .error .notDirectory := by
  rw [walk_enters named.enters, found]
  simp [further]

/-- Two trees that agree on a clear way but for directories that one of them lacks lead the same way,
unless the way is missing in one and leads to a place where it has nothing in the other. -/
theorem walk_alike (inDir : ∀ p c e, tree.get? (p ++ [c]) = some e → HasDir tree p)
    (named : ∀ c ∈ names, IsName c) (clear : Clear tree true here names)
    (same : ∀ l, l ≠ [] → l <+: names → l ≠ names → tree'.get? (here ++ l) = tree.get? (here ++ l) ∨
      tree.get? (here ++ l) = none ∧ ∃ mode, tree'.get? (here ++ l) = some (.dir mode))
    (noLink : ∀ target, tree'.get? (here ++ names) ≠ some (.link target)) :
    walk tree' true links' here names = walk tree true links here names ∨
      walk tree true links here names = .error .missing ∧
        walk tree' true links' here names = .ok (here ++ names) ∧ tree.get? (here ++ names) = none := by
  induction names generalizing here with
  | nil => simp [walk]
  | cons c rest ih =>
    rw [List.forall_mem_cons] at named
    have step : here ++ c :: rest = here ++ [c] ++ rest := by simp
    have notLink : ∀ target, tree.get? (here ++ [c]) ≠ some (.link target) := by
      intro target found
      exact absurd (clear [c] rest target rfl (by simp) found).2 (by decide)
    by_cases last : rest = []
    · subst last
      left
      rw [walk_last named.1.enters noLink, walk_last named.1.enters notLink]
    have onward : walk tree' true links' (here ++ [c]) rest = walk tree true links (here ++ [c]) rest ∨
        walk tree true links (here ++ [c]) rest = .error .missing ∧
          walk tree' true links' (here ++ [c]) rest = .ok (here ++ [c] ++ rest) ∧
          tree.get? (here ++ [c] ++ rest) = none := by
      apply ih named.2 clear.tail
      · intro l some front differ
        rw [List.append_assoc, List.singleton_append]
        exact same (c :: l) (by simp) (List.cons_prefix_cons.mpr ⟨rfl, front⟩) (by simpa using differ)
      · rwa [← step]
    have here' := same [c] (by simp) (by simp) (by simpa using Ne.symm last)
    rw [step]
    cases found : tree.get? (here ++ [c]) with
    | none =>
      rw [walk_missing named.1 found last]
      rcases here' with equal | ⟨-, mode, made⟩
      · left
        rw [walk_missing named.1 (equal.trans found) last]
      · -- Below a directory that one tree lacks, that tree has nothing.
        have below : ∀ q, q ≠ [] → tree.get? (here ++ [c] ++ q) = none := by
          intro q some
          cases there : tree.get? (here ++ [c] ++ q) with
          | none => rfl
          | some e =>
            rcases hasDir_above inDir there some with root | ⟨mode, isDir⟩
            · simp at root
            · rw [found] at isDir
              cases isDir
        rw [walk_dir named.1 made]
        rcases onward with equal | ⟨-, leads, absent⟩
        · obtain ⟨c', more, rfl⟩ := List.exists_cons_of_ne_nil last
          have named' := (List.forall_mem_cons.mp named.2).1
          have absent := below [c'] (by simp)
          by_cases ends : more = []
          · subst ends
            right
            rw [equal, walk_absent named' absent]
            exact ⟨rfl, rfl, absent⟩
          · left
            rw [equal, walk_missing named' absent ends]
        · exact Or.inr ⟨rfl, leads, absent⟩
    | some e =>
      have there : tree'.get? (here ++ [c]) = some e := by
        rcases here' with equal | ⟨absent, -⟩
        · exact equal.trans found
        · rw [found] at absent
          cases absent
      cases e with
      | dir mode =>
        rw [walk_dir named.1 found, walk_dir named.1 there]
        exact onward
      | file body =>
        left
        rw [walk_blocked named.1 found last, walk_blocked named.1 there last]
      | link target => exact absurd found (notLink target)

end Walks

end Disk

end Taproom
