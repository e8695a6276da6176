import Taproom.Disk.Search
import Taproom.Proofs.Directories

/-!
Searches for a name in all directories below one. Where nothing but directories and files lies, a
search finds the name in every directory that has it, in the order of the directories.
-/

namespace Taproom

/-! ### Patterns that spell a name -/

namespace PathPattern

variable {s rest : List Char} {fuel : Nat}

def IsLiteral (s : List Char) : Prop :=
  ∀ c ∈ s, c ∉ ['\\', '*', '?', '[', ']', '\x7b', '\x7d', '/']

instance : DecidablePred IsLiteral := List.decidableBAll _

theorem IsLiteral.head {c : Char} (literal : IsLiteral (c :: s)) :
    c ≠ '\\' ∧ c ≠ '*' ∧ c ≠ '?' ∧ c ≠ '[' ∧ c ≠ ']' ∧ c ≠ '\x7b' ∧ c ≠ '\x7d' ∧ c ≠ '/' := by
  simpa using literal c List.mem_cons_self

theorem IsLiteral.tail {c : Char} (literal : IsLiteral (c :: s)) : IsLiteral s :=
  fun d member => literal d (List.mem_cons_of_mem c member)

theorem isValid_of_plain (plain : ∀ c ∈ s, c ∉ ['\\', '[', '\x7b', '\x7d']) (enough : s.length < fuel) :
    isValid fuel 0 s = true := by
  induction s generalizing fuel with
  | nil =>
    obtain _ | fuel := fuel
    · omega
    simp [isValid]
  | cons c s ih =>
    obtain _ | fuel := fuel
    · omega
    rw [List.forall_mem_cons] at plain
    have onward := ih plain.2 (show s.length < fuel by simpa using enough)
    have head := plain.1
    simp only [List.mem_cons, List.not_mem_nil, or_false, not_or] at head
    rw [isValid]
    · exact onward
    all_goals simp_all

theorem firstMeta?_append (literal : IsLiteral s) (place : Nat) (rest : List Char) :
    firstMeta? place (s ++ rest) = firstMeta? (place + s.length) rest := by
  induction s generalizing place with
  | nil => rfl
  | cons c s ih =>
    obtain ⟨backslash, star, one, opening, -, brace, -, -⟩ := literal.head
    rw [List.cons_append, firstMeta?]
    · simp only [star, one, opening, brace, decide_false, Bool.or_self, Bool.false_eq_true, if_false]
      rw [ih literal.tail, List.length_cons, Nat.add_assoc, Nat.add_comm 1]
    · simp [backslash]

theorem literal_eq (isLiteral : IsLiteral s) : literal s = s := by
  induction s with
  | nil => rfl
  | cons c s ih =>
    obtain ⟨backslash, -⟩ := isLiteral.head
    rw [literal, ih isLiteral.tail]
    simp [backslash]

theorem lastPlace?_slash {front part : List Char} (unescaped : '\\' ∉ front)
    (plain : ∀ c ∈ part, c ≠ '/' ∧ c ≠ '\x7d') :
    lastPlace? (fun c => c = '/' || c = '\x7d') (front ++ '/' :: part) = some front.length := by
  have after : ∀ (part : List Char), (∀ c ∈ part, c ≠ '/' ∧ c ≠ '\x7d') → ∀ found escaped place,
      lastPlace?.go (fun c => c = '/' || c = '\x7d') found escaped place part = found := by
    intro part
    induction part with
    | nil => exact fun _ _ _ _ => rfl
    | cons c part ih =>
      intro plain found escaped place
      rw [List.forall_mem_cons] at plain
      rw [lastPlace?.go, ih plain.2]
      simp [plain.1]
  have before : ∀ (front : List Char), '\\' ∉ front → ∀ found place,
      lastPlace?.go (fun c => c = '/' || c = '\x7d') found false place (front ++ '/' :: part) =
        some (place + front.length) := by
    intro front
    induction front with
    | nil =>
      intro _ found place
      rw [List.nil_append, lastPlace?.go, after part plain]
      simp
    | cons c front ih =>
      intro unescaped found place
      rw [List.mem_cons, not_or] at unescaped
      have notEscape : decide (c = '\\') = false := by simpa using Ne.symm unescaped.1
      rw [List.cons_append, lastPlace?.go, notEscape, ih unescaped.2, List.length_cons,
        Nat.add_assoc, Nat.add_comm 1]
  rw [lastPlace?, before front unescaped, Nat.zero_add]

example : lastPlace? (fun c => c = '/' || c = '\x7d') "Formula/a.yaml".toList = some 7 := by decide +kernel

/-- A name is an instance of a part that spells a name if it is the one that is spelled. -/
theorem matches?_literal {p : List Char} (isLiteral : IsLiteral p) (enough : p.length < fuel)
    (s : List Char) : matches? fuel p s = some (decide (p = s)) := by
  induction p generalizing fuel s with
  | nil =>
    obtain _ | fuel := fuel
    · omega
    cases s <;> simp [matches?]
  | cons q p ih =>
    obtain _ | fuel := fuel
    · omega
    obtain ⟨backslash, star, one, opening, -, brace, -, -⟩ := isLiteral.head
    cases s with
    | nil => simp [matches?, star]
    | cons c s =>
      have onward := ih isLiteral.tail (show p.length < fuel by simpa using enough) s
      rw [matches?]
      · by_cases same : q = c
        · simp [same, onward]
        · simp [same]
      all_goals simp_all

theorem holds?_star {p : List Char} (isLiteral : IsLiteral p) (some : p ≠ []) (s : List Char) :
    holds? ('*' :: p) s = Option.some (p.isSuffixOf s) := by
  have star : ∀ s, matchStar (matches? (p.length + 1) p) s = Option.some (p.isSuffixOf s) := by
    intro s
    induction s with
    | nil =>
      rw [matchStar, matches?_literal isLiteral (Nat.lt_succ_self _), Option.some.injEq, Bool.eq_iff_iff,
        decide_eq_true_eq, List.isSuffixOf_iff_suffix, List.suffix_nil]
    | cons c s ih =>
      rw [matchStar, matches?_literal isLiteral (Nat.lt_succ_self _)]
      by_cases whole : p = c :: s
      · simp [whole]
      · simp only [whole, decide_false, ih]
        rw [Option.some.injEq, Bool.eq_iff_iff, List.isSuffixOf_iff_suffix, List.isSuffixOf_iff_suffix,
          List.suffix_cons_iff, or_iff_right whole]
  obtain ⟨c, rest, rfl⟩ := List.exists_cons_of_ne_nil some
  have second := isLiteral.head.2.1
  cases s with
  | nil =>
    have short : ¬ (c :: rest).isSuffixOf [] = true := by simp
    simp [holds?, matches?, second, short]
  | cons d s =>
    rw [holds?, List.length_cons, matches?]
    · exact star (d :: s)
    · simpa using second
    · simp

example : holds? "*.yaml".toList "hello.yaml".toList = some true := by decide +kernel

end PathPattern

/-! ### Trees of directories and files -/

namespace Disk

open Path (IsComponent relative)

variable {d : Disk} {root name : String} {base place : Place} {names : List String} {e : Entry}
  {follow : Bool} {links : Nat}

theorem hasDir_above {tree : Dict (List String) Entry} {p q : Place}
    (inDir : ∀ p c e, tree.get? (p ++ [c]) = some e → HasDir tree p)
    (found : tree.get? (p ++ q) = some e) (some : q ≠ []) : HasDir tree p := by
  induction q using List.reverseRecOn generalizing e with
  | nil => exact absurd rfl some
  | append_singleton q c ih =>
    rw [← List.append_assoc] at found
    have above := inDir _ c e found
    by_cases last : q = []
    · rwa [last, List.append_nil] at above
    · rcases above with root | ⟨mode, isDir⟩
      · exact Or.inl (List.append_eq_nil_iff.mp root).1
      · exact ih isDir last

theorem walk_present {tree : Dict (List String) Entry} {here : Place}
    (inDir : ∀ p c e, tree.get? (p ++ [c]) = some e → HasDir tree p) (named : ∀ c ∈ names, IsName c)
    (found : tree.get? (here ++ names) = some e) (notLink : ∀ target, e ≠ .link target) :
    walk tree follow links here names = .ok (here ++ names) := by
  induction names generalizing here with
  | nil => rw [walk, List.append_nil]
  | cons c rest ih =>
    rw [List.forall_mem_cons] at named
    have step : here ++ c :: rest = here ++ [c] ++ rest := by simp
    rw [step] at found ⊢
    by_cases last : rest = []
    · subst last
      rw [List.append_nil] at found ⊢
      cases e with
      | dir mode => rw [walk_dir named.1 found, walk]
      | file body => exact walk_file named.1 found
      | link target => exact absurd rfl (notLink target)
    · obtain ⟨mode, isDir⟩ := (hasDir_above inDir found last).resolve_left (by simp)
      rw [walk_dir named.1 isDir]
      exact ih named.2 found

theorem locate_join (d : Disk) (root : String) (further : names ≠ [])
    (components : ∀ c ∈ names, IsComponent c.toList) :
    d.locate true (Path.join [root, relative names]) =
      walk d.tree true maxLinks (d.startOf root) (namesOf root ++ names) := by
  obtain ⟨rooted, steps⟩ := Path.join_relative root further components
  have start : d.startOf (Path.join [root, relative names]) = d.startOf root := by
    rw [startOf, startOf, rooted]
  have along : namesOf (Path.join [root, relative names]) = namesOf root ++ names := by
    rw [namesOf, steps, namesOf]
    simp
  rw [← Path.clean_join ⟨_, List.mem_cons_of_mem _ List.mem_cons_self,
    Path.relative_ne_empty further components⟩, locate_clean, start, along]

/-- A path leads to a directory with nothing but directories and files below it. -/
structure Tree (root : String) (base : Place) (d : Disk) : Prop where
  inDir : ∀ p c e, d.tree.get? (p ++ [c]) = some e → HasDir d.tree p
  there : d.locate true (Path.clean root) = .ok base
  isDir : HasDir d.tree base
  named : ∀ names e, d.tree.get? (base ++ names) = some e → ∀ c ∈ names, IsName c
  noLink : ∀ names target, names ≠ [] → d.tree.get? (base ++ names) ≠ some (.link target)

namespace Tree

theorem locate (tree : Tree root base d) (further : names ≠ [])
    (components : ∀ c ∈ names, IsComponent c.toList) :
    ∃ left, d.locate true (Path.join [root, relative names]) = walk d.tree true left base names := by
  have there := tree.there
  rw [locate_clean] at there
  rw [locate_join d root further components]
  exact walk_append (Or.inr rfl) there tree.isDir

theorem find_eq_ok_iff (tree : Tree root base d) (further : names ≠ [])
    (components : ∀ c ∈ names, IsComponent c.toList) (place : Place) (e : Entry) :
    d.find true (Path.join [root, relative names]) = .ok (place, e) ↔
      place = base ++ names ∧ d.tree.get? (base ++ names) = some e := by
  obtain ⟨left, located⟩ := tree.locate further components
  rw [Disk.find_eq_ok_iff, located]
  have notRoot : base ++ names ≠ [] := by simp [further]
  constructor
  · rintro ⟨reached, found⟩
    have clear : Clear d.tree true base names := by
      intro before after target split nonempty link
      exact absurd link (tree.noLink before target nonempty)
    obtain rfl := walk_straight components clear reached
    rw [ entry?, if_neg notRoot] at found
    exact ⟨rfl, found⟩
  · rintro ⟨rfl, found⟩
    refine ⟨walk_present tree.inDir (tree.named names e found) found ?_, ?_⟩
    · rintro target rfl
      exact tree.noLink names target further found
    · rw [ entry?, if_neg notRoot, found]

theorem toOption_find (tree : Tree root base d) (further : names ≠ [])
    (components : ∀ c ∈ names, IsComponent c.toList) :
    (d.find true (Path.join [root, relative names])).toOption =
      (d.tree.get? (base ++ names)).map fun e => (base ++ names, e) := by
  have finds := tree.find_eq_ok_iff further components
  cases outcome : d.find true (Path.join [root, relative names]) with
  | error reason =>
    cases found : d.tree.get? (base ++ names) with
    | none => rfl
    | some e =>
      have ok := (finds (base ++ names) e).mpr ⟨rfl, found⟩
      rw [outcome] at ok
      cases ok
  | ok result =>
    obtain ⟨place, e⟩ := result
    obtain ⟨rfl, found⟩ := (finds place e).mp outcome
    rw [found]
    rfl

end Tree

/-! ### Listings of directories -/

/-- The directories from one downwards, each before those in it, by their names from `base`. -/
def dirsBelow (d : Disk) (base : Place) : Nat → List String → List (List String)
  | 0, _ => []
  | fuel + 1, names =>
    if d.isDir (base ++ names) then
      names :: (d.children (base ++ names)).flatMap fun (n, _) => dirsBelow d base fuel (names ++ [n])
    else []

theorem mem_dirsBelow (inDir : ∀ p c e, d.tree.get? (p ++ [c]) = some e → HasDir d.tree p)
    (fuel : Nat) (names x : List String) :
    x ∈ dirsBelow d base fuel names ↔
      ∃ rest, x = names ++ rest ∧ rest.length < fuel ∧ HasDir d.tree (base ++ x) := by
  induction fuel generalizing names with
  | zero => simp [dirsBelow]
  | succ fuel ih =>
    rw [dirsBelow]
    split
    · rename_i isDir
      rw [isDir_iff] at isDir
      rw [List.mem_cons, List.mem_flatMap]
      constructor
      · rintro (rfl | ⟨⟨n, e⟩, -, member⟩)
        · exact ⟨[], by simp, by simp, isDir⟩
        · obtain ⟨rest, rfl, short, isDir⟩ := (ih (names ++ [n])).mp member
          exact ⟨n :: rest, by simp, by simpa using short, isDir⟩
      · rintro ⟨rest, rfl, short, isDir⟩
        cases rest with
        | nil => exact Or.inl (by simp)
        | cons n rest =>
          right
          obtain ⟨mode, found⟩ := isDir.resolve_left (by simp)
          obtain ⟨e, child⟩ : ∃ e, d.tree.get? (base ++ names ++ [n]) = some e := by
            by_cases last : rest = []
            · exact ⟨_, by simpa [last] using found⟩
            · have above := hasDir_above inDir (p := base ++ names ++ [n]) (q := rest)
                (by simpa using found) last
              obtain ⟨mode, isDir⟩ := above.resolve_left (by simp)
              exact ⟨_, isDir⟩
          refine ⟨(n, e), (mem_children_iff ..).mpr child, (ih _).mpr ⟨rest, ?_, ?_, isDir⟩⟩
          · simp
          · simpa using short
    · rename_i notDir
      rw [isDir_iff] at notDir
      refine iff_of_false List.not_mem_nil ?_
      rintro ⟨rest, rfl, -, isDir⟩
      by_cases last : rest = []
      · rw [last, List.append_nil] at isDir
        exact notDir isDir
      · rw [← List.append_assoc] at isDir
        obtain ⟨mode, found⟩ := isDir.resolve_left (by simp [last])
        exact notDir (hasDir_above inDir found last)

theorem length_le_size {tree : Dict (List String) Entry}
    (inDir : ∀ p c e, tree.get? (p ++ [c]) = some e → HasDir tree p) {p rest : Place}
    (isDir : HasDir tree (p ++ rest)) : rest.length ≤ tree.size := by
  have distinct : ((List.range rest.length).map fun i => p ++ rest.take (i + 1)).Nodup := by
    rw [List.Nodup, List.pairwise_map]
    refine List.pairwise_lt_range.imp_of_mem ?_
    intro i j member member' less same
    have lengths := congrArg List.length same
    rw [List.mem_range] at member member'
    simp only [List.length_append, List.length_take] at lengths
    omega
  have known : ∀ q ∈ (List.range rest.length).map fun i => p ++ rest.take (i + 1),
      (tree.get? q).isSome := by
    intro q member
    obtain ⟨i, short, rfl⟩ := List.mem_map.mp member
    rw [List.mem_range] at short
    have notRoot : p ++ rest.take (i + 1) ≠ [] := by
      intro none
      have lengths := congrArg List.length none
      simp only [List.length_append, List.length_take, List.length_nil] at lengths
      omega
    have isDir : HasDir tree (p ++ rest.take (i + 1)) := by
      by_cases last : rest.drop (i + 1) = []
      · rwa [List.take_of_length_le (List.drop_eq_nil_iff.mp last)]
      · obtain ⟨mode, found⟩ := isDir.resolve_left (by
          intro none
          rw [(List.append_eq_nil_iff.mp none).2] at last
          exact last rfl)
        rw [← List.take_append_drop (i + 1) rest, ← List.append_assoc] at found
        exact hasDir_above inDir found last
    obtain ⟨mode, found⟩ := isDir.resolve_left notRoot
    rw [found]
    rfl
  simpa using tree.length_le_size distinct known

theorem mem_dirsBelow_size (inDir : ∀ p c e, d.tree.get? (p ++ [c]) = some e → HasDir d.tree p)
    (names x : List String) :
    x ∈ dirsBelow d base (d.tree.size + 1) names ↔
      ∃ rest, x = names ++ rest ∧ HasDir d.tree (base ++ x) := by
  rw [mem_dirsBelow inDir]
  constructor
  · rintro ⟨rest, rfl, -, isDir⟩
    exact ⟨rest, rfl, isDir⟩
  · rintro ⟨rest, rfl, isDir⟩
    have isDir' := isDir
    rw [← List.append_assoc] at isDir'
    exact ⟨rest, rfl, Nat.lt_succ_of_le (length_le_size inDir isDir'), isDir⟩

theorem dirsBelow_ascending (d : Disk) (base : Place) (fuel : Nat) (names : List String) :
    (dirsBelow d base fuel names).Pairwise (· < ·) := by
  -- What lies in a directory has longer names than the directory.
  have further : ∀ fuel names, ∀ x ∈ dirsBelow d base fuel names, ∃ rest, x = names ++ rest := by
    intro fuel
    induction fuel with
    | zero => simp [dirsBelow]
    | succ fuel ih =>
      intro names x member
      rw [dirsBelow] at member
      split at member
      · rcases List.mem_cons.mp member with rfl | member
        · exact ⟨[], by simp⟩
        · obtain ⟨⟨n, e⟩, -, member⟩ := List.mem_flatMap.mp member
          obtain ⟨rest, rfl⟩ := ih (names ++ [n]) x member
          exact ⟨n :: rest, by simp⟩
      · cases member
  induction fuel generalizing names with
  | zero => exact .nil
  | succ fuel ih =>
    rw [dirsBelow]
    split
    · rw [List.pairwise_cons, List.pairwise_flatMap]
      refine ⟨?_, fun _ _ => ih _, (d.children_ascending (base ++ names)).imp ?_⟩
      · intro x member
        obtain ⟨⟨n, e⟩, -, member⟩ := List.mem_flatMap.mp member
        obtain ⟨rest, rfl⟩ := further _ _ x member
        have longer : names ++ [] < names ++ (n :: rest) :=
          List.append_left_lt (List.nil_lt_cons n rest)
        simpa using longer
      · rintro ⟨n, e⟩ ⟨n', e'⟩ less x member y member'
        obtain ⟨rest, rfl⟩ := further _ _ x member
        obtain ⟨rest', rfl⟩ := further _ _ y member'
        rw [List.append_assoc, List.append_assoc]
        exact List.append_left_lt (List.cons_lt_cons_iff.mpr (Or.inl less))
    · exact .nil

/-! ### Searches -/

namespace Search

theorem isPlain_relative (further : names ≠ []) (components : ∀ c ∈ names, IsComponent c.toList) :
    isPlain (relative names) = true := by
  have parts : splitAt (relative names) '/' = names := by
    rw [splitAt, Text.chars_eq, ← Path.pieces, Path.pieces_relative further components]
    simp
  rw [isPlain, parts, Bool.or_eq_true]
  right
  rw [List.all_eq_true]
  intro c member
  obtain ⟨stays, up⟩ := goesDown (components c member)
  rw [not_or] at stays
  simp [stays, up]

variable (tree : Tree root base d)

include tree

theorem locate?_relative (further : names ≠ []) (components : ∀ c ∈ names, IsComponent c.toList) :
    ({ disk := d, root : Search }).locate? (relative names) =
      (d.tree.get? (base ++ names)).map fun e => (base ++ names, e) := by
  rw [locate?, if_pos (isPlain_relative further components), tree.toOption_find further components]

theorem isDir_relative (further : names ≠ []) (components : ∀ c ∈ names, IsComponent c.toList) :
    ({ disk := d, root : Search }).isDir (relative names) = d.isDir (base ++ names) := by
  rw [isDir, locate?_relative tree further components, Disk.isDir, entry?,
    if_neg (by simp [further])]
  cases d.tree.get? (base ++ names) with
  | none => rfl
  | some e => cases e <;> rfl

theorem names_relative (further : names ≠ []) (components : ∀ c ∈ names, IsComponent c.toList) :
    ({ disk := d, root : Search }).names (relative names) =
      if d.isDir (base ++ names) then (d.children (base ++ names)).map (·.1) else [] := by
  have here : d.entry? (base ++ names) = d.tree.get? (base ++ names) := by
    rw [ entry?, if_neg (by simp [further])]
  rw [Search.names, locate?_relative tree further components, Disk.isDir, here]
  cases d.tree.get? (base ++ names) with
  | none => rfl
  | some e => cases e <;> rfl

theorem child_component {n : String} {e : Entry} (member : (n, e) ∈ d.children (base ++ names)) :
    IsComponent n.toList := by
  rw [mem_children_iff, List.append_assoc] at member
  exact (tree.named _ e member n (by simp)).1

theorem dirsFrom_relative (fuel : Nat) (further : names ≠ [])
    (components : ∀ c ∈ names, IsComponent c.toList) :
    ({ disk := d, root : Search }).dirsFrom fuel (relative names) =
      (dirsBelow d base fuel names).map relative := by
  induction fuel generalizing names with
  | zero => rfl
  | succ fuel ih =>
    rw [dirsFrom, dirsBelow, isDir_relative tree further components,
      names_relative tree further components]
    by_cases isDir : d.isDir (base ++ names) = true
    · simp only [isDir, Bool.not_true, Bool.false_eq_true, if_false, if_true, List.map_cons,
        List.map_flatMap, List.map_map, List.flatMap_map, List.cons.injEq, true_and]
      apply List.flatMap_congr
      rintro ⟨n, e⟩ member
      have component := child_component tree member
      simp only [Function.comp_apply]
      rw [Path.join_relative_component further components component]
      exact ih (by simp) (List.forall_mem_append.mpr ⟨components, by simpa using component⟩)
    · simp [isDir]

omit tree in
theorem filterM_some {α : Type} (p : α → Bool) (l : List α) :
    (l.filterM fun a => some (p a)) = some (l.filter p) := by
  have inner : ∀ (l acc : List α),
      l.filterAuxM (fun a => some (p a)) acc = some ((l.filter p).reverse ++ acc) := by
    intro l
    induction l with
    | nil => exact fun _ => rfl
    | cons a l ih =>
      intro acc
      rw [List.filterAuxM]
      simp only [bind, Option.bind, ih]
      cases kept : p a <;> simp [kept]
  rw [List.filterM, inner]
  simp [bind, Option.bind, pure]

omit tree in
theorem mapM_some {α β : Type} (f : α → β) (l : List α) : (l.mapM fun a => some (f a)) = some (l.map f) :=
  List.mapM_pure

omit tree in
theorem holds?_literal {part : List Char} (isLiteral : PathPattern.IsLiteral part) (n : String) :
    PathPattern.holds? part n.toList = some (n == String.ofList part) := by
  rw [PathPattern.holds?, PathPattern.matches?_literal isLiteral (Nat.lt_succ_self _),
    Option.some.injEq, Bool.eq_iff_iff, decide_eq_true_eq, beq_iff_eq, ← String.toList_inj,
    String.toList_ofList]
  exact eq_comm

omit tree in
theorem filter_children (place : Place) (file : String) :
    ((d.children place).map (·.1)).filter (· == file) =
      if (d.tree.get? (place ++ [file])).isSome then [file] else [] := by
  have distinct : ((d.children place).map (·.1)).Nodup := by
    rw [List.Nodup, List.pairwise_map]
    refine (d.children_ascending place).imp ?_
    rintro a b less same
    rw [same] at less
    exact String.lt_irrefl _ less
  have member : file ∈ (d.children place).map (·.1) ↔ (d.tree.get? (place ++ [file])).isSome := by
    rw [List.mem_map, Option.isSome_iff_exists]
    constructor
    · rintro ⟨⟨n, e⟩, child, rfl⟩
      exact ⟨e, (mem_children_iff ..).mp child⟩
    · rintro ⟨e, found⟩
      exact ⟨(file, e), (mem_children_iff ..).mpr found, rfl⟩
  rw [List.filter_beq]
  split
  · rename_i present
    rw [List.count_eq_one_of_mem distinct (member.mpr present)]
    rfl
  · rename_i absent
    rw [List.count_eq_zero_of_not_mem (fun present => absent (member.mp present))]
    rfl

omit tree in
theorem run_split (s : Search) {fuel start : Nat} {last : Bool} {front part : List Char}
    (special : PathPattern.firstMeta? 0 (front ++ '/' :: part) = some start)
    (slash : PathPattern.lastPlace? (fun c => c = '/' || c = '\x7d') (front ++ '/' :: part) =
      some front.length) :
    s.run (fuel + 1) last (front ++ '/' :: part) =
      if front.length ≤ start then s.inDir last part (String.ofList (PathPattern.literal front))
      else do
        let dirs ← s.run fuel false front
        return (← dirs.mapM (s.inDir last part)).flatten := by
  have there : (front ++ '/' :: part)[front.length]? = some '/' := by simp
  have parts : splitOut (front ++ '/' :: part) front.length = (front, part) := by
    simp [splitOut]
  rw [run, special]
  simp only [slash, there, if_true, parts]

omit tree in
theorem paths_below (s : Search) {dir : String} {part : List Char} {p : String → Bool}
    (dirLiteral : PathPattern.IsLiteral dir.toList)
    (plain : ∀ c ∈ part, c ∉ ['\\', '[', '\x7b', '\x7d', '/']) (spelled : part ≠ [] ∧ part ≠ ['*', '*'])
    (answers : ∀ n : String, PathPattern.holds? part n.toList = some (p n)) :
    s.paths (dir ++ "/**/" ++ String.ofList part) =
      some ((s.dirsFrom (s.disk.tree.size + 1) dir).flatMap fun x =>
        ((s.names x).filter p).map fun n => Path.join [x, n]) := by
  have chars : (dir ++ "/**/" ++ String.ofList part).toList = (dir.toList ++ ['/', '*', '*']) ++ '/' :: part := by
    simp
  have valid : PathPattern.isValid ((dir ++ "/**/" ++ String.ofList part).toList.length + 1) 0
      (dir ++ "/**/" ++ String.ofList part).toList = true := by
    refine PathPattern.isValid_of_plain ?_ (Nat.lt_succ_self _)
    have among : ['\\', '[', '\x7b', '\x7d'] ⊆ ['\\', '*', '?', '[', ']', '\x7b', '\x7d', '/'] := by decide
    have among' : ['\\', '[', '\x7b', '\x7d'] ⊆ ['\\', '[', '\x7b', '\x7d', '/'] := by decide
    rw [chars]
    simp only [List.forall_mem_append, List.forall_mem_cons]
    exact ⟨⟨fun c member special => dirLiteral c member (among special), by decide, by decide, by decide,
      by simp⟩, by decide, fun c member special => plain c member (among' special)⟩
  have slash : ∀ part : List Char, (∀ c ∈ part, c ≠ '/' ∧ c ≠ '\x7d') → ∀ stars ∈ [[], ['/', '*', '*']],
      PathPattern.lastPlace? (fun c => c = '/' || c = '\x7d') ((dir.toList ++ stars) ++ '/' :: part) =
        some (dir.toList ++ stars).length := by
    intro part free stars isIn
    refine PathPattern.lastPlace?_slash ?_ free
    have unescaped : '\\' ∉ dir.toList := fun member => dirLiteral _ member (by simp)
    simp only [List.mem_cons, List.not_mem_nil, or_false] at isIn
    rcases isIn with rfl | rfl <;> simpa using unescaped
  have special : PathPattern.firstMeta? 0 (dir.toList ++ ['/', '*', '*']) = some (dir.toList.length + 1) := by
    rw [PathPattern.firstMeta?_append dirLiteral]
    simp [PathPattern.firstMeta?]
  have special' : PathPattern.firstMeta? 0 ((dir.toList ++ ['/', '*', '*']) ++ '/' :: part) =
      some (dir.toList.length + 1) := by
    rw [List.append_assoc, PathPattern.firstMeta?_append dirLiteral]
    simp [PathPattern.firstMeta?]
  have inner := slash ['*', '*'] (by simp) [] (by simp)
  rw [List.append_nil] at inner
  have free : ∀ c ∈ part, c ≠ '/' ∧ c ≠ '\x7d' := by
    intro c member
    have allowed := plain c member
    simp only [List.mem_cons, List.not_mem_nil, or_false, not_or] at allowed
    exact ⟨allowed.2.2.2.2, allowed.2.2.2.1⟩
  have outer := slash part free ['/', '*', '*'] (by simp)
  have dirs : ∀ fuel, s.run (fuel + 1) false (dir.toList ++ ['/', '*', '*']) =
      some (s.dirsFrom (s.disk.tree.size + 1) dir) := by
    intro fuel
    rw [run_split _ special inner, if_pos (by omega), PathPattern.literal_eq dirLiteral, String.ofList_toList, inDir,
      if_neg (by simp), if_pos rfl]
    simp
  have listed : ∀ x, s.inDir true part x = some (((s.names x).filter p).map fun n => Path.join [x, n]) := by
    intro x
    rw [inDir, if_neg (by simpa using spelled.1), if_neg spelled.2]
    simp only [answers, filterM_some, bind, Option.bind, pure, Bool.true_or, List.filter_true]
  rw [paths, if_pos valid, chars, run_split _ special' outer, if_neg (by simp), dirs]
  simp only [bind, Option.bind, pure, funext listed, mapM_some, List.flatMap]

omit tree in
theorem flatMap_ite {α β : Type} (p : α → Bool) (f : α → β) (l : List α) :
    (l.flatMap fun x => if p x then [f x] else []) = (l.filter p).map f := by
  induction l with
  | nil => rfl
  | cons a l ih => cases kept : p a <;> simp [kept, ih]

/-- A search for a name in all directories below one finds it in those that have it. -/
theorem paths_everywhere {dir file : String} (dirLiteral : PathPattern.IsLiteral dir.toList)
    (dirComponent : IsComponent dir.toList) (fileLiteral : PathPattern.IsLiteral file.toList)
    (fileComponent : IsComponent file.toList) :
    ({ disk := d, root : Search }).paths (dir ++ "/**/" ++ file) =
      some (((dirsBelow d base (d.tree.size + 1) [dir]).filter fun x =>
        (d.tree.get? (base ++ x ++ [file])).isSome).map fun x => relative (x ++ [file])) := by
  have among : ['\\', '[', '\x7b', '\x7d', '/'] ⊆ ['\\', '*', '?', '[', ']', '\x7b', '\x7d', '/'] := by decide
  have below := paths_below { disk := d, root : Search } dirLiteral
    (fun c member special => fileLiteral c member (among special))
    ⟨fileComponent.1, fun stars => fileLiteral '*' (stars ▸ List.mem_cons_self) (by simp)⟩
    (holds?_literal fileLiteral)
  have dirs := dirsFrom_relative tree (d.tree.size + 1) (List.cons_ne_nil dir []) (by simpa using dirComponent)
  rw [show relative [dir] = dir by simp [relative]] at dirs
  rw [String.ofList_toList, dirs, List.flatMap_map] at below
  rw [below, ← flatMap_ite]
  refine congrArg some (List.flatMap_congr fun x member => ?_)
  obtain ⟨rest, rfl, -, isDir⟩ := (mem_dirsBelow tree.inDir _ _ _).mp member
  obtain ⟨mode, found⟩ := isDir.resolve_left (by simp)
  have components : ∀ c ∈ [dir] ++ rest, IsComponent c.toList := fun c member =>
    (tree.named _ _ found c member).1
  rw [names_relative tree (by simp) components, if_pos ((isDir_iff ..).mpr (Or.inr ⟨mode, found⟩)), filter_children]
  split
  · rw [List.map_singleton, Path.join_relative_component (by simp) components fileComponent]
  · rfl

end Search

end Disk

end Taproom
