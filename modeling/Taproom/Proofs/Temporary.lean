import Taproom.Proofs.BottleName
import Taproom.Proofs.Edits

/-!
Temporary files beside a path. A path that ends in a name leads into a directory, and so do the paths of
the files beside it. What is made there under a temporary name was not there before, so that nothing is
left of it once it is removed.
-/

namespace Taproom

open Path (IsComponent IsWalked)

/-! ### Names of temporary files -/

theorem free_digits (n : Nat) {c : Char} (mark : c.isDigit = false) : c ∉ (toString n).toList := by
  intro member
  rw [Nat.toString_eq_repr, Nat.toList_repr] at member
  rw [Nat.isDigit_of_mem_toDigits (by decide) (by decide) member] at mark
  cases mark

namespace Act

variable {file file' : String} {n n' : Nat}

def incomplete (file : String) (n : Nat) : String :=
  file ++ "." ++ toString (1000000000 + n) ++ ".incomplete"

theorem toList_incomplete (file : String) (n : Nat) :
    (incomplete file n).toList = file.toList ++ '.' :: ((toString (1000000000 + n)).toList ++
      ".incomplete".toList) := by
  simp [incomplete]

theorem isComponent_incomplete (component : IsComponent file.toList) (n : Nat) :
    IsComponent (incomplete file n).toList := by
  rw [toList_incomplete]
  refine component.append ?_
  have digits := free_digits (1000000000 + n) (by decide : '/'.isDigit = false)
  have ending : '/' ∉ ".incomplete".toList := by decide
  rw [List.mem_cons, List.mem_append, not_or, not_or]
  exact ⟨by decide, digits, ending⟩

theorem incomplete_inj (same : incomplete file n = incomplete file' n') : n = n' := by
  have split : ∀ (file : String) n, Text.cutLast? ['.'] ((file.toList ++ '.' ::
      (toString (1000000000 + n)).toList)) = some (file.toList, (toString (1000000000 + n)).toList) := by
    intro file n
    rw [Text.cutLast?_eq_some_iff]
    exact ⟨by simp, free_digits _ (by decide)⟩
  have chars := congrArg String.toList same
  rw [toList_incomplete, toList_incomplete, ← List.cons_append, ← List.cons_append, ← List.append_assoc,
    ← List.append_assoc] at chars
  have cut := split file n
  rw [List.append_cancel_right chars, split file' n', Option.some.injEq, Prod.mk.injEq] at cut
  have digits := congrArg (Nat.ofDigitChars 10 · 0) cut.2
  simp only [Nat.toString_eq_repr, Nat.toList_repr, Nat.ofDigitChars_ten_toDigits] at digits
  omega

theorem incomplete_ne (file : String) (n : Nat) : incomplete file n ≠ file := by
  intro same
  have long := congrArg (·.toList.length) same
  simp only [toList_incomplete, List.length_append, List.length_cons] at long
  omega

theorem firstFree_cases (taken : Nat → Bool) (more n : Nat) :
    taken (firstFree taken more n) = false ∨
      firstFree taken more n = n + more ∧ ∀ i, n ≤ i → i < n + more → taken i = true := by
  induction more generalizing n with
  | zero => exact Or.inr ⟨rfl, fun i lower upper => by omega⟩
  | succ more ih =>
    rw [firstFree]
    split
    · rename_i first
      rcases ih (n + 1) with free | ⟨last, all⟩
      · exact Or.inl free
      · refine Or.inr ⟨by omega, fun i lower upper => ?_⟩
        rcases Nat.eq_or_lt_of_le lower with rfl | later
        · exact first
        · exact all i later (by omega)
    · rename_i free
      exact Or.inl (by simpa using free)

theorem firstFree_le (taken : Nat → Bool) (more n : Nat) : firstFree taken more n ≤ n + more := by
  induction more generalizing n with
  | zero => exact Nat.le_refl _
  | succ more ih =>
    rw [firstFree]
    split
    · have := ih (n + 1)
      omega
    · omega

end Act

/-! ### Paths that end in a name -/

namespace Path

variable {rooted : Bool} {names : List String} {name : String}

theorem base_written (last : IsComponent name.toList) : base (written rooted (names ++ [name])) = name := by
  obtain ⟨before, chars, ends⟩ : ∃ before, (written rooted (names ++ [name])).toList = before ++ name.toList ∧
      (before = [] ∨ ∃ front, before = front ++ ['/']) := by
    by_cases none : names = []
    · subst none
      refine ⟨_, toList_written_singleton rooted name, ?_⟩
      cases rooted
      · exact Or.inl rfl
      · exact Or.inr ⟨[], rfl⟩
    · exact ⟨(written rooted names).toList ++ ['/'], by simp [toList_written_snoc none], Or.inr ⟨_, rfl⟩⟩
  have nonempty : before ++ name.toList ≠ [] := by simp [last.1]
  have filled : written rooted (names ++ [name]) ≠ "" := by
    intro empty
    rw [empty] at chars
    exact nonempty chars.symm
  rw [base, if_neg filled, Text.chars_eq, chars, Act.dropWhile_component last,
    if_neg (mt List.reverse_eq_nil_iff.mp nonempty), takeWhile_concat last.2.2.2 before ends]
  simp

theorem IsWalked.init {steps : List (List Char)} {last : List Char} (done : IsWalked rooted (steps ++ [last]))
    (component : IsComponent last) : IsWalked rooted steps := by
  obtain ⟨ups, cs, whole, down, components⟩ := done
  obtain rfl | ⟨front, c, rfl⟩ := List.eq_nil_or_concat' cs
  · -- A path that only goes up does not end in a name.
    have climbs : last ∈ List.replicate ups up := by
      rw [List.append_nil] at whole
      exact whole ▸ List.mem_append_right _ (List.mem_singleton_self _)
    exact absurd (List.eq_of_mem_replicate climbs) component.2.2.1
  · rw [← List.append_assoc] at whole
    obtain ⟨rfl, -⟩ := List.append_inj' whole rfl
    exact ⟨ups, front, rfl, down, fun d member => components d (List.mem_append_left _ member)⟩

theorem exists_written_clean {p : String} {front : List (List Char)} {last : List Char}
    (ends : pieces p.toList = front ++ [last] ∨ pieces p.toList = front ++ [last, []])
    (component : IsComponent last) :
    ∃ rooted names, clean p = written rooted (names ++ [String.ofList last]) ∧
      IsWalked rooted (names.map String.toList) := by
  have steps : stepsOf p = (front.foldl (enter (isAbs p)) []).reverse ++ [last] := by
    rcases ends with ends | ends
    · rw [stepsOf, ends, walk, List.foldl_append]
      simp [enter_component component]
    · rw [stepsOf, ends, walk, List.foldl_append]
      simp [enter_component component, enter_stays]
  have done := stepsOf_isWalked p
  rw [steps] at done
  refine ⟨isAbs p, ((front.foldl (enter (isAbs p)) []).reverse).map String.ofList, ?_, ?_⟩
  · rw [clean_eq_written, steps, List.map_append, List.map_singleton]
  · simpa [Function.comp_def] using done.init component

theorem exists_written_join (root : String) {q : String} {front : List (List Char)} {last : List Char}
    (ends : pieces q.toList = front ++ [last] ∨ pieces q.toList = front ++ [last, []])
    (component : IsComponent last) :
    ∃ rooted names, join [root, q] = written rooted (names ++ [String.ofList last]) ∧
      IsWalked rooted (names.map String.toList) := by
  have filled : q ≠ "" := by
    rintro rfl
    have none : pieces "".toList = [[]] := rfl
    rw [none] at ends
    rcases ends with ends | ends
    · cases front with
      | nil => exact component.1 (List.cons.inj ends).1.symm
      | cons c front => simp at ends
    · have short := congrArg List.length ends
      simp at short
  by_cases some : root = ""
  · subst some
    have joined : join ["", q] = clean q := by simp [join, filled]
    rw [joined]
    exact exists_written_clean ends component
  · have joined : join [root, q] = clean ("/".intercalate [root, q]) := by
      rw [join_cons_of_ne some]
      simp [filled]
    have whole : pieces ("/".intercalate [root, q]).toList = (pieces root.toList ++ front) ++ [last] ∨
        pieces ("/".intercalate [root, q]).toList = (pieces root.toList ++ front) ++ [last, []] := by
      rw [pieces_intercalate]
      simpa using ends
    rw [joined]
    exact exists_written_clean whole component

end Path

namespace Disk

variable {d : Disk} {rooted follow : Bool} {names : List String} {name c : String} {base place : Place}

/-! ### What lies beside a path -/

theorem locate_written (d : Disk) (follow : Bool) (done : IsWalked rooted (names.map String.toList)) :
    d.locate follow (Path.written rooted names) =
      walk d.tree follow maxLinks (if rooted then [] else d.cwd) names := by
  have cleaned := locate_clean d follow (Path.written rooted names)
  rw [Path.clean_written done, startOf, Path.isAbs_written done, namesOf, Path.stepsOf_written done] at cleaned
  simpa [Function.comp_def] using cleaned

/-- The path of a file in a directory goes along the way to the directory and on by one name. -/
theorem locate_inside (d : Disk) (follow : Bool) (done : IsWalked rooted (names.map String.toList))
    (component : IsComponent c.toList) :
    d.locate follow (Act.inside (Path.written rooted names) c) =
      walk d.tree follow maxLinks (if rooted then [] else d.cwd) (names ++ [c]) := by
  have whole : IsWalked rooted ((names ++ [c]).map String.toList) := by
    rw [List.map_append]
    exact done.append (by simpa using component)
  by_cases some : names = []
  · subst some
    rw [List.nil_append] at whole ⊢
    cases rooted with
    | true =>
      have path : Act.inside (Path.written true []) c = Path.written true [c] := by
        have root : Path.written true [] = "/" := by decide
        rw [root, Act.inside, if_pos (by decide), ← String.toList_inj, Path.toList_written_singleton]
        simp
      rw [path, locate_written d follow whole]
    | false =>
      have path : Act.inside (Path.written false []) c = "./" ++ c := by
        have dot : Path.written false [] = "." := by decide
        rw [dot, Act.inside, if_neg (by decide)]
        rfl
      have pieces : splitAt ("./" ++ c) '/' = [".", c] := by
        have chars : ("./" ++ c).toList = ['.'] ++ '/' :: c.toList := by simp
        rw [splitAt, Text.chars_eq, chars, Text.splitAt_append_cons, Text.splitAt_of_notMem component.2.2.2]
        simp [Text.splitAt]
      have filled : "./" ++ c ≠ "" := by simp
      have relative : Path.isAbs ("./" ++ c) = false := by simp [Path.isAbs, Path.isRooted]
      rw [path, locate_eq_walk, if_neg filled, relative, pieces]
      exact walk_skip (Or.inr rfl)
  · rw [Act.inside_written some, locate_written d follow whole]
    intro x last
    refine done.piece (List.mem_map_of_mem ?_)
    exact List.mem_of_getLast? last

/-- The path of a file: the way to its directory and its name there. -/
structure Slot where
  rooted : Bool
  names : List String
  file : String
  walked : IsWalked rooted (names.map String.toList)
  component : IsComponent file.toList

namespace Slot

variable {s : Slot} {d' : Disk}

def path (s : Slot) : String := Path.written s.rooted (s.names ++ [s.file])

def beside (s : Slot) (c : String) : String := Act.inside (Path.written s.rooted s.names) c

theorem tempPath_eq (s : Slot) (n : Nat) :
    Act.tempPath (Path.dir s.path) (Path.base s.path ++ ".") ".incomplete" n =
      s.beside (Act.incomplete s.file n) := by
  rw [path, Path.dir_written s.walked s.component, Path.base_written s.component, Act.tempPath,
    Act.decimal_eq]
  rfl

theorem locate_path (s : Slot) (d : Disk) (follow : Bool) :
    d.locate follow s.path = d.locate follow (s.beside s.file) := by
  rw [beside, locate_inside d follow s.walked s.component, path, locate_written]
  rw [List.map_append]
  exact s.walked.append (by simpa using s.component)

/-- The directory of the file lies at a place. -/
structure In (s : Slot) (base : Place) (d : Disk) : Prop where
  sound : d.Sound
  there : walk d.tree true maxLinks (if s.rooted then [] else d.cwd) s.names = .ok base
  isDir : HasDir d.tree base

namespace In

theorem unique (on : s.In base d) (on' : s.In place d) : place = base :=
  Except.ok.inj (on'.there.symm.trans on.there)

theorem keeps (on : s.In base d) (sound : d'.Sound) (cwd : d'.cwd = d.cwd) (kept : Keeps d.tree d'.tree) :
    s.In base d' where
  sound := sound
  there := by
    rw [cwd]
    exact walk_keeps kept on.there on.isDir
  isDir := on.isDir.keeps kept

theorem locate (on : s.In base d) (named : IsName c)
    (noLink : follow = true → ∀ target, d.tree.get? (base ++ [c]) ≠ some (.link target)) :
    d.locate follow (s.beside c) = .ok (base ++ [c]) := by
  obtain ⟨left, goes⟩ : ∃ left, walk d.tree follow maxLinks (if s.rooted then [] else d.cwd) (s.names ++ [c]) =
      walk d.tree follow left base [c] := walk_append (Or.inl (List.cons_ne_nil c [])) on.there on.isDir
  rw [beside, locate_inside d follow s.walked named.1, goes, walk_enters named.enters]
  split
  · rfl
  · rw [walk]
  · rfl
  · rename_i target found
    cases follow with
    | true => exact absurd found (noLink rfl target)
    | false => rfl

theorem find (on : s.In base d) (named : IsName c)
    (noLink : follow = true → ∀ target, d.tree.get? (base ++ [c]) ≠ some (.link target)) :
    d.find follow (s.beside c) =
      match d.tree.get? (base ++ [c]) with
      | some e => .ok (base ++ [c], e)
      | none => .error .missing := by
  have found := find_of_ok (on.locate named noLink)
  rw [ entry?, if_neg (by simp)] at found
  exact found

theorem vacant (on : s.In base d) (named : IsName c) (absent : d.tree.get? (base ++ [c]) = none) :
    Vacant (s.beside c) (base ++ [c]) d where
  sound := on.sound
  notRoot := by simp
  free := absent
  inDir := by simpa using on.isDir
  located _ := on.locate named (by simp [absent])

end In

/-- A path that leads somewhere goes into a directory and ends in a name. -/
theorem in_of_locate (sound : d.Sound) (start : HasDir d.tree d.cwd) (component : IsComponent c.toList)
    (located : d.locate follow (s.beside c) = .ok place) : ∃ base, s.In base d ∧ IsName c := by
  rw [beside, locate_inside d follow s.walked component] at located
  have start : HasDir d.tree (if s.rooted then [] else d.cwd) := by
    cases s.rooted
    · exact start
    · exact Or.inl rfl
  obtain ⟨base, there, isDir⟩ := walk_front sound.inDir start (List.cons_ne_nil c []) located
  obtain ⟨left, goes⟩ : ∃ left, walk d.tree follow maxLinks (if s.rooted then [] else d.cwd) (s.names ++ [c]) =
      walk d.tree follow left base [c] := walk_append (Or.inl (List.cons_ne_nil c [])) there isDir
  exact ⟨base, ⟨sound, there, isDir⟩, isName_of_walk component (goes ▸ located)⟩

/-! ### Making a temporary file -/

theorem exists_free (tree : Dict (List String) Entry) (base : Place) (file : String) {numbers : List Nat}
    (distinct : numbers.Nodup) (many : tree.size < numbers.length) :
    ∃ n ∈ numbers, tree.get? (base ++ [Act.incomplete file n]) = none := by
  by_contra taken
  have known : ∀ p ∈ numbers.map fun n => base ++ [Act.incomplete file n], (tree.get? p).isSome := by
    intro p member
    obtain ⟨n, listed, rfl⟩ := List.mem_map.mp member
    rw [Option.isSome_iff_ne_none]
    exact fun free => taken ⟨n, listed, free⟩
  have places : (numbers.map fun n => base ++ [Act.incomplete file n]).Nodup := by
    refine distinct.map fun n n' same => ?_
    exact Act.incomplete_inj (List.cons.inj (List.append_cancel_left same)).1
  have few := tree.length_le_size places known
  rw [List.length_map] at few
  omega

def next (s : Slot) (d : Disk) : Nat :=
  Act.tempNumber (Path.dir s.path) (Path.base s.path ++ ".") ".incomplete" d

theorem le_next (s : Slot) (d : Disk) : d.serial ≤ s.next d := Act.le_firstFree ..

theorem next_le (s : Slot) (d : Disk) : s.next d ≤ d.serial + d.tree.size := Act.firstFree_le ..

theorem next_free (on : s.In base d) (start : HasDir d.tree d.cwd)
    (named : IsName (Act.incomplete s.file (s.next d))) :
    d.tree.get? (base ++ [Act.incomplete s.file (s.next d)]) = none := by
  have present : ∀ n, (d.find false (s.beside (Act.incomplete s.file n))).isOk = true →
      d.tree.get? (base ++ [Act.incomplete s.file n]) ≠ none := by
    intro n taken absent
    cases found : d.find false (s.beside (Act.incomplete s.file n)) with
    | error reason =>
      rw [found] at taken
      cases taken
    | ok there =>
      obtain ⟨-, -, named⟩ := in_of_locate on.sound start (Act.isComponent_incomplete s.component n)
        ((find_eq_ok_iff ..).mp found).1
      rw [on.find named (by simp), absent] at found
      cases found
  rcases Act.firstFree_cases (fun n => (d.find false (Act.tempPath (Path.dir s.path) (Path.base s.path ++ ".")
      ".incomplete" n)).isOk) d.tree.size d.serial with free | ⟨last, all⟩
  · change (d.find false (Act.tempPath _ _ _ (s.next d))).isOk = false at free
    rw [tempPath_eq, on.find named (by simp)] at free
    split at free
    · cases free
    · assumption
  · -- All numbers before it are taken, and there are as many as entries.
    obtain ⟨n, member, absent⟩ := exists_free d.tree base s.file
      (List.nodup_range' (s := d.serial) (n := d.tree.size + 1)) (by simp)
    rw [List.mem_range'_1] at member
    rcases Nat.lt_or_ge n (d.serial + d.tree.size) with less | most
    · have taken := all n member.1 less
      rw [tempPath_eq] at taken
      exact absurd absent (present n taken)
    · have same : s.next d = n := last.trans (by omega)
      rwa [same]

theorem run_makeTempFile (s : Slot) (d : Disk) :
    (Act.makeTempFile (Path.dir s.path) (Path.base s.path ++ ".") ".incomplete").run d =
      match { d with serial := s.next d + 1 }.write (s.beside (Act.incomplete s.file (s.next d))) .empty 0o600 with
      | .ok d' => (.ok (s.beside (Act.incomplete s.file (s.next d))), d')
      | .error reason => (.error (.disk ⟨"open", s.beside (Act.incomplete s.file (s.next d)), reason⟩),
          { d with serial := s.next d + 1 }) := by
  rw [Act.run_makeTempFile, tempPath_eq, Act.putFile, Act.run_change]
  rw [next]
  cases written : Disk.write _ _ _ _ <;> rfl

/-- How a temporary file is made: it is new in the directory, unless the directory is not there or the
name does not fit. -/
theorem makeTempFile_cases (s : Slot) (sound : d.Sound) (start : HasDir d.tree d.cwd) :
    (∃ base, s.In base d ∧ IsName (Act.incomplete s.file (s.next d)) ∧
      d.tree.get? (base ++ [Act.incomplete s.file (s.next d)]) = none ∧
      (Act.makeTempFile (Path.dir s.path) (Path.base s.path ++ ".") ".incomplete").run d =
        (.ok (s.beside (Act.incomplete s.file (s.next d))),
          { d with serial := s.next d + 1 }.newFile (base ++ [Act.incomplete s.file (s.next d)]) .empty
            (masked 0o600))) ∨
    (¬ ∃ base, s.In base d ∧ IsName (Act.incomplete s.file (s.next d))) ∧
      ∃ e, (Act.makeTempFile (Path.dir s.path) (Path.base s.path ++ ".") ".incomplete").run d =
        (.error e, { d with serial := s.next d + 1 }) := by
  rw [run_makeTempFile]
  by_cases fits : ∃ base, s.In base d ∧ IsName (Act.incomplete s.file (s.next d))
  · obtain ⟨base, on, named⟩ := fits
    have absent := next_free on start named
    have on' : s.In base { d with serial := s.next d + 1 } := ⟨⟨on.sound.1, on.sound.2⟩, on.there, on.isDir⟩
    rw [(on'.vacant named absent).write]
    exact Or.inl ⟨base, on, named, absent, rfl⟩
  · cases written : { d with serial := s.next d + 1 }.write (s.beside (Act.incomplete s.file (s.next d)))
        .empty 0o600 with
    | ok d' =>
      obtain ⟨place, located, -⟩ := write_eq_ok written
      exact absurd (in_of_locate sound start (Act.isComponent_incomplete s.component _) located) fits
    | error reason => exact Or.inr ⟨fits, _, rfl⟩

end Slot

end Disk

end Taproom
