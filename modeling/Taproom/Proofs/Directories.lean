import Taproom.Proofs.Action

/-!
Making directories. A directory is made after the parents that it lacks, and nothing but directories
on the way to it comes into being.
-/

namespace Taproom

open Path (IsComponent)

namespace Act

variable {names : List String} {name : String}

theorem toList_ofComponents_concat (names : List String) (name : String) :
    (Path.ofComponents (names ++ [name])).toList =
      (names.map String.toList).flatMap ('/' :: ·) ++ '/' :: name.toList := by
  rw [Path.toList_ofComponents, List.map_append, List.map_singleton, Path.write_concat]

theorem dropWhile_slash {c : List Char} (component : IsComponent c) (before : List Char) :
    (before ++ '/' :: c).reverse.dropWhile (· = '/') = (before ++ '/' :: c).reverse := by
  obtain ⟨nonempty, -, -, free⟩ := component
  obtain ⟨x, rest, reversed⟩ := List.exists_cons_of_ne_nil (by simpa using nonempty : c.reverse ≠ [])
  have notSlash : x ≠ '/' := by
    rintro rfl
    exact free (List.mem_reverse.mp (reversed ▸ List.mem_cons_self))
  rw [List.reverse_append, List.reverse_cons, reversed]
  simp [notSlash]

theorem parentPart_ofComponents (names : List String) (last : IsComponent name.toList) :
    parentPart (Path.ofComponents (names ++ [name])) =
      if names = [] then "" else Path.ofComponents names := by
  rw [parentPart, toList_ofComponents_concat, dropWhile_slash last,
    Path.dropWhile_concat last.2.2.2, List.drop_one, List.tail_cons, List.reverse_reverse]
  split
  · rename_i none
    simp [none]
  · rename_i further
    obtain ⟨before, c, rfl⟩ := List.eq_nil_or_concat' names |>.resolve_left further
    rw [← String.toList_inj, String.toList_ofList, toList_ofComponents_concat]
    simp

/-- The part of making a directory with its parents that concerns the parents. -/
def makeParents (fuel : Nat) (p : String) (mode : Nat) : Act Unit :=
  if parentPart p ≠ "" then makeDirs fuel (parentPart p) mode else pure ()

/-- How making a directory with its parents goes: it is there, the parents fail, or it is made after
them unless something is in its place. -/
theorem run_makeDirs (fuel : Nat) (p : String) (mode : Nat) (d : Disk) :
    run (makeDirs (fuel + 1) p mode) d =
      match d.find true p with
      | .ok (_, .dir _) => (.ok (), d)
      | .ok _ => (.error (.disk ⟨"mkdir", p, .notDirectory⟩), d)
      | .error _ =>
        match run (makeParents fuel p mode) d with
        | (.error e, d') => (.error e, d')
        | (.ok (), d') =>
          match d'.makeDir p mode with
          | .ok d'' => (.ok (), d'')
          | .error reason =>
            match d'.find false p with
            | .ok (_, .dir _) => (.ok (), d')
            | _ => (.error (.disk ⟨"mkdir", p, reason⟩), d') := by
  have parents : ∀ rest : Act Unit,
      (if parentPart p ≠ "" then makeDirs fuel (parentPart p) mode >>= fun _ => rest else rest) =
        makeParents fuel p mode >>= fun _ => rest := by
    intro rest
    unfold makeParents
    split <;> rfl
  rw [makeDirs, run_bind, run_get]
  dsimp only
  rcases d.find true p with reason | ⟨place, e⟩
  · dsimp only
    rw [parents, run_bind]
    rcases run (makeParents fuel p mode) d with ⟨(e | _), d'⟩
    · rfl
    · dsimp only
      rw [run_bind, run_attempt, makeDir, run_change]
      cases d'.makeDir p mode with
      | ok d'' => rfl
      | error reason =>
        dsimp only
        rw [run_bind, run_get]
        dsimp only
        rcases d'.find false p with reason | ⟨place, e⟩
        · rfl
        · cases e <;> rfl
  · cases e <;> rfl

theorem run_makeDirAll_of_dir {d : Disk} {p : String} {place : Disk.Place} {old : Nat} (mode : Nat)
    (found : d.find true p = .ok (place, .dir old)) : run (makeDirAll p mode) d = (.ok (), d) := by
  rw [makeDirAll, run_makeDirs, found]

theorem makeParents_ofComponents (fuel : Nat) (names : List String) (last : IsComponent name.toList)
    (mode : Nat) :
    makeParents fuel (Path.ofComponents (names ++ [name])) mode =
      if names = [] then pure () else makeDirs fuel (Path.ofComponents names) mode := by
  have nonempty := Path.ofComponents_ne_empty names
  rw [makeParents, parentPart_ofComponents names last]
  by_cases none : names = []
  · simp [none]
  · simp [none, nonempty]

theorem endsWith_ofComponents (names : List String) (last : IsComponent name.toList) :
    endsWith (Path.ofComponents (names ++ [name])) "/" = false := by
  obtain ⟨x, rest, reversed⟩ :=
    List.exists_cons_of_ne_nil (by simpa using last.1 : name.toList.reverse ≠ [])
  have notSlash : x ≠ '/' := by
    rintro rfl
    exact last.2.2.2 (List.mem_reverse.mp (reversed ▸ List.mem_cons_self))
  have chars : (Path.ofComponents (names ++ [name])).toList.reverse =
      x :: (rest ++ '/' :: ((names.map String.toList).flatMap ('/' :: ·)).reverse) := by
    rw [toList_ofComponents_concat, List.reverse_append, List.reverse_cons, reversed]
    simp
  have slash : "/".toList.reverse = ['/'] := by decide
  rw [endsWith, Text.chars_eq, Text.chars_eq, Text.dropSuffix?, chars, slash, Text.dropPrefix?, if_neg (Ne.symm notSlash)]
  rfl

theorem inside_ofComponents (components : ∀ c ∈ names, IsComponent c.toList) (name : String) :
    inside (Path.ofComponents names) name = Path.ofComponents (names ++ [name]) := by
  rw [← String.toList_inj, toList_ofComponents_concat, inside]
  obtain rfl | ⟨init, last, rfl⟩ := List.eq_nil_or_concat' names
  · have root : endsWith (Path.ofComponents []) "/" = true := by decide
    have chars : (Path.ofComponents []).toList = ['/'] := by decide
    rw [root, if_pos rfl, String.toList_append, chars]
    rfl
  · rw [endsWith_ofComponents init (components last (by simp)), if_neg Bool.false_ne_true,
      String.toList_append, String.toList_append, toList_ofComponents_concat]
    simp

theorem putDigits_eq {fuel n : Nat} (enough : n < 2 ^ (fuel + 1)) (after : List Char) :
    putDigits (fuel + 1) n after = Nat.toDigits 10 n ++ after := by
  induction fuel generalizing n after with
  | zero => rw [putDigits, if_pos (by omega), Nat.toDigits_of_lt_base (by omega), List.singleton_append]
  | succ fuel ih =>
    rw [putDigits]
    split
    · rw [Nat.toDigits_of_lt_base ‹_›, List.singleton_append]
    · rw [Nat.toDigits_of_base_le (by decide) (by omega), ih (by omega), List.append_assoc,
        List.singleton_append]

theorem decimal_eq (n : Nat) : decimal n = toString n := by
  rw [decimal, putDigits_eq Nat.lt_log2_self, List.append_nil, ← Nat.toList_repr, String.ofList_toList]
  rfl

def freshDir (before : String) (n : Nat) : String := before ++ toString (1000000000 + n) ++ ""

theorem isComponent_freshDir {before : String} (component : IsComponent before.toList) (n : Nat) :
    IsComponent (freshDir before n).toList := by
  rw [freshDir, String.toList_append, String.toList_append]
  simp only [String.toList_empty, List.append_nil]
  refine component.append fun member => ?_
  rw [show toString (1000000000 + n) = (1000000000 + n).repr from rfl, Nat.toList_repr] at member
  exact absurd (Nat.isDigit_of_mem_toDigits (by decide) (by decide) member) (by decide)

theorem run_freshName (before after : String) (d : Disk) :
    (freshName before after).run d =
      (.ok (before ++ toString (1000000000 + d.serial) ++ after), { d with serial := d.serial + 1 }) := by
  rw [← decimal_eq]
  rfl

theorem run_makeTempDir_of_ok (components : ∀ c ∈ names, IsComponent c.toList) {before : String}
    (free : before.toList.contains '/' = false) {d d' : Disk}
    (made : ({ d with serial := d.serial + 1 } : Disk).makeDir
      (Path.ofComponents (names ++ [freshDir before d.serial])) 0o700 = .ok d') :
    (makeTempDir (Path.ofComponents names) before).run d =
      (.ok (Path.ofComponents (names ++ [freshDir before d.serial])), d') := by
  rw [makeTempDir]
  simp only [free, Bool.false_eq_true, ↓reduceIte]
  rw [run_bind, run_freshName, ← freshDir]
  dsimp only
  rw [inside_ofComponents components, run_bind, run_attempt, makeDir, run_change, made]
  rfl

theorem run_makeTempDir (components : ∀ c ∈ names, IsComponent c.toList) {before : String}
    (free : before.toList.contains '/' = false) (d : Disk) :
    (∃ e, (makeTempDir (Path.ofComponents names) before).run d =
      (.error e, { d with serial := d.serial + 1 })) ∨
    ∃ d', ({ d with serial := d.serial + 1 } : Disk).makeDir
        (Path.ofComponents (names ++ [freshDir before d.serial])) 0o700 = .ok d' ∧
      (makeTempDir (Path.ofComponents names) before).run d =
        (.ok (Path.ofComponents (names ++ [freshDir before d.serial])), d') := by
  cases made : ({ d with serial := d.serial + 1 } : Disk).makeDir
      (Path.ofComponents (names ++ [freshDir before d.serial])) 0o700 with
  | ok d' => exact Or.inr ⟨d', rfl, run_makeTempDir_of_ok components free made⟩
  | error reason =>
    left
    rw [makeTempDir]
    simp only [free, Bool.false_eq_true, ↓reduceIte]
    rw [run_bind, run_freshName, ← freshDir]
    dsimp only
    rw [inside_ofComponents components, run_bind, run_attempt, makeDir, run_change, made]
    dsimp only
    rw [run_bind]
    have looked := run_stat (Path.ofComponents names) { d with serial := d.serial + 1 }
    rcases outcome : (stat (Path.ofComponents names)).run { d with serial := d.serial + 1 } with
      ⟨result, d'⟩
    rw [outcome] at looked
    obtain rfl : d' = _ := looked
    cases result with
    | error e => exact ⟨e, rfl⟩
    | ok v => exact ⟨_, rfl⟩

/-! ### Temporary files -/

theorem le_firstFree (taken : Nat → Bool) (more n : Nat) : n ≤ firstFree taken more n := by
  fun_induction firstFree taken more n with
  | case1 n => exact Nat.le_refl n
  | case2 more n isTaken ih => omega
  | case3 more n isFree => exact Nat.le_refl n

theorem run_makeTempFile (parent before after : String) (d : Disk) :
    (makeTempFile parent before after).run d =
      match (putFile (tempPath parent before after (tempNumber parent before after d)) .empty 0o600).run
          { d with serial := tempNumber parent before after d + 1 } with
      | (.ok (), d') => (.ok (tempPath parent before after (tempNumber parent before after d)), d')
      | (.error e, d') => (.error e, d') := by
  rw [makeTempFile, run_bind, run_get]
  dsimp only
  rw [run_bind, show run (modify _ : Act PUnit) d = (.ok (), _) from rfl]
  dsimp only
  rw [run_bind]
  rcases (putFile _ _ _).run _ with ⟨e | done, d'⟩ <;> rfl

theorem makeTempFile_eq_ok {parent before after t : String} {d d' : Disk}
    (made : (makeTempFile parent before after).run d = (.ok t, d')) :
    ∃ n, d.serial ≤ n ∧ (putFile (tempPath parent before after n) .empty 0o600).run
        { d with serial := n + 1 } = (.ok (), d') ∧ t = tempPath parent before after n := by
  rw [run_makeTempFile] at made
  refine ⟨tempNumber parent before after d, le_firstFree .., ?_⟩
  split at made
  · rename_i put
    cases made
    exact ⟨put, rfl⟩
  · cases made

end Act

namespace Disk

variable {d d' : Disk} {names : List String} {name : String} {mode : Nat} {base place : Place}
  {e : Entry}

theorem makeDir_ofComponents (components : ∀ c ∈ names, IsComponent c.toList)
    (last : IsComponent name.toList) (mode : Nat) :
    d.makeDir (Path.ofComponents (names ++ [name])) mode =
      match walk d.tree false maxLinks [] (names ++ [name]) with
      | .error reason => .error reason
      | .ok place =>
        match d.entry? place with
        | some _ => .error .present
        | none =>
          if d.isDir place.dropLast then .ok { d with tree := d.tree.insert place (.dir (masked mode)) }
          else .error .missing := by
  have bare : String.ofList
      ((Path.ofComponents (names ++ [name])).toList.reverse.dropWhile (· = '/')).reverse =
      Path.ofComponents (names ++ [name]) := by
    rw [Act.toList_ofComponents_concat, Act.dropWhile_slash last, List.reverse_reverse,
      ← Act.toList_ofComponents_concat, String.ofList_toList]
  have whole : ∀ c ∈ names ++ [name], IsComponent c.toList := by
    simpa [or_imp, forall_and] using ⟨components, last⟩
  have nonempty := Path.ofComponents_ne_empty (names ++ [name])
  unfold makeDir
  rw [bare]
  simp only [nonempty, decide_false, Bool.false_and, Bool.false_eq_true, ↓reduceIte,
    locate_ofComponents d false whole]
  rcases walk d.tree false maxLinks [] (names ++ [name]) with reason | place
  · rfl
  · dsimp only [bind, Except.bind]
    cases d.entry? place <;> rfl

theorem makeDir_eq_ok (components : ∀ c ∈ names, IsComponent c.toList)
    (last : IsComponent name.toList)
    (made : d.makeDir (Path.ofComponents (names ++ [name])) mode = .ok d') :
    ∃ place, walk d.tree false maxLinks [] (names ++ [name]) = .ok place ∧ place ≠ [] ∧
      d.tree.get? place = none ∧ HasDir d.tree place.dropLast ∧
      d' = { d with tree := d.tree.insert place (.dir (masked mode)) } := by
  rw [makeDir_ofComponents components last] at made
  split at made
  · cases made
  · rename_i place located
    split at made
    · cases made
    · rename_i absent
      have notRoot : place ≠ [] := by
        rintro rfl
        simp [ entry?] at absent
      split at made
      · rename_i isDir
        cases made
        refine ⟨place, located, notRoot, ?_, (isDir_iff d _).mp isDir, rfl⟩
        simpa [ entry?, notRoot] using absent
      · cases made

/-- Everything on a disk lies in a directory, and the bodies of files are numbered. -/
structure Sound (d : Disk) : Prop where
  inDir : ∀ p c e, d.tree.get? (p ++ [c]) = some e → HasDir d.tree p
  numbered : ∀ p body, d.tree.get? p = some (.file body) → body < d.nextBody

def isSound (d : Disk) : Bool :=
  d.tree.toList.all fun (p, e) => d.isDir p.dropLast &&
    match e with
    | .file body => body < d.nextBody
    | _ => true

theorem sound_of_isSound (all : d.isSound = true) : d.Sound := by
  have each : ∀ p e, d.tree.get? p = some e → d.isDir p.dropLast = true ∧
      ∀ body, e = .file body → body < d.nextBody := by
    intro p e found
    have both := List.all_eq_true.mp all _ ((Dict.get?_eq_some_iff ..).mp found)
    rw [Bool.and_eq_true] at both
    refine ⟨both.1, ?_⟩
    rintro body rfl
    exact of_decide_eq_true both.2
  refine ⟨fun p c e found => ?_, fun p body found => (each p _ found).2 body rfl⟩
  have inDir := (each _ e found).1
  rwa [List.dropLast_concat, isDir_iff] at inDir

theorem Sound.empty_below (sound : d.Sound) {p : Place} (some : p ≠ [])
    (absent : d.tree.get? p = none) (l : List String) : d.tree.get? (p ++ l) = none := by
  induction l using List.reverseRecOn with
  | nil => rwa [List.append_nil]
  | append_singleton l c ih =>
    cases found : d.tree.get? (p ++ (l ++ [c])) with
    | none => rfl
    | some e =>
      rw [← List.append_assoc] at found
      rcases sound.inDir _ c e found with root | ⟨mode, isDir⟩
      · simp [some] at root
      · rw [ih] at isDir
        cases isDir

theorem extends_insert {tree : Dict (List String) Entry} (absent : tree.get? place = none) :
    Extends (tree.insert place e) tree := by
  intro p e' found
  rw [Dict.get?_insert_of_ne _ ?_, found]
  rintro rfl
  rw [absent] at found
  cases found

/-- The path with some names leads to a directory of a sound disk. -/
structure Site (names : List String) (base : Place) (d : Disk) : Prop where
  sound : d.Sound
  components : ∀ c ∈ names, IsComponent c.toList
  there : walk d.tree true maxLinks [] names = .ok base
  isDir : HasDir d.tree base

theorem HasDir.mono {tree tree' : Dict (List String) Entry} (isDir : HasDir tree base)
    (grown : Extends tree' tree) : HasDir tree' base := by
  rcases isDir with root | ⟨mode, found⟩
  · exact Or.inl root
  · exact Or.inr ⟨mode, grown _ _ found⟩

theorem Sound.insert (sound : d.Sound) (absent : d.tree.get? place = none)
    (inDir : HasDir d.tree place.dropLast) (old : ∀ body, e = .file body → body < d.nextBody) :
    Sound { d with tree := d.tree.insert place e } where
  inDir p c e' found := by
    by_cases same : p ++ [c] = place
    · rw [← same, List.dropLast_concat] at inDir
      exact inDir.mono (extends_insert absent)
    · rw [Dict.get?_insert_of_ne _ same] at found
      exact (sound.inDir p c e' found).mono (extends_insert absent)
  numbered p body found := by
    by_cases same : p = place
    · subst same
      rw [Dict.get?_insert_self, Option.some.injEq] at found
      exact old body found
    · rw [Dict.get?_insert_of_ne _ same] at found
      exact sound.numbered p body found

/-- A path that leads into a directory where nothing is yet. -/
structure Vacant (path : String) (place : Place) (d : Disk) : Prop where
  sound : d.Sound
  notRoot : place ≠ []
  free : d.tree.get? place = none
  inDir : HasDir d.tree place.dropLast
  located : ∀ follow, d.locate follow path = .ok place

namespace Vacant

variable {path : String}

theorem write (vacant : Vacant path place d) (content : ByteArray) (mode : Nat) :
    d.write path content mode = .ok (d.newFile place content (masked mode)) := by
  unfold Disk.write
  rw [vacant.located]
  simp only [bind, Except.bind, entry?, if_neg vacant.notRoot, vacant.free]
  rw [if_pos ((isDir_iff d _).mpr vacant.inDir)]
  rfl

theorem makeLink (vacant : Vacant path place d) {target : String} (given : target ≠ "") :
    d.makeLink target path = .ok { d with tree := d.tree.insert place (.link target) } := by
  unfold Disk.makeLink
  rw [vacant.located]
  simp only [bind, Except.bind, entry?, if_neg vacant.notRoot, vacant.free, if_neg given]
  rfl

end Vacant

theorem get?_newFile_cases {p : Place} {content : ByteArray}
    (found : (d.newFile place content mode).tree.get? p = some e) :
    p = place ∧ e = .file d.nextBody ∨ d.tree.get? p = some e := by
  by_cases same : p = place
  · subst same
    rw [newFile, Dict.get?_insert_self] at found
    exact Or.inl ⟨rfl, (Option.some.inj found).symm⟩
  · rw [newFile, Dict.get?_insert_of_ne _ same] at found
    exact Or.inr found

theorem Sound.newFile (sound : d.Sound) (absent : d.tree.get? place = none)
    (inDir : HasDir d.tree place.dropLast) (content : ByteArray) (mode : Nat) :
    (d.newFile place content mode).Sound := by
  have wider : Sound { d with nextBody := d.nextBody + 1 } :=
    ⟨sound.inDir, fun p body found => Nat.lt_succ_of_lt (sound.numbered p body found)⟩
  have inserted := wider.insert (e := .file d.nextBody) absent inDir (by rintro body ⟨⟩; simp)
  exact ⟨inserted.inDir, inserted.numbered⟩

theorem Site.mono (site : Site names base d) (sound : d'.Sound) (grown : Extends d'.tree d.tree) :
    Site names base d' := by
  refine ⟨sound, site.components, walk_extends grown site.there ?_, site.isDir.mono grown⟩
  intro notRoot absent
  obtain ⟨mode, found⟩ := site.isDir.resolve_left notRoot
  rw [absent] at found
  cases found

structure Made (names : List String) (d d' : Disk) : Prop where
  rest : d' = { d with tree := d'.tree }
  grown : Extends d'.tree d.tree
  new : ∀ p e, d'.tree.get? p = some e → d.tree.get? p = some e ∨
    ∃ mode n, e = .dir mode ∧ walk d'.tree true maxLinks [] (names.take n) = .ok p
  sound : d.Sound → d'.Sound

theorem Made.refl (names : List String) (d : Disk) : Made names d d :=
  ⟨rfl, fun _ _ => id, fun _ _ => Or.inl, id⟩

theorem Made.front {more : List String} (made : Made names d d') : Made (names ++ more) d d' where
  rest := made.rest
  grown := made.grown
  sound := made.sound
  new p e found := by
    rcases made.new p e found with old | ⟨mode, n, rfl, reached⟩
    · exact Or.inl old
    · refine Or.inr ⟨mode, min n names.length, rfl, ?_⟩
      rwa [List.take_append_of_le_length (Nat.min_le_right ..), ← List.take_take, List.take_length]

theorem Made.clear {rest : List String} {follow : Bool} (made : Made names d d')
    (clear : Clear d.tree follow base rest) : Clear d'.tree follow base rest := by
  intro before after target split some found
  rcases made.new _ _ found with old | ⟨mode, n, isDir, -⟩
  · exact clear before after target split some old
  · cases isDir

theorem Made.makeDir {d'' : Disk} (made : Made names d d')
    (components : ∀ c ∈ names, IsComponent c.toList) (last : IsComponent name.toList)
    (done : d'.makeDir (Path.ofComponents (names ++ [name])) mode = .ok d'') :
    Made (names ++ [name]) d d'' ∧
      ∃ base, walk d''.tree true maxLinks [] (names ++ [name]) = .ok base ∧ HasDir d''.tree base := by
  obtain ⟨place, reached, notRoot, absent, inDir, rfl⟩ := makeDir_eq_ok components last done
  have grown : Extends (d'.tree.insert place (.dir (masked mode))) d'.tree := extends_insert absent
  have leads : walk (d'.tree.insert place (.dir (masked mode))) true maxLinks [] (names ++ [name]) =
      .ok place :=
    walk_extends grown (walk_follow reached (by simp [absent])) (by simp)
  refine ⟨⟨?_, ?_, ?_, ?_⟩, place, leads, Or.inr ⟨masked mode, by simp⟩⟩
  · rw [made.rest]
  · intro p e found
    exact grown p e (made.grown p e found)
  · intro p e found
    by_cases same : p = place
    · subst same
      rw [Dict.get?_insert_self, Option.some.injEq] at found
      refine Or.inr ⟨masked mode, (names ++ [name]).length, found.symm, ?_⟩
      rwa [List.take_length]
    · rw [Dict.get?_insert_of_ne _ same] at found
      rcases made.front.new p e found with old | ⟨mode, n, isDir, reached⟩
      · exact Or.inl old
      · refine Or.inr ⟨mode, n, isDir, walk_extends grown reached ?_⟩
        simp [found]
  · intro sound
    exact (made.sound sound).insert absent inDir (by simp)

theorem find_ofComponents_eq_ok {follow : Bool} (components : ∀ c ∈ names, IsComponent c.toList)
    (found : d.find follow (Path.ofComponents names) = .ok (base, e)) :
    walk d.tree follow maxLinks [] names = .ok base ∧ d.entry? base = some e := by
  rwa [find_eq_ok_iff, locate_ofComponents d follow components] at found

theorem entry?_of_hasDir (isDir : HasDir d.tree base) : ∃ mode, d.entry? base = some (.dir mode) := by
  unfold entry?
  by_cases root : base = []
  · exact ⟨_, if_pos root⟩
  · rw [if_neg root]
    exact isDir.resolve_left root

theorem hasDir_of_entry? (found : d.entry? base = some (.dir mode)) : HasDir d.tree base := by
  rw [← isDir_iff, isDir, found]

theorem find_root (d : Disk) (follow : Bool) :
    d.find follow (Path.ofComponents []) = .ok ([], .dir 0o755) := by
  rw [find_eq_ok_iff, locate_ofComponents d follow (by simp), walk]
  exact ⟨rfl, rfl⟩

/-- Making a directory with its parents: nothing else is new, and if all goes well the path leads to
a directory. -/
theorem makeDirs_made (fuel : Nat) (components : ∀ c ∈ names, IsComponent c.toList) (mode : Nat)
    (d : Disk) {d' : Disk} {result : Except Fault Unit}
    (run : (Act.makeDirs fuel (Path.ofComponents names) mode).run d = (result, d')) :
    Made names d d' ∧ (result = .ok () →
      ∃ base, walk d'.tree true maxLinks [] names = .ok base ∧ HasDir d'.tree base) := by
  induction fuel generalizing names result d' with
  | zero =>
    cases run
    exact ⟨.refl names d, by rintro ⟨⟩⟩
  | succ fuel ih =>
    rw [Act.run_makeDirs] at run
    split at run
    · rename_i base m found
      cases run
      obtain ⟨reached, present⟩ := find_ofComponents_eq_ok components found
      exact ⟨.refl names d, fun _ => ⟨base, reached, hasDir_of_entry? present⟩⟩
    · cases run
      exact ⟨.refl names d, by rintro ⟨⟩⟩
    · rename_i reason missing
      obtain rfl | ⟨init, name, rfl⟩ := List.eq_nil_or_concat' names
      · rw [find_root] at missing
        cases missing
      · have before := (List.forall_mem_append.mp components).1
        have last : IsComponent name.toList := components name (by simp)
        have parents : ∀ {result d'},
            (Act.makeParents fuel (Path.ofComponents (init ++ [name])) mode).run d = (result, d') →
              Made init d d' := by
          intro result d' run
          rw [Act.makeParents_ofComponents fuel init last] at run
          split at run
          · cases run
            exact .refl init d
          · exact (ih before run).1
        split at run
        · rename_i e d₁ failed
          cases run
          exact ⟨(parents failed).front, by rintro ⟨⟩⟩
        · rename_i d₁ done
          have made := parents done
          split at run
          · rename_i d₂ new
            cases run
            have := made.makeDir before last new
            exact ⟨this.1, fun _ => this.2⟩
          · split at run
            · rename_i base m found
              cases run
              obtain ⟨reached, present⟩ := find_ofComponents_eq_ok components found
              refine ⟨made.front, fun _ => ⟨base, walk_follow reached ?_, hasDir_of_entry? present⟩⟩
              intro notRoot target
              rw [ entry?, if_neg notRoot] at present
              simp [present]
            · cases run
              exact ⟨made.front, by rintro ⟨⟩⟩

end Disk

end Taproom
