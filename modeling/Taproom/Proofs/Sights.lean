import Taproom.Proofs.Layout

/-!
What can be seen on a disk: directories, what files hold and where links lead. Disks whose entries all
have names that something can have, and files that are read after they were written.
-/

namespace Taproom.Disk

open Path (IsComponent)

variable {d d' : Disk} {p q base place : Place} {names rest : List String} {path : String}
  {content : ByteArray} {mode body : Nat} {e : Entry}

/-! ### Sights -/

inductive Sight where
  | dir
  | file (content : Archive.Bytes) (mode : Nat)
  | link (target : String)
  deriving DecidableEq

def sightOf (d : Disk) : Entry → Sight
  | .dir _ => .dir
  | .link target => .link target
  | .file body =>
    match d.bodies.get? body with
    | some b => .file b.content.toList b.mode
    | none => .file [] 0

def sight? (d : Disk) (p : Place) : Option Sight := (d.entry? p).map d.sightOf

theorem sightOf_congr (bodies : d'.bodies = d.bodies) : d'.sightOf = d.sightOf := by
  funext e
  cases e <;> simp [sightOf, bodies]

theorem sight?_of_get? (notRoot : p ≠ []) (found : d.tree.get? p = some e) :
    d.sight? p = some (d.sightOf e) := by
  rw [sight?, entry?, if_neg notRoot, found, Option.map_some]

theorem sight?_eq_none_iff : d.sight? p = none ↔ p ≠ [] ∧ d.tree.get? p = none := by
  rw [sight?, Option.map_eq_none_iff, entry?]
  split <;> simp_all

theorem sight?_eq_dir_iff : d.sight? p = some .dir ↔ HasDir d.tree p := by
  constructor
  · intro shown
    obtain ⟨e, found, isDir⟩ := Option.map_eq_some_iff.mp shown
    cases e with
    | dir mode => exact hasDir_of_entry? found
    | link target => cases isDir
    | file body =>
      rw [sightOf] at isDir
      split at isDir <;> cases isDir
  · intro isDir
    obtain ⟨mode, found⟩ := entry?_of_hasDir isDir
    rw [sight?, found]
    rfl

theorem sight?_insert (notRoot : p ≠ []) (e : Entry) (q : Place) :
    ({ d with tree := d.tree.insert p e } : Disk).sight? q =
      if q = p then some (d.sightOf e) else d.sight? q := by
  have bodies : ({ d with tree := d.tree.insert p e } : Disk).sightOf = d.sightOf := sightOf_congr rfl
  split
  · rename_i same
    subst same
    rw [sight?_of_get? notRoot (Dict.get?_insert_self ..), bodies]
  · rename_i other
    rw [sight?, sight?, entry?, entry?, bodies]
    dsimp only
    rw [Dict.get?_insert_of_ne _ other]

theorem sight?_setBody (b : Body) (other : d.tree.get? q ≠ some (.file body)) :
    (d.setBody body b).sight? q = d.sight? q := by
  rw [sight?, sight?]
  have same :  entry? (d.setBody body b) q = d.entry? q := rfl
  rw [same]
  cases found : d.entry? q with
  | none => rfl
  | some e =>
    cases e with
    | dir mode => rfl
    | link target => rfl
    | file body' =>
      have differ : body' ≠ body := by
        rintro rfl
        exact other (get?_of_entry?_file found)
      rw [Option.map_some, Option.map_some, sightOf, sightOf, setBody]
      dsimp only
      rw [Dict.get?_insert_of_ne _ differ]

theorem sight?_newFile (sound : d.Sound) (notRoot : p ≠ []) (content : ByteArray) (mode : Nat)
    (q : Place) :
    (d.newFile p content mode).sight? q =
      if q = p then some (.file content.toList mode) else d.sight? q := by
  have whole : d.newFile p content mode =
      { ({ d with tree := d.tree.insert p (.file d.nextBody) } : Disk).setBody d.nextBody ⟨content, mode⟩ with
        nextBody := d.nextBody + 1 } := rfl
  split
  · rename_i same
    subst same
    rw [sight?_of_get? notRoot (Dict.get?_insert_self ..), sightOf, newFile]
    dsimp only
    rw [Dict.get?_insert_self]
  · rename_i other
    have entry : d.tree.get? q ≠ some (.file d.nextBody) := fun found =>
      absurd (sound.numbered q d.nextBody found) (by omega)
    have placed := sight?_insert (d := d) notRoot (.file d.nextBody) q
    rw [if_neg other] at placed
    rw [whole, ← placed]
    refine sight?_setBody _ ?_
    dsimp only
    rwa [Dict.get?_insert_of_ne _ other]

theorem Sound.find_top {c : String} (sound : d.Sound) (named : IsName c)
    (found : d.tree.get? [c] = some e) (notLink : ∀ target, e ≠ .link target) (follow : Bool) :
    d.find follow (Path.ofComponents [c]) = .ok ([c], e) := by
  rw [find_eq_ok_iff, locate_ofComponents d follow (by simpa using named.1), entry?, if_neg (by simp)]
  exact ⟨walk_present sound.inDir (by simpa using named) found notLink, found⟩

/-! ### Proper disks -/

/-- A disk whose entries have names that something can have, and whose links lead somewhere. -/
structure Proper (d : Disk) : Prop where
  sound : d.Sound
  named : ∀ p e, d.tree.get? p = some e → ∀ c ∈ p, IsName c
  targets : ∀ p target, d.tree.get? p = some (.link target) → target ≠ ""
  cwd : ∀ c ∈ d.cwd, IsName c

theorem free_of_mem_splitAt {s c : String} (member : c ∈ Taproom.splitAt s '/') : '/' ∉ c.toList := by
  obtain ⟨w, inside, rfl⟩ := List.mem_map.mp member
  rw [String.toList_ofList]
  exact Text.notMem_of_mem_splitAt inside

theorem walk_isName {tree : Dict (List String) Entry} {follow : Bool} {links : Nat} {here : Place}
    (named : ∀ p e, tree.get? p = some e → ∀ c ∈ p, IsName c) (start : ∀ c ∈ here, IsName c)
    (free : ∀ c ∈ rest, '/' ∉ c.toList) (reached : walk tree follow links here rest = .ok place) :
    ∀ c ∈ place, IsName c := by
  have down : ∀ {here : Place} {c : String} {rest : List String}, (∀ c ∈ here, IsName c) →
      (∀ c' ∈ c :: rest, '/' ∉ c'.toList) → ¬ (c = "" ∨ c = ".") → c ≠ ".." →
      ¬ c.utf8ByteSize > maxName → ¬ c.toList.contains '\x00' = true → ∀ c' ∈ here ++ [c], IsName c' := by
    intro here c rest before free stays up short clean
    refine List.forall_mem_append.mpr ⟨before, ?_⟩
    rw [List.forall_mem_singleton]
    rw [not_or] at stays
    refine ⟨⟨?_, ?_, ?_, free c (by simp)⟩, by omega, by simpa using clean⟩
    · simpa using stays.1
    · simpa [← String.toList_inj] using stays.2
    · simpa [← String.toList_inj] using up
  fun_induction walk tree follow links here rest with
  | case1 links here =>
    obtain rfl := Except.ok.inj reached
    exact start
  | case2 links here c rest stays ih => exact ih start (fun c' member => free c' (by simp [member])) reached
  | case3 links here rest _ ih =>
    exact ih (fun c member => start c (List.dropLast_subset here member))
      (fun c member => free c (by simp [member])) reached
  | case6 links here c rest stays up short clean absent last =>
    obtain rfl := Except.ok.inj reached
    exact down start free stays up short clean
  | case8 links here c rest stays up short clean mode found ih =>
    exact ih (named _ _ found) (fun c' member => free c' (by simp [member])) reached
  | case9 links here c rest stays up short clean body found last =>
    obtain rfl := Except.ok.inj reached
    exact named _ _ found
  | case11 links here c rest stays up short clean target found ends =>
    obtain rfl := Except.ok.inj reached
    exact named _ _ found
  | case13 here c rest stays up short clean target found goes links ih =>
    refine ih ?_ ?_ reached
    · split
      · simp
      · exact start
    · exact List.forall_mem_append.mpr
        ⟨fun c' => free_of_mem_splitAt, fun c' member => free c' (by simp [member])⟩
  | case4 | case5 | case7 | case10 | case12 => cases reached

theorem Proper.locate (proper : d.Proper) {follow : Bool}
    (located : d.locate follow path = .ok place) : ∀ c ∈ place, IsName c := by
  rw [Disk.locate_eq_walk] at located
  split at located
  · cases located
  · refine walk_isName proper.named ?_ (fun c => free_of_mem_splitAt) located
    split
    · simp
    · exact proper.cwd

/-! ### Writing -/

theorem hasDir_of_write (written : d.write path content mode = .ok d')
    (located : d.locate true path = .ok place) (absent : d.entry? place = none) :
    HasDir d.tree place.dropLast := by
  rw [← isDir_iff]
  unfold write at written
  rw [located] at written
  simp only [bind, Except.bind, absent] at written
  split at written
  · assumption
  · cases written

theorem Proper.write (proper : d.Proper) (written : d.write path content mode = .ok d') :
    d'.Proper := by
  obtain ⟨place, located, outcome⟩ := write_eq_ok written
  rcases outcome with ⟨body, mode', -, rfl⟩ | ⟨absent, rfl⟩
  · exact ⟨⟨proper.sound.inDir, proper.sound.numbered⟩, proper.named, proper.targets, proper.cwd⟩
  · have inDir := hasDir_of_write written located absent
    have free : d.tree.get? place = none := by
      rw [ entry?] at absent
      split at absent
      · cases absent
      · exact absent
    refine ⟨proper.sound.newFile free inDir _ _, ?_, ?_, proper.cwd⟩
    · intro p e found
      rcases get?_newFile_cases found with ⟨rfl, -⟩ | old
      · exact proper.locate located
      · exact proper.named p e old
    · intro p target found
      rcases get?_newFile_cases found with ⟨-, isFile⟩ | old
      · cases isFile
      · exact proper.targets p target old

theorem write_over (located : d.locate true path = .ok place)
    (present : d.entry? place = some (.file body)) (content : ByteArray) (mode : Nat) :
    ∃ mode', d.write path content mode = .ok (d.setBody body ⟨content, mode'⟩) := by
  unfold write
  rw [located]
  simp only [bind, Except.bind, present]
  exact ⟨_, rfl⟩

theorem read_of_write (written : d.write path content mode = .ok d') :
    d'.read path = .ok content := by
  obtain ⟨place, located, outcome⟩ := write_eq_ok written
  obtain ⟨body, found, stored⟩ : ∃ body, d'.find true path = .ok (place, .file body) ∧
      (d'.bodies.get? body).map (·.content) = some content := by
    rcases outcome with ⟨body, mode', present, rfl⟩ | ⟨absent, rfl⟩
    · exact ⟨body, (find_eq_ok_iff ..).mpr ⟨located, present⟩, by simp [setBody, Dict.get?_insert_self]⟩
    · have notRoot : place ≠ [] := by
        rintro rfl
        simp [ entry?] at absent
      have free : d.tree.get? place = none := by simpa [ entry?, notRoot] using absent
      refine ⟨d.nextBody, (find_eq_ok_iff ..).mpr ⟨?_, ?_⟩, by simp [newFile, Dict.get?_insert_self]⟩
      · rw [Disk.locate_eq_walk] at located ⊢
        split at located
        · cases located
        · rename_i given
          rw [if_neg given]
          refine walk_extends (extends_insert free) located fun _ _ target isLink => ?_
          rw [newFile, Dict.get?_insert_self] at isLink
          cases isLink
      · rw [ entry?, if_neg notRoot]
        exact Dict.get?_insert_self ..
  obtain ⟨b, held, rfl⟩ := Option.map_eq_some_iff.mp stored
  rw [read, found]
  dsimp only [bodyOf?]
  rw [held]

theorem write_of_putFile (put : (Act.putFile path content mode).run d = (.ok (), d')) :
    d.write path content mode = .ok d' := Act.eq_ok_of_run_change put

/-! ### Making directories -/

theorem makeDir_inserts (made : d.makeDir path mode = .ok d') :
    ∃ place, d.tree.get? place = none ∧ HasDir d.tree place.dropLast ∧
      d' = { d with tree := d.tree.insert place (.dir (masked mode)) } := by
  unfold Disk.makeDir at made
  dsimp only [bind, Except.bind] at made
  split at made
  · simp [ entry?, throw, throwThe, MonadExceptOf.throw] at made
  · split at made
    · cases made
    · rename_i place _
      split at made
      · cases made
      · rename_i absent
        split at made
        · rename_i inDir
          have notRoot : place ≠ [] := by
            rintro rfl
            simp [ entry?] at absent
          rw [ entry?, if_neg notRoot] at absent
          exact ⟨place, absent, (isDir_iff d _).mp inDir, (Except.ok.inj made).symm⟩
        · cases made

/-- Nothing but directories is new on another disk. -/
structure Roomier (d d' : Disk) : Prop where
  rest : d' = { d with tree := d'.tree }
  grown : Extends d'.tree d.tree
  new : ∀ p e, d'.tree.get? p = some e → d.tree.get? p = some e ∨ ∃ mode, e = .dir mode
  sound : d.Sound → d'.Sound

theorem Roomier.refl (d : Disk) : Roomier d d where
  rest := rfl
  grown _ _ found := found
  new _ _ found := Or.inl found
  sound := id

theorem Roomier.makeDir {d'' : Disk} (roomier : Roomier d d') (made : d'.makeDir path mode = .ok d'') :
    Roomier d d'' := by
  obtain ⟨place, absent, inDir, rfl⟩ := makeDir_inserts made
  refine ⟨?_, ?_, ?_, ?_⟩
  · rw [roomier.rest]
  · exact fun p e found => extends_insert absent p e (roomier.grown p e found)
  · intro p e found
    by_cases here : p = place
    · rw [here, Dict.get?_insert_self, Option.some.injEq] at found
      exact Or.inr ⟨_, found.symm⟩
    · rw [Dict.get?_insert_of_ne _ here] at found
      exact roomier.new p e found
  · exact fun sound => (roomier.sound sound).insert absent inDir (by simp)

theorem makeDirs_roomier (fuel : Nat) (path : String) (mode : Nat) (d : Disk) :
    Roomier d ((Act.makeDirs fuel path mode).run d).2 := by
  induction fuel generalizing path with
  | zero => exact .refl d
  | succ fuel ih =>
    have parents : Roomier d ((Act.makeParents fuel path mode).run d).2 := by
      rw [Act.makeParents]
      split
      · exact ih _
      · exact .refl d
    rw [Act.run_makeDirs]
    split
    · exact .refl d
    · exact .refl d
    · rcases outcome : (Act.makeParents fuel path mode).run d with ⟨e | _, d₁⟩
      · rwa [outcome] at parents
      · rw [outcome] at parents
        dsimp only
        split
        · rename_i made
          exact parents.makeDir made
        · split <;> exact parents

end Taproom.Disk
