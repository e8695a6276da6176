import Taproom.Proofs.Ground
import Taproom.Proofs.Tap

/-!
Edits below a root. What is done to one file there leaves every other one as it was, also when the
directories above it have to be made first, and what is read elsewhere is what was read before.
-/

namespace Taproom

open Path (IsComponent)

namespace Disk

/-! ### Edits -/

/-- Only some places are different on another disk, but that directories may be new at a lesser
depth. -/
structure Edit (room : Nat) (inside : Place → Prop) (d d' : Disk) : Prop where
  entries : ∀ p, ¬ inside p → d'.tree.get? p = d.tree.get? p ∨
    d.tree.get? p = none ∧ p.length < room ∧ ∃ mode, d'.tree.get? p = some (.dir mode)
  held : ∀ p, ¬ inside p → d'.held? p = d.held? p
  serial : d.serial ≤ d'.serial

namespace Edit

variable {room : Nat} {inside : Place → Prop} {d d' d'' : Disk} {g : Ground} {p : Place}

theorem refl (room : Nat) (inside : Place → Prop) (d : Disk) : Edit room inside d d :=
  ⟨fun _ _ => Or.inl rfl, fun _ _ => rfl, le_rfl⟩

theorem trans (first : Edit room inside d d') (second : Edit room inside d' d'') :
    Edit room inside d d'' where
  entries p out := by
    rcases second.entries p out with same | ⟨absent, short, made⟩
    · rw [same]
      exact first.entries p out
    · rcases first.entries p out with same | ⟨-, -, mode, found⟩
      · exact Or.inr ⟨same ▸ absent, short, made⟩
      · rw [absent] at found
        cases found
  held p out := (second.held p out).trans (first.held p out)
  serial := first.serial.trans second.serial

theorem mono {wider : Place → Prop} (edit : Edit room inside d d') (sub : ∀ p, inside p → wider p) :
    Edit room wider d d' :=
  ⟨fun p out => edit.entries p fun within => out (sub p within),
    fun p out => edit.held p fun within => out (sub p within), edit.serial⟩

theorem entry (edit : Edit room inside d d') (out : ¬ inside p) (deep : room ≤ p.length) :
    d'.tree.get? p = d.tree.get? p := by
  rcases edit.entries p out with same | ⟨-, short, -⟩
  · exact same
  · omega

theorem held?_congr (same : d'.tree.get? p = d.tree.get? p)
    (bodies : ∀ body, d.tree.get? p = some (.file body) → d'.bodies.get? body = d.bodies.get? body) :
    d'.held? p = d.held? p := by
  rw [held?, held?, same]
  cases found : d.tree.get? p with
  | none => rfl
  | some e =>
    cases e with
    | file body => simp [bodyOf?, bodies body found]
    | _ => rfl

/-- A change that is confined to places below the root, where no file has a second name. -/
theorem of_confined (on : g.On d) (confined : ConfinedTo inside d d')
    (below : ∀ p, inside p → g.place [] <+: p) (serial : d.serial ≤ d'.serial) :
    Edit room inside d d' where
  entries p out := Or.inl (confined.entries p out)
  held p out := by
    refine held?_congr (confined.entries p out) fun body found => ?_
    refine confined.bodies body (on.sound.numbered p body found) ?_
    rintro ⟨q, within, found'⟩
    obtain rfl := on.single q p body (below q within) found' found
    exact out within
  serial := serial

theorem insertDir (absent : d.tree.get? p = none) (short : p.length < room) (mode : Nat) :
    Edit room inside d { d with tree := d.tree.insert p (.dir mode) } where
  entries q _ := by
    by_cases same : q = p
    · subst same
      exact Or.inr ⟨absent, short, mode, by simp⟩
    · exact Or.inl (Dict.get?_insert_of_ne _ same _)
  held q _ := by
    by_cases same : q = p
    · subst same
      rw [held?, held?, absent]
      simp [bodyOf?]
    · exact held?_congr (Dict.get?_insert_of_ne _ same _) fun _ _ => rfl
  serial := le_rfl

end Edit

/-! ### What is done below a root -/

namespace Ground.On

variable {g : Ground} {d d' : Disk} {l names names' : List String} {content : ByteArray} {mode : Nat}
  {room : Nat}

theorem makeDir_way (on : g.On d) (near : g.Near l) (further : l ≠ [])
    (components : ∀ c ∈ l, IsComponent c.toList) (made : d.makeDir (g.way l) mode = .ok d') :
    d.tree.get? (g.base ++ l) = none ∧ HasDir d.tree (g.base ++ l).dropLast ∧
      d' = { d with tree := d.tree.insert (g.base ++ l) (.dir (masked mode)) } := by
  obtain ⟨init, c, rfl⟩ := (List.eq_nil_or_concat' l).resolve_left further
  have notRoot : g.base ++ (init ++ [c]) ≠ [] := by simp
  have last : IsComponent c.toList := components c (by simp)
  have bare : String.ofList ((g.way (init ++ [c])).toList.reverse.dropWhile (· = '/')).reverse =
      g.way (init ++ [c]) := by
    obtain ⟨before, chars⟩ := Act.toList_written_concat g.rooted (g.front ++ init) c
    rw [way, ← List.append_assoc, chars, Act.dropWhile_component last, List.reverse_reverse, ← chars,
      String.ofList_toList]
  have nonempty : g.way (init ++ [c]) ≠ "" := Path.written_ne_empty (on.isWalked components)
  unfold makeDir at made
  rw [bare] at made
  simp only [nonempty, decide_false, Bool.false_and, Bool.false_eq_true, ↓reduceIte] at made
  cases located : d.locate false (g.way (init ++ [c])) with
  | error reason =>
    rw [located] at made
    cases made
  | ok place =>
    obtain ⟨rfl, inDir, -⟩ := on.locate_way near further components located
    rw [located] at made
    simp only [bind, Except.bind] at made
    split at made
    · cases made
    · rename_i absent
      split at made
      · cases made
        exact ⟨by simpa [ entry?, notRoot] using absent, inDir, rfl⟩
      · cases made

theorem makeDirs_way (on : g.On d) (near : g.Near l) (components : ∀ c ∈ l, IsComponent c.toList)
    (short : (g.base ++ l).length < room) (fuel mode : Nat) {result : Except Fault Unit}
    (run : (Act.makeDirs fuel (g.way l) mode).run d = (result, d')) :
    g.On d' ∧ Edit room (fun _ => False) d d' ∧ (result = .ok () → HasDir d'.tree (g.base ++ l)) := by
  induction fuel generalizing l result d' with
  | zero =>
    cases run
    exact ⟨on, .refl _ _ d, by rintro ⟨⟩⟩
  | succ fuel ih =>
    have dirAt : ∀ {d : Disk}, g.On d → ∀ {follow place m}, l ≠ [] →
        d.find follow (g.way l) = .ok (place, .dir m) → HasDir d.tree (g.base ++ l) := by
      intro d on follow place m further found
      obtain ⟨located, present⟩ := (find_eq_ok_iff ..).mp found
      obtain ⟨rfl, -⟩ := on.locate_way near further components located
      exact hasDir_of_entry? present
    rw [Act.run_makeDirs] at run
    split at run
    · rename_i place m found
      cases run
      refine ⟨on, .refl _ _ d, fun _ => ?_⟩
      by_cases none : l = []
      · rw [none, List.append_nil]
        exact on.isDir
      · exact dirAt on none found
    · cases run
      exact ⟨on, .refl _ _ d, by rintro ⟨⟩⟩
    · rename_i reason missing
      by_cases none : l = []
      · -- The base is there, so what lies above it is not looked at.
        subst none
        obtain ⟨m, present⟩ := entry?_of_hasDir on.isDir
        have found : d.find true (g.way []) = .ok (g.base, .dir m) := by
          rw [find_eq_ok_iff, on.locate_eq true (by simp), List.append_nil]
          exact ⟨on.there, present⟩
        rw [found] at missing
        cases missing
      · obtain ⟨init, c, rfl⟩ := (List.eq_nil_or_concat' l).resolve_left none
        have before := (List.forall_mem_append.mp components).1
        have above : g.way (init ++ [c]) = Path.written g.rooted (g.front ++ init ++ [c]) := by
          rw [way, List.append_assoc]
        have parents : ∀ {result d'},
            (Act.makeParents fuel (g.way (init ++ [c])) mode).run d = (result, d') →
              g.On d' ∧ Edit room (fun _ => False) d d' := by
          intro result d' run
          rw [above, Act.makeParents_written fuel (on.isWalked before) (components c (by simp))] at run
          split at run
          · cases run
            exact ⟨on, .refl _ _ d⟩
          · have shorter : (g.base ++ init).length < room := by
              simp only [List.length_append] at short ⊢
              omega
            obtain ⟨on', edit, -⟩ := ih near.front before shorter run
            exact ⟨on', edit⟩
        split at run
        · rename_i e d₁ failed
          cases run
          obtain ⟨on', edit⟩ := parents failed
          exact ⟨on', edit, by rintro ⟨⟩⟩
        · rename_i d₁ done
          obtain ⟨on', edit⟩ := parents done
          split at run
          · rename_i d₂ made
            cases run
            obtain ⟨absent, inDir, rfl⟩ := on'.makeDir_way near none components made
            exact ⟨on'.insertDir absent inDir _, edit.trans (.insertDir absent short _),
              fun _ => Or.inr ⟨masked mode, by simp⟩⟩
          · split at run
            · rename_i place m found
              cases run
              exact ⟨on', edit, fun _ => dirAt on' none found⟩
            · cases run
              exact ⟨on', edit, by rintro ⟨⟩⟩

theorem makeDirAll (on : g.On d) (components : ∀ c ∈ names, IsComponent c.toList)
    (short : (g.place names).length < room) (mode : Nat) {result : Except Fault Unit}
    (run : (Act.makeDirAll (g.path names) mode).run d = (result, d')) :
    g.On d' ∧ Edit room (fun _ => False) d d' ∧ (result = .ok () → HasDir d'.tree (g.place names)) :=
  on.makeDirs_way (g.near names) (on.components_append components) short _ mode run

theorem putFile (on : g.On d) (further : names ≠ []) (components : ∀ c ∈ names, IsComponent c.toList)
    (run : (Act.putFile (g.path names) content mode).run d = (.ok (), d')) :
    g.On d' ∧ Edit room (· = g.place names) d d' ∧ d'.held? (g.place names) = some content ∧
      d'.serial = d.serial ∧ ∀ c ∈ names, IsName c := by
  have notRoot := place_ne_nil (g := g) further
  have written : d.write (g.path names) content mode = .ok d' := Act.eq_ok_of_run_change run
  obtain ⟨place, located, outcome⟩ := write_eq_ok written
  obtain ⟨rfl, inDir, named⟩ := on.locate further components located
  have below : ∀ p, p = g.place names → g.place [] <+: p := by
    rintro p rfl
    exact g.below names
  rcases outcome with ⟨body, mode', present, rfl⟩ | ⟨absent, rfl⟩
  · have file := get?_of_entry?_file present
    have confined : ConfinedTo (· = g.place names) d (d.setBody body ⟨content, mode'⟩) := by
      refine .setBody ?_ _
      exact ⟨_, rfl, file⟩
    refine ⟨on.setBody _ _, .of_confined on confined below le_rfl, ?_, rfl, named⟩
    rw [held?, Disk.setBody, file]
    simp [bodyOf?]
  · have absent : d.tree.get? (g.place names) = none := by simpa [ entry?, notRoot] using absent
    have confined : ConfinedTo (· = g.place names) d
        (d.newFile (g.place names) content (masked mode)) := by
      refine .newFile ?_ _ _
      exact rfl
    refine ⟨on.newFile absent inDir _ _, .of_confined on confined below le_rfl, ?_, rfl, named⟩
    rw [held?, Disk.newFile, Dict.get?_insert_self]
    simp [bodyOf?]

theorem rename (on : g.On d) (some : names ≠ []) (some' : names' ≠ [])
    (components : ∀ c ∈ names, IsComponent c.toList) (components' : ∀ c ∈ names', IsComponent c.toList)
    (differ : names ≠ names') (held : d.held? (g.place names) = .some content)
    (run : (Act.rename (g.path names) (g.path names')).run d = (.ok (), d')) :
    g.On d' ∧ Edit room (fun p => p = g.place names ∨ p = g.place names') d d' ∧
      d'.held? (g.place names') = .some content ∧ d'.tree.get? (g.place names) = none ∧
      ∀ c ∈ names', IsName c := by
  have notRoot := place_ne_nil (g := g) some
  have notRoot' := place_ne_nil (g := g) some'
  have moved : d.move (g.path names) (g.path names') = .ok d' := Act.eq_ok_of_run_change run
  obtain ⟨source, e, target, found, located, notDir, outcome⟩ := move_eq_ok moved
  obtain ⟨located', present⟩ := (find_eq_ok_iff ..).mp found
  obtain ⟨rfl, -⟩ := on.locate some components located'
  obtain ⟨rfl, inDir, named⟩ := on.locate some' components' located
  have apart : g.place names ≠ g.place names' := fun same => differ (place_inj same)
  obtain ⟨body, file, b, stored, rfl⟩ : ∃ body, d.tree.get? (g.place names) = .some (.file body) ∧
      ∃ b, d.bodies.get? body = .some b ∧ b.content = content := by
    simp only [held?, Option.map_eq_some_iff, Option.bind_eq_some_iff] at held
    obtain ⟨b, ⟨e, there, stored⟩, same⟩ := held
    cases e with
    | file body => exact ⟨body, there, b, stored, same⟩
    | _ => cases stored
  rcases outcome with ⟨same, -⟩ | ⟨-, rfl⟩
  · exact absurd same apart
  have notDir' : ∀ mode, d.tree.get? (g.place names') ≠ .some (.dir mode) := by
    intro mode isDir
    exact notDir mode (by rw [ entry?, if_neg notRoot', isDir])
  have entries := get?_relocate_file on.sound file ⟨notRoot, notRoot'⟩ notDir'
  refine ⟨on.relocateFile apart (g.below names) file ⟨notRoot, notRoot'⟩ inDir notDir'
    (on.noLinkAt some'), ?_, ?_, by rw [entries, if_neg apart, if_pos rfl], named⟩
  · refine .of_confined on (.ofTree (d.relocate _ _).tree ?_ ?_) ?_ le_rfl
    · rintro p out
      rw [not_or] at out
      rw [entries, if_neg out.2, if_neg out.1]
    · rintro p body' within there
      rw [entries] at there
      split at there
      · cases there
        exact ⟨_, Or.inl rfl, file⟩
      · split at there
        · cases there
        · exact ⟨p, within, there⟩
    · rintro p (rfl | rfl)
      · exact g.below names
      · exact g.below names'
  · rw [held?, entries, if_pos rfl]
    exact congrArg (Option.map Body.content) stored

theorem remove (on : g.On d) (further : names ≠ []) (components : ∀ c ∈ names, IsComponent c.toList)
    (notDir : ∀ mode, d.tree.get? (g.place names) ≠ some (.dir mode)) :
    g.On ((Act.remove (g.path names)).run d).2 ∧
      Edit room (· = g.place names) d ((Act.remove (g.path names)).run d).2 ∧
      ∀ mode, ((Act.remove (g.path names)).run d).2.tree.get? (g.place names) ≠ some (.dir mode) := by
  have notRoot := place_ne_nil (g := g) further
  rw [Act.remove, Act.run_change]
  unfold unlink
  cases found : d.find false (g.path names) with
  | error reason => exact ⟨on, .refl _ _ d, notDir⟩
  | ok there =>
    obtain ⟨place, e⟩ := there
    obtain ⟨located, present⟩ := (find_eq_ok_iff ..).mp found
    obtain ⟨rfl, -⟩ := on.locate further components located
    rw [ entry?, if_neg notRoot] at present
    have erased : g.On { d with tree := d.tree.erase (g.place names) } ∧
        Edit room (· = g.place names) d { d with tree := d.tree.erase (g.place names) } ∧
        ∀ mode, (d.tree.erase (g.place names)).get? (g.place names) ≠ some (.dir mode) := by
      refine ⟨on.eraseFile notDir (on.noLinkAt further), .of_confined on (.erase ?_) ?_ le_rfl, ?_⟩
      · exact rfl
      · rintro p rfl
        exact g.below names
      · simp [Dict.get?_erase_self]
    cases e with
    | dir mode => exact absurd present (notDir mode)
    | file body => exact erased
    | link target => exact erased

end Ground.On

/-! ### What is read below a root -/

def peek (d : Disk) (p : String) : Option (Except Fault ByteArray) :=
  match d.find true p with
  | .error .missing => none
  | _ => some (d.read p)

section Reading

variable {g : Ground} {d d' : Disk} {names : List String} {place : Place} {path : String}
  {follow : Bool} {reason : Reason} {content : ByteArray} {room : Nat} {inside : Place → Prop}

theorem find_of_error (located : d.locate follow path = .error reason) :
    d.find follow path = .error reason := by
  rw [find, located]
  rfl

theorem find_of_ok (located : d.locate follow path = .ok place) :
    d.find follow path = match d.entry? place with
      | some e => .ok (place, e)
      | none => .error .missing := by
  rw [find, located]
  simp only [bind, Except.bind]
  cases d.entry? place <;> rfl

theorem peek_of_error (located : d.locate true path = .error reason)
    (located' : d'.locate true path = .error reason) : d'.peek path = d.peek path := by
  rw [peek, peek, read, read, find_of_error located, find_of_error located']

theorem peek_of_ok (located : d.locate true path = .ok place)
    (located' : d'.locate true path = .ok place) (same : d'.tree.get? place = d.tree.get? place)
    (held : d'.held? place = d.held? place) : d'.peek path = d.peek path := by
  have entries : d'.entry? place = d.entry? place := by rw [ entry?, entry?, same]
  rw [peek, peek, read, read, find_of_ok located, find_of_ok located', entries]
  cases found : d.entry? place with
  | none => rfl
  | some e =>
    cases e with
    | dir mode => rfl
    | link target => rfl
    | file body =>
      have file := get?_of_entry?_file found
      rw [held?, held?, same, file] at held
      simp only [Option.bind_some, bodyOf?] at held ⊢
      cases stored : d.bodies.get? body with
      | none =>
        rw [stored, Option.map_none, Option.map_eq_none_iff] at held
        rw [held]
      | some b =>
        rw [stored, Option.map_some, Option.map_eq_some_iff] at held
        obtain ⟨b', stored', same⟩ := held
        rw [stored']
        exact congrArg (fun c => some (Except.ok c)) same

theorem peek_of_missing (located : d.locate true path = .error .missing)
    (located' : d'.locate true path = .ok place) (absent : d'.entry? place = none) :
    d'.peek path = d.peek path := by
  rw [peek, peek, find_of_error located, find_of_ok located', absent]

theorem read_eq_peek (d : Disk) (path : String) :
    d.read path = (d.peek path).getD (.error (.disk ⟨"open", path, .missing⟩)) := by
  rw [peek]
  split
  · rename_i missing
    rw [read, missing]
    rfl
  · rfl

/-- What is read at a place of an edit's depth that the edit does not concern is what was read. -/
theorem Ground.On.peek_congr (on : g.On d) (on' : g.On d') (edit : Edit room inside d d')
    (further : names ≠ []) (named : ∀ c ∈ names, IsName c) (depth : (g.place names).length = room)
    (deep : ∀ p, inside p → room ≤ p.length) (out : ¬ inside (g.place names)) :
    d'.peek (g.path names) = d.peek (g.path names) := by
  have whole : ∀ c ∈ g.rest ++ names, IsName c := List.forall_mem_append.mpr ⟨on.named, named⟩
  have components : ∀ c ∈ g.rest ++ names, IsComponent c.toList := fun c member => (whole c member).1
  have some : g.rest ++ names ≠ [] := by simp [further]
  have entry := edit.entry out depth.ge
  obtain ⟨links, walked⟩ := on.walk_way true some components
  obtain ⟨links', walked'⟩ := on'.walk_way true some components
  have front : ∀ l, l ≠ [] → l <+: g.rest ++ names → l ≠ g.rest ++ names →
      d'.tree.get? (g.base ++ l) = d.tree.get? (g.base ++ l) ∨
        d.tree.get? (g.base ++ l) = none ∧ ∃ mode, d'.tree.get? (g.base ++ l) = .some (.dir mode) := by
    intro l _ before differ
    have shorter := before.length_le.lt_of_ne fun same => differ (before.eq_of_length same)
    have short : (g.base ++ l).length < room := by
      rw [← depth, Ground.place, List.length_append, List.length_append]
      omega
    have above : ¬ inside (g.base ++ l) := fun within => by
      have := deep _ within
      omega
    rcases edit.entries _ above with same | ⟨absent, -, made⟩
    · exact Or.inl same
    · exact Or.inr ⟨absent, made⟩
  have alike : walk d'.tree true links' g.base (g.rest ++ names) =
      walk d.tree true links g.base (g.rest ++ names) ∨ _ :=
    walk_alike on.sound.inDir whole (on.clear (g.near names)) front (on'.noLinkAt further)
  rcases alike with same | ⟨missing, leads, absent⟩
  · rw [← walked, ← walked'] at same
    cases located : d.locate true (g.way (g.rest ++ names)) with
    | error reason => exact peek_of_error located (same.trans located)
    | ok place =>
      obtain ⟨rfl, -⟩ := on.locate_way (g.near names) some components located
      exact peek_of_ok located (same.trans located) entry (edit.held _ out)
  · refine peek_of_missing (walked.trans missing) (walked'.trans leads) ?_
    rw [ entry?, if_neg (by simp [further])]
    exact entry.trans absent

theorem Ground.On.peek_held (on : g.On d) (further : names ≠ []) (named : ∀ c ∈ names, IsName c)
    (held : d.held? (g.place names) = some content) : d.peek (g.path names) = some (.ok content) := by
  simp only [held?, Option.map_eq_some_iff, Option.bind_eq_some_iff] at held
  obtain ⟨b, ⟨e, found, stored⟩, rfl⟩ := held
  have located : d.locate true (g.path names) = .ok (g.place names) :=
    on.locate_ok further named (on.inDir_of_found further found)
  cases e with
  | file body =>
    rw [bodyOf?] at stored
    rw [peek, read, find_of_ok located, entry?, if_neg (place_ne_nil further), found]
    simp [bodyOf?, stored]
  | _ => cases stored

end Reading

end Disk

end Taproom
