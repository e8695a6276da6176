import Taproom.Proofs.Extraction

/-!
Unpacking by way of a fresh directory. Everything that an archive brings comes to the fresh directory
first and is moved from there to the one around it. No more than what lies in that directory changes.
-/

namespace Taproom

open Path (IsComponent)

namespace Disk

variable {d d' : Disk} {names rest source : List String} {place base : Place} {follow : Bool}

/-! ### Directories without links on the way -/

def Inside (names p : Place) : Prop := names <+: p ∧ p ≠ names

theorem inside_append (names : Place) {rest : List String} (some : rest ≠ []) {p : Place}
    (below : names ++ rest <+: p) : Inside names p := by
  obtain ⟨more, rfl⟩ := below
  exact ⟨⟨rest ++ more, by simp⟩, by simp [some]⟩

/-- Some names lead to a directory and to no link before it. -/
structure Plain (names : List String) (d : Disk) : Prop where
  components : ∀ c ∈ names, IsComponent c.toList
  there : walk d.tree true maxLinks [] names = .ok names
  isDir : HasDir d.tree names
  clear : Clear d.tree true [] names

theorem Site.plain (site : Site names base d) (clear : Clear d.tree true [] names) :
    base = names ∧ Plain names d := by
  have same : base = names := walk_straight site.components clear site.there
  exact ⟨same, site.components, same ▸ site.there, same ▸ site.isDir, clear⟩

theorem Plain.confined (plain : Plain names d) (confined : ConfinedTo (Inside names) d d') :
    Plain names d' := by
  have same : ∀ q : List String, q <+: names → d'.tree.get? q = d.tree.get? q := by
    intro q front
    apply confined.entries
    rintro ⟨back, other⟩
    exact other (front.eq_of_length (le_antisymm front.length_le back.length_le))
  refine ⟨plain.components, ?_, ?_, ?_⟩
  · rw [← plain.there]
    exact walk_congr plain.clear plain.components fun q _ front => same q front
  · rcases plain.isDir with root | ⟨mode, found⟩
    · exact Or.inl root
    · exact Or.inr ⟨mode, (same names List.prefix_rfl).trans found⟩
  · intro before after target split some found
    rw [List.nil_append, same before (split ▸ List.prefix_append ..)] at found
    exact plain.clear before after target split some (by rwa [List.nil_append])

theorem Plain.locate (plain : Plain names d) (some : rest ≠ [])
    (components : ∀ c ∈ rest, IsComponent c.toList) (clear : Clear d.tree follow names rest)
    (reached : d.locate follow (Path.ofComponents (names ++ rest)) = .ok place) :
    place = names ++ rest := by
  have whole : ∀ c ∈ names ++ rest, IsComponent c.toList :=
    List.forall_mem_append.mpr ⟨plain.components, components⟩
  rw [locate_ofComponents d follow whole] at reached
  exact walk_below plain.there plain.isDir some components clear reached

/-! ### Moving things out of a directory below -/

/-- The directories along some names. -/
def HasDirs (d : Disk) (names source : List String) : Prop :=
  ∀ q, q ≠ [] → q <+: source → ∃ mode, d.tree.get? (names ++ q) = some (.dir mode)

theorem HasDirs.clear_all (dirs : HasDirs d names source) : Clear d.tree true names source := by
  intro before after target split some found
  obtain ⟨mode, isDir⟩ := dirs before some ⟨after, split.symm⟩
  rw [isDir] at found
  cases found

theorem HasDirs.clear (dirs : HasDirs d names source) (name : String) :
    Clear d.tree false names (source ++ [name]) := by
  intro before after target split some found
  by_cases none : after = []
  · exact ⟨none, rfl⟩
  · have front : before <+: source := by
      have sub : before <+: source ++ [name] := ⟨after, split.symm⟩
      rcases List.prefix_concat_iff.mp sub with whole | front
      · exact absurd (by simpa [whole] using split) none
      · exact front
    obtain ⟨mode, isDir⟩ := dirs before some front
    rw [isDir] at found
    cases found

theorem rename_confined {name : String} (plain : Plain names d) (dirs : HasDirs d names source)
    (components : ∀ c ∈ source, IsComponent c.toList) (named : IsComponent name.toList) :
    ConfinedTo (Inside names) d ((Act.rename (Path.ofComponents (names ++ (source ++ [name])))
        (Path.ofComponents (names ++ [name]))).run d).2 ∧
      HasDirs ((Act.rename (Path.ofComponents (names ++ (source ++ [name])))
        (Path.ofComponents (names ++ [name]))).run d).2 names source := by
  rw [Act.rename, Act.run_change]
  cases moved : d.move (Path.ofComponents (names ++ (source ++ [name])))
      (Path.ofComponents (names ++ [name])) with
  | error reason => exact ⟨.refl _ d, dirs⟩
  | ok d' =>
    obtain ⟨origin, e, target, found, located, notDir, ⟨-, rfl⟩ | ⟨-, rfl⟩⟩ := move_eq_ok moved
    · exact ⟨.refl _ _, dirs⟩
    · have longer : ∀ c ∈ source ++ [name], IsComponent c.toList := by
        simpa [or_imp, forall_and] using And.intro components named
      obtain rfl := plain.locate (by simp) longer (dirs.clear name) ((find_eq_ok_iff ..).mp found).1
      obtain rfl := plain.locate (by simp) (by simpa using named) (clear_singleton _ _ _) located
      refine ⟨.relocate (fun p => inside_append names (by simp))
        fun p => inside_append names (by simp), ?_⟩
      intro q some front
      obtain ⟨mode, isDir⟩ := dirs q some front
      refine ⟨mode, (get?_relocate_of_apart ?_ ?_).trans isDir⟩
      · intro below
        have lengths := ((List.prefix_append_right_inj names).mp below).length_le
        have shorter := front.length_le
        simp at lengths
        omega
      · intro below
        -- A directory on the way is in the place of what is moved, and is not replaced.
        have first : [name] <+: source := ((List.prefix_append_right_inj names).mp below).trans front
        obtain ⟨mode, present⟩ := dirs [name] (by simp) first
        exact notDir mode (by simpa [ entry?] using present)

theorem renames_confined {entries : List (String × Entry)} (plain : Plain names d)
    (dirs : HasDirs d names source) (components : ∀ c ∈ source, IsComponent c.toList)
    (named : ∀ e ∈ entries, IsComponent e.1.toList) :
    ConfinedTo (Inside names) d ((entries.forM fun (name, _) =>
      Act.rename (Path.join [Path.ofComponents (names ++ source), name])
        (Path.join [Path.ofComponents names, name])).run d).2 := by
  have whole : ∀ c ∈ names ++ source, IsComponent c.toList :=
    List.forall_mem_append.mpr ⟨plain.components, components⟩
  apply Act.run_forM_rel (R := ConfinedTo (Inside names)) (.refl _) .trans
    (I := fun d => Plain names d ∧ HasDirs d names source) ?_ ⟨plain, dirs⟩
  rintro ⟨name, e⟩ member d ⟨plain, dirs⟩
  have component := named (name, e) member
  dsimp only
  rw [Path.join_ofComponents whole component, Path.join_ofComponents plain.components component,
    List.append_assoc]
  obtain ⟨confined, still⟩ := rename_confined plain dirs components component
  exact ⟨confined, plain.confined confined, still⟩

end Disk

namespace Unpack

open Disk

variable {names rest source : List String} {tmp : String} {d d' : Disk} {follow : Bool}

/-! ### Promotion -/

/-- A directory inside another one that holds plain names only. -/
structure Stage (names : List String) (tmp : String) (d : Disk) : Prop where
  plain : Plain names d
  dirs : HasDirs d names [tmp]
  named : ∀ l e, d.tree.get? (names ++ tmp :: l) = some e → ∀ c ∈ l, IsComponent c.toList

theorem run_listDir_inside (plain : Plain names d) (some : source ≠ [])
    (components : ∀ c ∈ source, IsComponent c.toList) (dirs : HasDirs d names source) :
    ∃ result, (Act.listDir (Path.ofComponents (names ++ source))).run d = (result, d) ∧
      ∀ l, result = .ok l → l = d.children (names ++ source) := by
  rw [Act.run_listDir]
  rcases found : d.find true (Path.ofComponents (names ++ source)) with reason | ⟨place, e⟩
  · exact ⟨_, rfl, by rintro l ⟨⟩⟩
  · obtain ⟨located, -⟩ := (find_eq_ok_iff ..).mp found
    obtain rfl := plain.locate some components dirs.clear_all located
    cases e with
    | dir mode =>
      refine ⟨_, rfl, ?_⟩
      rintro l ⟨⟩
      rfl
    | file body => exact ⟨_, rfl, by rintro l ⟨⟩⟩
    | link target => exact ⟨_, rfl, by rintro l ⟨⟩⟩

theorem promote_confined (component : IsComponent tmp.toList) (stage : Stage names tmp d) :
    ConfinedTo (Inside names) d
      ((promote (Path.ofComponents (names ++ [tmp])) (Path.ofComponents names)).run d).2 := by
  have components : ∀ c ∈ [tmp], IsComponent c.toList := by simpa using component
  obtain ⟨result, listed, children⟩ :=
    run_listDir_inside stage.plain (List.cons_ne_nil tmp []) components stage.dirs
  rw [promote, Act.run_bind, listed]
  cases result with
  | error e => exact .refl _ d
  | ok entries =>
    have named : ∀ e ∈ entries, IsComponent e.1.toList := by
      rintro ⟨name, e⟩ member
      rw [children entries rfl] at member
      have found := (mem_children_iff ..).mp member
      rw [List.append_assoc, List.singleton_append] at found
      exact stage.named [name] e found name (by simp)
    dsimp only
    split
    · rename_i name mode
      have member : (name, Entry.dir mode) ∈ [(name, Entry.dir mode)] := List.mem_cons_self
      have nameComponent := named _ member
      have inner : Path.join [Path.ofComponents (names ++ [tmp]), name] =
          Path.ofComponents (names ++ [tmp, name]) := by
        rw [Path.join_ofComponents (List.forall_mem_append.mpr ⟨stage.plain.components, components⟩)
          nameComponent, List.append_assoc, List.singleton_append]
      have both : ∀ c ∈ [tmp, name], IsComponent c.toList := by
        simpa using And.intro component nameComponent
      have dirs : HasDirs d names [tmp, name] := by
        intro q some front
        rcases List.prefix_concat_iff.mp (show q <+: [tmp] ++ [name] from front) with rfl | front
        · rw [children _ rfl] at member
          exact ⟨mode, by simpa using (mem_children_iff ..).mp member⟩
        · exact stage.dirs q some front
      obtain ⟨result, listed, children⟩ :=
        run_listDir_inside stage.plain (List.cons_ne_nil tmp [name]) both dirs
      rw [inner, Act.run_bind, listed]
      cases result with
      | error e => exact .refl _ d
      | ok entries =>
        refine renames_confined stage.plain dirs both ?_
        rintro ⟨n, e⟩ member
        rw [children entries rfl] at member
        have found := (mem_children_iff ..).mp member
        rw [List.append_assoc] at found
        exact stage.named [name, n] e found n (by simp)
    · exact renames_confined stage.plain stage.dirs components named

/-! ### The fresh directory -/

/-- A fresh directory inside another one. -/
structure Fresh (names : List String) (tmp : String) (d : Disk) : Prop where
  site : Site (names ++ [tmp]) (names ++ [tmp]) d
  plain : Plain names d
  dirs : HasDirs d names [tmp]
  empty : ∀ l, l ≠ [] → d.tree.get? (names ++ [tmp] ++ l) = none

theorem Fresh.clear (fresh : Fresh names tmp d) : Clear d.tree follow (names ++ [tmp]) rest := by
  intro before after target _ some found
  rw [fresh.empty before some] at found
  cases found

theorem Fresh.of_makeDir {mode : Nat} (sound : d.Sound) (plain : Plain names d)
    (component : IsComponent tmp.toList)
    (made : d.makeDir (Path.ofComponents (names ++ [tmp])) mode = .ok d') :
    Fresh names tmp d' ∧ ConfinedTo (Inside names) d d' := by
  obtain ⟨place, reached, notRoot, absent, inDir, rfl⟩ := makeDir_eq_ok plain.components component made
  have single : ∀ c ∈ [tmp], IsComponent c.toList := by simpa using component
  obtain rfl := walk_below plain.there plain.isDir (List.cons_ne_nil tmp []) single
    (clear_singleton _ _ _) reached
  have confined : ConfinedTo (Inside names) d
      { d with tree := d.tree.insert (names ++ [tmp]) (.dir (masked mode)) } :=
    .insert (inside_append names (List.cons_ne_nil tmp []) List.prefix_rfl) (by simp)
  have isDir : (d.tree.insert (names ++ [tmp]) (.dir (masked mode))).get? (names ++ [tmp]) =
      some (.dir (masked mode)) := by simp
  refine ⟨⟨⟨sound.insert absent inDir (by simp), ?_, ?_, Or.inr ⟨_, isDir⟩⟩, plain.confined confined,
    ?_, ?_⟩, confined⟩
  · exact List.forall_mem_append.mpr ⟨plain.components, single⟩
  · exact walk_extends (extends_insert absent) (walk_follow reached (by simp [absent])) (by simp)
  · intro q some front
    obtain rfl : q = [tmp] := by
      rcases List.prefix_cons_iff.mp front with rfl | ⟨t, rfl, rest⟩
      · exact absurd rfl some
      · rw [List.prefix_nil.mp rest]
    exact ⟨_, isDir⟩
  · intro l some
    rw [Dict.get?_insert_of_ne _ (by simpa using some)]
    exact sound.empty_below notRoot absent l

theorem Fresh.stage {links : List String → Prop} (fresh : Fresh names tmp d)
    (grown : Grown (names ++ [tmp]) links d d') :
    Stage names tmp d' ∧ ConfinedTo (Inside names) d d' := by
  have confined : ConfinedTo (Inside names) d d' :=
    grown.confined.mono fun p => inside_append names (List.cons_ne_nil tmp [])
  refine ⟨⟨fresh.plain.confined confined, ?_, ?_⟩, confined⟩
  · intro q some front
    obtain ⟨mode, isDir⟩ := fresh.dirs q some front
    exact ⟨mode, grown.kept _ _ isDir⟩
  · intro l e found
    rw [← List.singleton_append, ← List.append_assoc] at found
    by_cases none : l = []
    · simp [none]
    · rcases grown.new l e found with old | ⟨components, -⟩
      · rw [fresh.empty l none] at old
        cases old
      · exact components

theorem placeZipped_grown {root : String} {base : Place} (rooted : Path.isAbs root = true)
    (site : Site (namesOf root) base d)
    (noLink : ∀ l target, l ≠ [] → d.tree.get? (base ++ l) ≠ some (.link target)) (e : Zip.Entry) :
    Grown base (fun _ => False) d ((placeZipped root e).run d).2 := by
  rw [placeZipped, Act.run_bind, Act.run_ofExcept]
  cases allowed : within root e.name with
  | error fault => exact .refl base _ d
  | ok target =>
    obtain ⟨rest, -, components, rfl⟩ := relative?_of_within rooted allowed
    have clear : ∀ follow, Clear d.tree follow base rest := fun follow before _ target _ some found =>
      absurd found (noLink before target some)
    dsimp only
    split
    · exact site.makeDirs _ components (clear false) _
    · exact place_grown site components (clear true) _ _

def itemsOf (path : String) (bytes : Archive.Bytes) : List Tar.Item :=
  match Archive.kindOf bytes with
  | .gzip => ((gunzip path bytes).toOption.map Tar.decode).getD []
  | .zstd => Tar.decode (Zstd.decode bytes)
  | .bzip2 => Tar.decode (Bzip2.decode bytes)
  | .tar => Tar.decode ⟨bytes, none⟩
  | .zip | .plain => []

theorem Fresh.placeItems (fresh : Fresh names tmp d) {items : List Tar.Item}
    (apart : Apart (Path.ofComponents (names ++ [tmp])) items) :
    Grown (names ++ [tmp]) (fun _ => True) d
      ((placeItems (Path.ofComponents (names ++ [tmp])) items).run d).2 := by
  refine placeItems_grown (by simp) ?_ ⟨?_, apart⟩
  · rw [namesOf_ofComponents fresh.site.components]
    exact fresh.site
  · intro i _ e _ l _ target found
    by_cases none : l = []
    · obtain ⟨mode, isDir⟩ := fresh.dirs [tmp] (by simp) List.prefix_rfl
      rw [none, List.append_nil, isDir] at found
      cases found
    · rw [fresh.empty l none] at found
      cases found

theorem Fresh.placeZip (fresh : Fresh names tmp d) (entries : List Zip.Entry) :
    Grown (names ++ [tmp]) (fun _ => False) d
      ((entries.forM (placeZipped (Path.ofComponents (names ++ [tmp])))).run d).2 := by
  apply Act.run_forM_rel (R := Grown (names ++ [tmp]) fun _ => False) (.refl _ _) .trans
    (I := fun d => Site (namesOf (Path.ofComponents (names ++ [tmp]))) (names ++ [tmp]) d ∧
      ∀ l target, l ≠ [] → d.tree.get? (names ++ [tmp] ++ l) ≠ some (.link target))
  · rintro e - d ⟨site, noLink⟩
    have grown := placeZipped_grown (by simp) site noLink e
    refine ⟨grown, grown.site site, ?_⟩
    intro l target some found
    rcases grown.new l _ found with old | ⟨-, new⟩
    · exact noLink l target some old
    · exact new target rfl
  · rw [namesOf_ofComponents fresh.site.components]
    refine ⟨fresh.site, ?_⟩
    intro l target some
    rw [fresh.empty l some]
    simp

theorem plainName_piece (path : String) : '/' ∉ (plainName path).toList ∨ plainName path = "/" := by
  unfold plainName
  dsimp only
  split
  · rename_i before after cut
    left
    have whole := Text.eq_of_cut? cut
    rcases Path.base_free path with free | root
    · rw [String.toList_ofList]
      intro member
      exact free (whole ▸ List.mem_append_right _ member)
    · have none : Text.cut? ['-', '-'] "/".toList = none := by decide
      rw [root, none] at cut
      cases cut
  · exact Path.base_free path

theorem Fresh.placePlain (fresh : Fresh names tmp d) (path : String) (content : Archive.Bytes)
    (mode : Nat) :
    Grown (names ++ [tmp]) (fun _ => False) d
      ((place (Path.join [Path.ofComponents (names ++ [tmp]), plainName path]) content mode).run d).2 := by
  rcases Path.join_ofComponents_piece fresh.site.components (plainName_piece path) with
    here | up | component
  · rw [here, place_self fresh.site]
    exact .refl _ _ d
  · have outer : Site names names d :=
      ⟨fresh.site.sound, fresh.plain.components, fresh.plain.there, fresh.plain.isDir⟩
    rw [up, List.dropLast_concat, place_self outer]
    exact .refl _ _ d
  · rw [Path.join_ofComponents fresh.site.components component]
    exact place_grown fresh.site (by simpa using component) fresh.clear content mode

theorem Fresh.placeBytes (fresh : Fresh names tmp d) (path : String) (bytes : Archive.Bytes)
    (other : Archive.kindOf bytes ≠ .gzip)
    (apart : Apart (Path.ofComponents (names ++ [tmp])) (itemsOf path bytes)) :
    Grown (names ++ [tmp]) (fun _ => True) d
      ((placeBytes path bytes (Path.ofComponents (names ++ [tmp]))).run d).2 := by
  unfold itemsOf at apart
  unfold Unpack.placeBytes
  cases kind : Archive.kindOf bytes with
  | gzip => exact absurd kind other
  | zstd | bzip2 | tar =>
    rw [kind] at apart
    exact fresh.placeItems apart
  | zip =>
    dsimp only
    split
    · exact (fresh.placeZip _).mono (by simp)
    · exact .refl _ _ d
  | plain => exact (fresh.placePlain path bytes _).mono (by simp)

/-- What unpacking does between making its directory and removing it. -/
def work (path : String) (bytes : Archive.Bytes) (staging dest : String) : Act Unit := do
  let placing ←
    if Archive.kindOf bytes = .gzip then
      pure (placeItems staging (Tar.decode (← MonadExcept.ofExcept (gunzip path bytes))))
    else pure (placeBytes path bytes staging)
  placing.during s!"couldn't unpack {path}"
  promote staging dest

theorem work_confined (fresh : Fresh names tmp d) (component : IsComponent tmp.toList) (path : String)
    (bytes : Archive.Bytes) (apart : Apart (Path.ofComponents (names ++ [tmp])) (itemsOf path bytes)) :
    ConfinedTo (Inside names) d ((work path bytes (Path.ofComponents (names ++ [tmp]))
      (Path.ofComponents names)).run d).2 := by
  have finish : ∀ placing : Act Unit, Grown (names ++ [tmp]) (fun _ => True) d (placing.run d).2 →
      ConfinedTo (Inside names) d ((placing >>= fun _ =>
        promote (Path.ofComponents (names ++ [tmp])) (Path.ofComponents names)).run d).2 := by
    intro placing grown
    obtain ⟨stage, confined⟩ := fresh.stage grown
    apply Act.run_bind_rel (R := ConfinedTo (Inside names)) .trans confined
    intro _ d' outcome
    rw [outcome] at stage
    exact promote_confined component stage
  unfold work
  by_cases kind : Archive.kindOf bytes = .gzip
  · simp only [kind, ↓reduceIte, pure_bind]
    rw [Act.run_bind, Act.run_ofExcept]
    cases unzipped : gunzip path bytes with
    | error fault => exact .refl _ d
    | ok s =>
      have items : itemsOf path bytes = Tar.decode s := by
        simp [itemsOf, kind, unzipped, Except.toOption]
      rw [items] at apart
      exact finish _ (fresh.placeItems apart)
  · simp only [kind, ↓reduceIte, pure_bind]
    exact finish _ (fresh.placeBytes path bytes kind apart)

theorem unpack_eq (path dest : String) :
    unpack path dest =
      (Act.contentOf path).during s!"couldn't determine file type of {path}" >>= fun bytes =>
        Act.makeDirAll dest 0o755 >>= fun _ =>
          Act.makeTempDir dest ".unpack-" >>= fun staging =>
            Act.andAlways (work path bytes.toList staging dest) (Act.removeAll staging) := rfl

theorem removeAll_confined (plain : Plain names d) (component : IsComponent tmp.toList) :
    ConfinedTo (Inside names) d ((Act.removeAll (Path.ofComponents (names ++ [tmp]))).run d).2 := by
  apply ConfinedTo.removeAll
  intro place reached p below
  rw [plain.locate (List.cons_ne_nil tmp []) (by simpa using component) (clear_singleton _ _ _)
    reached] at below
  exact inside_append names (List.cons_ne_nil tmp []) below

theorem staged_confined (sound : d.Sound) (plain : Plain names d) (path : String) (bytes : Archive.Bytes)
    (apart : Apart (Path.ofComponents (names ++ [Act.freshDir ".unpack-" d.serial]))
      (itemsOf path bytes)) :
    ConfinedTo (Inside names) d ((Act.makeTempDir (Path.ofComponents names) ".unpack-" >>=
      fun staging => Act.andAlways (work path bytes staging (Path.ofComponents names))
        (Act.removeAll staging)).run d).2 := by
  have component : IsComponent (Act.freshDir ".unpack-" d.serial).toList :=
    Act.isComponent_freshDir (by decide) d.serial
  have counted : ConfinedTo (Inside names) d { d with serial := d.serial + 1 } :=
    ⟨fun _ _ => rfl, fun _ => Or.inr, fun _ _ _ => rfl, le_rfl⟩
  have countedSound : Disk.Sound { d with serial := d.serial + 1 } := ⟨sound.inDir, sound.numbered⟩
  rw [Act.run_bind]
  rcases Act.run_makeTempDir plain.components (by decide : ".unpack-".toList.contains '/' = false) d with
    ⟨e, failed⟩ | ⟨d', made, done⟩
  · rw [failed]
    exact counted
  · obtain ⟨fresh, new⟩ := Fresh.of_makeDir countedSound (plain.confined counted) component made
    have worked := work_confined fresh component path bytes apart
    rw [done]
    dsimp only
    rw [Act.run_andAlways]
    exact ((counted.trans new).trans worked).trans
      (removeAll_confined (fresh.plain.confined worked) component)

end Unpack

end Taproom
