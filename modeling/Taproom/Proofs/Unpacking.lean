import Taproom.Proofs.Staging

/-!
Extraction is confined. An archive is extracted, poured or unpacked into a directory that is made
first, and nothing outside the directory changes unless an entry goes through a link.
-/

namespace Taproom

open Path (IsComponent)

namespace Disk

variable {d d' : Disk} {dest : String} {names rest : List String} {base place : Place} {follow : Bool}

/-! ### A directory that is made first -/

def prepared (d : Disk) (dest : String) : Disk := ((Act.makeDirAll dest 0o755).run d).2

def IsSite (d : Disk) (dest : String) (base : Place) : Prop :=
  ((Act.makeDirAll dest 0o755).run d).1 = .ok () ∧ (d.prepared dest).locate true dest = .ok base

def OnWay (d : Disk) (dest : String) (p : Place) : Prop :=
  ∃ n, walk d.tree true maxLinks [] ((namesOf dest).take n) = .ok p

/-- Nothing changed outside a directory, links followed, but that the directory itself was made. -/
structure Undisturbed (dest : String) (d d' : Disk) : Prop where
  entries : ∀ p, (∀ base, d.IsSite dest base → ¬ base <+: p) →
    d'.tree.get? p = d.tree.get? p ∨
      d.tree.get? p = none ∧ (∃ mode, d'.tree.get? p = some (.dir mode)) ∧
        (d.prepared dest).OnWay dest p
  bodies : ∀ p body, d.tree.get? p = some (.file body) →
    (∀ base, d.IsSite dest base → ¬ d.Holds (base <+: ·) body) →
      d'.bodies.get? body = d.bodies.get? body

theorem Undisturbed.refl (dest : String) (d : Disk) : Undisturbed dest d d :=
  ⟨fun _ _ => Or.inl rfl, fun _ _ _ _ => rfl⟩

theorem prepared_made (rooted : Path.isAbs dest = true) (cleaned : Path.clean dest = dest) (d : Disk) :
    Made (namesOf dest) d (d.prepared dest) ∧ (((Act.makeDirAll dest 0o755).run d).1 = .ok () →
      ∃ base, walk (d.prepared dest).tree true maxLinks [] (namesOf dest) = .ok base ∧
        HasDir (d.prepared dest).tree base) := by
  have path : dest = Path.ofComponents (namesOf dest) := by
    rw [namesOf, ← Path.clean_of_isAbs rooted, cleaned]
  have made := makeDirs_made (dest.length + 2) (namesOf_components rooted) 0o755 d rfl
  rw [← path] at made
  exact made

theorem IsSite.site (rooted : Path.isAbs dest = true) (cleaned : Path.clean dest = dest)
    (sound : d.Sound) (isSite : d.IsSite dest base) : Site (namesOf dest) base (d.prepared dest) := by
  obtain ⟨made, leads⟩ := prepared_made rooted cleaned d
  obtain ⟨base', there, isDir⟩ := leads isSite.1
  have located := isSite.2
  rw [← cleaned, locate_clean, startOf, if_pos rooted, cleaned, there] at located
  obtain rfl := Except.ok.inj located
  exact ⟨made.sound sound, namesOf_components rooted, there, isDir⟩

theorem Made.holds (made : Made names d d') {inside : Place → Prop} {body : Nat}
    (held : d'.Holds inside body) : d.Holds inside body := by
  obtain ⟨p, within, found⟩ := held
  rcases made.new p _ found with old | ⟨mode, n, isDir, -⟩
  · exact ⟨p, within, old⟩
  · cases isDir

theorem Undisturbed.of_confined (rooted : Path.isAbs dest = true) (cleaned : Path.clean dest = dest)
    (sound : d.Sound)
    (site : ∀ base, d.IsSite dest base → ConfinedTo (base <+: ·) (d.prepared dest) d')
    (noSite : (∀ base, ¬ d.IsSite dest base) → d' = d.prepared dest) : Undisturbed dest d d' := by
  obtain ⟨made, -⟩ := prepared_made rooted cleaned d
  have next : (d.prepared dest).nextBody = d.nextBody := by rw [made.rest]
  have bodies : (d.prepared dest).bodies = d.bodies := by rw [made.rest]
  constructor
  · intro p out
    have same : d'.tree.get? p = (d.prepared dest).tree.get? p := by
      by_cases some : ∃ base, d.IsSite dest base
      · obtain ⟨base, isSite⟩ := some
        exact (site base isSite).entries p (out base isSite)
      · rw [noSite (not_exists.mp some)]
    rw [same]
    cases old : d.tree.get? p with
    | some e => exact Or.inl (made.grown p e old)
    | none =>
      cases found : (d.prepared dest).tree.get? p with
      | none => exact Or.inl rfl
      | some e =>
        rcases made.new p e found with present | ⟨mode, n, rfl, reached⟩
        · rw [old] at present
          cases present
        · exact Or.inr ⟨rfl, ⟨mode, rfl⟩, n, reached⟩
  · intro p body found free
    by_cases some : ∃ base, d.IsSite dest base
    · obtain ⟨base, isSite⟩ := some
      rw [← bodies]
      refine (site base isSite).bodies body ?_ fun held => free base isSite (made.holds held)
      rw [next]
      exact sound.numbered p body found
    · rw [noSite (not_exists.mp some), bodies]

theorem exists_isSite (rooted : Path.isAbs dest = true) (cleaned : Path.clean dest = dest)
    (done : ((Act.makeDirAll dest 0o755).run d).1 = .ok ()) : ∃ base, d.IsSite dest base := by
  obtain ⟨base, there, -⟩ := (prepared_made rooted cleaned d).2 done
  refine ⟨base, done, ?_⟩
  rw [← cleaned, locate_clean, startOf, if_pos rooted, cleaned, there]

theorem undisturbed_after {α : Type} (rooted : Path.isAbs dest = true)
    (cleaned : Path.clean dest = dest) (sound : d.Sound) (a : Act α)
    (confined : ∀ base, d.IsSite dest base → Site (namesOf dest) base (d.prepared dest) →
      ConfinedTo (base <+: ·) (d.prepared dest) (a.run (d.prepared dest)).2) :
    Undisturbed dest d ((Act.makeDirAll dest 0o755 >>= fun _ => a).run d).2 := by
  rw [Act.run_bind]
  rcases outcome : (Act.makeDirAll dest 0o755).run d with ⟨(e | _), d₁⟩
  · have same : d₁ = d.prepared dest := by rw [prepared, outcome]
    refine .of_confined rooted cleaned sound (fun base isSite => ?_) fun _ => same
    rw [same]
    exact .refl _ _
  · have same : d₁ = d.prepared dest := by rw [prepared, outcome]
    have done : ((Act.makeDirAll dest 0o755).run d).1 = .ok () := by rw [outcome]
    dsimp only
    rw [same]
    refine .of_confined rooted cleaned sound ?_ fun none => ?_
    · intro base isSite
      exact confined base isSite (isSite.site rooted cleaned sound)
    · obtain ⟨base, isSite⟩ := exists_isSite rooted cleaned done
      exact absurd isSite (none base)

end Disk

namespace Unpack

open Disk

variable {d : Disk} {dest : String}

theorem Straight.prepared {names : List String} {d' : Disk} {root : String} {base : Disk.Place}
    {items : List Tar.Item} (made : Disk.Made names d d') (straight : Straight root base d.tree items) :
    Straight root base d'.tree items where
  afterwards := straight.afterwards
  initially i member e at' l through target found := by
    rcases made.new _ _ found with old | ⟨mode, n, isDir, -⟩
    · exact straight.initially i member e at' l through target old
    · cases isDir

theorem placeItems_undisturbed (rooted : Path.isAbs dest = true) (cleaned : Path.clean dest = dest)
    (sound : d.Sound) (items : List Tar.Item)
    (straight : ∀ base, d.IsSite dest base → Straight dest base d.tree items) :
    Undisturbed dest d
      ((Act.makeDirAll dest 0o755 >>= fun _ => placeItems dest items).run d).2 := by
  apply Disk.undisturbed_after rooted cleaned sound
  intro base isSite site
  have made := (Disk.prepared_made rooted cleaned d).1
  exact (placeItems_grown rooted site ((straight base isSite).prepared made)).confined

theorem pour_undisturbed (rooted : Path.isAbs dest = true) (cleaned : Path.clean dest = dest)
    (sound : d.Sound) (path sum : String)
    (straight : ∀ bytes s, d.read path = .ok bytes → gunzip path bytes.toList = .ok s →
      ∀ base, d.IsSite dest base → Straight dest base d.tree (Tar.decode s)) :
    Undisturbed dest d ((Bottle.pour path sum dest).run d).2 := by
  rw [Bottle.pour, Act.run_bind, Act.contentOf, Act.run_bind, Act.run_get]
  dsimp only
  rw [Act.run_ofExcept]
  cases content : d.read path with
  | error fault => exact .refl dest d
  | ok bytes =>
    dsimp only
    split
    · exact .refl dest d
    · rw [Act.run_bind, Act.run_ofExcept]
      cases unzipped : gunzip path bytes.toList with
      | error fault => exact .refl dest d
      | ok s => exact placeItems_undisturbed rooted cleaned sound _ (straight bytes s content unzipped)

def stagingOf (d : Disk) (dest : String) : String :=
  Path.ofComponents (namesOf dest ++ [Act.freshDir ".unpack-" d.serial])

theorem unpack_undisturbed (rooted : Path.isAbs dest = true) (cleaned : Path.clean dest = dest)
    (sound : d.Sound) (path : String) (clear : Clear d.tree true [] (namesOf dest))
    (apart : ∀ bytes, d.read path = .ok bytes →
      Apart (stagingOf d dest) (itemsOf path bytes.toList)) :
    Undisturbed dest d ((unpack path dest).run d).2 := by
  rw [unpack_eq, Act.run_bind, Act.run_during, Act.run_contentOf]
  cases content : d.read path with
  | error fault => exact .refl dest d
  | ok bytes =>
    apply undisturbed_after rooted cleaned sound
    intro base isSite site
    have made := (prepared_made rooted cleaned d).1
    have serial : (d.prepared dest).serial = d.serial := by rw [made.rest]
    have named : Path.ofComponents (namesOf dest) = dest := by
      rw [namesOf, ← Path.clean_of_isAbs rooted, cleaned]
    obtain ⟨rfl, plain⟩ := site.plain (made.clear clear)
    have confined := staged_confined site.sound plain path bytes.toList
      (serial ▸ apart bytes content)
    rw [named] at confined
    exact confined.mono fun p inside => inside.1

/-- Extraction is confined to its directory, whether it goes well or fails, if no entry goes through a
link. Unpacking puts the entries into a directory that it makes, where no link can lie before. -/
theorem extraction_confined (d : Disk) (sound : d.Sound) (dest : String)
    (rooted : Path.isAbs dest = true) (cleaned : Path.clean dest = dest) :
    (∀ items, (∀ base, d.IsSite dest base → Straight dest base d.tree items) →
      Undisturbed dest d
        ((Act.makeDirAll dest 0o755 >>= fun _ => placeItems dest items).run d).2) ∧
    (∀ s, (∀ base, d.IsSite dest base → Straight dest base d.tree (Tar.decode s)) →
      Undisturbed dest d ((extract s dest).run d).2) ∧
    (∀ path sum, (∀ bytes s, d.read path = .ok bytes → gunzip path bytes.toList = .ok s →
        ∀ base, d.IsSite dest base → Straight dest base d.tree (Tar.decode s)) →
      Undisturbed dest d ((Bottle.pour path sum dest).run d).2) ∧
    ∀ path, Clear d.tree true [] (namesOf dest) →
      (∀ bytes, d.read path = .ok bytes →
        Apart (stagingOf d dest) (itemsOf path bytes.toList)) →
      Undisturbed dest d ((unpack path dest).run d).2 :=
  ⟨fun items straight => placeItems_undisturbed rooted cleaned sound items straight,
    fun s straight => placeItems_undisturbed rooted cleaned sound (Tar.decode s) straight,
    fun path sum straight => pour_undisturbed rooted cleaned sound path sum straight,
    fun path clear apart => unpack_undisturbed rooted cleaned sound path clear apart⟩

/-! ### Entries that go through a link -/

def yard : Disk where
  tree := .ofList [(["out"], .dir 0o755), (["outside"], .dir 0o755)]

theorem yard_sound : yard.Sound := sound_of_isSound (by decide)

def parcel : List Tar.Item :=
  [.entry { name := "lib", kind := .symlink, link := "/outside" },
   .entry { name := "bin/tool", content := [1] },
   .entry { name := "bin/copy", kind := .hardLink, link := "bin/tool" }]

theorem parcel_confined :
    yard.Sound ∧ (∀ base, yard.IsSite "/out" base → Straight "/out" base yard.tree parcel) ∧
      Undisturbed "/out" yard
        ((Act.makeDirAll "/out" 0o755 >>= fun _ => placeItems "/out" parcel).run yard).2 := by
  have straight : ∀ base, yard.IsSite "/out" base → Straight "/out" base yard.tree parcel := by
    intro base _
    refine ⟨?_, by decide⟩
    intro i _ e _ l _ target found
    have dirs : ∀ x ∈ yard.tree.toList, x.2 = .dir 0o755 := by decide
    cases dirs _ ((Dict.get?_eq_some_iff ..).mp found)
  exact ⟨yard_sound, straight,
    (extraction_confined yard yard_sound "/out" (by decide) (by decide)).1
      parcel straight⟩

def smuggled : List Tar.Item :=
  [.entry { name := "d", kind := .symlink, link := "/outside" },
   .entry { name := "d/evil", content := [1] }]

/-- The names of both entries are allowed, and the second lands outside the directory. -/
theorem smuggled_lands_outside :
    (∀ base, yard.IsSite "/out" base → base = ["out"]) ∧
      yard.tree.get? ["outside", "evil"] = none ∧
      ((Act.makeDirAll "/out" 0o755 >>= fun _ => placeItems "/out" smuggled).run yard).2.tree.get?
        ["outside", "evil"] = some (.file 0) := by
  refine ⟨?_, by decide, by decide +kernel⟩
  rintro base ⟨-, there⟩
  have leads : ((yard.prepared "/out").locate true "/out").toOption = some ["out"] := by decide +kernel
  rw [there] at leads
  exact Option.some.inj leads

end Unpack

end Taproom
