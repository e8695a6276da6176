import Taproom.Keg.Builder
import Taproom.Proofs.Action
import Taproom.Proofs.Formula

/-!
Where kegs lie. The name of a sound formula is one component of a path, and so is every version that
was found in an address. A version that is written down need not be, and the keg then lies elsewhere.
-/

namespace Taproom

open Path (IsComponent)

/-! ### Versions as components -/

namespace Version

variable {s v : List Char}

theorem isDigit_of_isVersion (isVersion : isVersion v) :
    ∃ c rest, v = c :: rest ∧ Text.isDigit c := by
  rw [Version.isVersion, isVersionOf] at isVersion
  cases v with
  | nil => simp [dropDigits?] at isVersion
  | cons c rest =>
    refine ⟨c, rest, rfl, ?_⟩
    by_contra notDigit
    simp [dropDigits?, notDigit] at isVersion

theorem wholeVersion?_spec (found : wholeVersion? s = some v) : v <:+ s ∧ isVersion v := by
  unfold wholeVersion? at found
  split at found
  · split at found
    · rename_i isVersion
      cases found
      exact ⟨List.suffix_cons 'v' _, isVersion⟩
    · cases found
  · split at found
    · rename_i isVersion
      cases found
      exact ⟨List.suffix_rfl, isVersion⟩
    · cases found

theorem afterMark?_spec (found : afterMark? s = some v) : v <:+ s ∧ isVersion v := by
  induction s with
  | nil => cases found
  | cons c rest ih =>
    rw [afterMark?] at found
    split at found
    · split at found
      · rename_i whole
        cases found
        obtain ⟨ends, isVersion⟩ := wholeVersion?_spec whole
        exact ⟨ends.trans (List.suffix_cons c rest), isVersion⟩
      · obtain ⟨ends, isVersion⟩ := ih found
        exact ⟨ends.trans (List.suffix_cons c rest), isVersion⟩
    · obtain ⟨ends, isVersion⟩ := ih found
      exact ⟨ends.trans (List.suffix_cons c rest), isVersion⟩

theorem ofName?_spec (found : ofName? s = some v) : v <:+ s ∧ isVersion v := by
  rw [ofName?, Option.or_eq_some_iff] at found
  rcases found with whole | ⟨-, marked⟩
  · exact wholeVersion?_spec whole
  · exact afterMark?_spec marked

theorem stripArchive_front (s : List Char) : stripArchive s <+: s := by
  have ending : ∀ body, (Text.dropSuffix? ".tar".toList body).getD body <+: body := by
    intro body
    cases dropped : Text.dropSuffix? ".tar".toList body with
    | none => exact List.prefix_rfl
    | some rest => exact ⟨_, (Text.eq_append_of_dropSuffix? dropped).symm⟩
  unfold stripArchive
  split
  · rename_i body found
    obtain ⟨e, -, dropped⟩ := List.exists_of_findSome?_eq_some found
    exact (ending body).trans ⟨_, (Text.eq_append_of_dropSuffix? dropped).symm⟩
  · exact ending s

theorem isComponent_ofUrl {url : String} (found : ofUrl url ≠ "") :
    IsComponent (ofUrl url).toList := by
  unfold ofUrl at found ⊢
  split at found
  · exact absurd rfl found
  · rename_i known
    simp only [known, ↓reduceIte] at found ⊢
    have free := Path.base_free (String.ofList (url.toList.takeWhile fun c => c ≠ '?' ∧ c ≠ '#'))
    generalize Path.base (String.ofList (url.toList.takeWhile fun c => c ≠ '?' ∧ c ≠ '#')) = name
      at found free ⊢
    cases version : ofName? (stripArchive name.toList) with
    | none => simp [version] at found
    | some v =>
      simp only [String.toList_ofList]
      have free : '/' ∉ name.toList := by
        rcases free with free | rfl
        · exact free
        · have none : ofName? (stripArchive "/".toList) = none := by decide
          rw [none] at version
          cases version
      obtain ⟨ends, isVersion⟩ := ofName?_spec version
      obtain ⟨c, rest, rfl, digit⟩ := isDigit_of_isVersion isVersion
      apply Path.isComponent_of_head
      · rintro rfl
        exact absurd digit (by decide)
      · intro member
        exact free ((stripArchive_front name.toList).subset (ends.subset member))

example : ofUrl "https://e.org/hello-1.2.tar.gz" = "1.2" := by decide +kernel

theorem free_repr {n : Int} (positive : 0 < n) : '/' ∉ n.repr.toList := by
  rw [Int.repr_eq_if, if_pos positive.le, Nat.toList_repr]
  intro member
  exact absurd (Nat.isDigit_of_mem_toDigits (by decide) (by decide) member) (by decide)

theorem isComponent_withRevision {v : String} (component : IsComponent v.toList) (revision : Int) :
    IsComponent (withRevision v revision).toList := by
  unfold withRevision
  split
  · rename_i positive
    have whole : (v ++ "_" ++ toString revision).toList = v.toList ++ '_' :: revision.repr.toList := by
      simp
    have marked : '_' ∈ v.toList ++ '_' :: revision.repr.toList := by simp
    rw [whole]
    refine ⟨by simp, ?_, ?_, ?_⟩
    · intro same
      rw [same] at marked
      exact absurd marked (by decide)
    · intro same
      rw [same] at marked
      exact absurd marked (by decide)
    · simp [component.2.2.2, free_repr positive]
  · exact component

end Version

/-! ### Kegs -/

namespace Builder

variable {b : Builder} {f : Formula} {name version keg : String}

/-- `keg` is the place of a version in the rack of a formula, two steps below the cellar. -/
structure IsKegOf (b : Builder) (name version keg : String) : Prop where
  rooted : Path.isAbs keg = Path.isAbs b.cellar
  steps : Path.stepsOf keg = Path.stepsOf b.cellar ++ [name.toList, version.toList]

theorem isKegOf_join_iff (b : Builder) (component : IsComponent name.toList) (version : String) :
    b.IsKegOf name version (Path.join [b.cellar, name, version]) ↔ IsComponent version.toList := by
  obtain ⟨rooted, steps⟩ := Path.stepsOf_join_component b.cellar component [version]
  rw [List.flatMap_singleton] at steps
  constructor
  · intro isKeg
    have done := Path.stepsOf_isWalked (Path.join [b.cellar, name, version])
    rw [isKeg.steps] at done
    exact done.components_after component _ List.mem_cons_self
  · intro below
    refine ⟨rooted, ?_⟩
    rw [steps, Path.pieces, Text.splitAt_of_notMem below.2.2.2, List.foldl_cons, List.foldl_nil,
      Path.enter_component below]
    simp

theorem kegPath_of_sound (b : Builder) (sound : f.problems f.name = []) :
    ∃ v, f.version? = some v ∧
      b.kegPath f false = .ok (Path.join [b.cellar, f.name, Version.withRevision v f.revision]) := by
  obtain ⟨v, known⟩ := Formula.version?_of_sound sound
  refine ⟨v, known, ?_⟩
  simp [kegPath, packageVersionOf, Formula.packageVersion?, known, Except.map]

/-- A cellar that is a directory at a place of a disk, with a rack that is no link. -/
structure HasRack (b : Builder) (d : Disk) (base : Disk.Place) (name : String) : Prop where
  there : d.locate true (Path.clean b.cellar) = .ok base
  isDir : d.isDir base
  straight : ∀ target, d.tree.get? (base ++ [name]) ≠ some (.link target)

variable {d : Disk} {base place : Disk.Place}

theorem IsKegOf.namesOf (isKeg : b.IsKegOf name version keg) :
    Disk.namesOf keg = Disk.namesOf b.cellar ++ [name, version] := by
  simp [Disk.namesOf, isKeg.steps]

theorem IsKegOf.locate (isKeg : b.IsKegOf name version keg) (hasRack : b.HasRack d base name)
    (named : IsComponent name.toList) (versioned : IsComponent version.toList)
    (reached : d.locate false (Path.clean keg) = .ok place) : place = base ++ [name, version] := by
  refine Disk.locate_below hasRack.there hasRack.isDir isKeg.rooted isKeg.namesOf (by simp)
    (by simp [named, versioned]) ?_ reached
  intro before after target split some found
  match before, some with
  | [n], _ =>
    obtain ⟨rfl, -⟩ : name = n ∧ [version] = after := by simpa using split
    exact absurd found (hasRack.straight target)
  | [n, v], _ =>
    obtain ⟨-, -, rfl⟩ : name = n ∧ version = v ∧ after = [] := by simpa using split
    exact ⟨rfl, rfl⟩
  | n :: v :: w :: rest, _ => simp at split

theorem IsKegOf.locate_receipt (isKeg : b.IsKegOf name version keg)
    (hasRack : b.HasRack d base name) (named : IsComponent name.toList)
    (versioned : IsComponent version.toList)
    (straight : ∀ target, d.tree.get? (base ++ [name, version]) ≠ some (.link target) ∧
      d.tree.get? (base ++ [name, version, Receipt.fileName]) ≠ some (.link target))
    (reached : d.locate true (Receipt.pathIn keg) = .ok place) :
    place = base ++ [name, version, Receipt.fileName] := by
  have receipt : IsComponent Receipt.fileName.toList := by decide
  obtain ⟨rooted, steps⟩ := Path.stepsOf_join_component keg receipt []
  have names : Disk.namesOf (Receipt.pathIn keg) =
      Disk.namesOf b.cellar ++ [name, version, Receipt.fileName] := by
    simp [Disk.namesOf, Receipt.pathIn, steps, isKeg.steps]
  rw [Receipt.pathIn, ← Path.clean_join ⟨Receipt.fileName, by simp, by decide⟩] at reached
  refine Disk.locate_below hasRack.there hasRack.isDir (rooted.trans isKeg.rooted) names (by simp)
    (by simp [named, versioned, receipt]) ?_ reached
  intro before after target split some found
  rcases before with _ | ⟨n, _ | ⟨v, _ | ⟨w, _ | ⟨x, rest⟩⟩⟩⟩
  · exact absurd rfl some
  · obtain ⟨rfl, -⟩ : name = n ∧ [version, Receipt.fileName] = after := by simpa using split
    exact absurd found (hasRack.straight target)
  · obtain ⟨rfl, rfl, -⟩ : name = n ∧ version = v ∧ [Receipt.fileName] = after := by
      simpa using split
    exact absurd found (straight target).1
  · obtain ⟨rfl, rfl, rfl, -⟩ :
        name = n ∧ version = v ∧ Receipt.fileName = w ∧ after = [] := by simpa using split
    exact absurd found (straight target).2
  · simp at split

/-- The keg of a sound formula is the place of its version in its rack exactly if the version is one
component, as each version is that was found in an address. Such a keg is removed and completed
without a change to anything else. -/
theorem kegPath_confined (b : Builder) (f : Formula) (sound : f.problems f.name = []) :
    ∃ v keg, f.packageVersion? = some v ∧ b.kegPath f false = .ok keg ∧
      (b.IsKegOf f.name v keg ↔ IsComponent v.toList) ∧
      (f.version = "" → Version.ofUrl f.source.url ≠ "" → IsComponent v.toList) ∧
      (IsComponent v.toList → ∀ d base, b.HasRack d base f.name →
        d.ConfinedTo (base ++ [f.name, v] <+: ·) ((Act.removeAll keg).run d).2 ∧
        ((∀ target, d.tree.get? (base ++ [f.name, v]) ≠ some (.link target) ∧
            d.tree.get? (base ++ [f.name, v, Receipt.fileName]) ≠ some (.link target)) →
          ∀ r, d.ConfinedTo (base ++ [f.name, v] <+: ·) ((b.writeReceipt f keg r).run d).2)) := by
  have named := Formula.isComponent_of_isName (Formula.isName_of_sound sound)
  obtain ⟨v, known, path⟩ := b.kegPath_of_sound sound
  have isKeg := b.isKegOf_join_iff named (Version.withRevision v f.revision)
  refine ⟨_, _, by rw [Formula.packageVersion?, known, Option.map_some], path, isKeg, ?_, ?_⟩
  · intro silent found
    have fromUrl : f.version? = some (Version.ofUrl f.source.url) := by
      simp [Formula.version?, silent, found]
    obtain rfl := Option.some.inj (known.symm.trans fromUrl)
    exact Version.isComponent_withRevision (Version.isComponent_ofUrl found) f.revision
  · intro versioned d base hasRack
    have isKeg := isKeg.mpr versioned
    refine ⟨.removeAll ?_, fun straight r => .putFile ?_⟩
    · intro place reached p below
      rw [← Path.clean_join ⟨f.name, by simp, fun empty => named.1 (by rw [empty]; rfl)⟩] at reached
      rwa [isKeg.locate hasRack named versioned reached] at below
    · intro place reached
      rw [isKeg.locate_receipt hasRack named versioned straight reached]
      exact ⟨[Receipt.fileName], by simp⟩

def larder : Builder where
  cellar := "/cellar"
  fetcher := ⟨"/cache", Http.unreachable, true⟩
  platform := ⟨"x86_64", "linux"⟩
  runner := fun _ d => ({}, d)
  temp := "/tmp"
  now := ""

def shelves : Disk where
  tree := .ofList [(["cellar"], .dir 0o755), (["cellar", "hello"], .dir 0o755),
    (["cellar", "hello", "1.0_2"], .dir 0o755), (["cellar", "other"], .dir 0o755)]

def greeter : Formula where
  name := "hello"
  desc := "Greets"
  homepage := "https://example.org"
  revision := 2
  source.url := "https://example.org/hello-1.0.tar.gz"
  source.sha256 := "".pushn 'a' 64

theorem shelves_cellar : shelves.tree.get? ["cellar"] = some (.dir 0o755) := by decide

theorem shelves_locate_cellar (follow : Bool) : shelves.locate follow "/cellar" = .ok ["cellar"] := by
  have clean : Path.clean "/cellar" = "/cellar" := by decide
  have names : Disk.namesOf "/cellar" = ["cellar"] := by decide
  have start : shelves.startOf "/cellar" = [] := by decide
  rw [← clean, Disk.locate_clean, names, start,
    Disk.walk_dir (by decide) (shelves_cellar : shelves.tree.get? ([] ++ ["cellar"]) = _), Disk.walk]
  rfl

theorem greeter_kegPath_confined :
    greeter.problems greeter.name = [] ∧ larder.HasRack shelves ["cellar"] "hello" ∧
      larder.kegPath greeter false = .ok "/cellar/hello/1.0_2" ∧
      shelves.ConfinedTo (["cellar", "hello", "1.0_2"] <+: ·)
        ((Act.removeAll "/cellar/hello/1.0_2").run shelves).2 := by
  have sound : greeter.problems greeter.name = [] := by decide
  have hasRack : larder.HasRack shelves ["cellar"] "hello" := by
    refine ⟨shelves_locate_cellar true, by decide, ?_⟩
    intro target
    have isDir : shelves.tree.get? (["cellar"] ++ ["hello"]) = some (.dir 0o755) := by decide
    rw [isDir]
    simp
  have known : greeter.packageVersion? = some "1.0_2" := by decide
  have joined : Path.join [larder.cellar, greeter.name, "1.0_2"] = "/cellar/hello/1.0_2" := by
    decide
  have path : larder.kegPath greeter false = .ok "/cellar/hello/1.0_2" := by
    simp [kegPath, packageVersionOf, known, Except.map, joined]
  obtain ⟨v, keg, version, found, -, -, confined⟩ := kegPath_confined larder greeter sound
  obtain rfl := Option.some.inj (version.symm.trans known)
  obtain rfl := Except.ok.inj (found.symm.trans path)
  exact ⟨sound, hasRack, path, (confined (by decide) shelves ["cellar"] hasRack).1⟩

/-- A sound formula whose version leads out of its rack. -/
def stray : Formula := { greeter with version := "..", revision := 0 }

/-- Its keg is the whole cellar, and to remove it is to remove all that other formulae have there. -/
theorem stray_keg_is_cellar :
    stray.problems stray.name = [] ∧ larder.kegPath stray false = .ok larder.cellar ∧
      shelves.tree.get? ["cellar", "other"] = some (.dir 0o755) ∧
      ((Act.removeAll larder.cellar).run shelves).2.tree.get? ["cellar", "other"] = none := by
  have known : stray.packageVersion? = some ".." := by decide
  have joined : Path.join [larder.cellar, stray.name, ".."] = larder.cellar := by decide
  refine ⟨by decide, ?_, by decide, ?_⟩
  · simp [kegPath, packageVersionOf, known, Except.map, joined]
  · have found : shelves.find false larder.cellar = .ok (["cellar"], .dir 0o755) :=
      (Disk.find_eq_ok_iff ..).mpr ⟨shelves_locate_cellar false, by decide⟩
    rw [Act.run_removeAll, found]
    exact (Disk.get?_prune shelves ["cellar"] ["cellar", "other"]).trans (if_pos (by simp))

end Builder

end Taproom
