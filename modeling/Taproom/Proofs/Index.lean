import Taproom.Index.Repository
import Taproom.Proofs.Versions

/-!
What an index holds after a bottle was added or a platform was read again. An entry gives way to
none that is older than itself, and other platforms keep what they have.
-/

namespace Taproom

/-! ### Shelves -/

namespace Index

variable {ix : Index} {tag other name : String} {e : Entry} {shelf : Shelf}

theorem eq_ok_of_entries {read : Except Fault Shelf} (told : read.toOption.map (·.toList) = some shelf.toList) :
    read = .ok shelf := by
  cases read with
  | error f => cases told
  | ok found => rw [Dict.ext_entries (Option.some.inj told)]

def IsOutdated (shelf : Shelf) (e : Entry) : Prop :=
  ∃ newer, shelf.get? e.name = some newer ∧ Version.compare newer.version e.version = .gt

instance (shelf : Shelf) (e : Entry) : Decidable (IsOutdated shelf e) :=
  decidable_of_iff ((shelf.get? e.name).any fun newer =>
    Version.compare newer.version e.version = .gt) (by simp [IsOutdated, Option.any_eq_true])

theorem version_offer (shelf : Shelf) (e : Entry) :
    ∃ held, (offer shelf e.name e).get? e.name = some held ∧
      (held.version = e.version ↔ ¬ IsOutdated shelf e) := by
  have named : (e.named e.name).version = e.version := by
    rw [Entry.named]
    split <;> rfl
  unfold IsOutdated offer
  cases found : shelf.get? e.name with
  | none => exact ⟨e.named e.name, by simp, by simp [named]⟩
  | some current =>
    by_cases newer : Version.compare current.version e.version = .gt
    · refine ⟨current, by simp [newer, found], ?_⟩
      have differ : current.version ≠ e.version := by
        intro same
        rw [same, Version.compare_self] at newer
        cases newer
      simp [newer, differ]
    · exact ⟨e.named e.name, by simp [newer], by simp [named, newer]⟩

theorem get?_add_self (ix : Index) (tag : String) (e : Entry) (name : String) :
    (ix.add tag e).get? tag name = (offer (ix.shelf tag) e.name e).get? name := by
  rw [get?, shelf, add, receive, Dict.getD_insert_self]
  rfl

theorem get?_add_of_ne (ne : other ≠ tag) (e : Entry) (name : String) :
    (ix.add tag e).get? other name = ix.get? other name := by
  rw [get?, get?, shelf, shelf, add, receive, Dict.getD_insert_of_ne _ ne]

theorem get?_reload_of_ne {net : Http.Transport} {d : Disk} {ix' : Index}
    (done : ix.reload net d tag = (.ok (), ix')) (ne : other ≠ tag) (name : String) :
    ix'.get? other name = ix.get? other name := by
  unfold reload at done
  dsimp only at done
  split at done
  · cases done
    rw [get?, get?, Index.shelf, Index.shelf, replace, Dict.getD_insert_of_ne _ ne]
  · cases done

end Index

end Taproom
