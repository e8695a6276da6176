import Taproom.Formula.Check
import Taproom.Proofs.Path

/-!
What is known of a formula without problems: its name is one component of a path, made of a few
characters, and it has a version.
-/

namespace Taproom.Formula

open Path (IsComponent)

variable {f : Formula} {stem n : String}

theorem problemIf_eq_nil_iff (b : Bool) (p : Problem) : problemIf b p = [] ↔ b = false := by
  cases b <;> simp [problemIf]

theorem isName_of_sound (sound : f.problems stem = []) : isName f.name := by
  simp only [problems, List.append_eq_nil_iff, problemIf_eq_nil_iff, Bool.not_eq_false'] at sound
  exact sound.1.1.1.1.1.1.1.1.1.1.1.1.1.1

theorem name_of_sound (sound : f.problems stem = []) : stem = "" ∨ f.name = stem := by
  simp only [problems, List.append_eq_nil_iff, problemIf_eq_nil_iff] at sound
  have same := sound.1.1.1.1.1.1.1.1.1.1.1.1.1.2
  by_cases empty : stem = ""
  · exact Or.inl empty
  · exact Or.inr (by simpa [empty] using same)

theorem version?_of_sound (sound : f.problems stem = []) : ∃ v, f.version? = some v := by
  simp only [problems, List.append_eq_nil_iff, problemIf_eq_nil_iff] at sound
  have known := sound.2
  simpa [Option.isSome_iff_exists] using known

def isNameStart (c : Char) : Bool := Text.isDigit c || ('a' ≤ c && c ≤ 'z')

theorem isName_chars (named : isName n) :
    (∃ c rest, n.toList = c :: rest ∧ isNameStart c) ∧
      ∀ c ∈ n.toList, isNameStart c ∨ c ∈ "+_.@-".toList := by
  unfold isName at named
  cases chars : n.toList with
  | nil => simp [chars] at named
  | cons c rest =>
    simp only [chars, Bool.and_eq_true, List.all_eq_true] at named
    refine ⟨⟨c, rest, rfl, named.1⟩, List.forall_mem_cons.mpr ⟨Or.inl named.1, ?_⟩⟩
    intro c' member
    simpa [isNameStart] using named.2 c' member

theorem isComponent_of_isName (named : isName n) : IsComponent n.toList := by
  obtain ⟨⟨c, rest, chars, start⟩, allowed⟩ := isName_chars named
  rw [chars] at allowed ⊢
  apply Path.isComponent_of_head
  · rintro rfl
    exact absurd start (by decide)
  · intro member
    exact absurd (allowed '/' member) (by decide)

theorem ne_empty_of_isName (named : isName n) : n ≠ "" := by
  rintro rfl
  cases named

end Taproom.Formula
