import Taproom.Proofs.Dict
import Taproom.Version

/-!
The order of versions. Semantic versions are in a total preorder and so are texts. The comparison of
package versions takes the one for some pairs and the other for the rest, so that it is a preorder
only where the two do not contradict each other.
-/

namespace Taproom

open Std (TransCmp OrientedCmp ReflCmp LawfulEqCmp)

theorem transCmp_on {α β : Type} {cmp : β → β → Ordering} [TransCmp cmp] (f : α → β) :
    TransCmp fun a b => cmp (f a) (f b) where
  eq_swap := OrientedCmp.eq_swap
  isLE_trans := TransCmp.isLE_trans

theorem transCmp_revised {α : Type} {cmp : α → α → Ordering} [TransCmp cmp] :
    TransCmp fun v w : α × Int => (cmp v.1 w.1).then (Ord.compare v.2 w.2) := by
  have versions : TransCmp fun v w : α × Int => cmp v.1 w.1 := transCmp_on Prod.fst
  exact inferInstanceAs (TransCmp (compareLex _ (compareOn Prod.snd)))

namespace Semver

theorem compareChars_eq : compareChars = List.compareLex Ord.compare := by
  funext s t
  fun_induction compareChars s t with
  | case1 => rfl
  | case2 t some => cases t <;> trivial
  | case3 s some => cases s <;> trivial
  | case4 a s b t less =>
    have decided : Ord.compare a b = .lt := if_pos less
    rw [List.compareLex_cons_cons, decided]
    rfl
  | case5 a s b t notLess greater =>
    have decided : Ord.compare a b = .gt := (if_neg notLess).trans (if_neg (Char.ne_of_lt greater).symm)
    rw [List.compareLex_cons_cons, decided]
    rfl
  | case6 a s b t notLess notGreater ih =>
    obtain rfl := Char.le_antisymm (Char.not_lt.mp notGreater) (Char.not_lt.mp notLess)
    have decided : Ord.compare a a = .eq := ReflCmp.compare_self
    rw [List.compareLex_cons_cons, decided, ih]
    rfl

instance : TransCmp compareChars := compareChars_eq ▸ inferInstance

instance : LawfulEqCmp compareChars := compareChars_eq ▸ inferInstance

instance : TransCmp Part.compare where
  eq_swap {a b} := by
    cases a <;> cases b <;> simp only [Part.compare] <;> first | exact OrientedCmp.eq_swap | rfl
  isLE_trans {a b c} := by
    cases a <;> cases b <;> cases c <;> simp only [Part.compare] <;>
      first | exact TransCmp.isLE_trans | simp

theorem comparePre_eq : comparePre = List.compareLex Part.compare := by
  funext l m
  fun_induction comparePre l m with
  | case1 => rfl
  | case2 m some => cases m <;> trivial
  | case3 l some => cases l <;> trivial
  | case4 a l b m ih => rw [List.compareLex_cons_cons, ih]

instance : TransCmp comparePre := comparePre_eq ▸ inferInstance

/-- A release comes after its pre-releases. -/
theorem compare_eq : compare = compareLex (compareOn major) (compareLex (compareOn minor)
    (compareLex (compareOn patch) (compareLex (compareOn fun v => v.pre.isEmpty)
      fun v w => comparePre v.pre w.pre))) := by
  funext ⟨major, minor, patch, pre⟩ ⟨major', minor', patch', pre'⟩
  cases pre <;> cases pre' <;> rfl

instance : TransCmp Semver.compare := by
  have pre : TransCmp fun v w : Semver => comparePre v.pre w.pre := transCmp_on Semver.pre
  rw [compare_eq]
  infer_instance

end Semver

namespace Version

/-- The version without its revision reads as a semantic version. -/
def Reads (v : String) : Prop := (Semver.parseTolerant? (splitRevision v.toList).1).isSome

instance (v : String) : Decidable (Reads v) := inferInstanceAs (Decidable (_ = _))

/-- The order of versions as texts; here too the revision decides between equal versions. -/
def textCompare (a b : String) : Ordering :=
  let (av, ar) := splitRevision a.toList
  let (bv, br) := splitRevision b.toList
  (Semver.compareChars av bv).then (Ord.compare ar br)

instance : TransCmp textCompare :=
  @transCmp_on String _ _ transCmp_revised fun v => splitRevision v.toList

variable {a b : String}

theorem compare_of_not_reads (unread : ¬ (Reads a ∧ Reads b)) : compare a b = textCompare a b := by
  simp only [compare, textCompare, compareParts]
  split
  · rename_i x y first second
    exact absurd ⟨by rw [Reads, first]; rfl, by rw [Reads, second]; rfl⟩ unread
  · rfl

theorem isLE_trans_of_reads {c : String} (first : Reads a) (second : Reads b) (third : Reads c) :
    (compare a b).isLE → (compare b c).isLE → (compare a c).isLE := by
  obtain ⟨x, first⟩ := Option.isSome_iff_exists.mp first
  obtain ⟨y, second⟩ := Option.isSome_iff_exists.mp second
  obtain ⟨z, third⟩ := Option.isSome_iff_exists.mp third
  simp only [compare, compareParts, first, second, third]
  exact transCmp_revised.isLE_trans (a := (x, _)) (b := (y, _)) (c := (z, _))

instance : OrientedCmp compare where
  eq_swap {a b} := by
    by_cases both : Reads a ∧ Reads b
    · obtain ⟨x, first⟩ := Option.isSome_iff_exists.mp both.1
      obtain ⟨y, second⟩ := Option.isSome_iff_exists.mp both.2
      simp only [compare, compareParts, first, second]
      exact transCmp_revised.eq_swap (a := (x, _)) (b := (y, _))
    · rw [compare_of_not_reads both, compare_of_not_reads fun swapped => both swapped.symm]
      exact OrientedCmp.eq_swap

theorem compare_self (v : String) : compare v v = .eq := ReflCmp.compare_self

theorem textCompare_ne_eq (differ : Reads a ↔ ¬ Reads b) : textCompare a b ≠ .eq := by
  intro same
  simp only [textCompare, Ordering.then_eq_eq] at same
  have texts := LawfulEqCmp.eq_of_compare same.1
  rw [Reads, Reads, texts] at differ
  exact iff_not_self differ

theorem textCompare_lt (differ : Reads a ↔ ¬ Reads b) (below : (compare a b).isLE) :
    textCompare a b = .lt := by
  rw [compare_of_not_reads fun both => differ.mp both.1 both.2] at below
  have apart := textCompare_ne_eq differ
  cases decided : textCompare a b with
  | lt => rfl
  | eq => exact absurd decided apart
  | gt => simp [decided] at below

/-- Package versions are compared in both directions alike. Some of them are in a preorder exactly if
none that does not read as a semantic version stands, as a text, between two that do and are not in
that order themselves. -/
theorem compare_preorder_iff (versions : List String) :
    (∀ v, compare v v = .eq) ∧ (∀ v w, compare v w = (compare w v).swap) ∧
      ((∀ a ∈ versions, ∀ b ∈ versions, ∀ c ∈ versions,
          (compare a b).isLE → (compare b c).isLE → (compare a c).isLE) ↔
        ∀ x ∈ versions, ∀ u ∈ versions, ∀ y ∈ versions, Reads x → ¬ Reads u → Reads y →
          textCompare x u = .lt → textCompare u y = .lt → compare x y = .lt) := by
  refine ⟨compare_self, fun _ _ => OrientedCmp.eq_swap, ?_, ?_⟩
  · intro trans x atX u atU y atY readsX unread readsY below above
    rw [← compare_of_not_reads fun both => unread both.2] at below
    rw [← compare_of_not_reads fun both => unread both.1] at above
    have ordered := trans x atX u atU y atY (by simp [below]) (by simp [above])
    cases decided : compare x y with
    | lt => rfl
    | gt => simp [decided] at ordered
    | eq =>
      -- Were they equal, the one that stands between them would not be below the second.
      have back : (compare y u).isLE :=
        trans y atY x atX u atU (by rw [OrientedCmp.eq_comm.mp decided]; rfl) (by simp [below])
      rw [OrientedCmp.gt_of_lt above] at back
      cases back
  · intro apart a atA b atB c atC below above
    have textual : ¬ (Reads a ∧ Reads b) → ¬ (Reads b ∧ Reads c) → ¬ (Reads a ∧ Reads c) →
        (compare a c).isLE := by
      intro first second third
      rw [compare_of_not_reads first] at below
      rw [compare_of_not_reads second] at above
      rw [compare_of_not_reads third]
      exact TransCmp.isLE_trans below above
    by_contra descends
    have back : (compare c a).isLE := by rw [OrientedCmp.lt_of_not_isLE descends]; rfl
    by_cases readsA : Reads a
    · by_cases readsB : Reads b
      · by_cases readsC : Reads c
        · exact descends (isLE_trans_of_reads readsA readsB readsC below above)
        · have closed := apart b atB c atC a atA readsB readsC readsA
            (textCompare_lt (by simp [readsB, readsC]) above)
            (textCompare_lt (by simp [readsA, readsC]) back)
          rw [OrientedCmp.gt_of_lt closed] at below
          cases below
      · by_cases readsC : Reads c
        · have closed := apart a atA b atB c atC readsA readsB readsC
            (textCompare_lt (by simp [readsA, readsB]) below)
            (textCompare_lt (by simp [readsB, readsC]) above)
          rw [closed] at descends
          exact descends rfl
        · exact descends (textual (by simp [readsB]) (by simp [readsB]) (by simp [readsC]))
    · by_cases both : Reads b ∧ Reads c
      · have closed := apart c atC a atA b atB both.2 readsA both.1
          (textCompare_lt (by simp [readsA, both.2]) back)
          (textCompare_lt (by simp [readsA, both.1]) below)
        rw [OrientedCmp.gt_of_lt closed] at above
        cases above
      · exact descends (textual (by simp [readsA]) both (by simp [readsA]))

/-- A version with a letter stands between two without one, whose last numbers differ in length. -/
theorem compare_not_transitive : ¬ ∀ a b c : String,
    (compare a b).isLE → (compare b c).isLE → (compare a c).isLE := by
  intro trans
  exact absurd (trans "1.0.10" "1.0.2k" "1.0.9" (by decide) (by decide)) (by decide)

end Version

end Taproom
