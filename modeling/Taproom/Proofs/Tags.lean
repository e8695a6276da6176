import Taproom.Dispatch
import Taproom.Proofs.BottleName
import Taproom.Proofs.Queue

/-!
Tags of platforms. A tag stands for one platform, and the platforms that come back from their tags are
exactly those of the two known architectures whose system does not look like another tag. Builds and
dispatchable packages of such platforms survive the way through tags.
-/

namespace Taproom

namespace Platform

variable {p q : Platform}

/-- The architecture is known, and the name of an Intel macOS release does not begin like the tag of
something else. -/
def IsTagged (p : Platform) : Prop :=
  (p.arch = "x86_64" ∨ p.arch = "arm64") ∧
    (p.arch = "x86_64" → p.system ≠ "linux" →
      startsWith p.system "x86_64_" = false ∧ startsWith p.system "arm64_" = false)

instance : DecidablePred IsTagged := fun _ => inferInstanceAs (Decidable (_ ∧ _))

theorem ofTag_intel (system : String) : ofTag ("x86_64_" ++ system) = ⟨"x86_64", system⟩ := by
  rw [ofTag, String.toList_append, Text.dropPrefix?_append]
  simp

theorem ofTag_arm (system : String) : ofTag ("arm64_" ++ system) = ⟨"arm64", system⟩ := by
  have other : Text.dropPrefix? "x86_64_".toList ("arm64_" ++ system).toList = none := by
    simp [Text.dropPrefix?]
  rw [ofTag, other, String.toList_append, Text.dropPrefix?_append]
  simp

theorem ofTag_bare {tag : String} (intel : startsWith tag "x86_64_" = false)
    (arm : startsWith tag "arm64_" = false) : ofTag tag = ⟨"x86_64", tag⟩ := by
  rw [startsWith, Text.chars_eq, Text.chars_eq, Option.isSome_eq_false_iff, Option.isNone_iff_eq_none] at intel arm
  rw [ofTag, intel, arm]

theorem exists_of_startsWith {s front : String} (starts : startsWith s front = true) :
    ∃ rest, s = front ++ rest := by
  obtain ⟨rest, dropped⟩ := Option.isSome_iff_exists.mp starts
  refine ⟨String.ofList rest, ?_⟩
  rw [← String.toList_inj, ← Text.chars_eq s, Text.eq_append_of_dropPrefix? dropped]
  simp

/-- A tag begins with one of the two architectures, or it is the name of an Intel macOS release. -/
theorem ofTag_cases (tag : String) :
    (∃ system, tag = "x86_64_" ++ system ∧ ofTag tag = ⟨"x86_64", system⟩) ∨
      (∃ system, tag = "arm64_" ++ system ∧ ofTag tag = ⟨"arm64", system⟩) ∨
      startsWith tag "x86_64_" = false ∧ startsWith tag "arm64_" = false ∧ ofTag tag = ⟨"x86_64", tag⟩ := by
  cases intel : startsWith tag "x86_64_" with
  | true =>
    obtain ⟨system, rfl⟩ := exists_of_startsWith intel
    exact Or.inl ⟨system, rfl, ofTag_intel system⟩
  | false =>
    cases arm : startsWith tag "arm64_" with
    | true =>
      obtain ⟨system, rfl⟩ := exists_of_startsWith arm
      exact Or.inr (Or.inl ⟨system, rfl, ofTag_arm system⟩)
    | false => exact Or.inr (Or.inr ⟨rfl, rfl, ofTag_bare intel arm⟩)

theorem ofTag_tag_iff (p : Platform) : ofTag p.tag = p ↔ p.IsTagged := by
  obtain ⟨arch, system⟩ := p
  constructor
  · intro back
    have known : arch = "x86_64" ∨ arch = "arm64" := by
      rcases ofTag_cases (tag ⟨arch, system⟩) with ⟨s, -, read⟩ | ⟨s, -, read⟩ | ⟨-, -, read⟩
      all_goals
        rw [read, mk.injEq] at back
        simp [← back.1]
    refine ⟨known, fun intel release => ?_⟩
    dsimp only at intel release
    subst intel
    have bare : tag ⟨"x86_64", system⟩ = system := by simp [tag, isMacOS, release]
    rw [bare] at back
    rcases ofTag_cases system with ⟨s, whole, read⟩ | ⟨s, whole, read⟩ | ⟨intel, arm, -⟩
    · -- The name would be longer than itself.
      rw [read, mk.injEq] at back
      have long := congrArg String.length whole
      rw [String.length_append, back.2] at long
      simp at long
    · rw [read, mk.injEq] at back
      exact absurd back.1 (by decide)
    · exact ⟨intel, arm⟩
  · rintro ⟨rfl | rfl, plain⟩
    · by_cases release : system = "linux"
      · subst release
        decide
      · obtain ⟨intel, arm⟩ := plain rfl release
        have bare : tag ⟨"x86_64", system⟩ = system := by simp [tag, isMacOS, release]
        rw [bare, ofTag_bare intel arm]
    · have whole : tag ⟨"arm64", system⟩ = "arm64_" ++ system := by simp [tag]
      rw [whole, ofTag_arm]

theorem IsTagged.eq_of_tag (tagged : p.IsTagged) (tagged' : q.IsTagged) (same : p.tag = q.tag) : p = q :=
  ((ofTag_tag_iff p).mpr tagged).symm.trans (same ▸ (ofTag_tag_iff q).mpr tagged')

end Platform

theorem Build.ofDict_toDict {b : Build} (tagged : b.platform.IsTagged) : ofDict b.toDict = b := by
  have platform : b.toDict.get? "platform" = some b.platform.tag := Dict.get?_ofList [] _ _ (by simp)
  have package : b.toDict.get? "formula" = some b.package := Dict.get?_ofList [_] _ _ (by simp)
  have rev : b.toDict.get? "revision" = some b.rev := Dict.get?_ofList [_, _] _ _ (by simp)
  rw [ofDict, Dict.getD, Dict.getD, Dict.getD, platform, package, rev]
  simp only [Option.getD_some, (Platform.ofTag_tag_iff _).mpr tagged]

/-- Packages that were listed by tag are all listed by platform, under the platforms that they were
listed for. -/
theorem byPlatform_dispatchableOf {atoms : List Atom} (tagged : ∀ a ∈ atoms, a.platform.IsTagged)
    (distinct : (atoms.map (·.platform)).Nodup) (rev : String) :
    (Dispatchable.byPlatform ⟨dispatchableOf atoms, rev⟩).Perm
      (atoms.map fun a => (a.platform, a.dispatchable)) := by
  have apart : (atoms.map fun a => (a.platform.tag, a.dispatchable)).Pairwise fun x y => x.1 ≠ y.1 := by
    rw [List.pairwise_map]
    rw [List.Nodup, List.pairwise_map] at distinct
    refine distinct.imp_of_mem fun member member' differ same => differ ?_
    exact (tagged _ member).eq_of_tag (tagged _ member') same
  have listed : (dispatchableOf atoms).toList.Perm (atoms.map fun a => (a.platform.tag, a.dispatchable)) := by
    refine (List.perm_ext_iff_of_nodup ?_ ?_).mpr fun ⟨tag, names⟩ => ?_
    · exact (Dict.toList_distinct _).imp fun differ same => differ (congrArg Prod.fst same)
    · exact apart.imp fun differ same => differ (congrArg Prod.fst same)
    · rw [← Dict.get?_eq_some_iff, dispatchableOf, Dict.get?_ofList_eq_some_iff apart]
  have back := listed.map fun e => (Platform.ofTag e.1, e.2)
  rw [List.map_map] at back
  have same : (atoms.map ((fun e : String × List String => (Platform.ofTag e.1, e.2)) ∘
      fun a => (a.platform.tag, a.dispatchable))) = atoms.map fun a => (a.platform, a.dispatchable) := by
    refine List.map_congr_left fun a member => ?_
    simp [(Platform.ofTag_tag_iff _).mpr (tagged a member)]
  rw [same] at back
  refine List.Perm.trans (.of_eq (Dispatchable.latest_of_distinct ?_)) back
  have platforms := (back.map Prod.fst).nodup_iff.mpr (by simpa [List.map_map, Function.comp_def] using distinct)
  rw [List.Nodup, List.pairwise_map] at platforms
  exact platforms

theorem Platform.tag_codec_exact :
    (∀ p : Platform, ofTag p.tag = p ↔ p.IsTagged) ∧
      (∀ b : Build, b.platform.IsTagged → Build.ofDict b.toDict = b) ∧
      (∀ p q : Platform, p.IsTagged → q.IsTagged → p ≠ q → p.tag ≠ q.tag) ∧
      ∀ (atoms : List Atom) (rev : String), (∀ a ∈ atoms, a.platform.IsTagged) →
        (atoms.map (·.platform)).Nodup →
        (Dispatchable.byPlatform ⟨dispatchableOf atoms, rev⟩).Perm
          (atoms.map fun a => (a.platform, a.dispatchable)) := by
  refine ⟨ofTag_tag_iff, fun b => Build.ofDict_toDict, fun p q tagged tagged' differ same => ?_, ?_⟩
  · exact differ (tagged.eq_of_tag tagged' same)
  · exact fun atoms rev tagged distinct => byPlatform_dispatchableOf tagged distinct rev

example : Platform.ofTag (Platform.tag ⟨"x86_64", "arm64_sonoma"⟩) = ⟨"arm64", "sonoma"⟩ := by decide

end Taproom
