import Taproom.Proofs.Formula
import Taproom.Proofs.Phases

/-!
What a build asks of a formula, and how much of it is known once the formula has no problems. Resources and
the last steps are not looked at as the source and the first steps are.
-/

namespace Taproom

open Path (components)

/-- A commit that is pinned, or an archive with an address and a checksum. -/
def Source.IsPinned (s : Source) : Prop :=
  match s.git with
  | some ref => ref.url ≠ "" ∧ (ref.tag ≠ "" ∨ ref.revision ≠ "")
  | none => s.url ≠ "" ∧ Formula.isChecksum s.sha256 = true

/-- The same without the checksum. -/
def Source.IsAddressed (s : Source) : Prop :=
  match s.git with
  | some ref => ref.url ≠ "" ∧ (ref.tag ≠ "" ∨ ref.revision ≠ "")
  | none => s.url ≠ ""

/-- Resources of that name are laid out below the directory for them, wherever a formula is built. -/
def Resource.IsInside (r : Resource) : Prop :=
  ∀ dir, Path.isAbs dir = true → ∃ c rest,
    components (Path.join [dir, ".resources", r.name]) = components dir ++ ".resources" :: c :: rest

namespace Formula

variable {f : Formula} {stem : String}

/-- Nothing that a build needs is missing from the formula. -/
structure Attemptable (f : Formula) : Prop where
  source : f.source.IsPinned
  resources : ∀ r ∈ f.resources, r.source.IsPinned
  steps : ∀ s ∈ f.install ++ f.postInstall, s.run ≠ []
  inside : ∀ r ∈ f.resources, r.IsInside
  version : ∃ v, f.version? = some v ∧ f.packageVersion? = some (Version.withRevision v f.revision)

theorem isPinned_of_sourceProblems {s : Source} (sound : sourceProblems s = []) : s.IsPinned := by
  unfold sourceProblems at sound
  unfold Source.IsPinned
  cases git : s.git with
  | some ref =>
    simp only [git, List.append_eq_nil_iff, problemIf_eq_nil_iff] at sound
    simp only
    refine ⟨by simpa using sound.1, ?_⟩
    by_contra unpinned
    simp_all
  | none =>
    simp only [git] at sound
    split at sound
    · cases sound
    · rename_i filled
      exact ⟨filled, by simpa [problemIf_eq_nil_iff] using sound⟩

theorem resource_of_resourceProblems {seen : List String} {rs : List Resource}
    (sound : resourceProblems seen rs = []) :
    ∀ r ∈ rs, r.name ≠ "" ∧ (r.source.git = none → isChecksum r.source.sha256 = true) := by
  induction rs generalizing seen with
  | nil => simp
  | cons r rs ih =>
    rw [resourceProblems] at sound
    split at sound
    · cases sound
    · rename_i filled
      simp only [List.append_eq_nil_iff, problemIf_eq_nil_iff] at sound
      refine List.forall_mem_cons.mpr ⟨⟨filled, fun archive => ?_⟩, ih sound.2⟩
      simpa [archive] using sound.1.2

section

variable (sound : f.problems stem = [])

include sound

theorem isPinned_of_sound : f.source.IsPinned := by
  simp only [problems, List.append_eq_nil_iff] at sound
  exact isPinned_of_sourceProblems sound.1.1.1.1.1.1.1.1.1.1.2

theorem resource_of_sound :
    ∀ r ∈ f.resources, r.name ≠ "" ∧ (r.source.git = none → isChecksum r.source.sha256 = true) := by
  simp only [problems, List.append_eq_nil_iff] at sound
  exact resource_of_resourceProblems sound.1.1.1.1.1.1.1.2

theorem install_of_sound : ∀ s ∈ f.install, s.run ≠ [] := by
  simp only [problems, List.append_eq_nil_iff, List.flatMap_eq_nil_iff, problemIf_eq_nil_iff] at sound
  intro s member
  obtain ⟨i, short, rfl⟩ := List.mem_iff_getElem.mp member
  have filled := sound.1.1.1.1.1.2 (f.install[i], i) (List.mem_zipIdx_iff_getElem?.mpr (by simp [short]))
  simpa using filled

theorem version_of_sound :
    ∃ v, f.version? = some v ∧ f.packageVersion? = some (Version.withRevision v f.revision) := by
  obtain ⟨v, found⟩ := version?_of_sound sound
  exact ⟨v, found, by rw [packageVersion?, found, Option.map_some]⟩

/-- What is left to ask for is an address of each resource, a command in each of the last steps, and a name
of each resource that stays inside. -/
theorem attemptable_iff : f.Attemptable ↔ (∀ r ∈ f.resources, r.source.IsAddressed) ∧
    (∀ s ∈ f.postInstall, s.run ≠ []) ∧ ∀ r ∈ f.resources, r.IsInside := by
  constructor
  · intro attemptable
    refine ⟨fun r member => ?_, fun s member => attemptable.steps s (List.mem_append_right _ member),
      attemptable.inside⟩
    have pinned := attemptable.resources r member
    unfold Source.IsPinned at pinned
    unfold Source.IsAddressed
    cases git : r.source.git <;> simp_all
  · rintro ⟨addressed, last, inside⟩
    refine ⟨isPinned_of_sound sound, fun r member => ?_, ?_, inside, version_of_sound sound⟩
    · have address := addressed r member
      have checksum := (resource_of_sound sound r member).2
      unfold Source.IsAddressed at address
      unfold Source.IsPinned
      cases git : r.source.git <;> simp_all
    · intro s member
      rcases List.mem_append.mp member with first | later
      · exact install_of_sound sound s first
      · exact last s later

end

end Formula

namespace Builder

variable {b : Builder} {f : Formula} {dir keg : String} {v v' : Variables} {w w' : Workshop} {d d' : Disk}
  {o : Options}

theorem archive_addressed {fetcher : Fetch.Fetcher} {name path : String} {src : Source}
    (fetched : (fetcher.archive name src).run d = (.ok path, d')) : src.url ≠ "" := by
  intro none
  rw [Fetch.Fetcher.archive, if_pos none] at fetched
  cases fetched

theorem stageResources_addressed {rs : List Resource}
    (staged : (b.stageResources f dir rs v).run d = (.ok v', d')) :
    ∀ r ∈ rs, r.source.git = none → r.source.url ≠ "" := by
  induction rs generalizing v d with
  | nil => simp
  | cons r rs ih =>
    rw [stageResources] at staged
    obtain ⟨⟨⟩, d₁, first, rest⟩ := Act.run_bind_eq_ok staged
    refine List.forall_mem_cons.mpr ⟨fun archive => ?_, ih rest⟩
    rw [Act.run_during] at first
    rcases laid : (b.stage (f.name ++ "--" ++ r.name) r.source false
      (Path.join [dir, ".resources", r.name])).run d with ⟨fault | u, d₂⟩
    · rw [laid] at first
      cases first
    · obtain ⟨path, d₃, fetched, -⟩ := Act.run_bind_eq_ok laid
      rw [Fetch.Fetcher.fetch, archive] at fetched
      exact archive_addressed fetched

/-- A runner that starts no program without a name. -/
def Refuses (runner : Program.Runner) : Prop :=
  ∀ p d, p.args = [] → (runner p d).1.isSuccess = false

theorem Ran.commanded {steps : List Step} (refuses : Refuses b.runner) (ran : Ran b dir v steps w w') :
    ∀ s ∈ steps, b.platform.among s.on = true → s.run ≠ [] := by
  induction ran with
  | nil => simp
  | skip other _ ih => exact List.forall_mem_cons.mpr ⟨fun ours => by simp [other] at ours, ih⟩
  | @step s rest w w' o d ours out success _ ih =>
    refine List.forall_mem_cons.mpr ⟨fun _ empty => ?_, ih⟩
    have failed := refuses (programOf s dir v) w.disk (by simp [programOf, empty])
    rw [out, success] at failed
    cases failed

/-- A build that succeeds found an address of each archive among the resources and a command in each step. -/
theorem build_complete (refuses : Refuses b.runner) (built : ((b.build f keg o).run w).1 = .ok ()) :
    (∀ r ∈ f.resources, r.source.git = none → r.source.url ≠ "") ∧
      ∀ s ∈ f.install ++ f.postInstall, b.platform.among s.on = true → s.run ≠ [] := by
  have parts := build_by_prepare b f keg o w
  rcases prepared : (b.prepare f keg o).run w.disk with ⟨fault | x, d⟩
  · rw [prepared] at parts
    cases parts.symm.trans built
  · rw [prepared] at parts
    have made : ((b.make f keg o x).run { w with disk := d }).1 = .ok () := by
      rw [parts] at built
      split at built
      · exact built
      · rwa [Brew.run_andAlways] at built
    constructor
    · obtain ⟨⟨src, version⟩, d₁, -, rest⟩ := Act.run_bind_eq_ok prepared
      obtain ⟨dir, d₂, -, rest⟩ := Act.run_bind_eq_ok rest
      obtain ⟨v, d₃, laid, -⟩ := Act.run_bind_eq_ok rest
      obtain ⟨⟨⟩, d₄, -, staged⟩ := Act.run_bind_eq_ok laid
      exact stageResources_addressed staged
    · rw [run_make] at made
      rcases ran : (b.runPhases f.name (phasesOf f keg x)).run { w with disk := d } with ⟨fault | u, w₁⟩
      · rw [ran] at made
        cases made
      · cases ranAll_of_run ran with
        | cons first others =>
          cases others with
          | cons last _ =>
            intro s member
            rcases List.mem_append.mp member with early | late
            · exact first.commanded refuses s early
            · exact last.commanded refuses s late

end Builder

namespace Formula

variable {f : Formula}

/-- A formula without problems has a version, a source that is pinned and a command in each of its first
steps. Its resources have names, and checksums if they are archives. Nothing else that a build needs is
looked at: addresses and pins of resources, the commands of the last steps, and where names of resources
lead. Where an address or a command is missing, no build succeeds. -/
theorem attempt_of_no_problems (sound : f.problems f.name = []) :
    f.source.IsPinned ∧ (∀ s ∈ f.install, s.run ≠ []) ∧
      (∃ v, f.version? = some v ∧ f.packageVersion? = some (Version.withRevision v f.revision)) ∧
      (∀ r ∈ f.resources, r.name ≠ "" ∧ (r.source.git = none → isChecksum r.source.sha256 = true)) ∧
      (f.Attemptable ↔ (∀ r ∈ f.resources, r.source.IsAddressed) ∧ (∀ s ∈ f.postInstall, s.run ≠ []) ∧
        ∀ r ∈ f.resources, r.IsInside) ∧
      ∀ (b : Builder) (keg : String) (o : Builder.Options) (w : Workshop), Builder.Refuses b.runner →
        ((b.build f keg o).run w).1 = .ok () →
          (∀ r ∈ f.resources, r.source.git = none → r.source.url ≠ "") ∧
            ∀ s ∈ f.postInstall, b.platform.among s.on = true → s.run ≠ [] := by
  refine ⟨isPinned_of_sound sound, install_of_sound sound, version_of_sound sound, resource_of_sound sound,
    attemptable_iff sound, fun b keg o w refuses built => ?_⟩
  obtain ⟨addressed, commanded⟩ := Builder.build_complete refuses built
  exact ⟨addressed, fun s member => commanded s (List.mem_append_right _ member)⟩

/-- A formula with a resource that comes from nowhere, which is to be laid out outside, and with a last step
that runs nothing. -/
def hollow : Formula where
  name := "hello"
  desc := "d"
  homepage := "h"
  source := { url := "https://e.org/hello-1.0.tar.gz", sha256 := String.ofList (List.replicate 64 'a') }
  resources := [{ name := "..", source := { sha256 := String.ofList (List.replicate 64 'a') } }]
  install := [{ run := ["true"] }]
  postInstall := [{ run := [] }]

theorem hollow_problems : hollow.problems hollow.name = [] := by
  decide

/-- None of this is a problem. -/
theorem hollow_not_attemptable : hollow.problems hollow.name = [] ∧ ¬ hollow.Attemptable ∧
    (∃ r ∈ hollow.resources, ¬ r.source.IsPinned ∧ ¬ r.IsInside) ∧ ∃ s ∈ hollow.postInstall, s.run = [] := by
  refine ⟨hollow_problems, fun attemptable => ?_, ⟨_, List.mem_singleton_self _, fun pinned => ?_, fun inside => ?_⟩,
    ⟨_, List.mem_singleton_self _, rfl⟩⟩
  · exact attemptable.steps {} (by simp [hollow]) rfl
  · exact pinned.1 rfl
  · obtain ⟨c, rest, stays⟩ := inside "/b" (by decide)
    have up : components (Path.join ["/b", ".resources", ".."]) = ["b"] := by decide
    have start : components "/b" = ["b"] := by decide
    rw [up, start] at stays
    simp at stays

/-- No build of it succeeds. -/
theorem hollow_never_built : hollow.problems hollow.name = [] ∧
    ∀ (b : Builder) (keg : String) (o : Builder.Options) (w : Workshop), Builder.Refuses b.runner →
      ((b.build hollow keg o).run w).1 ≠ .ok () :=
  ⟨hollow_problems, fun b keg o w refuses built =>
    ((attempt_of_no_problems hollow_problems).2.2.2.2.2 b keg o w refuses built).1 _
      (List.mem_singleton_self _) rfl rfl⟩

end Formula

end Taproom
