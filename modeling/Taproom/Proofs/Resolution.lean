import Mathlib
import Taproom.Cli.Show
import Taproom.Manager.Api
import Taproom.Proofs.BottleName
import Taproom.Proofs.Graph

/-!
Names and the packages that they stand for. Resolving a name reads it through the aliases, and
whoever passes the name of what was found on has it read through them once more.
-/

namespace Taproom

namespace Graph

theorem slash_notMem_unqualified (name : String) : '/' ∉ (unqualified name).toList := by
  unfold unqualified
  split
  · rename_i cut
    rw [String.toList_ofList]
    exact ((Text.cutLast?_eq_some_iff '/').mp cut).2
  · rename_i uncut
    intro slash
    -- The first slash from the end is where the name is cut.
    obtain ⟨after, before, split, last⟩ := List.eq_append_cons_of_mem (List.mem_reverse.mpr slash)
    have cut := (Text.cutLast?_eq_some_iff '/').mpr
      ⟨by simpa using congrArg List.reverse split, (by simpa using last : '/' ∉ after.reverse)⟩
    exact absurd (uncut.symm.trans cut) (by simp)

theorem unqualified_eq_self_iff (name : String) : unqualified name = name ↔ '/' ∉ name.toList := by
  refine ⟨fun same => same ▸ slash_notMem_unqualified name, fun plain => ?_⟩
  unfold unqualified
  split
  · rename_i cut
    exact absurd (by simp [((Text.cutLast?_eq_some_iff '/').mp cut).1]) plain
  · rfl

section Aliases

variable (aliases : Dict String String)

theorem canonical_eq_self_iff (n : String) :
    canonical aliases n = n ↔ aliases.get? (unqualified n) = some n ∨
      aliases.get? (unqualified n) = none ∧ '/' ∉ n.toList := by
  rw [canonical, Dict.getD, ← unqualified_eq_self_iff]
  cases aliases.get? (unqualified n) <;> simp

/-- What an alias stands for stands for itself. -/
def Direct : Prop :=
  ∀ k t, '/' ∉ k.toList → aliases.get? k = some t → canonical aliases t = t

theorem canonical_idem_iff :
    (∀ m, canonical aliases (canonical aliases m) = canonical aliases m) ↔ Direct aliases := by
  constructor
  · intro stable k t plain found
    have read : canonical aliases k = t := by
      rw [canonical, (unqualified_eq_self_iff k).mpr plain, Dict.getD, found, Option.getD_some]
    rw [← read, stable]
  · intro direct m
    have plain := slash_notMem_unqualified m
    cases found : aliases.get? (unqualified m) with
    | none =>
      rw [show canonical aliases m = unqualified m by rw [canonical, Dict.getD, found, Option.getD_none],
        canonical_eq_self_iff, (unqualified_eq_self_iff _).mpr plain]
      exact Or.inr ⟨found, plain⟩
    | some t =>
      rw [show canonical aliases m = t by rw [canonical, Dict.getD, found, Option.getD_some]]
      exact direct _ t plain found

end Aliases

variable {g : Graph} {name n : String} {p : Package}

theorem resolve_eq_ok_iff :
    g.resolve name = .ok p ↔ g.atom.packages.get? (g.canonicalName name) = some p := by
  rw [resolve]
  cases g.atom.packages.get? (g.canonicalName name) <;> simp

theorem mem_dependents_iff :
    n ∈ g.dependents name ↔ (g.web fun _ => Package.allKinds).Needs n (g.canonicalName name) := by
  rw [dependents, ← Dict.get?_isSome_iff, Dict.get?_filter, Option.isSome_iff_exists]
  simp only [Option.filter_eq_some_iff, List.contains_iff_mem, Package.mem_edges, web]

theorem resolved_of_mem_canonical {names roots : List String}
    (success : Cli.canonical g names = .ok roots) :
    ∀ root ∈ roots, ∃ n p, g.resolve n = .ok p ∧ p.name = root := by
  induction names generalizing roots with
  | nil =>
    cases success
    simp
  | cons name names ih =>
    have step : Cli.canonical g (name :: names) = do
        let root ← (g.resolve name).map (·.name)
        return root :: (← Cli.canonical g names) := List.mapM_cons ..
    cases resolved : g.resolve name <;> cases rest : Cli.canonical g names <;>
      rw [step, resolved, rest] at success <;> cases success
    exact List.forall_mem_cons.mpr ⟨⟨name, _, resolved, rfl⟩, ih rest⟩

/-- A name stands for itself unless an alias or a tap says otherwise, and reading names through the
aliases again changes nothing exactly if what an alias stands for stands for itself. The dependents
in an answer need what the name of the package in it stands for. If every package has its own name,
that is the package itself exactly if its name resolves to it, which direct aliases ensure, and
commands then order what they resolved. -/
theorem resolution_stable_iff_direct (g : Graph) :
    (∀ n, g.canonicalName n = n ↔ g.atom.aliases.get? (unqualified n) = some n ∨
      g.atom.aliases.get? (unqualified n) = none ∧ '/' ∉ n.toList) ∧
    ((∀ m, g.canonicalName (g.canonicalName m) = g.canonicalName m) ↔ Direct g.atom.aliases) ∧
    (∀ name p, g.resolve name = .ok p → ∃ users, Manager.dependentsAnswer name g =
        .json 200 (.obj [("Pkg", .str p.name), ("Dependents", Json.ofNames users)]) ∧
      users.Pairwise (· < ·) ∧
      ∀ n, n ∈ users ↔ (g.web fun _ => Package.allKinds).Needs n (g.canonicalName p.name)) ∧
    ((∀ n p, g.atom.packages.get? n = some p → p.name = n) →
      (∀ name p, g.resolve name = .ok p →
        (g.resolve p.name = .ok p ↔ g.canonicalName p.name = p.name)) ∧
      (Direct g.atom.aliases →
        (∀ name p, g.resolve name = .ok p → g.canonicalName p.name = p.name) ∧
        ∀ names roots, Cli.canonical g names = .ok roots →
          roots.map g.canonicalName = roots ∧
          ∀ kinds order, g.orderBy roots kinds = .ok order → (g.web kinds).IsOrder roots order)) := by
  refine ⟨canonical_eq_self_iff _, canonical_idem_iff _, fun name p resolved => ?_,
    fun named => ⟨fun name p resolved => ?_, fun direct => ?_⟩⟩
  · exact ⟨g.dependents p.name, by rw [Manager.dependentsAnswer, resolved], Dict.keys_ascending _,
      fun _ => mem_dependents_iff⟩
  · have own := named _ p (resolve_eq_ok_iff.mp resolved)
    rw [resolve_eq_ok_iff]
    refine ⟨fun found => (named _ p found).symm, fun same => ?_⟩
    rw [same, own]
    exact resolve_eq_ok_iff.mp resolved
  · have stable : ∀ name p, g.resolve name = .ok p → g.canonicalName p.name = p.name := by
      intro name p resolved
      rw [named _ p (resolve_eq_ok_iff.mp resolved)]
      exact (canonical_idem_iff _).mpr direct name
    refine ⟨stable, fun names roots success => ?_⟩
    have same : roots.map g.canonicalName = roots := by
      refine (List.map_congr_left fun root member => ?_).trans roots.map_id
      obtain ⟨n, p, resolved, rfl⟩ := resolved_of_mem_canonical success root member
      exact stable n p resolved
    refine ⟨same, fun kinds order success => ?_⟩
    rw [← same]
    exact orderBy_isOrder success

/-- An alias for an application, and one that takes the name of the application for a library. -/
def shadowed : Graph where
  tap := ⟨"tap"⟩
  atom := {
    platform := ⟨"x86_64", "linux"⟩
    packages := .ofList [("app", { name := "app" }), ("lib", { name := "lib" }),
      ("tool", { name := "tool", run := .ofList ["app"] }),
      ("user", { name := "user", run := .ofList ["lib"] })]
    aliases := .ofList [("app", "lib"), ("application", "app")] }

/-- The alias resolves to the application, and the dependents given for it are the library's. -/
theorem shadowed_dependents : shadowed.canonicalName "app" = "lib" ∧
    shadowed.canonicalName (shadowed.canonicalName "application") ≠ shadowed.canonicalName "application" ∧
    Manager.dependentsAnswer "application" shadowed =
      .json 200 (.obj [("Pkg", .str "app"), ("Dependents", Json.ofNames ["user"])]) ∧
    ¬ (shadowed.web fun _ => Package.allKinds).Needs "user" "app" ∧
    (shadowed.web fun _ => Package.allKinds).Needs "tool" "app" := by
  have user : shadowed.atom.packages.get? "user" =
      some { name := "user", run := .ofList ["lib"] } := by cbv
  have tool : shadowed.atom.packages.get? "tool" =
      some { name := "tool", run := .ofList ["app"] } := by cbv
  refine ⟨by decide, by decide, by cbv, ?_, ⟨_, tool, (Package.mem_edges ..).mp (by decide)⟩⟩
  rintro ⟨p, found, need⟩
  cases user.symm.trans found
  exact absurd ((Package.mem_edges ..).mpr need) (by decide)

end Graph

end Taproom
