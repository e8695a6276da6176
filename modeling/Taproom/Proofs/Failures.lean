import Taproom.Proofs.Blocking
import Taproom.Proofs.Workers

/-!
How failures come and go. A package is marked as failed or not by those who build it, and it loses its
mark when it is read anew: when it comes into the graph or comes with another version. Whatever is
done to a graph, the mark of a package is what the last of these left.
-/

namespace Taproom

namespace Graph

variable {d : Disk} {g : Graph} {n : String} {p o : Package}

/-! ### What is done to a graph -/

inductive Operation where
  | loadAliases (d : Disk)
  | importAll (d : Disk)
  | importChanged (d : Disk) (paths : List String)
  | check
  | clean (index : Index)
  | mark (name : String) (failed : Bool)

namespace Operation

def after (g : Graph) : Operation → Graph
  | loadAliases d => (g.loadAliases d).toOption.getD g
  | importAll d => g.importAll d
  | importChanged d paths => (g.importChanged d paths).toOption.getD g
  | check => g.check.2
  | clean index => g.clean index
  | mark name failed => (g.setFailed name failed).toOption.getD g

def isImport : Operation → Bool
  | importAll _ | importChanged _ _ => true
  | _ => false

end Operation

/-- Whether a package is there that was not there before, or that had another version. -/
def isRenewed (before after : Graph) (n : String) : Bool :=
  match after.atom.packages.get? n, before.atom.packages.get? n with
  | some p, some o => o.version != p.version
  | some _, none => true
  | none, _ => false

inductive Turn where
  | marked (failed : Bool)
  | renewed
  deriving DecidableEq

def Turn.failed : Turn → Bool
  | marked failed => failed
  | renewed => false

/-- What an operation means for the mark of a package. -/
def Operation.turn? (n : String) (g : Graph) : Operation → Option Turn
  | mark name failed =>
    if g.canonicalName name = n && (g.setFailed name failed).isOk then some (.marked failed) else none
  | o => if o.isImport && isRenewed g (o.after g) n then some .renewed else none

def run (g : Graph) (operations : List Operation) : Graph := operations.foldl Operation.after g

/-- What happened to the mark of a package, in the order in which it happened. -/
def turns (n : String) (g : Graph) : List Operation → List Turn
  | [] => []
  | o :: operations => (o.turn? n g).toList ++ turns n (o.after g) operations

/-! ### One operation -/

theorem failed_of_packageOf {atom : Atom} {t : Tap} (made : packageOf atom d t n = .ok p) :
    p.failed = false := by
  rw [packageOf] at made
  simp only [bind, Except.bind] at made
  split at made
  · cases made
  · split at made
    · split at made
      · cases made
      · cases made
        rfl
    · cases made

theorem failed_of_made? (made : made? d g n = some p) : p.failed = false := by
  rw [made?] at made
  split at made
  · cases outcome : packageOf g.atom d g.tap n with
    | error why =>
      rw [outcome] at made
      cases made
    | ok q =>
      rw [outcome] at made
      cases made
      exact failed_of_packageOf outcome
  · cases made

theorem Operation.import_eq (g : Graph) {o : Operation} (imports : o.isImport = true) :
    ∃ d table names, o.after g = importNames d (Manager.withAliases g table) names := by
  cases o with
  | importAll d => exact ⟨d, g.atom.aliases, _, rfl⟩
  | importChanged d paths =>
    rw [after, Graph.importChanged]
    split
    · rw [Graph.loadAliases]
      cases g.tap.aliases d with
      | error fault => exact ⟨d, g.atom.aliases, [], rfl⟩
      | ok table => exact ⟨d, table, _, rfl⟩
    · exact ⟨d, g.atom.aliases, _, rfl⟩
  | loadAliases | check | clean | mark => cases imports

theorem failed_importNames {table : Dict String String} {names : List String}
    (found : (importNames d (Manager.withAliases g table) names).atom.packages.get? n = some p) :
    (∃ o, g.atom.packages.get? n = some o ∧ o.version = p.version ∧ p.failed = o.failed) ∨
      p.failed = false ∧ ∀ o, g.atom.packages.get? n = some o → o.version ≠ p.version := by
  have packages : (Manager.withAliases g table).atom.packages = g.atom.packages := rfl
  rw [get?_importNames, packages] at found
  split at found
  · obtain ⟨q, made, rfl⟩ := Option.map_eq_some_iff.mp found
    have unmarked := failed_of_made? made
    cases before : g.atom.packages.get? n with
    | none => exact .inr ⟨unmarked, fun o absent => nomatch absent⟩
    | some o =>
      by_cases same : o.version = q.version
      · refine .inl ⟨o, rfl, ?_, ?_⟩ <;> simp [keepFailure, same]
      · refine .inr ⟨by simpa [keepFailure, same] using unmarked, ?_⟩
        intro old isOld
        rw [← Option.some.inj isOld]
        simp [keepFailure, same]
  · exact .inl ⟨p, found, rfl, rfl⟩

/-- A package has the mark that a turn left, or without one the mark that it had. -/
def MarkedBy (n : String) (g : Graph) (p : Package) : Option Turn → Prop
  | some turn => p.failed = turn.failed
  | none => ∃ old, g.atom.packages.get? n = some old ∧ p.failed = old.failed

theorem markedBy_import {o : Operation} (imports : o.isImport = true)
    (found : (o.after g).atom.packages.get? n = some p) :
    MarkedBy n g p (if o.isImport && isRenewed g (o.after g) n then some .renewed else none) := by
  obtain ⟨d, table, names, result⟩ := o.import_eq g imports
  rw [imports, Bool.true_and, isRenewed, found]
  rw [result] at found
  rcases failed_importNames found with ⟨old, before, same, kept⟩ | ⟨unmarked, moved⟩
  · rw [before, if_neg (by simp [same])]
    exact ⟨old, before, kept⟩
  · cases before : g.atom.packages.get? n with
    | none => exact unmarked
    | some old =>
      rw [if_pos (by simpa using moved old before)]
      exact unmarked

theorem markedBy_mark {name : String} {failed : Bool}
    (found : ((Operation.mark name failed).after g).atom.packages.get? n = some p) :
    MarkedBy n g p ((Operation.mark name failed).turn? n g) := by
  rw [Operation.after] at found
  rw [Operation.turn?]
  cases done : g.setFailed name failed with
  | error fault =>
    rw [done] at found
    rw [if_neg (by simp [Except.isOk, Except.toBool])]
    exact ⟨p, found, rfl⟩
  | ok g' =>
    rw [done] at found
    have found : g'.atom.packages.get? n = some p := found
    rw [get?_packages_setFailed done] at found
    obtain ⟨old, before, rfl⟩ := Option.map_eq_some_iff.mp found
    by_cases meant : g.canonicalName name = n
    · rw [if_pos meant.symm, if_pos (by simp [meant, Except.isOk, Except.toBool])]
      rfl
    · rw [if_neg fun same => meant same.symm, if_neg (by simp [meant])]
      exact ⟨old, before, rfl⟩

theorem markedBy_turn {o : Operation} (found : (o.after g).atom.packages.get? n = some p) :
    MarkedBy n g p (o.turn? n g) := by
  cases o with
  | loadAliases d =>
    refine ⟨p, ?_, rfl⟩
    rw [Operation.after, Graph.loadAliases] at found
    cases loaded : g.tap.aliases d <;> rw [loaded] at found <;> exact found
  | check => exact ⟨p, found, rfl⟩
  | clean index =>
    rw [Operation.after, get?_clean] at found
    obtain ⟨old, before, rfl⟩ := Option.map_eq_some_iff.mp found
    exact ⟨old, before, rfl⟩
  | importAll d | importChanged d paths => exact markedBy_import rfl found
  | mark name failed => exact markedBy_mark found

/-! ### Histories -/

/-- A package is marked exactly if the last of some turns left a mark. -/
def Follows (n : String) (g : Graph) (turns : List Turn) : Prop :=
  ∀ p, g.atom.packages.get? n = some p →
    (p.failed = true ↔ turns.getLast? = some (.marked true))

theorem failed_iff (turn : Turn) : turn.failed = true ↔ turn = .marked true := by
  cases turn <;> simp [Turn.failed]

theorem follows_after {turns : List Turn} (follows : Follows n g turns) (o : Operation) :
    Follows n (o.after g) (turns ++ (o.turn? n g).toList) := by
  intro p found
  have left := markedBy_turn found
  cases turned : o.turn? n g with
  | some turn =>
    rw [turned, MarkedBy] at left
    rw [Option.toList_some, List.getLast?_concat, left, failed_iff, Option.some.injEq]
  | none =>
    rw [turned] at left
    obtain ⟨old, before, same⟩ := left
    rw [Option.toList_none, List.append_nil, same]
    exact follows old before

theorem follows_run {before : List Turn} (follows : Follows n g before)
    (operations : List Operation) : Follows n (g.run operations) (before ++ turns n g operations) := by
  induction operations generalizing g before with
  | nil => simpa [run, turns] using follows
  | cons o operations ih =>
    rw [run, List.foldl_cons, ← run, turns, ← List.append_assoc]
    exact ih (follows_after follows o)

/-- Whatever was done to a graph that was empty at first, a package that is there is marked as failed
exactly if the last of what happened to its mark is that it was marked so. What is no such happening
leaves the mark. -/
theorem failed_iff_last_turn (tap : Tap) (platform : Platform) (operations : List Operation)
    (found : ((fresh tap platform).run operations).atom.packages.get? n = some p) :
    (p.failed = true ↔
      (turns n (fresh tap platform) operations).getLast? = some (.marked true)) ∧
    ∀ o : Operation, o.turn? n ((fresh tap platform).run operations) = none →
      ∀ p', (o.after ((fresh tap platform).run operations)).atom.packages.get? n = some p' →
        p'.failed = p.failed := by
  constructor
  · have start : Follows n (fresh tap platform) [] := fun p absent => nomatch absent
    exact follows_run start operations p found
  · intro o passed p' later
    have left := markedBy_turn later
    rw [passed] at left
    obtain ⟨old, before, same⟩ := left
    rw [found, Option.some.injEq] at before
    rw [same, before]

def failedOnce : List Operation :=
  [.importAll (Manager.edition "r1"), .mark "lib" true, .importAll (Manager.edition "r1"), .clean {}]

theorem failedOnce_failed : ∃ p,
    ((fresh ⟨"/tap"⟩ .host).run failedOnce).atom.packages.get? "lib" = some p ∧ p.failed = true := by
  have history : (((fresh ⟨"/tap"⟩ .host).run failedOnce).atom.packages.get? "lib").isSome = true ∧
      (turns "lib" (fresh ⟨"/tap"⟩ .host) failedOnce).getLast? = some (.marked true) := by decide +kernel
  obtain ⟨p, packaged⟩ := Option.isSome_iff_exists.mp history.1
  exact ⟨p, packaged, (failed_iff_last_turn _ _ _ packaged).1.mpr history.2⟩

end Graph

end Taproom
