import Taproom.Proofs.Leftovers
import Taproom.Proofs.Phases
import Taproom.Proofs.Pouring

/-!
What happened in a cellar, and what is found in it. Kegs come only from installations that succeeded,
and go only with their rack: a version is listed if it was installed since the formula was last
uninstalled.
-/

namespace Taproom.Builder

open Disk (IsName Pruned)
open Layout (premises)

variable {y : Layout} {b : Builder} {name version : String} {w w' : Workshop} {d d' : Disk}

/-! ### Histories -/

/-- An installation: what was asked of whom, the version that the keg is named for, and how it went. -/
structure Installation where
  builder : Builder
  formula : Formula
  options : Options
  version : String
  before : Workshop
  result : Except Fault String
  after : Workshop

namespace Installation

def keg (i : Installation) (y : Layout) : String := y.path [i.formula.name, i.version]

def Found (i : Installation) (y : Layout) : Prop := i.before.disk.exists? (Receipt.pathIn (i.keg y)) = true

/-- How installations happen in a cellar. What is fetched, unpacked and run keeps to the keg. -/
structure Happens (i : Installation) (y : Layout) : Prop where
  of : y.Of i.builder
  called : kegVersion i.formula i.options.head = .ok i.version
  named : ∀ c ∈ [i.formula.name, i.version], IsName c
  careful : i.formula.disabled = none → ¬ i.Found y → Careful y i.builder i.formula i.options i.version
    (cleared y i.formula i.version i.before).disk
  ran : (i.builder.install i.formula i.options).run i.before = (i.result, i.after)

end Installation

/-- What can happen in a cellar. -/
inductive Event where
  | install (i : Installation)
  | uninstall (name : String)

structure IsEmpty (y : Layout) (d : Disk) : Prop where
  stands : y.Stands d
  way : ∀ l e, l ≠ [] → l <+: y.rest → d.tree.get? (y.base ++ l) = some e → ∃ mode, e = .dir mode
  nothing : ∀ names, names ≠ [] → d.tree.get? (y.place names) = none

inductive Happened (y : Layout) : List Event → Workshop → Prop
  | start {w : Workshop} (empty : IsEmpty y w.disk) : Happened y [] w
  | install {h : List Event} {i : Installation} (before : Happened y h i.before) (happens : i.Happens y) :
      Happened y (.install i :: h) i.after
  | uninstall {h : List Event} {w : Workshop} {b : Builder} {name : String} (before : Happened y h w)
      (of : y.Of b) (isName : IsName name) :
      Happened y (.uninstall name :: h) { w with disk := ((b.uninstall name).run w.disk).2 }

/-- A version was installed and the formula not uninstalled since. -/
def Standing (name version : String) : List Event → Prop
  | [] => False
  | .install i :: h =>
    (i.formula.name = name ∧ i.version = version ∧ i.result.isOk = true) ∨ Standing name version h
  | .uninstall other :: h => other ≠ name ∧ Standing name version h

variable {h : List Event}

/-! ### What is kept -/

/-- What a history tells of a cellar. Every keg is one that was installed, and has its receipt. -/
structure Kept (y : Layout) (h : List Event) (d : Disk) : Prop where
  stands : y.Stands d
  way : ∀ l e, l ≠ [] → l <+: y.rest → d.tree.get? (y.base ++ l) = some e → ∃ mode, e = .dir mode
  racks : ∀ name e, d.tree.get? (y.place [name]) = some e → ∃ mode, e = .dir mode
  kegs : ∀ name version e, d.tree.get? (y.place [name, version]) = some e → Standing name version h
  receipts : ∀ name version, Standing name version h →
    ∃ body, d.tree.get? (y.place [name, version, Receipt.fileName]) = some (.file body)
  named : ∀ name version, Standing name version h → ∀ c ∈ [name, version], IsName c

theorem mem_insertVersion (v : String) (l : List String) :
    version ∈ insertVersion v l ↔ version = v ∨ version ∈ l := by
  fun_induction insertVersion v l with
  | case1 => simp
  | case2 w rest _ ih => simp only [List.mem_cons, ih, or_left_comm]
  | case3 w rest => simp

theorem mem_sortVersions (l : List String) : version ∈ sortVersions l ↔ version ∈ l := by
  have each : ∀ l : List String, version ∈ l.foldr insertVersion [] ↔ version ∈ l := by
    intro l
    induction l with
    | nil => rfl
    | cons v l ih => rw [List.foldr_cons, mem_insertVersion, ih, List.mem_cons]
  rw [sortVersions, List.mem_reverse, each, List.mem_reverse]

example : sortVersions ["1.10", "1.9"] = ["1.9", "1.10"] := by decide +kernel

namespace Kept

theorem start (empty : IsEmpty y d) : Kept y [] d where
  stands := empty.stands
  way := empty.way
  racks name e found := by
    rw [empty.nothing [name] (by simp)] at found
    cases found
  kegs name version e found := by
    rw [empty.nothing [name, version] (by simp)] at found
    cases found
  receipts _ _ := False.elim
  named _ _ := False.elim

variable (kept : Kept y h d)

include kept

theorem keg_dir (standing : Standing name version h) :
    ∃ mode, d.tree.get? (y.place [name, version]) = some (.dir mode) := by
  obtain ⟨body, found⟩ := kept.receipts name version standing
  have inKeg := kept.stands.sound.inDir (y.place [name, version]) Receipt.fileName _
    ((y.place_append [name, version] [Receipt.fileName]).symm ▸ found)
  exact inKeg.resolve_left (Layout.place_ne_nil (by simp))

theorem rack_dir (standing : Standing name version h) :
    ∃ mode, d.tree.get? (y.place [name]) = some (.dir mode) := by
  obtain ⟨mode, found⟩ := kept.keg_dir standing
  have inRack := kept.stands.sound.inDir (y.place [name]) version _
    ((y.place_append [name] [version]).symm ▸ found)
  exact inRack.resolve_left (Layout.place_ne_nil (by simp))

theorem isComplete_iff : y.IsComplete name version d ↔ Standing name version h := by
  constructor
  · rintro ⟨e, found⟩
    have inKeg := kept.stands.sound.inDir (y.place [name, version]) Receipt.fileName e
      ((y.place_append [name, version] [Receipt.fileName]).symm ▸ found)
    obtain ⟨mode, isDir⟩ := inKeg.resolve_left (Layout.place_ne_nil (by simp))
    exact kept.kegs name version _ isDir
  · intro standing
    obtain ⟨body, found⟩ := kept.receipts name version standing
    exact ⟨_, found⟩

theorem exists_iff (named : ∀ c ∈ [name, version], IsName c) :
    d.exists? (Receipt.pathIn (y.path [name, version])) = true ↔ Standing name version h := by
  have path : Receipt.pathIn (y.path [name, version]) = y.path [name, version, Receipt.fileName] :=
    Layout.join_path (fun c member => (named c member).1) (by simp) (by simpa using isName_receiptFile.1)
  rw [path, kept.stands.exists_iff (by simp) (by simpa [isName_receiptFile] using named) ?_]
  · exact kept.isComplete_iff
  · refine kept.stands.clear fun l target long front found => ?_
    rcases List.prefix_concat_iff.mp (show l <+: [name, version] ++ [Receipt.fileName] from front) with
      rfl | front
    · obtain ⟨body, isFile⟩ := kept.receipts name version (kept.isComplete_iff.mp ⟨_, found⟩)
      cases found.symm.trans isFile
    · obtain rfl := front.eq_of_length_le (by simpa using long)
      obtain ⟨mode, isDir⟩ := kept.keg_dir (kept.kegs name version _ found)
      cases found.symm.trans isDir

theorem installed (of : y.Of b) (isName : IsName name) :
    ∃ versions, b.installed name d = .ok versions ∧
      ∀ version, version ∈ versions ↔ Standing name version h := by
  rw [Builder.installed, rack_eq of isName, Act.run_listDir]
  cases found : d.tree.get? (y.place [name]) with
  | none =>
    rw [kept.stands.find_rack_missing isName kept.way found]
    refine ⟨[], rfl, fun version => iff_of_false (by simp) fun standing => ?_⟩
    obtain ⟨mode, isDir⟩ := kept.rack_dir standing
    cases found.symm.trans isDir
  | some e =>
    obtain ⟨mode, rfl⟩ := kept.racks name e found
    rw [(kept.stands.find_rack_iff isName).mpr ⟨rfl, found⟩]
    refine ⟨_, rfl, fun version => ?_⟩
    rw [mem_sortVersions, List.mem_filterMap]
    have child : ∀ e, (version, e) ∈ d.children (y.place [name]) ↔
        d.tree.get? (y.place [name, version]) = some e := by
      intro e
      rw [Disk.mem_children_iff, ← Layout.place_append]
      rfl
    have path : ∀ version, Standing name version h →
        Path.join [y.path [name], version] = y.path [name, version] := fun version standing =>
      Layout.join_path (by simpa using isName.1) (by simp)
        (by simpa using (kept.named name version standing version (by simp)).1)
    constructor
    · rintro ⟨⟨version', e⟩, member, listed⟩
      have same : version' = version := by
        cases e with
        | dir mode =>
          dsimp only at listed
          split at listed
          · exact Option.some.inj listed
          · cases listed
        | file body => cases listed
        | link target => cases listed
      subst same
      exact kept.kegs name _ e ((child e).mp member)
    · intro standing
      obtain ⟨mode, isDir⟩ := kept.keg_dir standing
      refine ⟨(version, .dir mode), (child _).mpr isDir, ?_⟩
      dsimp only
      rw [path version standing, if_pos ((kept.exists_iff (kept.named name version standing)).mpr standing)]

theorem congr {h' : List Event}
    (same : ∀ name version, Standing name version h' ↔ Standing name version h) : Kept y h' d where
  stands := kept.stands
  way := kept.way
  racks := kept.racks
  kegs name version e found := (same name version).mpr (kept.kegs name version e found)
  receipts name version standing := kept.receipts name version ((same name version).mp standing)
  named name version standing := kept.named name version ((same name version).mp standing)

theorem install_ok {i : Installation} {files : List String}
    (works : y.Works [i.formula.name, i.version] files d d') (member : Receipt.fileName ∈ files)
    (complete : y.IsComplete i.formula.name i.version d') (ok : i.result.isOk = true)
    (named : ∀ c ∈ [i.formula.name, i.version], IsName c) : Kept y (.install i :: h) d' where
  stands := works.ready.toStands
  way l e long front found := by
    rcases works.toCellar (by simp) long front with same | ⟨-, mode, isDir⟩
    · exact kept.way l e long front (same.symm.trans found)
    · exact ⟨mode, Option.some.inj (found.symm.trans isDir)⟩
  racks name e found := by
    rcases works.entry (List.cons_ne_nil name []) (by simp) with same | ⟨-, -, mode, isDir⟩
    · exact kept.racks name e (same.symm.trans found)
    · exact ⟨mode, Option.some.inj (found.symm.trans isDir)⟩
  kegs name version e found := by
    by_cases own : [i.formula.name, i.version] = [name, version]
    · obtain ⟨rfl, rfl⟩ : i.formula.name = name ∧ i.version = version := by simpa using own
      exact Or.inl ⟨rfl, rfl, ok⟩
    · rw [works.others [name, version] (by simpa [eq_comm] using own) (by simpa using own)] at found
      exact Or.inr (kept.kegs name version e found)
  receipts name version standing := by
    by_cases own : [i.formula.name, i.version] = [name, version]
    · obtain ⟨rfl, rfl⟩ : i.formula.name = name ∧ i.version = version := by simpa using own
      obtain ⟨e, found⟩ := complete
      obtain ⟨body, rfl, -⟩ := works.ready.own Receipt.fileName member e found
      exact ⟨body, found⟩
    · have old := standing.resolve_left fun ⟨same, same', _⟩ => own (by rw [same, same'])
      rw [works.others [name, version, Receipt.fileName] (fun front => by simpa using front.length_le)
        (by simpa using own)]
      exact kept.receipts name version old
  named name version standing := by
    rcases standing with ⟨rfl, rfl, -⟩ | old
    · exact named
    · exact kept.named name version old

theorem install_error {i : Installation} (stands : y.Stands d')
    (vacated : Vacated y i.formula.name i.version d d')
    (rack : ∀ e, d'.tree.get? (y.place [i.formula.name]) = some e → ∃ mode, e = .dir mode)
    (fresh : ¬ Standing i.formula.name i.version h) (failed : i.result.isOk = false) :
    Kept y (.install i :: h) d' := by
  have same : ∀ name version, Standing name version (.install i :: h) ↔ Standing name version h :=
    fun name version => or_iff_right fun ⟨_, _, ok⟩ => by simp [failed] at ok
  refine congr ⟨stands, ?_, ?_, ?_, ?_, kept.named⟩ same
  · intro l e long front found
    rcases vacated.way l long front with same | ⟨-, mode, isDir⟩
    · exact kept.way l e long front (same.symm.trans found)
    · exact ⟨mode, Option.some.inj (found.symm.trans isDir)⟩
  · intro name e found
    by_cases own : name = i.formula.name
    · subst own
      exact rack e found
    · rw [vacated.others [name] (by simp) (by simpa using own) (by simp)] at found
      exact kept.racks name e found
  · intro name version e found
    by_cases own : [i.formula.name, i.version] = [name, version]
    · obtain ⟨rfl, rfl⟩ : i.formula.name = name ∧ i.version = version := by simpa using own
      cases (vacated.gone []).symm.trans found
    · rw [vacated.others [name, version] (by simp) (by simp) (by simpa using own)] at found
      exact kept.kegs name version e found
  · intro name version standing
    have own : ¬ [i.formula.name, i.version] = [name, version] := by
      intro same
      obtain ⟨rfl, rfl⟩ : i.formula.name = name ∧ i.version = version := by simpa using same
      exact fresh standing
    rw [vacated.others [name, version, Receipt.fileName] (by simp) (by simp) (by simpa using own)]
    exact kept.receipts name version standing

theorem uninstall (of : y.Of b) (isName : IsName name) :
    Kept y (.uninstall name :: h) ((b.uninstall name).run d).2 := by
  have clear := kept.stands.exists_iff (List.cons_ne_nil name []) (by simpa using isName)
    (kept.stands.clear_rack name)
  rw [Builder.uninstall, rack_eq of isName, Act.run_bind, Act.run_exists?]
  dsimp only
  cases there : d.exists? (y.path [name]) with
  | false =>
    -- There was no rack, and so no keg.
    refine kept.congr fun other version => ⟨And.right, fun standing => ⟨?_, standing⟩⟩
    rintro rfl
    obtain ⟨mode, isDir⟩ := kept.rack_dir standing
    rw [there] at clear
    exact absurd (clear.mpr ⟨_, isDir⟩) (by decide)
  | true =>
    have pruned := kept.stands.removeAll_rack isName
    have works : y.Works [name] [] d _ := .clear kept.stands (by simp) pruned
    have apart : ∀ other names, other ≠ name → ((Act.removeAll (y.path [name])).run d).2.tree.get?
        (y.place (other :: names)) = d.tree.get? (y.place (other :: names)) := fun other names differ =>
      pruned.kept fun below => differ (by simpa [eq_comm] using Layout.place_below_iff.mp below)
    refine ⟨works.ready.toStands, ?_, ?_, ?_, ?_, ?_⟩
    · intro l e long front found
      exact kept.way l e long front (pruned.old found).1
    · intro other e found
      exact kept.racks other e (pruned.old found).1
    · intro other version e found
      obtain ⟨old, out⟩ := pruned.old found
      refine ⟨?_, kept.kegs other version e old⟩
      rintro rfl
      exact out (Layout.place_below_iff.mpr (by simp))
    · rintro other version ⟨differ, standing⟩
      obtain ⟨body, found⟩ := kept.receipts other version standing
      exact ⟨body, (apart other _ (Ne.symm differ)).trans found⟩
    · rintro other version ⟨-, standing⟩
      exact kept.named other version standing

end Kept

theorem run_install_disabled {f : Formula} {o : Options} {l : Lifecycle}
    (disabled : f.disabled = some l) :
    (b.install f o).run w = (.error (.disabled f.name l.because), w) := by
  rw [install, disabled]
  rfl

namespace Installation

variable {i : Installation}

theorem Happens.wanted (happens : i.Happens y) (enabled : i.formula.disabled = none) :
    Wanted y i.builder i.formula i.options i.version :=
  ⟨happens.of, enabled, happens.called, happens.named⟩

theorem Happens.kept (happens : i.Happens y) (kept : Kept y h i.before.disk) :
    Kept y (.install i :: h) i.after.disk := by
  have ran := happens.ran
  cases disabled : i.formula.disabled with
  | some l =>
    rw [run_install_disabled disabled] at ran
    obtain ⟨failed, same⟩ := Prod.mk.inj ran
    rw [← same]
    refine kept.congr fun name version => or_iff_right fun ⟨_, _, ok⟩ => ?_
    rw [← failed] at ok
    cases ok
  | none =>
    have wanted := happens.wanted disabled
    have standing := kept.exists_iff happens.named
    cases found : i.before.disk.exists? (Receipt.pathIn (i.keg y)) with
    | true =>
      rw [run_install disabled (kegPath_eq happens.named happens.of happens.called), ← keg, found,
        if_pos rfl] at ran
      obtain ⟨-, same⟩ := Prod.mk.inj ran
      rw [← same]
      refine kept.congr fun name version => or_iff_right_of_imp ?_
      rintro ⟨rfl, rfl, -⟩
      exact standing.mp found
    | false =>
      have careful := happens.careful disabled (by simp [Found, found])
      cases result : i.result with
      | ok keg =>
        rw [result] at ran
        obtain ⟨works, complete⟩ := install_settles wanted found kept.stands careful ran
        exact kept.install_ok works (by simp [filesOf]) complete (by rw [result]; rfl) happens.named
      | error e =>
        rw [result] at ran
        obtain ⟨stands, vacated, built, poured⟩ := install_settles wanted found kept.stands careful ran
        refine kept.install_error stands vacated ?_ ?_ (by rw [result]; rfl)
        · intro e there
          cases builds : i.builder.willBuild i.formula i.options with
          | true => exact kept.racks _ e ((built builds e).mp there).1
          | false =>
            rcases poured builds with same | ⟨-, mode, isDir⟩
            · exact kept.racks _ e (same.symm.trans there)
            · exact ⟨mode, Option.some.inj (there.symm.trans isDir)⟩
        · intro stood
          exact absurd (standing.mpr stood) (by rw [← keg, found]; decide)

end Installation

theorem Happened.kept (happened : Happened y h w) : Kept y h w.disk := by
  induction happened with
  | start empty => exact .start empty
  | install _ happens ih => exact happens.kept ih
  | uninstall _ of isName ih => exact ih.uninstall of isName

theorem Happened.earlier {later earlier : List Event} {i : Installation}
    (happened : Happened y (later ++ .install i :: earlier) w) :
    Happened y earlier i.before ∧ i.Happens y := by
  induction later generalizing w with
  | nil =>
    cases happened with
    | install before happens => exact ⟨before, happens⟩
  | cons event later ih =>
    cases happened with
    | install before _ => exact ih before
    | uninstall before _ _ => exact ih before

theorem Standing.first (standing : Standing name version h) :
    ∃ later i earlier, h = later ++ .install i :: earlier ∧ .uninstall name ∉ later ∧
      i.formula.name = name ∧ i.version = version ∧ i.result.isOk = true ∧ ¬ Standing name version earlier := by
  induction h with
  | nil => exact standing.elim
  | cons event earlier ih =>
    by_cases before : Standing name version earlier
    · obtain ⟨later, i, rest, rfl, still, first⟩ := ih before
      refine ⟨event :: later, i, rest, rfl, ?_, first⟩
      rw [List.mem_cons, not_or]
      refine ⟨?_, still⟩
      rintro rfl
      exact standing.1 rfl
    · cases event with
      | install i =>
        obtain ⟨same, same', ok⟩ := standing.resolve_right before
        exact ⟨[], i, earlier, rfl, by simp, same, same', ok, before⟩
      | uninstall other => exact absurd standing.2 before

/-! ### Complete kegs -/

namespace Installation

variable {i : Installation}

/-- The phases that an installation came to, and the workshop in which they began. -/
def Comes (i : Installation) (y : Layout) (phases : List Phase) (w : Workshop) : Prop :=
  i.formula.disabled = none ∧ ¬ i.Found y ∧ Begun i.builder i.formula i.options (i.keg y)
    (cleared y i.formula i.version i.before) phases w

theorem Happens.stumbles (happens : i.Happens y) {before after : List Phase} {p : Phase} {k : Nat}
    {out : Program.Outcome} {w w' w'' : Workshop} (comes : i.Comes y (before ++ p :: after) w)
    (ran : RanAll i.builder before w w')
    (stumbles : Stumbles i.builder p.dir p.values p.steps k out w' w'') :
    i.result = .error (.failedStep ⟨i.formula.name, p.name, k, out.code, out.report⟩) := by
  obtain ⟨enabled, new, begun⟩ := comes
  have incomplete : i.before.disk.exists? (Receipt.pathIn (i.keg y)) = false := by simpa [Found] using new
  have whole := install_by_phases (happens.wanted enabled) incomplete begun
  rw [ran.run_stumbles stumbles, happens.ran] at whole
  exact whole

end Installation

def sourceSum : String := "2cf24dba5fb0a30e26e83b2ac5b9e29e1b161e5c1fa7425e73043362938b9824"

def counter : Disk where
  tree := .ofList [(["cache"], .dir 0o755), (["cache", sourceSum ++ "--hello.txt"], .file 0),
    (["cellar"], .dir 0o755), (["tmp"], .dir 0o755)]
  bodies := .ofList [(0, ⟨"hello".toUTF8, 0o644⟩)]
  nextBody := 1

end Taproom.Builder
