import Taproom.Proofs.Cleanup
import Taproom.Proofs.KegPath

/-!
What an installation that failed leaves behind. The keg is gone and so is a rack that a build made, and
all else in the cellar is as it was. A rack that was made for a bottle stays.
-/

namespace Taproom

open Path (IsComponent)

namespace Builder

open Disk (Place IsName Pruned)
open Layout (premises premises_stands)

variable {y : Layout} {b : Builder} {f : Formula} {o : Options} {version : String} {w w' : Workshop}

theorem failed_install_clears_away (wanted : Wanted y b f o version) (stands : y.Stands w.disk)
    (incomplete : w.disk.exists? (Receipt.pathIn (y.path [f.name, version])) = false)
    (careful : Careful y b f o version (cleared y f version w).disk) {e : Fault}
    (failed : (b.install f o).run w = (.error e, w')) :
    w'.disk.exists? (y.path [f.name, version]) = false ∧
      Vacated y f.name version w.disk w'.disk ∧
      (b.willBuild f o = true → ∀ e, w'.disk.tree.get? (y.place [f.name]) = some e ↔
        w.disk.tree.get? (y.place [f.name]) = some e ∧ ((∃ mode, e = .dir mode) →
          ∃ c e', c ≠ version ∧ w.disk.tree.get? (y.place [f.name, c]) = some e')) ∧
      (b.willBuild f o = false →
        w'.disk.tree.get? (y.place [f.name]) = w.disk.tree.get? (y.place [f.name]) ∨
          w.disk.tree.get? (y.place [f.name]) = none ∧
            ∃ mode, w'.disk.tree.get? (y.place [f.name]) = some (.dir mode)) := by
  obtain ⟨stands', vacated, built, poured⟩ := install_settles wanted incomplete stands careful failed
  refine ⟨?_, vacated, built, poured⟩
  have ready : y.Ready [f.name, version] [] w'.disk :=
    ⟨stands', .of_absent stands'.sound (by simp) (vacated.gone [])⟩
  cases there : w'.disk.exists? (y.path [f.name, version]) with
  | false => rfl
  | true =>
    obtain ⟨e, found⟩ := (ready.exists_iff (by simp) wanted.named ready.clear_keg).mp there
    rw [vacated.gone []] at found
    cases found

/-! ### A build without a source -/

def sourceless : Formula where
  name := "hello"
  version := "1.0"

/-- A cellar with an old keg, and with what is left of another. -/
def leftovers : Disk where
  tree := .ofList [(["cellar"], .dir 0o755), (["cellar", "hello"], .dir 0o755),
    (["cellar", "hello", "0.9"], .dir 0o755), (["cellar", "hello", "1.0"], .dir 0o755),
    (["cellar", "hello", "1.0", "half"], .file 0), (["tmp"], .dir 0o755)]
  nextBody := 1

theorem wanted_sourceless : Wanted premises larder sourceless {} "1.0" := by
  have known : sourceless.packageVersion? = some "1.0" := by decide
  refine ⟨⟨by decide, by decide⟩, rfl, ?_, by decide⟩
  rw [kegVersion, if_neg (by decide), packageVersionOf, known]

theorem toBuild_sourceless : toBuild sourceless false = .ok (sourceless.source, "1.0") := by
  have known : sourceless.version? = some "1.0" := by decide
  rw [toBuild, versionOf, known]
  rfl

theorem layOut_sourceless (keg number dir : String) (d : Disk) :
    (larder.layOut sourceless keg {} sourceless.source number dir).run d =
      (.error (.told "hello has no source url"), d) := rfl

theorem leftovers_stands : premises.Stands leftovers :=
  premises_stands (by decide) (by decide) (by decide) (by decide)

theorem leftovers_incomplete :
    leftovers.exists? (Receipt.pathIn (premises.path [sourceless.name, "1.0"])) = false := by
  decide +kernel

theorem careful_sourceless (stands : premises.Stands w.disk) :
    Careful premises larder sourceless {} "1.0" (cleared premises sourceless "1.0" w).disk := by
  have builds : larder.willBuild sourceless {} = true := by decide
  refine ⟨fun p d _ ready => .refl ready, ?_, ?_, ?_⟩
  · intro _ src number dir d' given made
    have clearing := (cleared_works wanted_sourceless.named stands (larder.filesOf sourceless)).1
    have temp := (clearing.ready.makeTempDir (wanted_sourceless.named sourceless.name (by simp)).1).1
    rw [wanted_sourceless.of.temp] at made
    rw [made] at temp
    rw [toBuild_sourceless] at given
    obtain ⟨rfl, rfl⟩ := Prod.mk.inj (Except.ok.inj given)
    rw [layOut_sourceless]
    exact .refl temp.ready
  · intro pours
    cases builds.symm.trans pours
  · intro pours
    cases builds.symm.trans pours

theorem run_of_stops {α : Type} {x : Brew α} (stops : (x.run w).1.toOption = none) :
    ∃ e w', x.run w = (.error e, w') := by
  generalize x.run w = outcome at stops ⊢
  obtain ⟨e | v, w'⟩ := outcome
  · exact ⟨e, w', rfl⟩
  · cases stops

theorem leftovers_cleared_away :
    ∃ e w', (larder.install sourceless {}).run ⟨leftovers, ""⟩ = (.error e, w') ∧
      w'.disk.exists? (premises.path ["hello", "1.0"]) = false ∧
      Vacated premises "hello" "1.0" leftovers w'.disk ∧
      w'.disk.tree.get? (premises.place ["hello"]) = some (.dir 0o755) := by
  have builds : larder.willBuild sourceless {} = true := by decide
  have stops : ((larder.install sourceless {}).run ⟨leftovers, ""⟩).1.toOption = none := by decide +kernel
  obtain ⟨e, w', failed⟩ := run_of_stops stops
  obtain ⟨gone, vacated, rack, -⟩ := failed_install_clears_away wanted_sourceless leftovers_stands
    leftovers_incomplete (careful_sourceless leftovers_stands) failed
  refine ⟨e, w', failed, gone, vacated, (rack builds _).mpr ⟨?_, fun _ => ⟨"0.9", .dir 0o755, by decide, ?_⟩⟩⟩
  · decide
  · decide

/-! ### A bottle that ends too early -/

theorem decode_unended {bytes : Archive.Bytes} (full : bytes.length = 512) :
    Gzip.decode (Gzip.header ++ ([0, 0, 2, 255, 253] ++ bytes)) = .ok ⟨bytes, some .ended⟩ := by
  have size : Archive.ofLittle [0, 2] = 512 ∧ Archive.ofLittle [255, 253] = Gzip.maxBlock - 512 := by decide
  have whole : bytes.take 512 = bytes := List.take_of_length_le full.le
  have gone : bytes.drop 512 = [] := List.drop_eq_nil_of_le full.le
  have block (fuel : Nat) : Gzip.readBlocks (fuel + 2) Gzip.header.length ([0, 0, 2, 255, 253] ++ bytes) [] =
      (⟨bytes, some .ended⟩, []) := by
    simp [Gzip.readBlocks, Archive.slice, size, whole, gone, full]
  have long : (Gzip.header ++ ([0, 0, 2, 255, 253] ++ bytes)).length + 1 = 526 + 2 := by
    simp [Gzip.header, full]
  rw [Gzip.decode, List.drop_left, long, block, if_neg (by simp), if_neg (by simp), if_neg (by simp [Gzip.header])]

def cutContent : Archive.Bytes := (Tar.encode [{ name := "hello/", kind := .dir, mode := 0o755 }]).take 512

/-- A bottle that holds no more than a rack, without the bytes that end it. -/
def cutBottle : ByteArray := ⟨(Gzip.header ++ ([0, 0, 2, 255, 253] ++ cutContent)).toArray⟩

def cutSum : String := "a1d15914db853789b1472d3c982e2e85df80a767f2705bc1c2747dbd82e7a699"

def bottled : Formula where
  name := "hello"
  version := "1.0"
  bottle := some { rootUrl := "https://e.org", files := .ofList [("x86_64_linux", cutSum)] }

def stocked : Disk where
  tree := .ofList [(["cache"], .dir 0o755),
    (["cache", cutSum ++ "--hello--1.0.x86_64_linux.bottle.tar.gz"], .file 0),
    (["cellar"], .dir 0o755), (["tmp"], .dir 0o755)]
  bodies := .ofList [(0, ⟨cutBottle, 0o644⟩)]
  nextBody := 1

def stock : Source where
  url := "https://e.org/hello--1.0.x86_64_linux.bottle.tar.gz"
  sha256 := cutSum

def stockPath : String := Fetch.cachePath larder.fetcher.cache stock.sha256 stock.url

theorem decode_cutBottle : Gzip.decode cutBottle.toList = .ok ⟨cutContent, some .ended⟩ := by
  rw [cutBottle, Archive.toList_toArray]
  exact decode_unended (by decide +kernel)

theorem stocked_holds : ((stocked.find true stockPath).toOption.any fun x => x.2 = .file 0) = true ∧
    (stocked.find false (premises.path ["hello", "1.0"])).toOption = none ∧
    Sha256.hex cutBottle = cutSum ∧ (Bottle.source bottled larder.platform).toOption = some stock := by
  decide +kernel

theorem extract_cutContent :
    ((Unpack.extract ⟨cutContent, some .ended⟩ larder.cellar).run stocked).1.toOption = none ∧
      ((Act.removeAll (premises.path ["hello", "1.0"])).run
        ((Unpack.extract ⟨cutContent, some .ended⟩ larder.cellar).run stocked).2).2.tree.get?
        (premises.place ["hello"]) = some (.dir 0o755) := by
  decide +kernel

theorem fetch_stocked : (larder.fetcher.fetch (bottled.name ++ "-bottle") stock).run stocked = (.ok stockPath, stocked) ∧
    stocked.read stockPath = .ok cutBottle := by
  obtain ⟨⟨place, e⟩, found, file⟩ := (Option.any_eq_true ..).mp stocked_holds.1
  obtain rfl : e = .file 0 := of_decide_eq_true file
  have read : stocked.read stockPath = .ok cutBottle := by
    rw [Disk.read, eq_ok_of_toOption found]
    rfl
  exact ⟨Fetch.run_fetch_cached _ rfl (by decide) read stocked_holds.2.2.1, read⟩

theorem pour_stocked : (Bottle.pour stockPath stock.sha256 larder.cellar).run stocked =
    ((Unpack.extract ⟨cutContent, some .ended⟩ larder.cellar).during s!"pouring {stockPath}").run stocked := by
  rw [Bottle.pour, Act.run_bind, Act.run_contentOf, fetch_stocked.2]
  simp only [stock, stocked_holds.2.2.1, ne_eq, not_true_eq_false, ↓reduceIte, Unpack.gunzip, decode_cutBottle]
  rfl

theorem wanted_bottled : Wanted premises larder bottled {} "1.0" := by
  have known : bottled.packageVersion? = some "1.0" := by decide
  refine ⟨⟨by decide, by decide⟩, rfl, ?_, by decide⟩
  rw [kegVersion, if_neg (by decide), packageVersionOf, known]

theorem cleared_stocked : cleared premises bottled "1.0" ⟨stocked, ""⟩ = ⟨stocked, ""⟩ := by
  have absent := stocked_holds.2.1
  rw [cleared, Act.run_removeAll]
  simp only [bottled]
  split
  · rename_i found
    rw [found] at absent
    cases absent
  · rename_i found
    rw [found] at absent
    cases absent
  · rfl

theorem run_pour_of_error {src : Source} {keg archive : String} {d d' : Disk} {e : Fault}
    (fetched : (b.fetcher.fetch (f.name ++ "-bottle") src).run w.disk = (.ok archive, d))
    (failed : (Bottle.pour archive src.sha256 b.cellar).run d = (.error e, d')) :
    (b.pour f src keg).run w = (.error e, { w with disk := ((Act.removeAll keg).run d').2 }) := by
  rw [run_pour, fetched]
  dsimp only
  rw [failed]

theorem install_stocked : ∃ e w', (larder.install bottled {}).run ⟨stocked, ""⟩ = (.error e, w') ∧
    w'.disk.tree.get? (premises.place ["hello"]) = some (.dir 0o755) := by
  obtain ⟨stops, rack⟩ := extract_cutContent
  obtain ⟨src, -, offered, -, run⟩ := install_of_pours (w := ⟨stocked, ""⟩) wanted_bottled
    (by decide +kernel) (by decide +kernel)
  obtain rfl := Except.ok.inj ((eq_ok_of_toOption stocked_holds.2.2.2).symm.trans offered)
  have poured := pour_stocked
  rw [Act.run_during] at poured
  generalize (Unpack.extract ⟨cutContent, some .ended⟩ larder.cellar).run stocked = outcome
    at poured stops rack
  obtain ⟨e | u, d⟩ := outcome
  · dsimp only at poured
    rw [cleared_stocked, run_pour_of_error (b := larder) (f := bottled) (w := ⟨stocked, ""⟩) fetch_stocked.1 poured] at run
    exact ⟨_, _, run, rack⟩
  · cases stops

theorem nothing_of_places {d : Disk}
    (places : ∀ x ∈ d.tree.toList, x.1.head? = some "cellar" → x.1.length = 1)
    (names : List String) (inner : names ≠ []) : d.tree.get? (premises.place names) = none := by
  cases found : d.tree.get? (premises.place names) with
  | none => rfl
  | some e =>
    have short := places _ ((Dict.get?_eq_some_iff ..).mp found) rfl
    simp [Layout.place, premises, inner] at short

/-- Where there was no rack there is one after a bottle failed. -/
theorem cut_bottle_leaves_rack : ∃ (f : Formula) (d : Disk), Wanted premises larder f {} "1.0" ∧
    premises.Stands d ∧ (∀ names, names ≠ [] → d.tree.get? (premises.place names) = none) ∧
      ∃ e w', (larder.install f {}).run ⟨d, ""⟩ = (.error e, w') ∧
        w'.disk.tree.get? (premises.place [f.name]) = some (.dir 0o755) := by
  have stands : premises.Stands stocked :=
    premises_stands (by decide) (by decide) (by decide) (by decide)
  exact ⟨bottled, stocked, wanted_bottled, stands, nothing_of_places (by decide), install_stocked⟩

end Builder

end Taproom
