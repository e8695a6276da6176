import Taproom.Proofs.Index
import Taproom.Proofs.Uploads

/-!
Uploads to an empty repository. Two uploads of one file can be placed in one order and registered in the
other, and an upload that is alone is taken.
-/

namespace Taproom

namespace Receiver

open Disk (Ground IsName)

/-! ### A repository -/

def emptyRepository : Disk :=
  { tree := .ofList [(["x86_64_linux"], .dir 0o755), (["x86_64_linux", "core"], .dir 0o755)] }

def repository (serial : Nat) (files : List (String × Nat)) (bodies : List Disk.Body) : Disk where
  tree := .ofList ((["x86_64_linux"], .dir 0o755) :: (["x86_64_linux", "core"], .dir 0o755) ::
    files.map fun f => (["x86_64_linux", "core", f.1], .file f.2))
  bodies := .ofList (bodies.zipIdx.map fun b => (b.2, b.1))
  nextBody := bodies.length
  serial

def wholeDisk : Ground := ⟨true, [], [], []⟩

theorem wholeDisk_at : wholeDisk.At "/" := ⟨by decide, by decide⟩

example : wholeDisk.path ["a"] = "/a" := by decide +kernel

theorem emptyRepository_entries {p : Disk.Place} {e : Disk.Entry} (found : emptyRepository.tree.get? p = some e) :
    e = .dir 0o755 := by
  have dirs : ∀ x ∈ emptyRepository.tree.toList, x.2 = .dir 0o755 := by decide
  exact dirs _ ((Dict.get?_eq_some_iff ..).mp found)

theorem wholeDisk_on : wholeDisk.On emptyRepository where
  sound := Disk.sound_of_isSound (by decide)
  walked := ⟨0, [], rfl, fun _ => rfl, by simp⟩
  named := by simp [wholeDisk]
  there := by
    rw [wholeDisk, Disk.walk]
    rfl
  isDir := Or.inl rfl
  noLink l target _ _ found := by cases emptyRepository_entries found
  single p q body _ found := by cases emptyRepository_entries found

/-! ### Two bottles at a time -/

def rivals (i : Bool) : Upload where
  delivery := ⟨⟨"a", "1", "x86_64_linux"⟩, "core", "a--1.x86_64_linux.bottle.tar.gz"⟩
  content := ⟨#[if i then 2 else 1]⟩
  accepted := rfl

def rivalShelf (i : Bool) : Index.Shelf := Dict.insert {} "a" (rivals i).entry

def rivalBody (i : Bool) : Disk.Body := ⟨(rivals i).content, 0o600⟩

def rivalFile (i : Bool) : String :=
  if i then "a--1.x86_64_linux.bottle.tar.gz.1000000001.incomplete"
  else "a--1.x86_64_linux.bottle.tar.gz.1000000000.incomplete"

def rivalPath (i : Bool) : String := "/x86_64_linux/core/" ++ rivalFile i

def bottleFile : String := "a--1.x86_64_linux.bottle.tar.gz"

def rivalsPlaced : Disk := repository 2 [(bottleFile, 1)] [rivalBody false, rivalBody true]

/-- The bottles are placed in one order and registered in the other. -/
def race : List (Event Bool) :=
  [.left false, .left true, .entered false (rivalShelf false), .read false, .entered true (rivalShelf true),
    .read true, .placed true, .placed false, .wrote true, .wrote false]

def rivalSum (i : Bool) : String :=
  if i then "dbc1b4c900ffe48d575b5da5c638040125f65db0fe3e24494b76ea986457d986"
  else "4bf5122f344554c53bde2ebb8cd2b7e3d1600ad631c385a5d7cce23c7785459a"

theorem hex_rivals (i : Bool) : Sha256.hex (rivals i).content = rivalSum i := by
  cases i <;> decide

theorem readable_rivalShelf (i : Bool) : Index.decode (Index.encode (rivalShelf i)) = .ok (rivalShelf i) := by
  -- The checksum is put in as a literal, or it would be worked out for every byte of the index.
  rw [rivalShelf, Upload.entry, hex_rivals]
  refine Index.eq_ok_of_entries ?_
  revert i
  decide +kernel

theorem readable_race : Readable race := by
  intro i shelf member
  simp only [race, List.mem_cons, List.not_mem_nil, reduceCtorEq, Event.entered.injEq, false_or, or_false] at member
  rcases member with ⟨rfl, rfl⟩ | ⟨rfl, rfl⟩ <;> exact readable_rivalShelf _

theorem race_lastToPlace : LastToPlace rivals race true := by
  refine .earlier (.earlier (.earlier (.earlier (.earlier (.earlier (.here true _) ?_) ?_) ?_) ?_) ?_) ?_ <;>
    rintro j ⟨⟩

theorem race_lastToRegister : LastToRegister rivals race false := by
  refine .earlier (.earlier (.here false _ _) ?_) ?_ <;> rintro j shelf ⟨⟩

theorem race_written :
    (write ⟨"/"⟩ (rivals false).delivery (rivals false).content).run emptyRepository =
      (.ok (rivalPath false), repository 1 [(rivalFile false, 0)] [rivalBody false]) ∧
    (write ⟨"/"⟩ (rivals true).delivery (rivals true).content).run
        (repository 1 [(rivalFile false, 0)] [rivalBody false]) =
      (.ok (rivalPath true),
        repository 2 [(rivalFile false, 0), (rivalFile true, 1)] [rivalBody false, rivalBody true]) :=
  ⟨Act.run_eq_ok (by decide +kernel), Act.run_eq_ok (by decide +kernel)⟩

theorem race_placed :
    (commit ⟨"/"⟩ (rivals false).delivery (rivalPath false)).run
        (repository 2 [(rivalFile false, 0), (rivalFile true, 1)] [rivalBody false, rivalBody true]) =
      (.ok (), repository 2 [(bottleFile, 0), (rivalFile true, 1)] [rivalBody false, rivalBody true]) ∧
    (commit ⟨"/"⟩ (rivals true).delivery (rivalPath true)).run
        (repository 2 [(bottleFile, 0), (rivalFile true, 1)] [rivalBody false, rivalBody true]) =
      (.ok (), rivalsPlaced) :=
  ⟨Act.run_eq_ok (by decide +kernel), Act.run_eq_ok (by decide +kernel)⟩

theorem race_entered :
    ((Index.writeTo (shelfPath ⟨"/"⟩ (rivals true).delivery) (rivalShelf true)).run
      rivalsPlaced).1.isOk = true ∧
    ((Index.writeTo (shelfPath ⟨"/"⟩ (rivals false).delivery) (rivalShelf false)).run
      ((Index.writeTo (shelfPath ⟨"/"⟩ (rivals true).delivery) (rivalShelf true)).run
        rivalsPlaced).2).1.isOk = true := by
  decide +kernel

theorem shelfOn_emptyRepository : shelfOn wholeDisk emptyRepository "x86_64_linux" "core" = .ok {} :=
  Index.eq_ok_of_entries (by decide +kernel)

theorem race_run : ∃ s, Run ⟨"/"⟩ rivals emptyRepository race s ∧ s.Finished := by
  have empty : (Index.readFrom (shelfPath ⟨"/"⟩ (rivals true).delivery)).run rivalsPlaced = (.ok {}, rivalsPlaced) := by
    rw [Index.run_readFrom]
    exact Prod.ext (Index.eq_ok_of_entries (by decide +kernel)) rfl
  obtain ⟨⟨⟩, entered⟩ := Act.exists_run_of_isOk race_entered.1
  obtain ⟨⟨⟩, entered'⟩ := Act.exists_run_of_isOk race_entered.2
  generalize ((Index.writeTo (shelfPath ⟨"/"⟩ (rivals true).delivery) (rivalShelf true)).run rivalsPlaced).2 = d
    at entered entered'
  obtain ⟨s, first, rfl, free, placed, isEntered⟩ : ∃ s, Run ⟨"/"⟩ rivals emptyRepository (race.drop 4) s ∧
      s.disk = d ∧ s.holder = none ∧ s.stage false = .placed (rivalPath false) ∧
      s.stage true = .entered (rivalPath true) :=
    ⟨_, (((((Run.start.step (.write rfl race_written.1)).step (.write rfl race_written.2)).step
      (.place rfl race_placed.1)).step (.place rfl race_placed.2)).step (.read rfl rfl empty)).step
      (.enter rfl entered), rfl, rfl, rfl, rfl⟩
  -- The index is read as it was written.
  obtain ⟨number, steady⟩ := Steady.run wholeDisk_at wholeDisk_on first
  have shelf := (steady.ledger.shelves "x86_64_linux" "core" (by decide) (by decide)).trans
    ((if_pos ⟨rfl, rfl⟩).trans (readable_rivalShelf true))
  have again : (Index.readFrom (shelfPath ⟨"/"⟩ (rivals false).delivery)).run s.disk =
      (.ok (rivalShelf true), s.disk) := by
    rw [shelfPath_eq wholeDisk_at steady.ledger.on (rivals false).fits, Index.run_readFrom]
    exact Prod.ext shelf rfl
  have second := (first.step (.read placed free again)).step (.enter (Function.update_self ..) entered')
  exact ⟨_, (second.step (.leave (i := true) (t := rivalPath true) (by simpa using isEntered))).step
    (.leave (i := false) (t := rivalPath false) (by simp)), fun i => by cases i <;> simp⟩

theorem exists_alone {u : Upload} (isTo : u.IsTo "x86_64_linux" "core")
    (taken : ((receive ⟨"/"⟩ u.delivery u.content).run emptyRepository).1.isOk = true) :
    ∃ s, Run ⟨"/"⟩ (fun _ : Unit => u) emptyRepository
      [.left (), .entered () (Dict.insert {} u.name u.entry), .read (), .placed (), .wrote ()] s ∧ s.Finished := by
  obtain ⟨e, ran⟩ := Act.exists_run_of_isOk taken
  obtain ⟨-, s₁, s₂, s₃, s₄, shelf, wrote, placed, read, entered, left⟩ :=
    steps_of_receive (u := fun _ : Unit => u) (s := .start emptyRepository) (i := ()) rfl rfl ran
  have run := ((((Run.start.step wrote).step placed).step read).step entered).step left
  obtain ⟨number, steady⟩ := Steady.run wholeDisk_at wholeDisk_on run
  obtain ⟨-, entries, initial, rfl⟩ := steady.ledger.chained
  have first : kept (fun _ : Unit => u) u.delivery.label.tag u.delivery.repo
      (shelfOn wholeDisk emptyRepository u.delivery.label.tag u.delivery.repo) [.read (), .placed (), .wrote ()] =
      .ok {} := by
    rw [isTo.1, isTo.2]
    exact shelfOn_emptyRepository
  obtain rfl : entries = {} := Except.ok.inj (initial.symm.trans first)
  exact ⟨_, run, fun _ => rfl⟩

end Receiver

end Taproom
