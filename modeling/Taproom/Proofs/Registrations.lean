import Taproom.Proofs.Progress

/-!
What uploads make of an index. Whatever the order in which they take their steps, no entry is lost, and
the last upload to register a name has its entry. The file that the entry names was moved to its place
outside the lock, so that its checksum is the one in the entry exactly if the last upload to place the
file and the last one to register it have the same checksum.
-/

namespace Taproom.Receiver

open Disk (Ground IsName)

/-! ### Registrations -/

def shelfAt (r : Receiver) (tag repo : String) (d : Disk) : Except Fault Index.Shelf :=
  ((Index.readFrom (Path.join [r.root, tag, repo, Index.fileName])).run d).1

variable {ι : Type} {r : Receiver} {u : ι → Upload} {g : Ground} {d : Disk} {h : List (Event ι)} {s : State ι} {tag repo : String}

theorem shelfAt_eq (isAt : g.At r.root) (tagged : IsName tag) (named : IsName repo) (d : Disk) :
    r.shelfAt tag repo d = shelfOn g d tag repo := by
  have isName : IsName Index.fileName := by decide
  rw [shelfAt, isAt.path (by simp) (by simp [tagged.1, named.1, isName.1]), Index.run_readFrom, shelfOn]

theorem shelfAt_after {number : ι → Nat} (isAt : g.At r.root) (steady : Steady g u d h s number)
    (readable : Readable h) (tagged : IsName tag) (named : IsName repo) :
    r.shelfAt tag repo s.disk = (r.shelfAt tag repo d).map (registered u tag repo · h) := by
  rw [shelfAt_eq isAt tagged named, shelfAt_eq isAt tagged named, steady.ledger.shelves tag repo tagged named,
    kept_eq_registered steady.ledger.chained readable]

theorem shelfAt_first {number : ι → Nat} (isAt : g.At r.root) (steady : Steady g u d h s number)
    (readable : Readable h) (tagged : IsName tag) (named : IsName repo) {i : ι} {shelf : Index.Shelf}
    (isTo : (u i).IsTo tag repo) (entered : .entered i shelf ∈ h) :
    ∃ entries, r.shelfAt tag repo d = .ok entries := by
  rw [shelfAt_eq isAt tagged named]
  exact initial_of_entered steady.ledger.chained readable entered isTo

section Kept

variable [DecidableEq ι]

/-- No registration is lost, whatever the order in which uploads take their steps. -/
theorem registrations_kept (isAt : g.At r.root) (on : g.On d) (run : Run r u d h s)
    (finished : s.Finished) (readable : Readable h) (tagged : IsName tag) (named : IsName repo) :
    (∀ before, r.shelfAt tag repo d = .ok before → ∃ after, r.shelfAt tag repo s.disk = .ok after ∧
      (∀ name, after.contains name ↔
        before.contains name ∨ ∃ i, (u i).IsTo tag repo ∧ (u i).name = name) ∧
      (∀ i, (u i).IsTo tag repo → ∃ j, (u i).SharesEntry (u j) ∧ LastToRegister u h j ∧
        after.get? (u i).name = some (u j).entry) ∧
      ∀ name, (∀ i, (u i).IsTo tag repo → (u i).name ≠ name) → after.get? name = before.get? name) ∧
    ((∃ i, (u i).IsTo tag repo) → ∃ before, r.shelfAt tag repo d = .ok before) ∧
    ((∀ i, ¬ (u i).IsTo tag repo) → r.shelfAt tag repo s.disk = r.shelfAt tag repo d) := by
  obtain ⟨number, steady⟩ := Steady.run isAt on run
  have entered : ∀ i, ∃ shelf, .entered i shelf ∈ h := fun i =>
    steady.entered i (by rw [finished i, Stage.isEntered])
  have after := shelfAt_after isAt steady readable tagged named
  refine ⟨?_, ?_, ?_⟩
  · intro before initial
    rw [initial] at after
    have last : ∀ i, (u i).IsTo tag repo → ∃ j, (u i).SharesEntry (u j) ∧ LastToRegister u h j ∧
        (registered u tag repo before h).get? (u i).name = some (u j).entry := by
      intro i isTo
      obtain ⟨shelf, member⟩ := entered i
      obtain ⟨j, last, shares⟩ := exists_lastToRegister (u := u) member
      have isTo' : (u j).IsTo tag repo := ⟨shares.1.1.trans isTo.1, shares.1.2.trans isTo.2⟩
      exact ⟨j, shares, last, shares.2 ▸ registered_of_last last isTo'⟩
    have others : ∀ name, (∀ i, (u i).IsTo tag repo → (u i).name ≠ name) →
        (registered u tag repo before h).get? name = before.get? name := by
      intro name none
      exact registered_of_none fun j _ _ isTo => none j isTo
    refine ⟨_, after, ?_, last, others⟩
    intro name
    by_cases uploaded : ∃ i, (u i).IsTo tag repo ∧ (u i).name = name
    · obtain ⟨i, isTo, rfl⟩ := uploaded
      obtain ⟨j, -, -, found⟩ := last i isTo
      simp only [Dict.contains, found, Option.isSome_some, true_iff]
      exact Or.inr ⟨i, isTo, rfl⟩
    · have none : ∀ i, (u i).IsTo tag repo → (u i).name ≠ name := fun i isTo same =>
        uploaded ⟨i, isTo, same⟩
      simp only [Dict.contains, others name none, uploaded, or_false]
  · rintro ⟨i, isTo⟩
    obtain ⟨shelf, member⟩ := entered i
    exact shelfAt_first isAt steady readable tagged named isTo member
  · intro none
    rw [after]
    simp only [registered_eq_self fun j _ _ => none j]
    cases r.shelfAt tag repo d <;> rfl

end Kept

theorem shelfAt_emptyRepository : shelfAt ⟨"/"⟩ "x86_64_linux" "core" emptyRepository = .ok {} := by
  rw [shelfAt_eq wholeDisk_at (by decide) (by decide), shelfOn_emptyRepository]

theorem rivals_registered : ∃ h s, Run ⟨"/"⟩ rivals emptyRepository h s ∧ s.Finished ∧
    ∃ after, shelfAt ⟨"/"⟩ "x86_64_linux" "core" s.disk = .ok after ∧ (∀ name, after.contains name ↔ name = "a") ∧
      ∃ j, LastToRegister rivals h j ∧ after.get? "a" = some (rivals j).entry := by
  obtain ⟨s, run, finished⟩ := race_run
  have isName : IsName "x86_64_linux" ∧ IsName "core" := by decide
  obtain ⟨kept, -, -⟩ := registrations_kept wholeDisk_at wholeDisk_on run finished readable_race isName.1 isName.2
  obtain ⟨after, shelf, names, entries, -⟩ := kept {} shelfAt_emptyRepository
  obtain ⟨j, -, last, found⟩ := entries true ⟨rfl, rfl⟩
  refine ⟨_, s, run, finished, after, shelf, fun name => ?_, j, last, found⟩
  rw [names name]
  constructor
  · rintro (absurdity | ⟨i, -, same⟩)
    · cases absurdity
    · exact same.symm
  · rintro rfl
    exact Or.inr ⟨true, ⟨rfl, rfl⟩, rfl⟩

/-! ### Checksums -/

/-- An entry of a repository names a file there and gives its checksum. -/
def Publishes (r : Receiver) (tag repo : String) (d : Disk) (e : Index.Entry) : Prop :=
  ∃ content, d.read (Path.join [r.root, tag, repo, e.file]) = .ok content ∧
    Sha256.hex content = e.sha256

/-- Every entry of a repository is listed under the name that its file has and gives the checksum of
that file. -/
def Consistent (r : Receiver) (tag repo : String) (d : Disk) : Prop :=
  ∀ shelf name e, r.shelfAt tag repo d = .ok shelf → shelf.get? name = some e →
    (∃ label, Bottle.parseFileName? e.file = some label ∧ label.name = name) ∧
      r.Publishes tag repo d e

theorem mem_of_lastToRegister {i : ι} (last : LastToRegister u h i) : ∃ shelf, .entered i shelf ∈ h := by
  induction last with
  | here i shelf h => exact ⟨shelf, List.mem_cons_self⟩
  | earlier _ _ ih =>
    obtain ⟨shelf, member⟩ := ih
    exact ⟨shelf, List.mem_cons_of_mem _ member⟩

/-- The file of an entry that was uploaded is the one that was placed last. -/
theorem publishes_entry_iff {number : ι → Nat} (isAt : g.At r.root) (steady : Steady g u d h s number)
    {i j : ι} (isTo : (u i).IsTo tag repo) (last : LastToPlace u h j) (shares : (u j).SharesFile (u i)) :
    r.Publishes tag repo s.disk (u i).entry ↔ Sha256.hex (u j).content = Sha256.hex (u i).content := by
  obtain ⟨rfl, rfl⟩ := isTo
  have path : Path.join [r.root, (u i).delivery.label.tag, (u i).delivery.repo, (u i).entry.file] =
      g.path (u j).place := by
    rw [shares]
    exact isAt.path (by simp) ((u i).fits.beside (u i).fits.file)
  have read : s.disk.read (g.path (u j).place) = .ok (u j).content := by
    rw [Disk.read_eq_peek, steady.ledger.on.peek_held (by simp [Upload.place, Delivery.beside])
      (steady.ledger.named j (mem_of_lastToPlace last)) (steady.ledger.placed j last)]
    rfl
  rw [Publishes, path, read]
  constructor
  · rintro ⟨content, same, sum⟩
    cases same
    exact sum
  · intro sum
    exact ⟨_, rfl, sum⟩

/-- An entry whose file nobody has placed gives its checksum if it did so before. -/
theorem publishes_of_unplaced {number : ι → Nat} (isAt : g.At r.root) (on : g.On d)
    (steady : Steady g u d h s number) (tagged : IsName tag) (named : IsName repo) {e : Index.Entry}
    {label : Bottle.Label} (parsed : Bottle.parseFileName? e.file = some label)
    (none : ∀ i, .placed i ∈ h → (u i).place ≠ [tag, repo, e.file])
    (published : r.Publishes tag repo d e) : r.Publishes tag repo s.disk e := by
  obtain ⟨-, component, ends⟩ := parts_of_parse parsed
  have components : ∀ c ∈ [tag, repo, e.file], Path.IsComponent c.toList := by
    simp [tagged.1, named.1, component]
  obtain ⟨content, read, sum⟩ := published
  rw [isAt.path (by simp) components] at read
  have names : ∀ c ∈ [tag, repo, e.file], IsName c := by
    cases located : d.locate true (g.path [tag, repo, e.file]) with
    | error reason =>
      rw [Disk.read, Disk.find_of_error located] at read
      cases read
    | ok place => exact (on.locate (by simp) components located).2.2
  have same := steady.ledger.unplaced _ rfl names ends none
  refine ⟨content, ?_, sum⟩
  rw [isAt.path (by simp) components, Disk.read_eq_peek, same, ← Disk.read_eq_peek, read]

section Published

variable [DecidableEq ι]

/-- Once all uploads have completed, the entries of a repository give the checksums of their files
exactly if the last upload to register a name and the last one to place its file agree. -/
theorem checksums_published_iff (isAt : g.At r.root) (on : g.On d) (run : Run r u d h s)
    (finished : s.Finished) (readable : Readable h) (tagged : IsName tag) (named : IsName repo)
    (before : r.Consistent tag repo d) :
    (∀ shelf name e, r.shelfAt tag repo s.disk = .ok shelf → shelf.get? name = some e →
      r.Publishes tag repo s.disk e) ↔
    ∀ i j, (u i).IsTo tag repo → LastToRegister u h i → LastToPlace u h j → (u j).SharesFile (u i) →
      Sha256.hex (u j).content = Sha256.hex (u i).content := by
  obtain ⟨number, steady⟩ := Steady.run isAt on run
  have placed : ∀ i, .placed i ∈ h := fun i => steady.placed i (by rw [finished i, Stage.isPlaced])
  have entered : ∀ i, ∃ shelf, .entered i shelf ∈ h := fun i =>
    steady.entered i (by rw [finished i, Stage.isEntered])
  have after := shelfAt_after isAt steady readable tagged named
  constructor
  · intro published i j isTo registers places shares
    obtain ⟨shelf, member⟩ := mem_of_lastToRegister registers
    obtain ⟨first, initial⟩ := shelfAt_first isAt steady readable tagged named isTo member
    rw [initial] at after
    rw [← publishes_entry_iff isAt steady isTo places shares]
    exact published _ _ _ after (registered_of_last registers isTo)
  · intro agree shelf name e now found
    obtain ⟨first, initial, rfl⟩ : ∃ first, r.shelfAt tag repo d = .ok first ∧
        shelf = registered u tag repo first h := by
      rw [now] at after
      cases initial : r.shelfAt tag repo d with
      | error f =>
        rw [initial] at after
        cases after
      | ok first =>
        rw [initial] at after
        exact ⟨first, rfl, Except.ok.inj after⟩
    by_cases uploaded : ∃ i, (u i).IsTo tag repo ∧ (u i).name = name
    · obtain ⟨i, isTo, rfl⟩ := uploaded
      obtain ⟨written, member⟩ := entered i
      obtain ⟨j, registers, shares⟩ := exists_lastToRegister (u := u) member
      obtain ⟨k, places, same⟩ := exists_lastToPlace (u := u) (placed j)
      have isTo' : (u j).IsTo tag repo := ⟨shares.1.1.trans isTo.1, shares.1.2.trans isTo.2⟩
      rw [← shares.2, registered_of_last registers isTo', Option.some.injEq] at found
      rw [← found, publishes_entry_iff isAt steady isTo' places same]
      exact agree j k isTo' registers places same
    · rw [registered_of_none fun j _ _ isTo same => uploaded ⟨j, isTo, same⟩] at found
      obtain ⟨⟨label, parsed, listed⟩, published⟩ := before first name e initial found
      refine publishes_of_unplaced isAt on steady tagged named parsed ?_ published
      -- Whoever placed the file has registered the name that it has.
      intro i _ same
      simp only [Upload.place, Delivery.beside, List.cons.injEq] at same
      obtain ⟨rfl, rfl, file, -⟩ := same
      refine uploaded ⟨i, ⟨rfl, rfl⟩, ?_⟩
      have parsed' := (accept_eq_ok (u i).accepted).1
      rw [file, parsed, Option.some.injEq] at parsed'
      rw [Upload.name, ← parsed', listed]

end Published

theorem lone_bottle_published : ∃ h s, Run ⟨"/"⟩ (fun _ : Unit => rivals true) emptyRepository h s ∧ s.Finished ∧
    ∀ shelf name e, shelfAt ⟨"/"⟩ "x86_64_linux" "core" s.disk = .ok shelf → shelf.get? name = some e →
      Publishes ⟨"/"⟩ "x86_64_linux" "core" s.disk e := by
  obtain ⟨s, run, finished⟩ := exists_alone (u := rivals true) ⟨rfl, rfl⟩ (by decide +kernel)
  have readable : Readable [.left (), .entered () (rivalShelf true), .read (), .placed (), .wrote ()] := by
    intro i shelf member
    obtain rfl : shelf = rivalShelf true := by simpa using member
    exact readable_rivalShelf true
  have before : Consistent ⟨"/"⟩ "x86_64_linux" "core" emptyRepository := by
    intro shelf name e initial found
    rw [shelfAt_emptyRepository] at initial
    cases initial
    cases found
  refine ⟨_, s, run, finished, ?_⟩
  refine (checksums_published_iff wholeDisk_at wholeDisk_on run finished readable (by decide) (by decide) before).mpr ?_
  exact fun _ _ _ _ _ _ => rfl

def illegible : Upload where
  delivery := ⟨⟨"a\x01", "1.0", "x86_64_linux"⟩, "core", "a\x01--1.0.x86_64_linux.bottle.tar.gz"⟩
  content := ⟨#[100, 97, 116, 97]⟩
  accepted := rfl

theorem hex_illegible : Sha256.hex illegible.content =
    "3a6eb0790f39ac87c94f3856b2dd2c5d110e6811602261a9a923d3bb23adc8b7" := by decide

def listedIllegible : Index.Entry :=
  { illegible.entry with name := "a\uFFFD", file := "a\uFFFD--1.0.x86_64_linux.bottle.tar.gz" }

/-- Of two uploads of one file the first may be the last to register, and the index lists a file that is not
there once an upload with an illegible name has completed. -/
theorem checksums_not_published :
    (∃ h s, Run ⟨"/"⟩ rivals emptyRepository h s ∧ s.Finished ∧ Readable h ∧
      ∃ shelf e, shelfAt ⟨"/"⟩ "x86_64_linux" "core" s.disk = .ok shelf ∧ shelf.get? "a" = some e ∧
        ¬ Publishes ⟨"/"⟩ "x86_64_linux" "core" s.disk e) ∧
    ∃ h s, Run ⟨"/"⟩ (fun _ : Unit => illegible) emptyRepository h s ∧ s.Finished ∧
      ∃ shelf e, shelfAt ⟨"/"⟩ "x86_64_linux" "core" s.disk = .ok shelf ∧ shelf.get? "a\uFFFD" = some e ∧
        ¬ Publishes ⟨"/"⟩ "x86_64_linux" "core" s.disk e := by
  constructor
  · obtain ⟨s, run, finished⟩ := race_run
    obtain ⟨number, steady⟩ := Steady.run wholeDisk_at wholeDisk_on run
    have isName : IsName "x86_64_linux" ∧ IsName "core" := by decide
    have after := shelfAt_after wholeDisk_at steady readable_race isName.1 isName.2
    rw [shelfAt_emptyRepository] at after
    refine ⟨_, s, run, finished, readable_race, _, _, after, registered_of_last race_lastToRegister ⟨rfl, rfl⟩, ?_⟩
    have differ : Sha256.hex (rivals true).content ≠ Sha256.hex (rivals false).content := by
      rw [hex_rivals, hex_rivals]
      decide
    intro published
    exact differ ((publishes_entry_iff wholeDisk_at steady (i := false) ⟨rfl, rfl⟩ race_lastToPlace rfl).mp published)
  · obtain ⟨s, run, finished⟩ := exists_alone (u := illegible) ⟨rfl, rfl⟩ (by decide +kernel)
    obtain ⟨number, steady⟩ := Steady.run wholeDisk_at wholeDisk_on run
    have after : shelfAt ⟨"/"⟩ "x86_64_linux" "core" s.disk = .ok (Dict.insert {} "a\uFFFD" listedIllegible) := by
      rw [shelfAt_eq wholeDisk_at (by decide) (by decide),
        steady.ledger.shelves "x86_64_linux" "core" (by decide) (by decide), kept_quiet (by simp),
        kept, if_pos ⟨rfl, rfl⟩, listedIllegible, Upload.entry, hex_illegible]
      exact Index.eq_ok_of_entries (by decide +kernel)
    refine ⟨_, s, run, finished, _, listedIllegible, after, Dict.get?_insert_self .., ?_⟩
    -- Nobody has placed the file that is listed, and it was not there.
    rintro ⟨content, read, -⟩
    have same := steady.ledger.unplaced ["x86_64_linux", "core", listedIllegible.file] rfl (by decide) (by decide)
      (fun _ _ => by decide)
    have absent : (emptyRepository.peek (wholeDisk.path ["x86_64_linux", "core", listedIllegible.file])).isNone =
        true := by decide +kernel
    rw [wholeDisk_at.path (by simp) (by decide), Disk.read_eq_peek, same, Option.isNone_iff_eq_none.mp absent] at read
    cases read

end Taproom.Receiver
