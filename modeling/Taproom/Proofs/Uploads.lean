import Mathlib.Logic.Function.Basic
import Taproom.Proofs.Receiving

/-!
Uploads that are taken at the same time. Each goes through its steps on its own; only reading and
replacing an index are under a lock. What holds from step to step: every upload has a temporary file
of its own, the index that an upload has read is the one on the disk, and what is on the disk is what
the events so far say.
-/

namespace Taproom.Receiver

open Disk (Ground IsName)
open Path (IsComponent)

/-! ### Steps of uploads -/

structure Upload where
  delivery : Delivery
  content : ByteArray
  accepted : accept delivery.file delivery.repo = .ok delivery

namespace Upload

def name (u : Upload) : String := u.delivery.label.name

def entry (u : Upload) : Index.Entry := entryOf u.delivery (Sha256.hex u.content)

def place (u : Upload) : List String := u.delivery.beside u.delivery.file

def shelf (u : Upload) : List String := u.delivery.beside Index.fileName

def temporary (u : Upload) (n : Nat) : List String := u.delivery.beside (u.delivery.temporary n)

/-- A bottle goes to a repository. -/
def IsTo (u : Upload) (tag repo : String) : Prop :=
  u.delivery.label.tag = tag ∧ u.delivery.repo = repo

instance (u : Upload) (tag repo : String) : Decidable (u.IsTo tag repo) :=
  inferInstanceAs (Decidable (_ ∧ _))

/-- Two bottles go to one repository and have one name. -/
def SharesEntry (u v : Upload) : Prop := v.IsTo u.delivery.label.tag u.delivery.repo ∧ v.name = u.name

/-- Two bottles go to one place. -/
def SharesFile (u v : Upload) : Prop := u.place = v.place

end Upload

inductive Stage where
  | waiting
  | written (temporary : String)
  | placed (temporary : String)
  | reading (temporary : String) (shelf : Index.Shelf)
  | entered (temporary : String)
  | done

def Stage.temporary? : Stage → Option String
  | waiting | done => none
  | written t | placed t | reading t _ | entered t => some t

variable {ι : Type}

structure State (ι : Type) where
  disk : Disk
  stage : ι → Stage
  holder : Option ι

def State.start (d : Disk) : State ι := ⟨d, fun _ => .waiting, none⟩

def State.Finished (s : State ι) : Prop := ∀ i, s.stage i = .done

/-- What an upload did, and for an index the entries that were written. -/
inductive Event (ι : Type) where
  | wrote (i : ι)
  | placed (i : ι)
  | read (i : ι)
  | entered (i : ι) (shelf : Index.Shelf)
  | left (i : ι)

variable [DecidableEq ι] (r : Receiver) (u : ι → Upload)

/-- One step of one upload, which succeeds. Removing what is left of the temporary file need not. -/
inductive Step (s : State ι) : Event ι → State ι → Prop where
  | write {i t d} (here : s.stage i = .waiting)
      (ran : (r.write (u i).delivery (u i).content).run s.disk = (.ok t, d)) :
      Step s (.wrote i) { s with disk := d, stage := Function.update s.stage i (.written t) }
  | place {i t d} (here : s.stage i = .written t)
      (ran : (r.commit (u i).delivery t).run s.disk = (.ok (), d)) :
      Step s (.placed i) { s with disk := d, stage := Function.update s.stage i (.placed t) }
  | read {i t shelf d} (here : s.stage i = .placed t) (free : s.holder = none)
      (ran : (Index.readFrom (r.shelfPath (u i).delivery)).run s.disk = (.ok shelf, d)) :
      Step s (.read i)
        { disk := d, stage := Function.update s.stage i (.reading t shelf), holder := some i }
  | enter {i t shelf d} (here : s.stage i = .reading t shelf)
      (ran : (Index.writeTo (r.shelfPath (u i).delivery)
        (shelf.insert (u i).name (u i).entry)).run s.disk = (.ok (), d)) :
      Step s (.entered i (shelf.insert (u i).name (u i).entry))
        { disk := d, stage := Function.update s.stage i (.entered t), holder := none }
  | leave {i t} (here : s.stage i = .entered t) :
      Step s (.left i)
        { s with disk := ((Act.remove t).run s.disk).2, stage := Function.update s.stage i .done }

/-- Steps of the uploads in any order, the newest first. -/
inductive Run (d : Disk) : List (Event ι) → State ι → Prop where
  | start : Run d [] (.start d)
  | step {h e s s'} (run : Run d h s) (next : Step r u s e s') : Run d (e :: h) s'

variable {r u}

/-- An upload that has the disk to itself is taken by these steps. -/
theorem steps_of_receive {s : State ι} {i : ι} {e : Index.Entry} {d : Disk} (waits : s.stage i = .waiting)
    (free : s.holder = none)
    (ran : (r.receive (u i).delivery (u i).content).run s.disk = (.ok e, d)) :
    e = (u i).entry ∧ ∃ s₁ s₂ s₃ s₄ shelf, Step r u s (.wrote i) s₁ ∧ Step r u s₁ (.placed i) s₂ ∧
      Step r u s₂ (.read i) s₃ ∧ Step r u s₃ (.entered i shelf) s₄ ∧
      Step r u s₄ (.left i) { s with disk := d, stage := Function.update s.stage i .done } := by
  obtain ⟨t, d₁, written, ran⟩ := Act.run_bind_eq_ok ran
  rw [Act.run_andAlways, Prod.mk.injEq] at ran
  rcases outcome : Act.run (do
      r.commit (u i).delivery t
      r.register (u i).delivery (Sha256.hex (u i).content)) d₁ with ⟨result, d₄⟩
  rw [outcome] at ran
  obtain ⟨rfl, rfl⟩ := ran
  obtain ⟨⟨⟩, d₂, placed, registered⟩ := Act.run_bind_eq_ok outcome
  obtain ⟨shelf, d₃, read, entered⟩ := Act.run_bind_eq_ok registered
  obtain ⟨⟨⟩, d₄, entered, last⟩ := Act.run_bind_eq_ok entered
  cases last
  refine ⟨rfl, _, _, _, _, _, .write waits written, .place (Function.update_self ..) placed,
    .read (Function.update_self ..) free read, .enter (Function.update_self ..) entered, ?_⟩
  have left := Step.leave (r := r) (u := u) (i := i) (t := t)
    (s := ⟨d₄, Function.update s.stage i (.entered t), none⟩) (Function.update_self ..)
  simp only [Function.update_idem] at left ⊢
  rwa [free]

/-! ### What uploads leave behind -/

inductive LastToPlace (u : ι → Upload) : List (Event ι) → ι → Prop where
  | here (i : ι) (h : List (Event ι)) : LastToPlace u (.placed i :: h) i
  | earlier {e : Event ι} {h : List (Event ι)} {i : ι} (last : LastToPlace u h i)
      (apart : ∀ j, e = .placed j → ¬ (u j).SharesFile (u i)) : LastToPlace u (e :: h) i

inductive LastToRegister (u : ι → Upload) : List (Event ι) → ι → Prop where
  | here (i : ι) (shelf : Index.Shelf) (h : List (Event ι)) : LastToRegister u (.entered i shelf :: h) i
  | earlier {e : Event ι} {h : List (Event ι)} {i : ι} (last : LastToRegister u h i)
      (apart : ∀ j shelf, e = .entered j shelf → ¬ (u j).SharesEntry (u i)) :
      LastToRegister u (e :: h) i

def registered (u : ι → Upload) (tag repo : String) (shelf : Index.Shelf) :
    List (Event ι) → Index.Shelf
  | [] => shelf
  | .entered i _ :: h =>
    if (u i).IsTo tag repo then (registered u tag repo shelf h).insert (u i).name (u i).entry
    else registered u tag repo shelf h
  | _ :: h => registered u tag repo shelf h

/-- What the index of a repository is read as, if it was read as `initial` at first. -/
def kept (u : ι → Upload) (tag repo : String) (initial : Except Fault Index.Shelf) :
    List (Event ι) → Except Fault Index.Shelf
  | [] => initial
  | .entered i shelf :: h =>
    if (u i).IsTo tag repo then Index.decode (Index.encode shelf) else kept u tag repo initial h
  | _ :: h => kept u tag repo initial h

/-- Every index that was written is the one that was there, with one entry more. -/
def Chained (u : ι → Upload) (initial : String → String → Except Fault Index.Shelf) :
    List (Event ι) → Prop
  | [] => True
  | .entered i shelf :: h => Chained u initial h ∧ ∃ entries,
      kept u (u i).delivery.label.tag (u i).delivery.repo
        (initial (u i).delivery.label.tag (u i).delivery.repo) h = .ok entries ∧
      shelf = entries.insert (u i).name (u i).entry
  | _ :: h => Chained u initial h

/-- Index files are read as what was written to them. -/
def Readable (h : List (Event ι)) : Prop :=
  ∀ i shelf, .entered i shelf ∈ h → Index.decode (Index.encode shelf) = .ok shelf

omit [DecidableEq ι]

section Histories

variable {h : List (Event ι)} {i : ι} {tag repo name : String} {shelf : Index.Shelf}

theorem exists_lastToPlace (placed : .placed i ∈ h) :
    ∃ j, LastToPlace u h j ∧ (u j).SharesFile (u i) := by
  induction h with
  | nil => cases placed
  | cons e h ih =>
    by_cases shares : ∃ j, e = .placed j ∧ (u j).SharesFile (u i)
    · obtain ⟨j, rfl, same⟩ := shares
      exact ⟨j, .here j h, same⟩
    · rcases List.mem_cons.mp placed with rfl | before
      · exact absurd ⟨i, rfl, rfl⟩ shares
      · obtain ⟨j, last, same⟩ := ih before
        exact ⟨j, .earlier last fun k here near => shares ⟨k, here, near.trans same⟩, same⟩

theorem mem_of_lastToPlace (last : LastToPlace u h i) : .placed i ∈ h := by
  induction last with
  | here i h => exact List.mem_cons_self
  | earlier _ _ ih => exact List.mem_cons_of_mem _ ih

theorem exists_lastToRegister (entered : .entered i shelf ∈ h) :
    ∃ j, LastToRegister u h j ∧ (u i).SharesEntry (u j) := by
  induction h with
  | nil => cases entered
  | cons e h ih =>
    by_cases shares : ∃ j shelf', e = .entered j shelf' ∧ (u i).SharesEntry (u j)
    · obtain ⟨j, shelf', rfl, same⟩ := shares
      exact ⟨j, .here j shelf' h, same⟩
    · rcases List.mem_cons.mp entered with rfl | before
      · exact absurd ⟨i, shelf, rfl, ⟨rfl, rfl⟩, rfl⟩ shares
      · obtain ⟨j, last, ⟨tag, repo⟩, name⟩ := ih before
        refine ⟨j, .earlier last fun k shelf' here near => shares ⟨k, shelf', here, ?_⟩,
          ⟨tag, repo⟩, name⟩
        obtain ⟨⟨tag', repo'⟩, name'⟩ := near
        exact ⟨⟨tag'.symm.trans tag, repo'.symm.trans repo⟩, name'.symm.trans name⟩

theorem registered_of_last (last : LastToRegister u h i) (isTo : (u i).IsTo tag repo) :
    (registered u tag repo shelf h).get? (u i).name = some (u i).entry := by
  induction last with
  | here i written h => rw [registered, if_pos isTo, Dict.get?_insert_self]
  | @earlier e h i _ apart ih =>
    cases e with
    | entered j written =>
      rw [registered]
      split
      · rename_i isTo'
        rw [Dict.get?_insert_of_ne _ ?_, ih isTo]
        intro same
        refine apart j written rfl ⟨⟨?_, ?_⟩, same⟩
        · rw [isTo.1, isTo'.1]
        · rw [isTo.2, isTo'.2]
      · exact ih isTo
    | _ => exact ih isTo

theorem registered_of_none (none : ∀ j written, .entered j written ∈ h → (u j).IsTo tag repo →
    (u j).name ≠ name) : (registered u tag repo shelf h).get? name = shelf.get? name := by
  induction h with
  | nil => rfl
  | cons e h ih =>
    have before := ih fun j written member => none j written (List.mem_cons_of_mem e member)
    cases e with
    | entered j written =>
      rw [registered]
      split
      · rename_i isTo
        rw [Dict.get?_insert_of_ne _ (Ne.symm (none j written List.mem_cons_self isTo)), before]
      · exact before
    | _ => exact before

theorem registered_eq_self (none : ∀ j written, .entered j written ∈ h → ¬ (u j).IsTo tag repo) :
    registered u tag repo shelf h = shelf :=
  Dict.ext_get? fun _ => registered_of_none fun j written member isTo =>
    absurd isTo (none j written member)

variable {e : Event ι} {initial : String → String → Except Fault Index.Shelf}

theorem kept_quiet (quiet : ∀ i shelf, e ≠ .entered i shelf) (x : Except Fault Index.Shelf) :
    kept u tag repo x (e :: h) = kept u tag repo x h := by
  cases e with
  | entered i shelf => exact absurd rfl (quiet i shelf)
  | _ => rfl

theorem chained_quiet (quiet : ∀ i shelf, e ≠ .entered i shelf) :
    Chained u initial (e :: h) ↔ Chained u initial h := by
  cases e with
  | entered i shelf => exact absurd rfl (quiet i shelf)
  | _ => rfl

theorem Chained.tail (chained : Chained u initial (e :: h)) : Chained u initial h := by
  cases e with
  | entered i shelf => exact chained.1
  | _ => exact chained

theorem kept_eq_registered (chained : Chained u initial h) (readable : Readable h) :
    kept u tag repo (initial tag repo) h = (initial tag repo).map (registered u tag repo · h) := by
  induction h with
  | nil =>
    simp only [kept, registered]
    cases initial tag repo <;> rfl
  | cons e h ih =>
    have before := ih chained.tail fun j written member => readable j written (List.mem_cons_of_mem e member)
    cases e with
    | entered j written =>
      simp only [kept, registered]
      split
      · rename_i isTo
        obtain ⟨-, entries, found, rfl⟩ := chained
        rw [isTo.1, isTo.2, before] at found
        rw [readable j _ List.mem_cons_self]
        cases first : initial tag repo with
        | error f =>
          rw [first] at found
          cases found
        | ok shelf =>
          rw [first] at found
          cases found
          rfl
      · exact before
    | _ => exact before

theorem initial_of_entered (chained : Chained u initial h) (readable : Readable h)
    (entered : .entered i shelf ∈ h) (isTo : (u i).IsTo tag repo) : ∃ first, initial tag repo = .ok first := by
  induction h with
  | nil => cases entered
  | cons e h ih =>
    have before : Readable h := fun j written member => readable j written (List.mem_cons_of_mem e member)
    rcases List.mem_cons.mp entered with rfl | earlier
    · obtain ⟨chained, entries, found, -⟩ := chained
      rw [isTo.1, isTo.2, kept_eq_registered chained before] at found
      cases first : initial tag repo with
      | error f =>
        rw [first] at found
        cases found
      | ok shelf => exact ⟨shelf, rfl⟩
    · exact ih chained.tail before earlier

end Histories

/-! ### What stays true from step to step -/

def ending (names : List String) : Option Char := names.getLast?.bind fun c => c.toList.getLast?

theorem ne_of_ending {names names' : List String} {c c' : Char} (ends : ending names = some c)
    (ends' : ending names' = some c') (differ : c ≠ c') : names ≠ names' := by
  rintro rfl
  rw [ends] at ends'
  exact differ (Option.some.inj ends')

namespace Upload

theorem fits (u : Upload) : u.delivery.Fits := fits_of_accept u.accepted

theorem ending_place (u : Upload) : ending u.place = some 'z' := u.fits.ending

theorem named_of_temporary (u : Upload) {n : Nat} (named : ∀ c ∈ u.temporary n, IsName c) :
    IsName u.delivery.label.tag ∧ IsName u.delivery.repo :=
  ⟨named _ (by simp [temporary, Delivery.beside]), named _ (by simp [temporary, Delivery.beside])⟩

theorem ending_temporary (u : Upload) (n : Nat) : ending (u.temporary n) = some 'e' :=
  u.delivery.temporary_ending n

end Upload

theorem ending_shelf (tag repo : String) : ending [tag, repo, Index.fileName] = some 't' := by
  have last : Index.fileName.toList.getLast? = some 't' := by decide
  simp [ending, last]

theorem ending_beside_shelf (tag repo : String) :
    ending [tag, repo, Index.fileName ++ ".tmp"] = some 'p' := by
  have last : (Index.fileName ++ ".tmp").toList.getLast? = some 'p' := by decide
  simp only [ending, List.getLast?_cons_cons, List.getLast?_singleton, Option.bind_some, last]

def shelfOn (g : Ground) (d : Disk) (tag repo : String) : Except Fault Index.Shelf :=
  Index.entriesOf (d.peek (g.path [tag, repo, Index.fileName]))

/-- What the events so far have made of the repositories on a disk. -/
structure Ledger (g : Ground) (u : ι → Upload) (before : Disk) (h : List (Event ι)) (d : Disk) :
    Prop where
  on : g.On d
  shelves : ∀ tag repo, IsName tag → IsName repo →
    shelfOn g d tag repo = kept u tag repo (shelfOn g before tag repo) h
  chained : Chained u (shelfOn g before) h
  named : ∀ i, .placed i ∈ h → ∀ c ∈ (u i).place, IsName c
  placed : ∀ i, LastToPlace u h i → d.held? (g.place (u i).place) = some (u i).content
  unplaced : ∀ names, names.length = 3 → (∀ c ∈ names, IsName c) → ending names = some 'z' →
    (∀ i, .placed i ∈ h → (u i).place ≠ names) → d.peek (g.path names) = before.peek (g.path names)

theorem shelfOn_congr {g : Ground} {d d' : Disk} {touched : List (List String)} {tag repo : String}
    (touches : g.Touches touched d d') (on : g.On d) (apart : [tag, repo, Index.fileName] ∉ touched)
    (tagged : IsName tag) (named : IsName repo) : shelfOn g d' tag repo = shelfOn g d tag repo := by
  have isName : IsName Index.fileName := by decide
  rw [shelfOn, shelfOn, touches.peek on apart rfl (by simp [tagged, named, isName])]

namespace Ledger

variable {g : Ground} {before d d' : Disk} {h : List (Event ι)} {i : ι} {n : Nat}
  {touched : List (List String)} {shelf : Index.Shelf}

theorem start (on : g.On d) : Ledger g u d [] d where
  on := on
  shelves _ _ _ _ := rfl
  chained := trivial
  named i member := by cases member
  placed i last := by cases last
  unplaced names _ _ _ _ := rfl

theorem quiet (ledger : Ledger g u before h d) {e : Event ι} (touches : g.Touches touched d d')
    (temporary : ∀ names ∈ touched, ending names = some 'e') (notPlaced : ∀ i, e ≠ .placed i)
    (notEntered : ∀ i shelf, e ≠ .entered i shelf) : Ledger g u before (e :: h) d' := by
  have apart : ∀ {names c}, ending names = some c → c ≠ 'e' → names ∉ touched := by
    intro names c ends differ member
    exact ne_of_ending ends (temporary names member) differ rfl
  have old : ∀ i, .placed i ∈ e :: h → .placed i ∈ h := by
    intro i member
    rcases List.mem_cons.mp member with here | member
    · exact absurd here.symm (notPlaced i)
    · exact member
  refine ⟨touches.on, ?_, (chained_quiet notEntered).mpr ledger.chained,
    fun i member => ledger.named i (old i member), ?_, ?_⟩
  · intro tag repo tagged named
    rw [shelfOn_congr touches ledger.on (apart (ending_shelf tag repo) (by decide)) tagged named,
      kept_quiet notEntered, ledger.shelves tag repo tagged named]
  · intro i last
    rw [touches.held (apart (u i).ending_place (by decide))]
    cases last with
    | here i h => exact absurd rfl (notPlaced i)
    | earlier last _ => exact ledger.placed i last
  · intro names three named ends none
    rw [touches.peek ledger.on (apart ends (by decide)) three named]
    exact ledger.unplaced names three named ends fun i member => none i (List.mem_cons_of_mem e member)

theorem place (ledger : Ledger g u before h d)
    (touches : g.Touches [(u i).temporary n, (u i).place] d d')
    (held : d'.held? (g.place (u i).place) = some (u i).content)
    (named : ∀ c ∈ (u i).place, IsName c) : Ledger g u before (.placed i :: h) d' := by
  have apart : ∀ {names c}, ending names = some c → c ≠ 'e' → (u i).place ≠ names →
      names ∉ [(u i).temporary n, (u i).place] := by
    intro names c ends differ other member
    rcases List.mem_cons.mp member with rfl | member
    · exact ne_of_ending ends ((u i).ending_temporary n) differ rfl
    · exact other (List.mem_singleton.mp member).symm
  refine ⟨touches.on, ?_, ledger.chained, ?_, ?_, ?_⟩
  · intro tag repo tagged named
    have other := ne_of_ending (u i).ending_place (ending_shelf tag repo) (by decide)
    rw [shelfOn_congr touches ledger.on (apart (ending_shelf tag repo) (by decide) other) tagged named]
    exact ledger.shelves tag repo tagged named
  · intro j member
    rcases List.mem_cons.mp member with here | member
    · cases here
      exact named
    · exact ledger.named j member
  · intro j last
    cases last with
    | here i h => exact held
    | earlier last other =>
      rw [touches.held (apart (u j).ending_place (by decide) (other i rfl))]
      exact ledger.placed j last
  · intro names three named ends none
    rw [touches.peek ledger.on (apart ends (by decide) (none i List.mem_cons_self)) three named]
    exact ledger.unplaced names three named ends fun j member => none j (List.mem_cons_of_mem _ member)

theorem enter (ledger : Ledger g u before h d)
    (touches : g.Touches [(u i).delivery.beside (Index.fileName ++ ".tmp"), (u i).shelf] d d')
    (held : d'.held? (g.place (u i).shelf) =
      some ⟨(Index.encode (shelf.insert (u i).name (u i).entry)).toArray⟩)
    (read : shelfOn g d (u i).delivery.label.tag (u i).delivery.repo = .ok shelf)
    (tag : IsName (u i).delivery.label.tag) (repo : IsName (u i).delivery.repo) :
    Ledger g u before (.entered i (shelf.insert (u i).name (u i).entry) :: h) d' := by
  have apart : ∀ {names c}, ending names = some c → c ≠ 'p' → (u i).shelf ≠ names →
      names ∉ [(u i).delivery.beside (Index.fileName ++ ".tmp"), (u i).shelf] := by
    intro names c ends differ other member
    rcases List.mem_cons.mp member with rfl | member
    · exact ne_of_ending ends (ending_beside_shelf _ _) differ rfl
    · exact other (List.mem_singleton.mp member).symm
  have file : ∀ {names}, ending names = some 'z' → names ∉
      [(u i).delivery.beside (Index.fileName ++ ".tmp"), (u i).shelf] := fun ends =>
    apart ends (by decide) (ne_of_ending (ending_shelf _ _) ends (by decide))
  refine ⟨touches.on, ?_, ⟨ledger.chained, shelf, ?_, rfl⟩, ?_, ?_, ?_⟩
  · intro tag repo tagged named
    simp only [kept]
    split
    · rename_i isTo
      obtain ⟨rfl, rfl⟩ := isTo
      have isName : ∀ c ∈ (u i).shelf, IsName c := by
        have isName : IsName Index.fileName := by decide
        simp [Upload.shelf, Delivery.beside, tagged, named, isName]
      have found := touches.on.peek_held (by simp [Upload.shelf, Delivery.beside]) isName held
      exact (congrArg Index.entriesOf found).trans (Index.entriesOf_encode _)
    · rename_i other
      rw [shelfOn_congr touches ledger.on (apart (ending_shelf tag repo) (by decide) ?_) tagged named]
      · exact ledger.shelves tag repo tagged named
      · intro same
        simp only [Upload.shelf, Delivery.beside, List.cons.injEq] at same
        exact other ⟨same.1, same.2.1⟩
  · rw [← ledger.shelves _ _ tag repo]
    exact read
  · intro j member
    rcases List.mem_cons.mp member with here | member
    · cases here
    · exact ledger.named j member
  · intro j last
    rw [touches.held (file (u j).ending_place)]
    cases last with
    | earlier last _ => exact ledger.placed j last
  · intro names three named ends none
    rw [touches.peek ledger.on (file ends) three named]
    exact ledger.unplaced names three named ends fun j member => none j (List.mem_cons_of_mem _ member)

end Ledger

/-- An upload that has come some way: its temporary file has a number of its own, holds the content
while it waits to be placed, and the index that was read is still the one on the disk. -/
structure Going (g : Ground) (u : Upload) (n : Nat) (d : Disk) (stage : Stage) : Prop where
  temporary : ∀ t, stage.temporary? = some t → t = g.path (u.temporary n) ∧ n < d.serial ∧
    (∀ c ∈ u.temporary n, IsName c) ∧ ∀ mode, d.tree.get? (g.place (u.temporary n)) ≠ some (.dir mode)
  written : ∀ t, stage = .written t → d.held? (g.place (u.temporary n)) = some u.content
  reading : ∀ t shelf, stage = .reading t shelf →
    shelfOn g d u.delivery.label.tag u.delivery.repo = .ok shelf

theorem Going.keep {g : Ground} {u : Upload} {n : Nat} {d d' : Disk} {stage : Stage}
    {touched : List (List String)} (going : Going g u n d stage) (on : g.On d)
    (touches : g.Touches touched d d') (temporary : stage.temporary?.isSome → u.temporary n ∉ touched)
    (shelf : ∀ t shelf, stage = .reading t shelf → u.shelf ∉ touched) : Going g u n d' stage where
  temporary t underway := by
    obtain ⟨path, numbered, named, notDir⟩ := going.temporary t underway
    rw [touches.entry (temporary (by simp [underway])) rfl]
    exact ⟨path, numbered.trans_le touches.edit.serial, named, notDir⟩
  written t here := by
    rw [touches.held (temporary (by simp [here, Stage.temporary?]))]
    exact going.written t here
  reading t entries here := by
    obtain ⟨-, -, named, -⟩ := going.temporary t (by simp [here, Stage.temporary?])
    obtain ⟨tag, repo⟩ := u.named_of_temporary named
    rw [shelfOn_congr touches on (shelf t entries here) tag repo]
    exact going.reading t entries here

def Stage.isPlaced : Stage → Bool
  | waiting | written _ => false
  | placed _ | reading _ _ | entered _ | done => true

def Stage.isEntered : Stage → Bool
  | entered _ | done => true
  | _ => false

/-- What holds at every moment of a run. -/
structure Steady (g : Ground) (u : ι → Upload) (before : Disk) (h : List (Event ι)) (s : State ι)
    (number : ι → Nat) : Prop where
  ledger : Ledger g u before h s.disk
  going : ∀ i, Going g (u i) (number i) s.disk (s.stage i)
  distinct : ∀ i j, (s.stage i).temporary?.isSome → (s.stage j).temporary?.isSome →
    number i = number j → i = j
  holder : ∀ i t shelf, s.stage i = .reading t shelf → s.holder = some i
  placed : ∀ i, (s.stage i).isPlaced → .placed i ∈ h
  entered : ∀ i, (s.stage i).isEntered → ∃ shelf, .entered i shelf ∈ h

namespace Steady

variable {g : Ground} {before d : Disk} {h : List (Event ι)} {s s' : State ι} {number : ι → Nat}
  {i : ι} {t : String} {e : Event ι}

theorem start (on : g.On before) : Steady g u before [] (.start before) fun _ => 0 where
  ledger := .start on
  going i := ⟨by rintro t ⟨⟩, by rintro t ⟨⟩, by rintro t shelf ⟨⟩⟩
  distinct i j underway := by cases underway
  holder i t shelf here := by cases here
  placed i here := by cases here
  entered i here := by cases here

theorem temporary_ne (steady : Steady g u before h s number) {j : ι}
    (underway : (s.stage i).temporary?.isSome) (underway' : (s.stage j).temporary?.isSome)
    (other : j ≠ i) : (u j).temporary (number j) ≠ (u i).temporary (number i) := by
  intro same
  have names : (u j).delivery.temporary (number j) = (u i).delivery.temporary (number i) := by
    simp only [Upload.temporary, Delivery.beside, List.cons.injEq] at same
    exact same.2.2.1
  exact other (steady.distinct j i underway' underway (Delivery.temporary_inj names))

theorem still (steady : Steady g u before h s number) (underway : (s.stage i).temporary?.isSome) :
    ∀ j, j ≠ i → (s.stage j).temporary?.isSome → number j ≠ number i := by
  intro j other underway' same
  exact other (steady.distinct j i underway' underway same)

theorem others (steady : Steady g u before h s number) {touched : List (List String)}
    (underway : (s.stage i).temporary?.isSome) (touches : g.Touches touched s.disk d)
    (own : ∀ names ∈ touched, names = (u i).temporary (number i) ∨ names = (u i).place) :
    ∀ j, j ≠ i → Going g (u j) (number j) d (s.stage j) := by
  intro j other
  refine (steady.going j).keep steady.ledger.on touches ?_ ?_
  · intro underway' member
    rcases own _ member with same | same
    · exact steady.temporary_ne underway underway' other same
    · exact ne_of_ending ((u j).ending_temporary _) (u i).ending_place (by decide) same
  · intro t shelf _ member
    rcases own _ member with same | same
    · exact ne_of_ending (ending_shelf _ _) ((u i).ending_temporary _) (by decide) same
    · exact ne_of_ending (ending_shelf _ _) (u i).ending_place (by decide) same

variable [DecidableEq ι]

section

variable (steady : Steady g u before h s number)

include steady

theorem next {stage : Stage} {holder : Option ι} {n : Nat} (ledger : Ledger g u before (e :: h) d)
    (going : Going g (u i) n d stage) (others : ∀ j, j ≠ i → Going g (u j) (number j) d (s.stage j))
    (distinct : stage.temporary?.isSome → ∀ j, j ≠ i → (s.stage j).temporary?.isSome → number j ≠ n)
    (reads : ∀ t shelf, stage = .reading t shelf → holder = some i)
    (holds : ∀ j t shelf, j ≠ i → s.stage j = .reading t shelf → holder = some j)
    (placed : stage.isPlaced → .placed i ∈ e :: h)
    (entered : stage.isEntered → ∃ shelf, .entered i shelf ∈ e :: h) :
    Steady g u before (e :: h) ⟨d, Function.update s.stage i stage, holder⟩
      (Function.update number i n) where
  ledger := ledger
  going j := by
    by_cases same : j = i
    · subst same
      simpa using going
    · simpa [same] using others j same
  distinct j k underway underway' same := by
    by_cases first : j = i <;> by_cases second : k = i
    · rw [first, second]
    · subst first
      simp only [Function.update_self, Function.update_of_ne second] at underway underway' same
      exact absurd same.symm (distinct underway k second underway')
    · subst second
      simp only [Function.update_self, Function.update_of_ne first] at underway underway' same
      exact absurd same (distinct underway' j first underway)
    · simp only [Function.update_of_ne first, Function.update_of_ne second] at underway underway' same
      exact steady.distinct j k underway underway' same
  holder j t shelf here := by
    by_cases same : j = i
    · subst same
      exact reads t shelf (by simpa using here)
    · exact holds j t shelf same (by simpa [same] using here)
  placed j here := by
    by_cases same : j = i
    · subst same
      exact placed (by simpa using here)
    · exact List.mem_cons_of_mem e (steady.placed j (by simpa [same] using here))
  entered j here := by
    by_cases same : j = i
    · subst same
      exact entered (by simpa using here)
    · obtain ⟨shelf, member⟩ := steady.entered j (by simpa [same] using here)
      exact ⟨shelf, List.mem_cons_of_mem e member⟩

theorem write (isAt : g.At r.root)
    (ran : (r.write (u i).delivery (u i).content).run s.disk = (.ok t, d)) :
    ∃ number', Steady g u before (.wrote i :: h)
      { s with disk := d, stage := Function.update s.stage i (.written t) } number' := by
  have on := steady.ledger.on
  obtain ⟨n, fresh, counted, path, touches, held, named⟩ :
      ∃ n, s.disk.serial ≤ n ∧ n < d.serial ∧ t = g.path ((u i).temporary n) ∧
        g.Touches [(u i).temporary n] s.disk d ∧
        d.held? (g.place ((u i).temporary n)) = some (u i).content ∧
        ∀ c ∈ (u i).temporary n, IsName c :=
    write_touches isAt on (u i).fits ran
  -- The number is greater than those of all files that are there now.
  have less : ∀ j, (s.stage j).temporary?.isSome → number j < n := by
    intro j underway
    obtain ⟨t, there⟩ := Option.isSome_iff_exists.mp underway
    exact ((steady.going j).temporary t there).2.1.trans_le fresh
  have ledger := steady.ledger.quiet (e := .wrote i) touches (by simp [(u i).ending_temporary n])
    (by simp) (by simp)
  refine ⟨_, steady.next (n := n) ledger ?_ ?_ ?_ ?_ ?_ ?_ ?_⟩
  · refine ⟨?_, fun _ _ => held, by rintro t shelf ⟨⟩⟩
    rintro t ⟨⟩
    exact ⟨path, counted, named, Ground.notDir_of_held held⟩
  · intro j other
    refine (steady.going j).keep on touches ?_ ?_
    · intro underway member
      have names := List.mem_singleton.mp member
      simp only [Upload.temporary, Delivery.beside, List.cons.injEq] at names
      have smaller := less j underway
      rw [Delivery.temporary_inj names.2.2.1] at smaller
      exact lt_irrefl n smaller
    · intro t shelf _ member
      exact ne_of_ending (ending_shelf _ _) ((u i).ending_temporary n) (by decide)
        (List.mem_singleton.mp member)
  · intro _ j _ underway
    exact (less j underway).ne
  · rintro t shelf ⟨⟩
  · exact fun j t shelf _ there => steady.holder j t shelf there
  · rintro ⟨⟩
  · rintro ⟨⟩

theorem place (isAt : g.At r.root) (here : s.stage i = .written t)
    (ran : (r.commit (u i).delivery t).run s.disk = (.ok (), d)) :
    ∃ number', Steady g u before (.placed i :: h)
      { s with disk := d, stage := Function.update s.stage i (.placed t) } number' := by
  have on := steady.ledger.on
  have underway : (s.stage i).temporary? = some t := by rw [here, Stage.temporary?]
  have some : (s.stage i).temporary?.isSome := by rw [underway, Option.isSome_some]
  obtain ⟨rfl, numbered, named, -⟩ := (steady.going i).temporary t underway
  obtain ⟨touches, held, gone, placed⟩ :
      g.Touches [(u i).temporary (number i), (u i).place] s.disk d ∧
        d.held? (g.place (u i).place) = .some (u i).content ∧
        d.tree.get? (g.place ((u i).temporary (number i))) = none ∧ ∀ c ∈ (u i).place, IsName c :=
    commit_touches isAt on (u i).fits ((steady.going i).written _ here) ran
  refine ⟨_, steady.next (steady.ledger.place touches held placed) (n := number i) ?_
    (steady.others some touches (by simp)) (fun _ => steady.still some) (by rintro t shelf ⟨⟩) ?_ ?_ ?_⟩
  · refine ⟨?_, by rintro t ⟨⟩, by rintro t shelf ⟨⟩⟩
    rintro t ⟨⟩
    exact ⟨rfl, numbered.trans_le touches.edit.serial, named, by simp [gone]⟩
  · exact fun j t shelf _ there => steady.holder j t shelf there
  · exact fun _ => List.mem_cons_self
  · rintro ⟨⟩

theorem read (isAt : g.At r.root) {shelf : Index.Shelf} (here : s.stage i = .placed t)
    (free : s.holder = none)
    (ran : (Index.readFrom (r.shelfPath (u i).delivery)).run s.disk = (.ok shelf, d)) :
    ∃ number', Steady g u before (.read i :: h)
      { disk := d, stage := Function.update s.stage i (.reading t shelf), holder := some i } number' := by
  have on := steady.ledger.on
  have underway : (s.stage i).temporary? = some t := by rw [here, Stage.temporary?]
  have some : (s.stage i).temporary?.isSome := by rw [underway, Option.isSome_some]
  rw [shelfPath_eq isAt on (u i).fits, Index.run_readFrom, Prod.mk.injEq] at ran
  obtain ⟨entries, rfl⟩ := ran
  have ledger := steady.ledger.quiet (e := .read i) (.refl on) (by simp) (by simp) (by simp)
  refine ⟨_, steady.next ledger (n := number i) ?_ (fun j _ => steady.going j) (fun _ => steady.still some)
    (fun _ _ _ => rfl) ?_ ?_ ?_⟩
  · refine ⟨?_, by rintro t ⟨⟩, ?_⟩
    · rintro t' ⟨⟩
      exact (steady.going i).temporary t underway
    · rintro t' shelf' ⟨⟩
      exact entries
  · -- Nobody else has the lock.
    intro j t' shelf' _ there
    have held := steady.holder j t' shelf' there
    rw [free] at held
    cases held
  · exact fun _ => List.mem_cons_of_mem _ (steady.placed i (by rw [here, Stage.isPlaced]))
  · rintro ⟨⟩

theorem enter (isAt : g.At r.root) {shelf : Index.Shelf} (here : s.stage i = .reading t shelf)
    (ran : (Index.writeTo (r.shelfPath (u i).delivery)
      (shelf.insert (u i).name (u i).entry)).run s.disk = (.ok (), d)) :
    ∃ number', Steady g u before (.entered i (shelf.insert (u i).name (u i).entry) :: h)
      { disk := d, stage := Function.update s.stage i (.entered t), holder := none } number' := by
  have on := steady.ledger.on
  have underway : (s.stage i).temporary? = some t := by rw [here, Stage.temporary?]
  have some : (s.stage i).temporary?.isSome := by rw [underway, Option.isSome_some]
  obtain ⟨rfl, numbered, named, notDir⟩ := (steady.going i).temporary t underway
  obtain ⟨tag, repo⟩ := (u i).named_of_temporary named
  have alone : ∀ j, j ≠ i → ∀ t shelf, s.stage j ≠ .reading t shelf := by
    intro j other t shelf there
    have held := steady.holder j t shelf there
    rw [steady.holder i _ _ here] at held
    exact other (Option.some.inj held).symm
  rw [shelfPath_eq isAt on (u i).fits] at ran
  obtain ⟨touches, held⟩ :
      g.Touches [(u i).delivery.beside (Index.fileName ++ ".tmp"), (u i).shelf] s.disk d ∧
        d.held? (g.place (u i).shelf) =
          .some ⟨(Index.encode (shelf.insert (u i).name (u i).entry)).toArray⟩ :=
    Index.writeTo_touches on (u i).fits ran
  have apart : ∀ j, (u j).temporary (number j) ∉
      [(u i).delivery.beside (Index.fileName ++ ".tmp"), (u i).shelf] := by
    intro j member
    rcases List.mem_cons.mp member with same | member
    · exact ne_of_ending ((u j).ending_temporary _) (ending_beside_shelf _ _) (by decide) same
    · exact ne_of_ending ((u j).ending_temporary _) (ending_shelf _ _) (by decide)
        (List.mem_singleton.mp member)
  have ledger := steady.ledger.enter touches held ((steady.going i).reading _ _ here) tag repo
  refine ⟨_, steady.next ledger (n := number i) ?_ ?_ (fun _ => steady.still some)
    (by rintro t shelf ⟨⟩) ?_ ?_ ?_⟩
  · refine ⟨?_, by rintro t ⟨⟩, by rintro t shelf ⟨⟩⟩
    rintro t ⟨⟩
    refine ⟨rfl, numbered.trans_le touches.edit.serial, named, ?_⟩
    rwa [touches.entry (apart i) rfl]
  · intro j other
    exact (steady.going j).keep on touches (fun _ => apart j) fun t shelf there =>
      absurd there (alone j other t shelf)
  · exact fun j t shelf other there => absurd there (alone j other t shelf)
  · exact fun _ => List.mem_cons_of_mem _ (steady.placed i (by rw [here, Stage.isPlaced]))
  · exact fun _ => ⟨_, List.mem_cons_self⟩

theorem leave (here : s.stage i = .entered t) :
    ∃ number', Steady g u before (.left i :: h)
      { s with disk := ((Act.remove t).run s.disk).2, stage := Function.update s.stage i .done }
      number' := by
  have on := steady.ledger.on
  have underway : (s.stage i).temporary? = some t := by rw [here, Stage.temporary?]
  have some : (s.stage i).temporary?.isSome := by rw [underway, Option.isSome_some]
  obtain ⟨rfl, -, -, notDir⟩ := (steady.going i).temporary t underway
  have touches : g.Touches [(u i).temporary (number i)] s.disk
      ((Act.remove (g.path ((u i).temporary (number i)))).run s.disk).2 :=
    remove_touches on (u i).fits notDir
  have ledger := steady.ledger.quiet (e := .left i) touches
    (by simp [(u i).ending_temporary (number i)]) (by simp) (by simp)
  refine ⟨_, steady.next ledger (n := number i) ?_ (steady.others some touches (by simp))
    (by rintro ⟨⟩) (by rintro t shelf ⟨⟩) ?_ ?_ ?_⟩
  · exact ⟨by rintro t ⟨⟩, by rintro t ⟨⟩, by rintro t shelf ⟨⟩⟩
  · exact fun j t shelf _ there => steady.holder j t shelf there
  · exact fun _ => List.mem_cons_of_mem _ (steady.placed i (by rw [here, Stage.isPlaced]))
  · intro _
    obtain ⟨shelf, member⟩ := steady.entered i (by rw [here, Stage.isEntered])
    exact ⟨shelf, List.mem_cons_of_mem _ member⟩

theorem step (isAt : g.At r.root) (next : Step r u s e s') :
    ∃ number', Steady g u before (e :: h) s' number' := by
  cases next with
  | write here ran => exact steady.write isAt ran
  | place here ran => exact steady.place isAt here ran
  | read here free ran => exact steady.read isAt here free ran
  | enter here ran => exact steady.enter isAt here ran
  | leave here => exact steady.leave here

end

theorem run (isAt : g.At r.root) (on : g.On before) (run : Run r u before h s) :
    ∃ number, Steady g u before h s number := by
  induction run with
  | start => exact ⟨_, .start on⟩
  | step run next ih =>
    obtain ⟨number, steady⟩ := ih
    exact steady.step isAt next

end Steady

end Taproom.Receiver
