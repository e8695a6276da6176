import Taproom.Receiver
import Taproom.Proofs.Archives
import Taproom.Proofs.Edits
import Taproom.Proofs.Temporary

/-!
The steps of taking an upload and the files that they touch. An upload is written to a file of its
own, which is then moved to the place of the bottle, and the index is replaced by way of a file beside
it. All of them lie at the same depth below the root, and their names are told apart by how they end.
-/

namespace Taproom

open Disk (Ground Edit HasDir IsName)
open Path (IsComponent)

/-! ### Files of repositories -/

namespace Disk.Ground

variable {g : Ground} {d d' d'' : Disk} {names : List String} {touched more : List (List String)}

def At (g : Ground) (root : String) : Prop :=
  g.rooted = Path.isAbs root ∧ g.front ++ g.rest = namesOf root

theorem At.path {root : String} (isAt : g.At root) (further : names ≠ [])
    (components : ∀ c ∈ names, IsComponent c.toList) : Path.join (root :: names) = g.path names := by
  rw [Path.join_eq_written root further components, Ground.path, way, ← List.append_assoc, isAt.2,
    isAt.1, namesOf]

def depth (g : Ground) : Nat := (g.place []).length + 3

/-- Nothing but some files of repositories and the directories that hold them is different on another
disk, and none of those files has become a directory. -/
structure Touches (g : Ground) (touched : List (List String)) (d d' : Disk) : Prop where
  on : g.On d'
  edit : Edit g.depth (fun p => ∃ names ∈ touched, p = g.place names) d d'
  three : ∀ names ∈ touched, names.length = 3
  files : ∀ names ∈ touched, ∀ mode, d'.tree.get? (g.place names) ≠ some (.dir mode)

theorem notDir_of_held {content : ByteArray} (held : d.held? (g.place names) = some content) (mode : Nat) :
    d.tree.get? (g.place names) ≠ some (.dir mode) := by
  intro isDir
  rw [held?, isDir] at held
  cases held

namespace Touches

theorem refl (on : g.On d) : g.Touches [] d d :=
  ⟨on, .refl _ _ d, by simp, by simp⟩

theorem of_edit (on : g.On d') (edit : Edit g.depth (· = g.place names) d d')
    (three : names.length = 3) (file : ∀ mode, d'.tree.get? (g.place names) ≠ some (.dir mode)) :
    g.Touches [names] d d' where
  on := on
  edit := edit.mono fun p here => ⟨names, by simp, here⟩
  three := by simpa using three
  files := by simpa using file

theorem out (names : List String) (apart : names ∉ touched) :
    ¬ ∃ names' ∈ touched, g.place names = g.place names' := by
  rintro ⟨names', member, same⟩
  exact apart (place_inj same ▸ member)

theorem held (touches : g.Touches touched d d') (apart : names ∉ touched) :
    d'.held? (g.place names) = d.held? (g.place names) :=
  touches.edit.held _ (out names apart)

theorem entry (touches : g.Touches touched d d') (apart : names ∉ touched) (three : names.length = 3) :
    d'.tree.get? (g.place names) = d.tree.get? (g.place names) := by
  refine touches.edit.entry (out names apart) ?_
  rw [length_place, three, depth]

theorem peek (touches : g.Touches touched d d') (on : g.On d) (apart : names ∉ touched)
    (three : names.length = 3) (named : ∀ c ∈ names, IsName c) :
    d'.peek (g.path names) = d.peek (g.path names) := by
  refine on.peek_congr touches.on touches.edit ?_ named ?_ ?_ (out names apart)
  · rintro rfl
    cases three
  · rw [length_place, three, depth]
  · rintro p ⟨names', member, rfl⟩
    rw [length_place, touches.three names' member, depth]

end Touches

end Disk.Ground

namespace Receiver

/-! ### Names -/

def Delivery.beside (d : Delivery) (file : String) : List String := [d.label.tag, d.repo, file]

def Delivery.temporary (d : Delivery) (n : Nat) : String :=
  d.file ++ "." ++ toString (1000000000 + n) ++ ".incomplete"

/-- What the parts of an accepted delivery are good for. -/
structure Delivery.Fits (d : Delivery) : Prop where
  tag : IsComponent d.label.tag.toList
  repo : IsComponent d.repo.toList
  file : IsComponent d.file.toList
  ending : d.file.toList.getLast? = some 'z'

theorem accept_eq_ok {file repo : String} {d : Delivery} (accepted : accept file repo = .ok d) :
    Bottle.parseFileName? file = some d.label ∧ isRepoName repo = true ∧ d = ⟨d.label, repo, file⟩ := by
  unfold accept at accepted
  cases parsed : Bottle.parseFileName? file with
  | none =>
    rw [parsed] at accepted
    cases accepted
  | some label =>
    rw [parsed] at accepted
    by_cases named : isRepoName repo = true
    · simp only [named, ↓reduceIte] at accepted
      cases accepted
      exact ⟨rfl, named, rfl⟩
    · simp only [named] at accepted
      cases accepted

theorem isComponent_of_isRepoName {repo : String} (named : isRepoName repo = true) :
    IsComponent repo.toList := by
  unfold isRepoName at named
  split at named
  · cases named
  · rename_i c rest chars
    rw [Bool.and_eq_true, List.all_eq_true] at named
    have free : ∀ x, isRepoChar x = true → x ≠ '/' := by
      rintro x plain rfl
      revert plain
      decide
    rw [chars]
    refine Path.isComponent_of_head ?_ ?_
    · rintro rfl
      revert named
      simp [isRepoStart, Url.isLetter, Text.isDigit]
    · rw [List.mem_cons, not_or]
      refine ⟨Ne.symm (free c ?_), fun member => free '/' (named.2 _ member) rfl⟩
      simp [isRepoChar, named.1]

theorem parts_of_parse {file : String} {label : Bottle.Label}
    (parsed : Bottle.parseFileName? file = some label) :
    IsComponent label.tag.toList ∧ IsComponent file.toList ∧ file.toList.getLast? = some 'z' := by
  obtain ⟨⟨name, version, tag⟩, chars, rfl⟩ := Option.map_eq_some_iff.mp parsed
  obtain ⟨base, whole⟩ : ∃ base, file.toList = base ++ ".tar.gz".toList := by
    cases dropped : Text.dropSuffix? ".tar.gz".toList file.toList with
    | none =>
      rw [Bottle.parseFileNameChars?, dropped] at chars
      cases chars
    | some base => exact ⟨base, (Text.dropSuffix?_eq_some_iff ..).mp dropped⟩
  rw [whole, Bottle.parseFileNameChars?_eq_some_iff] at chars
  obtain ⟨free, named, -, tagged, undotted, -, rest, marked⟩ := chars
  have split := Text.eq_of_cut? marked
  have parts : ∀ c, c ∈ tag → c ∈ base := by
    intro c member
    rw [split]
    simp [Bottle.stemChars, member]
  have head : ∃ x y more, base = x :: y :: more := by
    obtain ⟨x, name, rfl⟩ := List.exists_cons_of_ne_nil named
    rw [split]
    cases name <;> exact ⟨_, _, _, rfl⟩
  obtain ⟨x, y, more, rfl⟩ := head
  have ending : '/' ∉ ".tar.gz".toList := by decide
  rw [String.toList_ofList, whole]
  refine ⟨⟨tagged, ?_, ?_, fun member => free (parts _ member)⟩,
    ⟨by simp, by simp, ?_, fun member => (List.mem_append.mp member).elim free ending⟩, ?_⟩
  · rintro rfl
    exact undotted List.mem_cons_self
  · rintro rfl
    exact undotted List.mem_cons_self
  · intro same
    have length := congrArg List.length same
    simp at length
  · have last : ".tar.gz".toList.getLast? = some 'z' := by decide
    rw [List.getLast?_append, last]
    rfl

theorem fits_of_accept {file repo : String} {d : Delivery} (accepted : accept file repo = .ok d) :
    d.Fits := by
  obtain ⟨parsed, named, same⟩ := accept_eq_ok accepted
  obtain ⟨tag, whole, ending⟩ := parts_of_parse parsed
  rw [same]
  exact ⟨tag, isComponent_of_isRepoName named, whole, ending⟩

namespace Delivery

variable {d d' : Delivery} {file : String}

theorem Fits.beside (fits : d.Fits) (component : IsComponent file.toList) :
    ∀ c ∈ d.beside file, IsComponent c.toList := by
  simp [Delivery.beside, fits.tag, fits.repo, component]

theorem Fits.temporary (fits : d.Fits) (n : Nat) : IsComponent (d.temporary n).toList :=
  Act.isComponent_incomplete fits.file n

theorem temporary_eq (d : Delivery) (n : Nat) : d.temporary n = Act.incomplete d.file n := rfl

theorem temporary_ending (d : Delivery) (n : Nat) : (d.temporary n).toList.getLast? = some 'e' := by
  rw [temporary_eq, Act.toList_incomplete, List.getLast?_append, ← List.singleton_append, List.getLast?_append,
    List.getLast?_append]
  rfl

theorem temporary_inj {n n' : Nat} (same : d.temporary n = d'.temporary n') : n = n' := Act.incomplete_inj same

end Delivery

/-! ### Steps -/

def shelfPath (r : Receiver) (v : Delivery) : String :=
  Path.join [Path.dir (r.place v), Index.fileName]

section Steps

variable {r : Receiver} {g : Ground} {d d' : Disk} {v : Delivery} {content : ByteArray} {t : String}
  {shelf : Index.Shelf} {n : Nat}

theorem place_eq (isAt : g.At r.root) (fits : v.Fits) : r.place v = g.path (v.beside v.file) :=
  isAt.path (by simp) (fits.beside fits.file)

theorem dir_place (isAt : g.At r.root) (on : g.On d) (fits : v.Fits) :
    Path.dir (r.place v) = g.path [v.label.tag, v.repo] := by
  have components : ∀ c ∈ g.rest ++ [v.label.tag, v.repo], IsComponent c.toList :=
    on.components_append (by simp [fits.tag, fits.repo])
  have whole : g.path (v.beside v.file) =
      Path.written g.rooted (g.front ++ (g.rest ++ [v.label.tag, v.repo]) ++ [v.file]) := by
    simp [Ground.path, Ground.way, Delivery.beside]
  rw [place_eq isAt fits, whole, Path.dir_written (on.isWalked components) fits.file]
  rfl

theorem shelfPath_eq (isAt : g.At r.root) (on : g.On d) (fits : v.Fits) :
    r.shelfPath v = g.path (v.beside Index.fileName) := by
  have components : ∀ c ∈ g.rest ++ [v.label.tag, v.repo], IsComponent c.toList :=
    on.components_append (by simp [fits.tag, fits.repo])
  have done := on.isWalked components
  have last : ∀ c ∈ [Index.fileName], IsComponent c.toList := by decide
  rw [shelfPath, dir_place isAt on fits, Path.join_eq_written _ (by simp) last, Ground.path, Ground.way,
    Path.isAbs_written done, Path.stepsOf_written done]
  simp [Ground.path, Ground.way, Delivery.beside, Function.comp_def]

theorem tempPath_temporary (fits : v.Fits) (n : Nat) :
    Act.tempPath (g.path [v.label.tag, v.repo]) (v.file ++ ".") ".incomplete" n =
      g.path (v.beside (v.temporary n)) := by
  have last : ∀ c ∈ (g.front ++ (g.rest ++ [v.label.tag, v.repo])).getLast?, c.toList ≠ [] ∧ '/' ∉ c.toList := by
    simpa [-String.toList_eq_nil_iff] using And.intro fits.repo.1 fits.repo.2.2.2
  rw [Act.tempPath, Act.decimal_eq, Ground.path, Ground.way, Act.inside_written (by simp) last]
  simp [Ground.path, Ground.way, Delivery.beside, Delivery.temporary]

theorem write_touches (isAt : g.At r.root) (on : g.On d) (fits : v.Fits)
    (ran : (r.write v content).run d = (.ok t, d')) :
    ∃ n, d.serial ≤ n ∧ n < d'.serial ∧ t = g.path (v.beside (v.temporary n)) ∧
      g.Touches [v.beside (v.temporary n)] d d' ∧
      d'.held? (g.place (v.beside (v.temporary n))) = some content ∧
      ∀ c ∈ v.beside (v.temporary n), IsName c := by
  have parents : ∀ c ∈ [v.label.tag, v.repo], IsComponent c.toList := by simp [fits.tag, fits.repo]
  have short : (g.place [v.label.tag, v.repo]).length < g.depth := by
    rw [Ground.length_place, Ground.depth]
    simp
  rw [write, dir_place isAt on fits] at ran
  obtain ⟨⟨⟩, d₁, made, ran⟩ := Act.run_bind_eq_ok ran
  obtain ⟨t, d₃, temp, ran⟩ := Act.run_bind_eq_ok ran
  obtain ⟨⟨⟩, d₄, put, ran⟩ := Act.run_bind_eq_ok ran
  cases ran
  obtain ⟨n, later, empty, rfl⟩ := Act.makeTempFile_eq_ok temp
  obtain ⟨on₁, edit₁, -⟩ := on.makeDirAll parents short 0o755 made
  have on₂ := on₁.withSerial (n + 1)
  have name := tempPath_temporary (g := g) fits n
  have components := fits.beside (fits.temporary n)
  rw [name] at empty put
  obtain ⟨on₃, edit₃, -, serial₃, -⟩ := on₂.putFile (by simp [Delivery.beside]) components empty
  obtain ⟨on₄, edit₄, held, serial₄, named⟩ := on₃.putFile (by simp [Delivery.beside]) components put
  refine ⟨n, edit₁.serial.trans later, ?_, name, .of_edit on₄ ?_ rfl (Ground.notDir_of_held held), held, named⟩
  · rw [serial₄, serial₃]
    exact Nat.lt_succ_self _
  · have counted : Edit g.depth (· = g.place (v.beside (v.temporary n))) d₁
        { d₁ with serial := n + 1 } :=
      ⟨fun _ _ => Or.inl rfl, fun _ _ => rfl, later.trans (Nat.le_succ n)⟩
    exact (((edit₁.mono fun _ => False.elim).trans counted).trans edit₃).trans edit₄

theorem commit_touches (isAt : g.At r.root) (on : g.On d) (fits : v.Fits)
    (held : d.held? (g.place (v.beside (v.temporary n))) = some content)
    (ran : (r.commit v (g.path (v.beside (v.temporary n)))).run d = (.ok (), d')) :
    g.Touches [v.beside (v.temporary n), v.beside v.file] d d' ∧
      d'.held? (g.place (v.beside v.file)) = some content ∧
      d'.tree.get? (g.place (v.beside (v.temporary n))) = none ∧ ∀ c ∈ v.beside v.file, IsName c := by
  have differ : v.beside (v.temporary n) ≠ v.beside v.file := by
    intro same
    have names : v.temporary n = v.file := by simpa [Delivery.beside] using same
    have ending := v.temporary_ending n
    rw [names, fits.ending] at ending
    exact absurd ending (by decide)
  rw [commit, place_eq isAt fits, Act.run_during, Prod.mk.injEq] at ran
  have done : (Act.rename (g.path (v.beside (v.temporary n))) (g.path (v.beside v.file))).run d =
      (.ok (), d') := by
    rcases outcome : (Act.rename (g.path (v.beside (v.temporary n)))
      (g.path (v.beside v.file))).run d with ⟨result, d''⟩
    rw [outcome] at ran
    obtain ⟨ok, rfl⟩ := ran
    cases result with
    | error e => cases ok
    | ok u => rfl
  obtain ⟨on', edit, held', gone, named⟩ := on.rename (by simp [Delivery.beside]) (by simp [Delivery.beside])
    (fits.beside (fits.temporary n)) (fits.beside fits.file) differ held done
  refine ⟨⟨on', edit.mono ?_, by simp [Delivery.beside], ?_⟩, held', gone, named⟩
  · rintro p (rfl | rfl)
    · exact ⟨_, by simp, rfl⟩
    · exact ⟨_, by simp, rfl⟩
  · simp only [List.forall_mem_cons, List.not_mem_nil, false_imp_iff, implies_true, and_true]
    exact ⟨by simp [gone], Ground.notDir_of_held held'⟩

theorem remove_touches (on : g.On d) (fits : v.Fits)
    (notDir : ∀ mode, d.tree.get? (g.place (v.beside (v.temporary n))) ≠ some (.dir mode)) :
    g.Touches [v.beside (v.temporary n)] d
      ((Act.remove (g.path (v.beside (v.temporary n)))).run d).2 := by
  obtain ⟨on', edit, file⟩ := on.remove (by simp [Delivery.beside]) (fits.beside (fits.temporary n)) notDir
  exact .of_edit on' edit rfl file

end Steps

end Receiver

namespace Index

variable {g : Ground} {d d' : Disk} {v : Receiver.Delivery} {shelf : Shelf}

def entriesOf : Option (Except Fault ByteArray) → Except Fault Shelf
  | none => .ok {}
  | some read => read >>= fun b => decode b.data.toList

theorem entriesOf_encode (shelf : Shelf) :
    entriesOf (some (.ok ⟨(encode shelf).toArray⟩)) = decode (encode shelf) := rfl

theorem run_readFrom (path : String) (d : Disk) :
    (readFrom path).run d = (entriesOf (d.peek path), d) := by
  rw [readFrom, Act.run_bind, Act.run_get, Disk.peek]
  dsimp only
  cases d.find true path with
  | ok found => exact Act.run_ofExcept _ d
  | error reason =>
    cases reason with
    | missing => rfl
    | _ => exact Act.run_ofExcept _ d

theorem beside_shelf (v : Receiver.Delivery) :
    g.path (v.beside fileName) ++ ".tmp" = g.path (v.beside (fileName ++ ".tmp")) := by
  have split : ∀ file, g.path (v.beside file) =
      Path.written g.rooted (g.front ++ (g.rest ++ [v.label.tag, v.repo]) ++ [file]) := by
    simp [Ground.path, Ground.way, Receiver.Delivery.beside]
  rw [split, split, Path.written_append]

theorem writeTo_touches (on : g.On d) (fits : v.Fits)
    (ran : (writeTo (g.path (v.beside fileName)) shelf).run d = (.ok (), d')) :
    g.Touches [v.beside (fileName ++ ".tmp"), v.beside fileName] d d' ∧
      d'.held? (g.place (v.beside fileName)) = some ⟨(encode shelf).toArray⟩ := by
  have component : IsComponent fileName.toList ∧ IsComponent (fileName ++ ".tmp").toList := by
    decide
  have differ : v.beside (fileName ++ ".tmp") ≠ v.beside fileName := by
    intro same
    simp [Receiver.Delivery.beside] at same
  rw [writeTo, beside_shelf] at ran
  obtain ⟨⟨⟩, d₁, put, moved⟩ := Act.run_bind_eq_ok ran
  obtain ⟨on₁, edit₁, held, -⟩ := on.putFile (by simp [Receiver.Delivery.beside])
    (fits.beside component.2) put
  obtain ⟨on₂, edit₂, held', gone, -⟩ := on₁.rename (by simp [Receiver.Delivery.beside])
    (by simp [Receiver.Delivery.beside]) (fits.beside component.2) (fits.beside component.1) differ held
    moved
  refine ⟨⟨on₂, (edit₁.mono ?_).trans (edit₂.mono ?_), by simp [Receiver.Delivery.beside], ?_⟩, held'⟩
  · rintro p rfl
    exact ⟨_, by simp, rfl⟩
  · rintro p (rfl | rfl)
    · exact ⟨_, by simp, rfl⟩
    · exact ⟨_, by simp, rfl⟩
  · simp only [List.forall_mem_cons, List.not_mem_nil, false_imp_iff, implies_true, and_true]
    exact ⟨by simp [gone], Ground.notDir_of_held held'⟩

end Index

end Taproom
