import Taproom.Proofs.Progress

/-!
Where uploads go. A file name that is accepted is cut within its bounds, and the upload goes to the file
with that name in the repository, three names below the root. Uploads with other names go to other
files, and none of them is an index.
-/

namespace Taproom

open Disk (Ground namesOf)
open Path (IsComponent)

theorem Disk.Ground.Touches.held_of_ne {g : Ground} {d d' : Disk} {touched : List (List String)}
    {p : Disk.Place} (touches : g.Touches touched d d') (other : ∀ names ∈ touched, p ≠ g.place names) :
    d'.held? p = d.held? p := by
  refine touches.edit.held p ?_
  rintro ⟨names, member, here⟩
  exact other names member here

namespace Bottle

/-! ### Reading by positions -/

def slice? (s : List Char) (start stop : Nat) : Option (List Char) :=
  if start ≤ stop ∧ stop ≤ s.length then some ((s.take stop).drop start) else none

def position? (sep s : List Char) : Option Nat := (Text.cut? sep s).map fun parts => parts.1.length

def lastPosition? (sep s : List Char) : Option Nat := (Text.cutLast? sep s).map fun parts => parts.1.length

def sliceVersion? (name rest : List Char) : Option (Option (List Char × List Char × List Char)) :=
  match lastPosition? ['.'] rest with
  | none => some none
  | some k =>
    if k = 0 ∨ k + 1 = rest.length then some none
    else
      (slice? rest 0 k).bind fun version =>
        (slice? rest (k + 1) rest.length).map fun tag => some (name, version, tag)

/-- The parts of the name of a file, cut out by the positions of the marks in it. There is no answer,
not even that the name is refused, if some cut is out of bounds. -/
def sliceFileName? (s : List Char) : Option (Option (List Char × List Char × List Char)) :=
  match Text.dropSuffix? ".tar.gz".toList s with
  | none => some none
  | some base =>
    match position? ['-', '-'] base, position? ".bottle".toList base with
    | some i, some j =>
      if i = 0 ∨ j < i ∨ '/' ∈ s then some none
      else
        (slice? base 0 i).bind fun name =>
          (slice? base (i + 2) j).bind fun rest => sliceVersion? name rest
    | _, _ => some none

theorem slice?_eq (before s after : List Char) :
    slice? (before ++ s ++ after) before.length (before ++ s).length = some s := by
  rw [slice?, if_pos (by simp), List.take_left, List.drop_left]

theorem slice?_front (s after : List Char) : slice? (s ++ after) 0 s.length = some s :=
  slice?_eq [] s after

example : slice? "hello".toList 0 2 = some "he".toList := by decide +kernel

theorem sliceVersion?_eq (name rest : List Char) :
    sliceVersion? name rest = some ((Text.cutLast? ['.'] rest).bind fun parts =>
      if parts.1 = [] || parts.2 = [] then none else some (name, parts.1, parts.2)) := by
  rw [sliceVersion?, lastPosition?]
  cases cut : Text.cutLast? ['.'] rest with
  | none => rfl
  | some parts =>
    obtain ⟨version, tag⟩ := parts
    obtain ⟨rfl, -⟩ := (Text.cutLast?_eq_some_iff '.').mp cut
    have front := slice?_front version ('.' :: tag)
    have back : slice? (version ++ '.' :: tag) (version.length + 1) (version ++ '.' :: tag).length = some tag := by
      simpa using slice?_eq (version ++ ['.']) tag []
    have missing : version.length = 0 ∨ version.length + 1 = (version ++ '.' :: tag).length ↔
        version = [] ∨ tag = [] := by
      simp
    simp only [Option.map_some, Option.bind_some, missing, Bool.or_eq_true, decide_eq_true_eq]
    split
    · rfl
    · rw [front, back]
      rfl

theorem marks_apart {base name body rest rest' : List Char} (named : base = name ++ ['-', '-'] ++ rest)
    (marked : base = body ++ ".bottle".toList ++ rest') (later : name.length ≤ body.length) :
    name.length + 2 ≤ body.length := by
  have dot : base[body.length]? = some '.' := by
    have mark : ".bottle".toList = '.' :: "bottle".toList := by decide
    simp [marked, mark]
  have dashes : base[name.length]? = some '-' ∧ base[name.length + 1]? = some '-' := by
    constructor <;> simp [named]
  by_contra near
  rcases (show body.length = name.length ∨ body.length = name.length + 1 by omega) with same | same
  · rw [same, dashes.1] at dot
    exact absurd dot (by decide)
  · rw [same, dashes.2] at dot
    exact absurd dot (by decide)

theorem sliceFileName?_eq (s : List Char) : sliceFileName? s = some (parseFileNameChars? s) := by
  have apart := @marks_apart
  rw [sliceFileName?, parseFileNameChars?]
  generalize ".bottle".toList = mark at apart ⊢
  cases dropped : Text.dropSuffix? ".tar.gz".toList s with
  | none => rfl
  | some base =>
    simp only [position?, Option.bind_eq_bind, Option.bind_some]
    cases named : Text.cut? ['-', '-'] base with
    | none => simp
    | some parts =>
      obtain ⟨name, after⟩ := parts
      cases marked : Text.cut? mark base with
      | none => simp
      | some parts =>
        obtain ⟨body, after'⟩ := parts
        have whole := Text.eq_of_cut? named
        have whole' := Text.eq_of_cut? marked
        by_cases refused : name.length = 0 ∨ body.length < name.length ∨ '/' ∈ s
        · have empty : name.length = 0 ↔ name = [] := List.length_eq_zero_iff
          simp only [Option.map_some, refused, if_true]
          by_cases slash : '/' ∈ s
          · simp [slash]
          · simp_all
        · obtain ⟨nonempty, later, bare⟩ := by simpa only [not_or, not_lt] using refused
          have long := apart whole whole' later
          obtain ⟨rest, split⟩ : ∃ rest, body = name ++ ['-', '-'] ++ rest := by
            have starts : name ++ ['-', '-'] <+: base := ⟨after, whole.symm⟩
            have front : body <+: base := ⟨mark ++ after', by rw [whole', List.append_assoc]⟩
            obtain ⟨rest, same⟩ := List.prefix_of_prefix_length_le starts front (by simpa using long)
            exact ⟨rest, same.symm⟩
          have front : slice? base 0 name.length = some name := by
            rw [whole, List.append_assoc]
            exact slice?_front name _
          have back : slice? base (name.length + 2) body.length = some rest := by
            rw [whole', split, List.append_assoc, ← List.append_assoc]
            simpa using slice?_eq (name ++ ['-', '-']) rest (mark ++ after')
          have skipped : body.drop (name.length + 2) = rest := by simp [split]
          have nonempty' : name ≠ [] := by simpa using nonempty
          simp only [Option.map_some, if_neg refused, front, back, Option.bind_some, sliceVersion?_eq]
          simp [bare, nonempty', skipped, not_lt.mpr later, not_lt.mpr long]

end Bottle

namespace Receiver

/-! ### Accepted names -/

/-- A name that is read has the marks of a bottle between its parts. -/
theorem file_of_parse {file : String} {label : Bottle.Label}
    (parsed : Bottle.parseFileName? file = some label) :
    (label.name ≠ "" ∧ label.version ≠ "" ∧ label.tag ≠ "") ∧ '.' ∉ label.tag.toList ∧
      ∃ x, file = label.name ++ "--" ++ label.version ++ "." ++ label.tag ++ ".bottle" ++ x ++ ".tar.gz" := by
  obtain ⟨⟨name, version, tag⟩, chars, rfl⟩ := Option.map_eq_some_iff.mp parsed
  obtain ⟨base, whole⟩ : ∃ base, file.toList = base ++ ".tar.gz".toList := by
    cases dropped : Text.dropSuffix? ".tar.gz".toList file.toList with
    | none =>
      rw [Bottle.parseFileNameChars?, dropped] at chars
      cases chars
    | some base => exact ⟨base, (Text.dropSuffix?_eq_some_iff ..).mp dropped⟩
  rw [whole, Bottle.parseFileNameChars?_eq_some_iff] at chars
  obtain ⟨-, named, versioned, tagged, undotted, -, rest, marked⟩ := chars
  refine ⟨⟨by simpa using named, by simpa using versioned, by simpa using tagged⟩, by simpa using undotted,
    String.ofList rest, ?_⟩
  rw [← String.toList_inj, whole, Text.eq_of_cut? marked]
  simp [Bottle.stemChars]

/-! ### Where the file is -/

section Place

variable {r : Receiver} {v v' : Delivery} {g : Ground} {d d' : Disk} {content : ByteArray} {e : Index.Entry}

theorem place_eq_written (r : Receiver) (fits : v.Fits) :
    r.place v = Path.written (Path.isAbs r.root) (namesOf r.root ++ [v.label.tag, v.repo, v.file]) :=
  Path.join_eq_written r.root (by simp) (fits.beside fits.file)

theorem isWalked_place (r : Receiver) (fits : v.Fits) : Path.IsWalked (Path.isAbs r.root)
    ((namesOf r.root ++ [v.label.tag, v.repo, v.file]).map String.toList) := by
  have below : ∀ c ∈ [v.label.tag.toList, v.repo.toList, v.file.toList], IsComponent c := by
    simp [fits.tag, fits.repo, fits.file]
  simpa [namesOf, Function.comp_def] using (Path.stepsOf_isWalked r.root).append below

theorem place_injective (fits : v.Fits) (fits' : v'.Fits) (same : r.place v = r.place v') :
    v.label.tag = v'.label.tag ∧ v.repo = v'.repo ∧ v.file = v'.file := by
  have steps := congrArg Path.stepsOf same
  rw [place_eq_written r fits, place_eq_written r fits', Path.stepsOf_written (isWalked_place r fits),
    Path.stepsOf_written (isWalked_place r fits')] at steps
  simpa [String.toList_inj] using steps

theorem place_ne_shelf (fits : v.Fits) (dir : String) : r.place v ≠ Path.join [dir, Index.fileName] := by
  have component : IsComponent Index.fileName.toList := by decide
  have whole : namesOf r.root ++ [v.label.tag, v.repo, v.file] =
      namesOf r.root ++ [v.label.tag, v.repo] ++ [v.file] := by simp
  intro same
  have last := congrArg Path.base same
  rw [Path.join_eq_written dir (by simp) (by simpa using component), Path.base_written component,
    place_eq_written r fits, whole, Path.base_written fits.file] at last
  have ending := fits.ending
  rw [last] at ending
  exact absurd ending (by decide)

theorem beside_ne {file file' : String} (differ : file.toList.getLast? ≠ file'.toList.getLast?) :
    v.beside file ≠ v.beside file' := by
  intro same
  obtain rfl : file = file' := by simpa [Delivery.beside] using same
  exact differ rfl

/-- An upload that is taken changes the file of the bottle and the index beside it, apart from files
that are there for a time only. -/
theorem receive_touches (isAt : g.At r.root) (on : g.On d) (fits : v.Fits)
    (ran : (r.receive v content).run d = (.ok e, d')) :
    ∃ n, d'.held? (g.place (v.beside v.file)) = some content ∧
      ∀ p, (∀ file ∈ [v.file, Index.fileName, v.temporary n, Index.fileName ++ ".tmp"],
        p ≠ g.place (v.beside file)) → d'.held? p = d.held? p := by
  obtain ⟨t, d₁, written, ran⟩ := Act.run_bind_eq_ok ran
  rw [Act.run_andAlways, Prod.mk.injEq] at ran
  rcases outcome : Act.run (do
      r.commit v t
      r.register v (Sha256.hex content)) d₁ with ⟨result, d₄⟩
  rw [outcome] at ran
  obtain ⟨rfl, rfl⟩ := ran
  obtain ⟨⟨⟩, d₂, placed, registered⟩ := Act.run_bind_eq_ok outcome
  obtain ⟨shelf, d₃, read, entered⟩ := Act.run_bind_eq_ok registered
  obtain ⟨⟨⟩, d₄, entered, last⟩ := Act.run_bind_eq_ok entered
  cases last
  obtain ⟨n, -, -, rfl, touches₁, held₁, named⟩ := write_touches isAt on fits written
  obtain ⟨touches₂, held₂, gone, -⟩ := commit_touches isAt touches₁.on fits held₁ placed
  obtain ⟨-, rfl⟩ : _ ∧ d₂ = d₃ := by simpa [Index.run_readFrom] using read
  change (Index.writeTo (r.shelfPath v) _).run d₂ = _ at entered
  rw [shelfPath_eq isAt touches₂.on fits] at entered
  obtain ⟨touches₃, -⟩ := Index.writeTo_touches touches₂.on fits entered
  have shelfEnds : Index.fileName.toList.getLast? = some 't' ∧
      (Index.fileName ++ ".tmp").toList.getLast? = some 'p' := by decide
  have apart : ∀ file, (file = v.file ∨ file = v.temporary n) →
      v.beside file ∉ [v.beside (Index.fileName ++ ".tmp"), v.beside Index.fileName] := by
    intro file isOne
    have ends : file.toList.getLast? ≠ some 't' ∧ file.toList.getLast? ≠ some 'p' := by
      rcases isOne with rfl | rfl
      · simp [fits.ending]
      · simp [v.temporary_ending n]
    simp only [List.mem_cons, List.not_mem_nil, or_false, not_or]
    exact ⟨beside_ne (by rw [shelfEnds.2]; exact ends.2), beside_ne (by rw [shelfEnds.1]; exact ends.1)⟩
  have notDir : ∀ mode, d₄.tree.get? (g.place (v.beside (v.temporary n))) ≠ some (.dir mode) := by
    rw [touches₃.entry (apart _ (Or.inr rfl)) rfl, gone]
    simp
  have touches₄ := remove_touches touches₃.on fits notDir
  refine ⟨n, ?_, ?_⟩
  · rw [touches₄.held ?_, touches₃.held (apart _ (Or.inl rfl)), held₂]
    rw [List.mem_singleton]
    exact beside_ne (by simp [fits.ending, v.temporary_ending n])
  · intro p other
    simp only [List.forall_mem_cons] at other
    obtain ⟨file, shelf, temporary, copy, -⟩ := other
    calc
      _ = d₄.held? p := touches₄.held_of_ne (by simpa using temporary)
      _ = d₂.held? p := touches₃.held_of_ne (by simpa using ⟨copy, shelf⟩)
      _ = d₁.held? p := touches₂.held_of_ne (by simpa using ⟨temporary, file⟩)
      _ = d.held? p := touches₁.held_of_ne (by simpa using temporary)

end Place

/-- File names are cut within their bounds, whatever they are. A name that is accepted is made of a name,
a version and a tag and their marks. The upload goes to the file of that name, three names below the
root, and when it is taken no other file has changed but the index beside it and files that are there
for a time only. Uploads with another repository or file name go to another file, and never to an index. -/
theorem upload_stays_in_place (r : Receiver) {file repo : String} {v : Delivery}
    (accepted : accept file repo = .ok v) :
    (∀ s, Bottle.sliceFileName? s = some (Bottle.parseFileNameChars? s)) ∧
      (∃ x, file = v.label.name ++ "--" ++ v.label.version ++ "." ++ v.label.tag ++ ".bottle" ++ x ++ ".tar.gz") ∧
      (v.label.name ≠ "" ∧ v.label.version ≠ "" ∧ v.label.tag ≠ "") ∧
      ('.' ∉ v.label.tag.toList ∧ '/' ∉ v.label.tag.toList) ∧
      r.place v = Path.written (Path.isAbs r.root) (namesOf r.root ++ [v.label.tag, repo, file]) ∧
      (∀ c ∈ [v.label.tag, repo, file], IsComponent c.toList) ∧
      (∀ {g : Ground} {d d' : Disk} {content : ByteArray} {e : Index.Entry}, g.At r.root → g.On d →
        (r.receive v content).run d = (.ok e, d') →
        d'.held? (g.place [v.label.tag, repo, file]) = some content ∧
          ∃ n, ∀ p, (∀ name ∈ [file, Index.fileName, v.temporary n, Index.fileName ++ ".tmp"],
            p ≠ g.place [v.label.tag, repo, name]) → d'.held? p = d.held? p) ∧
      (∀ {file' repo' : String} {v' : Delivery}, accept file' repo' = .ok v' → (repo', file') ≠ (repo, file) →
        r.place v' ≠ r.place v) ∧
      ∀ dir, r.place v ≠ Path.join [dir, Index.fileName] := by
  have fits := fits_of_accept accepted
  obtain ⟨parsed, -, same⟩ := accept_eq_ok accepted
  obtain ⟨nonempty, undotted, whole⟩ := file_of_parse parsed
  obtain ⟨label, _, _⟩ := v
  cases same
  refine ⟨Bottle.sliceFileName?_eq, whole, nonempty, ⟨undotted, fits.tag.2.2.2⟩, place_eq_written r fits,
    fits.beside fits.file, ?_, ?_, place_ne_shelf fits⟩
  · intro g d d' content e isAt on ran
    obtain ⟨n, held, others⟩ := receive_touches isAt on fits ran
    exact ⟨held, n, others⟩
  · intro file' repo' v' accepted' differ samePlace
    obtain ⟨-, repos, files⟩ := place_injective (fits_of_accept accepted') fits samePlace
    obtain ⟨-, -, same'⟩ := accept_eq_ok accepted'
    rw [same'] at repos files
    exact differ (Prod.ext repos files)

/-- A bottle is taken into an empty repository, and a bottle with another name goes elsewhere. -/
theorem rival_stays_in_place :
    accept bottleFile "core" = .ok (rivals true).delivery ∧
      (∃ d' e, (receive ⟨"/"⟩ (rivals true).delivery (rivals true).content).run emptyRepository = (.ok e, d') ∧
        d'.held? ["x86_64_linux", "core", bottleFile] = some (rivals true).content) ∧
      ∃ v, accept "a--2.x86_64_linux.bottle.1.tar.gz" "core" = .ok v ∧
        place ⟨"/"⟩ v ≠ place ⟨"/"⟩ (rivals true).delivery := by
  have accepted : accept bottleFile "core" = .ok (rivals true).delivery := (rivals true).accepted
  obtain ⟨-, -, -, -, -, -, taken, elsewhere, -⟩ := upload_stays_in_place ⟨"/"⟩ accepted
  obtain ⟨e, ran⟩ := Act.exists_run_of_isOk
    (a := receive ⟨"/"⟩ (rivals true).delivery (rivals true).content) (d := emptyRepository) (by decide +kernel)
  have other : accept "a--2.x86_64_linux.bottle.1.tar.gz" "core" =
      .ok ⟨⟨"a", "2", "x86_64_linux"⟩, "core", "a--2.x86_64_linux.bottle.1.tar.gz"⟩ := rfl
  exact ⟨accepted, ⟨_, e, ran, (taken wholeDisk_at wholeDisk_on ran).1⟩, _, other, elsewhere other (by decide)⟩

end Receiver

end Taproom
