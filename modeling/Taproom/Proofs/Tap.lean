import Mathlib.Data.List.Find
import Taproom.Tap
import Taproom.Proofs.Formula
import Taproom.Proofs.Search

/-!
What a tap on a disk says of a formula. It depends on nothing but the files of the tap that have the
name of the formula, wherever they lie, and the table of aliases depends on its own file only.
-/

namespace Taproom

open Disk (Place Tree HasDir IsName)
open Path (IsComponent relative)
open PathPattern (IsLiteral)

theorem ok_or_error_of_toOption {ε α : Type} {x y : Except ε α} (same : x.toOption = y.toOption) :
    (∃ a, x = .ok a ∧ y = .ok a) ∨ ∃ e e', x = .error e ∧ y = .error e' := by
  cases x <;> cases y <;> simp_all [Except.toOption]

def Disk.held? (d : Disk) (p : Place) : Option ByteArray :=
  ((d.tree.get? p).bind d.bodyOf?).map (·.content)

/-- What lies at a place: nothing, something that is no file, or a file and what it holds. -/
def Disk.seen? (d : Disk) (p : Place) : Option (Option ByteArray) :=
  (d.tree.get? p).map fun e => (d.bodyOf? e).map (·.content)

@[simp] theorem Disk.isSome_seen? (d : Disk) (p : Place) :
    (d.seen? p).isSome = (d.tree.get? p).isSome :=
  Option.isSome_map

@[simp] theorem Disk.join_seen? (d : Disk) (p : Place) : (d.seen? p).join = d.held? p := by
  rw [seen?, held?]
  cases d.tree.get? p <;> rfl

def Disk.filesBelow (d : Disk) (p : Place) : Dict (List String) ByteArray :=
  .ofList ((d.below p).filterMap fun (names, e) => (d.bodyOf? e).map fun b => (names, b.content))

theorem Disk.get?_filesBelow (d : Disk) (p : Place) {names : List String} (further : names ≠ []) :
    (d.filesBelow p).get? names = d.held? (p ++ names) := by
  have distinct : ((d.below p).filterMap fun (names, e) =>
      (d.bodyOf? e).map fun b => (names, b.content)).Pairwise fun a b => a.1 ≠ b.1 := by
    rw [List.pairwise_filterMap, below, List.pairwise_filterMap]
    refine d.tree.toList_distinct.imp ?_
    rintro ⟨k, e⟩ ⟨k', e'⟩ differ
    simp only [Option.ite_none_right_eq_some, Bool.and_eq_true, Option.some.injEq,
      Option.map_eq_some_iff, isBelow, List.isPrefixOf_iff_prefix]
    rintro - ⟨⟨⟨names, rfl⟩, -⟩, rfl⟩ - ⟨⟨⟨names', rfl⟩, -⟩, rfl⟩ - ⟨b, -, rfl⟩ - ⟨b', -, rfl⟩ same
    simp_all
  ext bytes
  rw [filesBelow, Dict.get?_ofList_eq_some_iff distinct, List.mem_filterMap, held?]
  simp only [Option.map_eq_some_iff, Option.bind_eq_some_iff]
  constructor
  · rintro ⟨⟨names', e⟩, member, b, body, same⟩
    obtain ⟨rfl, rfl⟩ := Prod.mk.inj same
    exact ⟨b, ⟨e, ((d.mem_below_iff ..).mp member).2, body⟩, rfl⟩
  · rintro ⟨b, ⟨e, found, body⟩, rfl⟩
    exact ⟨(names, e), (d.mem_below_iff ..).mpr ⟨further, found⟩, b, body, rfl⟩

namespace Tap

/-- The files of a tap by their names from the tap downwards. -/
abbrev Content := Dict (List String) ByteArray

/-- A tap is a tree of directories and files that holds a content. No directory is named like the
file of a formula. -/
structure ShowsAt (t : Tap) (content : Content) (base : Place) (d : Disk) : Prop extends
    Tree t.path base d where
  holds : ∀ names, names ≠ [] → d.held? (base ++ names) = content.get? names
  bodied : ∀ names body, d.tree.get? (base ++ names) = some (.file body) → (d.bodies.get? body).isSome
  unlike : ∀ names name mode, d.tree.get? (base ++ names ++ [name]) = some (.dir mode) →
    endsWith name suffix = false

variable {t : Tap} {content content' : Content} {base base' : Place} {d d' : Disk}
  {names rest : List String} {n : String} {bytes : ByteArray}

/-! ### Names of formulae -/

def fileOf (n : String) : String := n ++ suffix

def placeOf (rest : List String) (n : String) : List String := formulaDir :: rest ++ [fileOf n]

theorem isLiteral_of_isName (named : Formula.isName n = true) : IsLiteral n.toList := by
  intro c member special
  have allowed := (Formula.isName_chars named).2 c member
  simp only [List.mem_cons, List.not_mem_nil, or_false] at special
  rcases special with rfl | rfl | rfl | rfl | rfl | rfl | rfl | rfl <;> revert allowed <;> decide

theorem isLiteral_fileOf (literal : IsLiteral n.toList) : IsLiteral (fileOf n).toList := by
  have ending : IsLiteral suffix.toList := by decide
  rw [fileOf, String.toList_append]
  intro c member
  exact (List.mem_append.mp member).elim (literal c) (ending c)

theorem isComponent_fileOf (literal : IsLiteral n.toList) : IsComponent (fileOf n).toList := by
  have long : 4 ≤ (fileOf n).toList.length := by
    have four : suffix.toList.length = 4 := by decide
    rw [fileOf, String.toList_append, List.length_append, four]
    omega
  refine ⟨?_, ?_, ?_, fun member => isLiteral_fileOf literal _ member (by simp)⟩
  all_goals
    intro short
    rw [short] at long
    simp at long

theorem components_placeOf (literal : IsLiteral n.toList)
    (components : ∀ c ∈ rest, IsComponent c.toList) : ∀ c ∈ placeOf rest n, IsComponent c.toList := by
  have dir : IsComponent formulaDir.toList := by decide
  rw [placeOf, List.forall_mem_append, List.forall_mem_cons]
  exact ⟨⟨dir, components⟩, by simpa using isComponent_fileOf literal⟩

theorem endsWith_suffix_iff (c : String) : endsWith c suffix = true ↔ ∃ n, c = fileOf n := by
  constructor
  · intro ends
    obtain ⟨front, dropped⟩ := Option.isSome_iff_exists.mp ends
    refine ⟨String.ofList front, ?_⟩
    rw [fileOf, ← String.toList_inj, ← Text.chars_eq c, Text.eq_append_of_dropSuffix? dropped,
      String.toList_append, String.toList_ofList, Text.chars_eq]
  · rintro ⟨n, rfl⟩
    rw [endsWith, fileOf, Text.chars_eq, Text.chars_eq, Text.dropSuffix?, String.toList_append, List.reverse_append,
      Text.dropPrefix?_append]
    rfl

theorem fileOf_eq (n : String) : fileOf n = n ++ "." ++ "yml" := by
  rw [fileOf, String.append_assoc]
  rfl

theorem stem_file (names : List String) (last : IsComponent (fileOf n).toList) :
    Path.stem (relative (names ++ [fileOf n])) = n := by
  rw [fileOf_eq] at last ⊢
  exact Path.stem_relative names last (by decide)

theorem stem_placeOf (literal : IsLiteral n.toList) (rest : List String) :
    Path.stem (relative (placeOf rest n)) = n :=
  stem_file (formulaDir :: rest) (isComponent_fileOf literal)

theorem nameOfPath_placeOf (literal : IsLiteral n.toList) (rest : List String) :
    nameOfPath (relative (placeOf rest n)) = n := by
  have starts : startsWith (relative (placeOf rest n)) (formulaDir ++ "/") = true := by
    obtain ⟨c, cs, further⟩ := List.exists_cons_of_ne_nil
      (show (rest ++ [fileOf n]).map String.toList ≠ [] by simp)
    rw [startsWith, Text.chars_eq, Text.chars_eq, Path.toList_relative, placeOf, List.cons_append,
      List.map_cons, further, Text.joinWith_cons_cons, String.toList_append]
    exact congrArg Option.isSome (Text.dropPrefix?_append ..)
  have extension : Path.ext (relative (placeOf rest n)) = suffix := by
    have chars : (fileOf n).toList = n.toList ++ '.' :: "yml".toList := by simp [fileOf_eq]
    exact Path.ext_relative (formulaDir :: rest) (isComponent_fileOf literal).2.2.2 (by decide) chars
  rw [nameOfPath, starts, extension, stem_placeOf literal]
  simp

theorem usualPaths_eq (literal : IsLiteral n.toList) :
    ∃ others, usualPaths n = relative (placeOf [] n) :: others ∧ ∀ p ∈ others,
      ∃ rest, rest.length ≤ 1 ∧ (∀ c ∈ rest, IsComponent c.toList) ∧ p = relative (placeOf rest n) := by
  have joined : ∀ rest, (∀ c ∈ rest, IsComponent c.toList) →
      Path.join (placeOf rest n) = relative (placeOf rest n) := fun rest components =>
    Path.join_components (by simp [placeOf]) (components_placeOf literal components)
  have flat : Path.join [formulaDir, n ++ suffix] = relative (placeOf [] n) := joined [] (by simp)
  unfold usualPaths
  split
  · rename_i c cs chars
    rw [flat]
    split
    · refine ⟨_, rfl, ?_⟩
      simp only [List.forall_mem_singleton]
      -- A name may begin with a dot, which leads nowhere.
      by_cases dot : c = '.'
      · refine ⟨[], by simp, by simp, ?_⟩
        rw [dot, ← flat]
        exact Path.join_dot (by decide) _
      · have slash : c ≠ '/' := by
          rintro rfl
          exact literal '/' (chars ▸ List.mem_cons_self) (by simp)
        have component : IsComponent (String.singleton c).toList := by
          simp [IsComponent, dot, slash, eq_comm]
        exact ⟨[String.singleton c], by simp, by simpa using component,
          joined [String.singleton c] (by simpa using component)⟩
    · exact ⟨[], rfl, by simp⟩
  · exact ⟨[], by rw [flat], by simp⟩

/-! ### Files of formulae -/

theorem paths_eq (t : Tap) (d : Disk) :
    t.paths d = (({ disk := d, root := t.path : Disk.Search }).dirsFrom (d.tree.size + 1) formulaDir).flatMap
      fun x => ((({ disk := d, root := t.path : Disk.Search }).names x).filter (endsWith · suffix)).map
        fun n => Path.join [x, n] := by
  have ending : IsLiteral suffix.toList := by decide
  have answers : ∀ n : String, PathPattern.holds? ('*' :: suffix.toList) n.toList = some (endsWith n suffix) := by
    intro n
    rw [PathPattern.holds?_star ending (by decide), Option.some.injEq, Bool.eq_iff_iff, endsWith_suffix_iff,
      List.isSuffixOf_iff_suffix]
    constructor
    · rintro ⟨front, chars⟩
      exact ⟨String.ofList front, by rw [fileOf, ← String.toList_inj, ← chars]; simp⟩
    · rintro ⟨m, rfl⟩
      exact ⟨m.toList, by rw [fileOf, String.toList_append]⟩
  rw [paths, show formulaDir ++ "/**/*" ++ suffix = formulaDir ++ "/**/" ++ String.ofList ('*' :: suffix.toList) from
    rfl, Disk.Search.paths_below _ (by decide) (by simp [suffix]) (by decide) answers, Option.getD_some]

end Tap

namespace Disk.Tree

open Tap

variable {t : Tap} {base base' : Place} {d d' : Disk} {names rest : List String} {n : String}

section

variable (tree : Tree t.path base d)

include tree

theorem toOption_read (further : names ≠ []) (components : ∀ c ∈ names, IsComponent c.toList) :
    (d.read (Path.join [t.path, relative names])).toOption = d.held? (base ++ names) := by
  have finds := tree.toOption_find further components
  rw [Disk.read, Disk.held?]
  cases found : d.find true (Path.join [t.path, relative names]) with
  | error reason =>
    rw [found] at finds
    rw [Option.map_eq_none_iff.mp finds.symm]
    rfl
  | ok result =>
    obtain ⟨place, e⟩ := result
    rw [((tree.find_eq_ok_iff further components _ _).mp found).2]
    cases e with
    | dir mode => rfl
    | link target => rfl
    | file id =>
      simp only [bodyOf?, Option.bind_some]
      cases d.bodies.get? id <;> rfl

theorem exists?_relative (further : names ≠ []) (components : ∀ c ∈ names, IsComponent c.toList) :
    d.exists? (Path.join [t.path, relative names]) = (d.tree.get? (base ++ names)).isSome := by
  have same : d.exists? (Path.join [t.path, relative names]) =
      (d.find true (Path.join [t.path, relative names])).toOption.isSome := by
    rw [Disk.exists?]
    cases d.find true (Path.join [t.path, relative names]) <;> rfl
  rw [same, tree.toOption_find further components, Option.isSome_map]

theorem search_eq (literal : IsLiteral n.toList) :
    ∃ dirs : List (List String), dirs.Pairwise (· < ·) ∧
      (∀ x, x ∈ dirs ↔
        ∃ rest, x = formulaDir :: rest ∧ (d.tree.get? (base ++ placeOf rest n)).isSome) ∧
      t.search d n = .ok (dirs.map fun x => relative (x ++ [fileOf n])) := by
  refine ⟨(Disk.dirsBelow d base (d.tree.size + 1) [formulaDir]).filter fun x =>
    (d.tree.get? (base ++ x ++ [fileOf n])).isSome, ?_, ?_, ?_⟩
  · exact (Disk.dirsBelow_ascending d base _ _).filter _
  · intro x
    rw [List.mem_filter, Disk.mem_dirsBelow_size tree.inDir]
    constructor
    · rintro ⟨⟨rest, rfl, -⟩, present⟩
      exact ⟨rest, rfl, by simpa [placeOf] using present⟩
    · rintro ⟨rest, rfl, present⟩
      have present : (d.tree.get? (base ++ formulaDir :: rest ++ [fileOf n])).isSome := by
        simpa [placeOf] using present
      obtain ⟨e, found⟩ := Option.isSome_iff_exists.mp present
      exact ⟨⟨rest, rfl, tree.inDir _ _ e found⟩, present⟩
  · have pattern : formulaDir ++ "/**/" ++ n ++ suffix = formulaDir ++ "/**/" ++ fileOf n := by
      rw [fileOf, String.append_assoc]
    rw [search, pattern, Disk.Search.paths_everywhere tree (by decide) (by decide)
      (isLiteral_fileOf literal) (isComponent_fileOf literal)]

theorem components_of_isSome (literal : IsLiteral n.toList)
    (present : (d.tree.get? (base ++ placeOf rest n)).isSome) :
    ∀ c ∈ placeOf rest n, IsComponent c.toList := by
  obtain ⟨e, found⟩ := Option.isSome_iff_exists.mp present
  refine components_placeOf literal ?_
  intro c member
  exact (tree.named _ e found c (by simp [placeOf, member])).1

theorem find_eq_ok (literal : IsLiteral n.toList) {p : String} (found : t.find d n = .ok p) :
    ∃ rest, (d.tree.get? (base ++ placeOf rest n)).isSome ∧ p = relative (placeOf rest n) := by
  obtain ⟨others, usual, nested⟩ := usualPaths_eq literal
  rw [Tap.find] at found
  simp only [bind, Except.bind, pure, Except.pure] at found
  split at found
  · cases found
  split at found
  · rename_i q first
    cases found
    have exist := List.find?_some first
    have member := List.mem_of_find?_eq_some first
    rw [usual, List.mem_cons] at member
    rcases member with rfl | member
    · rw [tree.exists?_relative (by simp [placeOf]) (components_placeOf literal (by simp))] at exist
      exact ⟨[], exist, rfl⟩
    · obtain ⟨rest, -, components, rfl⟩ := nested _ member
      rw [tree.exists?_relative (by simp [placeOf]) (components_placeOf literal components)] at exist
      exact ⟨rest, exist, rfl⟩
  · obtain ⟨dirs, -, member, searched⟩ := tree.search_eq literal
    rw [searched] at found
    cases dirs with
    | nil => cases found
    | cons x dirs =>
      cases found
      obtain ⟨rest, rfl, present⟩ := (member x).mp List.mem_cons_self
      exact ⟨rest, present, rfl⟩

theorem find_congr (tree' : Tree t.path base' d')
    (literal : IsLiteral n.toList)
    (same : ∀ rest, (d.tree.get? (base ++ placeOf rest n)).isSome =
      (d'.tree.get? (base' ++ placeOf rest n)).isSome) :
    t.find d n = t.find d' n := by
  have exist : ∀ p ∈ usualPaths n,
      d.exists? (Path.join [t.path, p]) = d'.exists? (Path.join [t.path, p]) := by
    obtain ⟨others, usual, nested⟩ := usualPaths_eq literal
    have there : ∀ rest, (∀ c ∈ rest, IsComponent c.toList) →
        d.exists? (Path.join [t.path, relative (placeOf rest n)]) =
          d'.exists? (Path.join [t.path, relative (placeOf rest n)]) := by
      intro rest components
      have components := components_placeOf literal components
      rw [tree.exists?_relative (by simp [placeOf]) components,
        tree'.exists?_relative (by simp [placeOf]) components, same]
    rw [usual, List.forall_mem_cons]
    refine ⟨there [] (by simp), ?_⟩
    intro p member
    obtain ⟨rest, -, components, rfl⟩ := nested p member
    exact there rest components
  have firsts : (usualPaths n).find? (fun p => d.exists? (Path.join [t.path, p])) =
      (usualPaths n).find? fun p => d'.exists? (Path.join [t.path, p]) :=
    List.find?_congr exist
  have searches : t.search d n = t.search d' n := by
    obtain ⟨dirs, ascending, member, found⟩ := tree.search_eq literal
    obtain ⟨dirs', ascending', member', found'⟩ := tree'.search_eq literal
    have distinct : ∀ {l : List (List String)}, l.Pairwise (· < ·) → l.Nodup := by
      intro l ascending
      refine ascending.imp ?_
      rintro a b less rfl
      exact List.lt_irrefl a less
    have equal : dirs = dirs' := by
      refine List.Perm.eq_of_pairwise ?_ ascending ascending' ?_
      · exact fun a b _ _ less greater => absurd (List.lt_trans less greater) (List.lt_irrefl a)
      · rw [List.perm_ext_iff_of_nodup (distinct ascending) (distinct ascending')]
        intro x
        simp only [member, member', same]
    rw [found, found', equal]
  rw [Tap.find, Tap.find, firsts, searches]

theorem toOption_load_congr (tree' : Tree t.path base' d') (literal : IsLiteral n.toList)
    (same : ∀ rest, d.seen? (base ++ placeOf rest n) = d'.seen? (base' ++ placeOf rest n)) :
    (t.load d n).toOption = (t.load d' n).toOption := by
  have there : ∀ rest, (d.tree.get? (base ++ placeOf rest n)).isSome =
      (d'.tree.get? (base' ++ placeOf rest n)).isSome := by
    intro rest
    rw [← isSome_seen?, same, isSome_seen?]
  have finds := tree.find_congr tree' literal there
  cases found : t.find d n with
  | error fault =>
    rw [load, load, ← finds, found]
    rfl
  | ok p =>
    obtain ⟨rest, present, rfl⟩ := tree.find_eq_ok literal found
    have components := tree.components_of_isSome literal present
    have read := tree.toOption_read (by simp [placeOf]) components
    have read' := tree'.toOption_read (by simp [placeOf]) components
    rw [← join_seen?, same, join_seen?, ← read'] at read
    rw [load, load, ← finds, found]
    simp only [bind, Except.bind, Formula.load]
    rcases ok_or_error_of_toOption read with ⟨bytes, first, second⟩ | ⟨e, e', first, second⟩
    · rw [first, second]
    · rw [first, second]
      rfl

end

/-! ### Listings of formulae -/

variable (tree : Tree t.path base d)

include tree

theorem mem_paths (literal : IsLiteral n.toList)
    (present : (d.tree.get? (base ++ placeOf rest n)).isSome) : n ∈ (t.paths d).map Path.stem := by
  have components := tree.components_of_isSome literal present
  obtain ⟨e, found⟩ := Option.isSome_iff_exists.mp present
  have split : base ++ placeOf rest n = base ++ formulaDir :: rest ++ [fileOf n] := by simp [placeOf]
  rw [split] at found
  have holder := tree.inDir _ _ e found
  rw [placeOf, List.forall_mem_append] at components
  have dirs := Disk.Search.dirsFrom_relative tree (d.tree.size + 1) (List.cons_ne_nil formulaDir []) (by decide)
  rw [show relative [formulaDir] = formulaDir by simp [relative]] at dirs
  have listed := Disk.Search.names_relative tree (List.cons_ne_nil formulaDir rest) components.1
  rw [if_pos ((Disk.isDir_iff ..).mpr holder)] at listed
  refine List.mem_map.mpr ⟨relative (placeOf rest n), ?_, stem_placeOf literal rest⟩
  rw [paths_eq, List.mem_flatMap, dirs]
  refine ⟨relative (formulaDir :: rest), List.mem_map_of_mem ?_, ?_⟩
  · exact (Disk.mem_dirsBelow_size tree.inDir _ _).mpr ⟨rest, rfl, holder⟩
  rw [listed, List.mem_map]
  refine ⟨fileOf n, List.mem_filter.mpr ⟨List.mem_map.mpr ⟨(fileOf n, e), ?_, rfl⟩, ?_⟩, ?_⟩
  · exact (Disk.mem_children_iff ..).mpr found
  · exact (endsWith_suffix_iff _).mpr ⟨n, rfl⟩
  · exact Path.join_relative_component (List.cons_ne_nil _ _) components.1 (isComponent_fileOf literal)

end Disk.Tree

namespace Tap

variable {t : Tap} {content content' : Content} {base base' : Place} {d d' : Disk}
  {names rest : List String} {n : String} {bytes : ByteArray}

/-! ### Taps that hold a content -/

/-- Some file of a content belongs to a formula of this name. -/
def Holds (content : Content) (n : String) : Prop :=
  Formula.isName n ∧ ∃ rest, (content.get? (placeOf rest n)).isSome

namespace ShowsAt

variable (shows : t.ShowsAt content base d)

include shows

theorem held?_isSome (n : String) (rest : List String) :
    (d.tree.get? (base ++ placeOf rest n)).isSome = (content.get? (placeOf rest n)).isSome := by
  rw [← shows.holds _ (by simp [placeOf]), Disk.held?]
  cases found : d.tree.get? (base ++ placeOf rest n) with
  | none => rfl
  | some e =>
    cases e with
    | dir mode =>
      have unlike := shows.unlike (formulaDir :: rest) (fileOf n) mode
        (by simpa [placeOf] using found)
      rw [(endsWith_suffix_iff _).mpr ⟨n, rfl⟩] at unlike
      cases unlike
    | file body =>
      have bodied := shows.bodied _ body found
      obtain ⟨b, same⟩ := Option.isSome_iff_exists.mp bodied
      simp [Disk.bodyOf?, same]
    | link target => exact absurd found (shows.noLink _ target (by simp [placeOf]))

theorem read_relative (further : names ≠ [])
    (components : ∀ c ∈ names, IsComponent c.toList) (found : content.get? names = some bytes) :
    d.read (Path.join [t.path, relative names]) = .ok bytes := by
  have read := shows.toOption_read further components
  rw [shows.holds names further, found] at read
  cases outcome : d.read (Path.join [t.path, relative names]) with
  | error fault =>
    rw [outcome] at read
    cases read
  | ok bytes =>
    rw [outcome] at read
    cases read
    rfl

theorem find_eq_ok (literal : IsLiteral n.toList) {p : String} (found : t.find d n = .ok p) :
    ∃ rest bytes, content.get? (placeOf rest n) = some bytes ∧ p = relative (placeOf rest n) := by
  obtain ⟨rest, present, path⟩ := shows.toTree.find_eq_ok literal found
  rw [shows.held?_isSome] at present
  obtain ⟨bytes, held⟩ := Option.isSome_iff_exists.mp present
  exact ⟨rest, bytes, held, path⟩

theorem find_congr (shows' : t.ShowsAt content' base' d') (literal : IsLiteral n.toList)
    (same : ∀ rest, content.get? (placeOf rest n) = content'.get? (placeOf rest n)) :
    t.find d n = t.find d' n := by
  refine shows.toTree.find_congr shows'.toTree literal ?_
  intro rest
  rw [shows.held?_isSome, shows'.held?_isSome, same]

theorem load_congr (shows' : t.ShowsAt content' base' d') (literal : IsLiteral n.toList)
    (same : ∀ rest, content.get? (placeOf rest n) = content'.get? (placeOf rest n)) :
    t.load d n = t.load d' n := by
  have finds := shows.find_congr shows' literal same
  cases found : t.find d n with
  | error fault =>
    rw [load, load, ← finds, found]
    rfl
  | ok p =>
    obtain ⟨rest, bytes, held, rfl⟩ := shows.find_eq_ok literal found
    have present : (d.tree.get? (base ++ placeOf rest n)).isSome := by
      rw [shows.held?_isSome, held]
      rfl
    have components := shows.components_of_isSome literal present
    have read := shows.read_relative (by simp [placeOf]) components held
    have read' := shows'.read_relative (by simp [placeOf]) components (same rest ▸ held)
    rw [load, load, ← finds, found]
    simp only [bind, Except.bind, Formula.load, read, read']

theorem holds_of_load (named : Formula.isName n = true)
    {f : Formula} (loaded : t.load d n = .ok f) : Holds content n := by
  cases found : t.find d n with
  | error fault =>
    rw [load, found] at loaded
    cases loaded
  | ok p =>
    obtain ⟨rest, bytes, held, rfl⟩ := shows.find_eq_ok (isLiteral_of_isName named) found
    exact ⟨named, rest, by rw [held]; rfl⟩

theorem mem_paths (literal : IsLiteral n.toList)
    (file : (content.get? (placeOf rest n)).isSome) : n ∈ (t.paths d).map Path.stem :=
  shows.toTree.mem_paths literal (by rwa [shows.held?_isSome])

end ShowsAt

/-! ### Aliases -/

/-- The table of aliases that a content says; one that cannot be read is empty. -/
def tableOf (content : Content) : Dict String String :=
  match content.get? ["aliases"] with
  | some bytes => (readAliases ((String.fromUTF8? bytes).getD "")).toOption.getD {}
  | none => {}

/-- The aliases of a tap are those of its file, if there is one that can be read. -/
theorem toOption_aliases (tree : Tree t.path base d) :
    (t.aliases d).toOption =
      match d.seen? (base ++ ["aliases"]) with
      | none => some {}
      | some none => none
      | some (some bytes) => (readAliases ((String.fromUTF8? bytes).getD "")).toOption := by
  have further : ["aliases"] ≠ [] := List.cons_ne_nil _ _
  have component : ∀ c ∈ ["aliases"], IsComponent c.toList := by decide
  have alone : relative ["aliases"] = "aliases" := by simp [relative]
  have read := tree.toOption_read further component
  rw [alone, ← Disk.join_seen?] at read
  cases found : d.tree.get? (base ++ ["aliases"]) with
  | none =>
    obtain ⟨left, located⟩ := tree.locate further component
    have missing : d.find true (Path.join [t.path, "aliases"]) = .error .missing := by
      have absent : d.entry? (base ++ ["aliases"]) = none := by
        rw [ Disk.entry?, if_neg (by simp), found]
      rw [← alone, Disk.find, located, Disk.walk_absent (by decide) found]
      simp only [bind, Except.bind, absent]
      rfl
    rw [aliases, missing, Disk.seen?, found]
    rfl
  | some e =>
    have there := (tree.find_eq_ok_iff further component _ e).mpr ⟨rfl, found⟩
    have seen : d.seen? (base ++ ["aliases"]) = some ((d.bodyOf? e).map (·.content)) := by
      rw [Disk.seen?, found, Option.map_some]
    rw [alone] at there
    rw [seen, Option.join_some] at read
    rw [aliases, there, seen]
    cases body : (d.bodyOf? e).map (·.content) <;>
      cases outcome : d.read (Path.join [t.path, "aliases"]) <;>
      simp_all [bind, Except.bind, Except.toOption]

theorem ShowsAt.aliases_getD (shows : t.ShowsAt content base d) :
    (t.aliases d).toOption.getD {} = tableOf content := by
  rw [toOption_aliases shows.toTree, tableOf, ← shows.holds _ (List.cons_ne_nil "aliases" []),
    ← Disk.join_seen?]
  cases d.seen? (base ++ ["aliases"]) with
  | none => rfl
  | some held => cases held <;> rfl

/-! ### Taps on given disks -/

/-- An entry of a disk can be part of a tap at `base`, or lies elsewhere. -/
def fits (d : Disk) (base place : Place) (e : Disk.Entry) : Bool :=
  d.isDir place.dropLast && (!Disk.isBelow base place ||
    (place.drop base.length).all (fun c => IsName c) &&
      match e with
      | .dir _ => !endsWith (place.getLast?.getD "") suffix
      | .file body => (d.bodies.get? body).isSome
      | .link _ => false)

theorem fits_below {names : List String} {e : Disk.Entry} (fit : fits d base (base ++ names) e = true) :
    (∀ c ∈ names, IsName c) ∧ (∀ target, e ≠ .link target) ∧
      (∀ body, e = .file body → (d.bodies.get? body).isSome) ∧
      ∀ mode, e = .dir mode → endsWith ((base ++ names).getLast?.getD "") suffix = false := by
  have below : Disk.isBelow base (base ++ names) = true :=
    List.isPrefixOf_iff_prefix.mpr (List.prefix_append base names)
  simp only [fits, below, Bool.not_true, Bool.false_or, Bool.and_eq_true, List.drop_left,
    List.all_eq_true, decide_eq_true_eq] at fit
  obtain ⟨-, named, kind⟩ := fit
  refine ⟨named, ?_, ?_, ?_⟩
  · rintro target rfl
    cases kind
  · rintro body rfl
    exact kind
  · rintro mode rfl
    simpa using kind

/-- All entries of a disk fit to a tap at `base`. -/
def isShown (t : Tap) (base : Place) (d : Disk) : Bool :=
  (d.locate true (Path.clean t.path)).toOption = some base && d.isDir base &&
    d.tree.toList.all fun x => fits d base x.1 x.2

theorem showsAt_of_isShown (shown : t.isShown base d = true) : t.ShowsAt (d.filesBelow base) base d := by
  simp only [isShown, Bool.and_eq_true, decide_eq_true_eq, List.all_eq_true] at shown
  obtain ⟨⟨there, isDir⟩, fit⟩ := shown
  have fit : ∀ place e, d.tree.get? place = some e → fits d base place e = true :=
    fun place e found => fit (place, e) ((d.tree.get?_eq_some_iff place e).mp found)
  refine ⟨⟨?_, eq_ok_of_toOption there, (Disk.isDir_iff ..).mp isDir, ?_, ?_⟩, ?_, ?_, ?_⟩
  · intro p c e found
    have above := (Bool.and_eq_true_iff.mp (fit _ e found)).1
    rw [List.dropLast_concat] at above
    exact (Disk.isDir_iff ..).mp above
  · exact fun names e found => (fits_below (fit _ e found)).1
  · exact fun names target _ found => (fits_below (fit _ _ found)).2.1 target rfl
  · exact fun names further => (d.get?_filesBelow base further).symm
  · exact fun names body found => (fits_below (fit _ _ found)).2.2.1 body rfl
  · intro names name mode found
    rw [List.append_assoc] at found
    simpa using (fits_below (fit _ _ found)).2.2.2 mode rfl

end Tap

end Taproom
