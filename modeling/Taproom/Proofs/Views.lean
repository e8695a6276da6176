import Mathlib.Data.List.Flatten
import Taproom.Proofs.Directories
import Taproom.Proofs.Tap

/-!
The two views of a tap: the listing of all its formulae, and the lookup of one by name. Both know the
same names. Of several files of one name the listing keeps the last, while a lookup takes one at a usual
place or else the first.
-/

namespace Taproom

open Disk (Place HasDir IsName)
open Path (IsComponent relative)
open PathPattern (IsLiteral)

namespace Disk.Search

variable {s : Search} {fuel : Nat} {names : List String} {c : String}

theorem mem_names (inDir : ∀ p c e, s.disk.tree.get? (p ++ [c]) = some e → HasDir s.disk.tree p)
    (home : HasDir s.disk.tree s.disk.cwd) (further : names ≠ [])
    (components : ∀ c ∈ names, IsComponent c.toList) (last : IsComponent c.toList)
    (there : s.disk.exists? (Path.join [s.root, relative (names ++ [c])]) = true) :
    s.isDir (relative names) = true ∧ c ∈ s.names (relative names) := by
  have both : ∀ x ∈ names ++ [c], IsComponent x.toList :=
    List.forall_mem_append.mpr ⟨components, by simpa using last⟩
  obtain ⟨place, e, found⟩ : ∃ place e,
      s.disk.find true (Path.join [s.root, relative (names ++ [c])]) = .ok (place, e) := by
    rw [exists?] at there
    cases outcome : s.disk.find true (Path.join [s.root, relative (names ++ [c])]) with
    | error reason =>
      rw [outcome] at there
      cases there
    | ok found => exact ⟨found.1, found.2, rfl⟩
  rw [find_eq_ok_iff, locate_join _ _ (by simp) both, ← List.append_assoc] at found
  obtain ⟨reached, present⟩ := found
  have start : HasDir s.disk.tree (s.disk.startOf s.root) := by
    rw [startOf]
    split
    · exact Or.inl rfl
    · exact home
  obtain ⟨dir, led, isDir⟩ := walk_front inDir start (List.cons_ne_nil c []) reached
  obtain ⟨left, onward⟩ := walk_append (Or.inl (List.cons_ne_nil c [])) led isDir
  rw [onward] at reached
  obtain ⟨e', child⟩ : ∃ e', s.disk.tree.get? (dir ++ [c]) = some e' := by
    by_contra none
    have absent := Option.eq_none_iff_forall_ne_some.mpr (not_exists.mp none)
    have clear : Clear s.disk.tree true dir [c] := by
      intro before after target split nonempty link
      obtain ⟨rfl, -⟩ : before = [c] ∧ after = [] := by
        simpa [nonempty] using List.append_eq_singleton_iff.mp split.symm
      rw [absent] at link
      cases link
    obtain rfl := walk_straight (by simpa using last) clear reached
    rw [ entry?, if_neg (by simp), absent] at present
    cases present
  obtain ⟨mode, entered⟩ := entry?_of_hasDir isDir
  have located : s.locate? (relative names) = some (dir, .dir mode) := by
    rw [locate?, if_pos (isPlain_relative further components),
      (find_eq_ok_iff ..).mpr ⟨(locate_join _ _ further components).trans led, entered⟩]
    rfl
  refine ⟨by rw [Search.isDir, located], ?_⟩
  rw [Search.names, located]
  exact List.mem_map.mpr ⟨(c, e'), (mem_children_iff ..).mpr child, rfl⟩

theorem mem_dirsFrom_self (isDir : s.isDir (relative names) = true) :
    relative names ∈ s.dirsFrom (fuel + 1) (relative names) := by
  simp [dirsFrom, isDir]

theorem mem_dirsFrom_child (inDir : ∀ p c e, s.disk.tree.get? (p ++ [c]) = some e → HasDir s.disk.tree p)
    (home : HasDir s.disk.tree s.disk.cwd) (further : names ≠ [])
    (components : ∀ c ∈ names, IsComponent c.toList) (last : IsComponent c.toList)
    (isDir : s.isDir (relative (names ++ [c])) = true) :
    relative (names ++ [c]) ∈ s.dirsFrom (fuel + 2) (relative names) := by
  have there : s.disk.exists? (Path.join [s.root, relative (names ++ [c])]) = true := by
    rw [Search.isDir, locate?] at isDir
    rw [exists?]
    cases outcome : s.disk.find true (Path.join [s.root, relative (names ++ [c])]) with
    | error reason => simp [outcome, Except.toOption] at isDir
    | ok found => rfl
  obtain ⟨outer, member⟩ := mem_names inDir home further components last there
  rw [dirsFrom, if_neg (by simp [outer])]
  refine List.mem_cons_of_mem _ (List.mem_flatMap.mpr ⟨_, List.mem_map_of_mem member, ?_⟩)
  rw [Path.join_relative_component further components last]
  exact mem_dirsFrom_self isDir

theorem size_pos_of_mem_names {path : String} (member : c ∈ s.names path) : 0 < s.disk.tree.size := by
  rw [Search.names] at member
  split at member
  · obtain ⟨⟨n, e⟩, child, -⟩ := List.mem_map.mp member
    obtain ⟨entry, stored, -⟩ := List.mem_filterMap.mp child
    exact List.length_pos_of_mem stored
  · cases member

section

variable (named : ∀ p e, s.disk.tree.get? p = some e → ∀ c ∈ p, IsName c)

include named

theorem isComponent_of_mem_names {path : String} (member : c ∈ s.names path) : IsComponent c.toList := by
  rw [Search.names] at member
  split at member
  · obtain ⟨⟨n, e⟩, child, rfl⟩ := List.mem_map.mp member
    exact (named _ e ((mem_children_iff ..).mp child) n (by simp)).1
  · cases member

theorem relative_of_mem_dirsFrom (further : names ≠ []) (components : ∀ c ∈ names, IsComponent c.toList)
    {path : String} (member : path ∈ s.dirsFrom fuel (relative names)) :
    ∃ all, all ≠ [] ∧ (∀ c ∈ all, IsComponent c.toList) ∧ path = relative all := by
  induction fuel generalizing names with
  | zero => cases member
  | succ fuel ih =>
    rw [dirsFrom] at member
    split at member
    · cases member
    rcases List.mem_cons.mp member with rfl | inside
    · exact ⟨names, further, components, rfl⟩
    · obtain ⟨next, isNext, below⟩ := List.mem_flatMap.mp inside
      obtain ⟨c, isName, rfl⟩ := List.mem_map.mp isNext
      have last := isComponent_of_mem_names named isName
      rw [Path.join_relative_component further components last] at below
      exact ih (by simp) (List.forall_mem_append.mpr ⟨components, by simpa using last⟩) below

end

end Disk.Search

namespace Tap

variable {t : Tap} {d : Disk} {n : String}

def filesOf (t : Tap) (d : Disk) (n : String) : List String :=
  (t.paths d).filter fun p => Path.stem p = n

theorem get?_names (t : Tap) (d : Disk) (n : String) : (t.names d).get? n = (t.filesOf d n).getLast? := by
  rw [names, filesOf]
  induction t.paths d using List.reverseRecOn with
  | nil => rfl
  | append_singleton l p ih =>
    rw [List.map_append, List.map_singleton, Dict.ofList, List.foldl_concat, ← Dict.ofList, List.filter_append]
    by_cases same : Path.stem p = n
    · simp [same, Dict.get?_insert_self]
    · simp [same, Dict.get?_insert_of_ne _ (Ne.symm same), ih]

theorem search_eq_filesOf (named : ∀ p e, d.tree.get? p = some e → ∀ c ∈ p, IsName c)
    (literal : IsLiteral n.toList) : t.search d n = .ok (t.filesOf d n) := by
  have among : ['\\', '[', '\x7b', '\x7d', '/'] ⊆ ['\\', '*', '?', '[', ']', '\x7b', '\x7d', '/'] := by decide
  have fileLiteral := isLiteral_fileOf literal
  have found := Disk.Search.paths_below { disk := d, root := t.path : Disk.Search }
    (show IsLiteral formulaDir.toList by decide) (fun c member special => fileLiteral c member (among special))
    ⟨(isComponent_fileOf literal).1, fun stars => fileLiteral '*' (stars ▸ List.mem_cons_self) (by simp)⟩
    (Disk.Search.holds?_literal fileLiteral)
  rw [String.ofList_toList, fileOf, ← String.append_assoc] at found
  rw [search, found, filesOf, paths_eq, List.filter_flatMap]
  refine congrArg Except.ok (List.flatMap_congr fun x member => ?_)
  obtain ⟨all, further, components, rfl⟩ := Disk.Search.relative_of_mem_dirsFrom named
    (List.cons_ne_nil formulaDir []) (by decide) (show x ∈ Disk.Search.dirsFrom _ _ (relative [formulaDir]) by
      simpa [relative] using member)
  rw [List.filter_map, List.filter_filter]
  refine congrArg _ (List.filter_congr fun c isName => ?_)
  have last := Disk.Search.isComponent_of_mem_names named isName
  rw [Bool.eq_iff_iff, beq_iff_eq, Bool.and_eq_true, Function.comp_apply, decide_eq_true_eq,
    Path.join_relative_component further components last, endsWith_suffix_iff]
  constructor
  · rintro rfl
    exact ⟨stem_file all last, n, rfl⟩
  · rintro ⟨stem, m, rfl⟩
    rw [stem_file all last] at stem
    rw [stem, fileOf]

theorem mem_filesOf_usual (inDir : ∀ p c e, d.tree.get? (p ++ [c]) = some e → HasDir d.tree p)
    (home : HasDir d.tree d.cwd) (literal : IsLiteral n.toList) {p : String}
    (usual : p ∈ usualPaths n) (there : d.exists? (Path.join [t.path, p]) = true) : p ∈ t.filesOf d n := by
  obtain ⟨others, paths, nested⟩ := usualPaths_eq literal
  obtain ⟨rest, short, components, rfl⟩ : ∃ rest, rest.length ≤ 1 ∧ (∀ c ∈ rest, IsComponent c.toList) ∧
      p = relative (placeOf rest n) := by
    rw [paths, List.mem_cons] at usual
    rcases usual with rfl | other
    · exact ⟨[], by simp, by simp, rfl⟩
    · exact nested p other
  have all : ∀ c ∈ formulaDir :: rest, IsComponent c.toList := by
    rw [List.forall_mem_cons]
    exact ⟨by decide, components⟩
  have last := isComponent_fileOf literal
  have file := Disk.Search.mem_names (s := { disk := d, root := t.path : Disk.Search }) inDir home
    (List.cons_ne_nil formulaDir rest) all last there
  have inDirs : relative (formulaDir :: rest) ∈
      ({ disk := d, root := t.path : Disk.Search }).dirsFrom (d.tree.size + 1) formulaDir := by
    have alone : relative [formulaDir] = formulaDir := by simp [relative]
    rw [← alone]
    cases rest with
    | nil => exact Disk.Search.mem_dirsFrom_self file.1
    | cons c rest =>
      obtain rfl : rest = [] := by simpa using short
      obtain ⟨k, size⟩ := Nat.exists_eq_succ_of_ne_zero (Disk.Search.size_pos_of_mem_names file.2).ne'
      rw [show d.tree.size = k + 1 from size]
      exact Disk.Search.mem_dirsFrom_child inDir home (List.cons_ne_nil formulaDir []) (by decide)
        (components c List.mem_cons_self) file.1
  rw [filesOf, List.mem_filter, paths_eq, List.mem_flatMap]
  refine ⟨⟨_, inDirs, List.mem_map.mpr ⟨fileOf n, List.mem_filter.mpr ⟨file.2, ?_⟩, ?_⟩⟩, ?_⟩
  · exact (endsWith_suffix_iff _).mpr ⟨n, rfl⟩
  · exact Path.join_relative_component (List.cons_ne_nil _ _) all last
  · exact decide_eq_true (stem_placeOf literal rest)

theorem toOption_find (named : ∀ p e, d.tree.get? p = some e → ∀ c ∈ p, IsName c) (literal : IsLiteral n.toList)
    (some : n ≠ "") : (t.find d n).toOption =
      ((usualPaths n).find? fun p => d.exists? (Path.join [t.path, p])).or (t.filesOf d n).head? := by
  rw [find, if_neg some, search_eq_filesOf named literal]
  cases (usualPaths n).find? fun p => d.exists? (Path.join [t.path, p]) with
  | some p => rfl
  | none => cases t.filesOf d n <;> rfl

/-- The listing and the lookup know the same names, and both say a file of the name. The listing says
the last one; the lookup says one at a usual place, or else the first. They are sure to be of one mind
only where a name has one file. -/
theorem listing_keeps_last_lookup_takes_usual (t : Tap) (d : Disk) (n : String) (sound : d.Sound)
    (home : HasDir d.tree d.cwd) (named : ∀ p e, d.tree.get? p = some e → ∀ c ∈ p, IsName c)
    (isName : Formula.isName n = true) :
    (n ∈ (t.names d).keys ↔ t.has d n = true) ∧
      (t.names d).get? n = (t.filesOf d n).getLast? ∧
      (t.find d n).toOption =
        ((usualPaths n).find? fun p => d.exists? (Path.join [t.path, p])).or (t.filesOf d n).head? ∧
      (∀ p, t.find d n = .ok p → p ∈ t.filesOf d n ∧ t.load d n = Formula.load d (Path.join [t.path, p])) ∧
      ((t.filesOf d n).length ≤ 1 → (t.names d).get? n = (t.find d n).toOption) := by
  have literal := isLiteral_of_isName isName
  have some : n ≠ "" := by
    rintro rfl
    cases isName
  have finds := toOption_find (t := t) named literal some
  have member : ∀ p, t.find d n = .ok p → p ∈ t.filesOf d n := by
    intro p found
    rw [found] at finds
    cases usual : (usualPaths n).find? fun p => d.exists? (Path.join [t.path, p]) with
    | none =>
      rw [usual, Option.none_or] at finds
      exact List.mem_of_head? finds.symm
    | some q =>
      rw [usual, Option.some_or] at finds
      obtain rfl := Option.some.inj finds
      exact mem_filesOf_usual sound.inDir home literal (List.mem_of_find?_eq_some usual)
        (by simpa using List.find?_some usual)
  have lists := get?_names t d n
  have known : t.has d n = true ↔ t.filesOf d n ≠ [] := by
    rw [has]
    cases found : t.find d n with
    | ok p => exact iff_of_true rfl (List.ne_nil_of_mem (member p found))
    | error fault =>
      rw [found] at finds
      refine iff_of_false (by simp [Except.isOk, Except.toBool]) ?_
      rw [not_not, ← List.head?_eq_none_iff]
      exact (Option.or_eq_none_iff.mp finds.symm).2
  refine ⟨?_, lists, finds, ?_, ?_⟩
  · rw [known, ← Dict.get?_isSome_iff, lists, List.getLast?_isSome]
  · intro p found
    exact ⟨member p found, by rw [load, found]; rfl⟩
  · intro few
    rw [lists]
    cases found : t.find d n with
    | error fault =>
      have unknown : ¬ t.has d n = true := by simp [has, found, Except.isOk, Except.toBool]
      rw [known, not_not] at unknown
      rw [unknown]
      rfl
    | ok p =>
      obtain ⟨q, only⟩ := List.length_eq_one_iff.mp
        (Nat.le_antisymm few (List.length_pos_of_mem (member p found)))
      have isIn := member p found
      rw [only, List.mem_singleton] at isIn
      rw [only, isIn]
      rfl

/-- A formula with a file in the main directory and another one below it, and one with a single file. -/
def twins : Disk where
  tree := .ofList [(["tap"], .dir 0o755), (["tap", "Formula"], .dir 0o755), (["tap", "Formula", "a.yml"], .file 0),
    (["tap", "Formula", "b.yml"], .file 1), (["tap", "Formula", "sub"], .dir 0o755),
    (["tap", "Formula", "sub", "a.yml"], .file 1)]
  bodies := .ofList [(0, ⟨"desc: one".toUTF8, 0o644⟩), (1, ⟨"desc: two".toUTF8, 0o644⟩)]
  nextBody := 2

theorem twins_named : ∀ p e, twins.tree.get? p = some e → ∀ c ∈ p, IsName c := by
  have all : ∀ x ∈ twins.tree.toList, ∀ c ∈ x.1, IsName c := by decide
  intro p e found
  exact all (p, e) ((twins.tree.get?_eq_some_iff p e).mp found)

theorem twins_listed_and_found :
    ("a" ∈ (Tap.names ⟨"/tap"⟩ twins).keys ↔ Tap.has ⟨"/tap"⟩ twins "a" = true) ∧
      (Tap.names ⟨"/tap"⟩ twins).get? "b" = (Tap.find ⟨"/tap"⟩ twins "b").toOption := by
  have sound := Disk.sound_of_isSound (show twins.isSound = true by decide)
  have both := listing_keeps_last_lookup_takes_usual ⟨"/tap"⟩ twins "a" sound (Or.inl rfl) twins_named (by decide)
  have single := listing_keeps_last_lookup_takes_usual ⟨"/tap"⟩ twins "b" sound (Or.inl rfl) twins_named (by decide)
  exact ⟨both.1, single.2.2.2.2 (by decide +kernel)⟩

/-- The listing says the file of a formula that a lookup passes over. -/
theorem twin_splits_views :
    (Tap.names ⟨"/tap"⟩ twins).get? "a" = some "Formula/sub/a.yml" ∧
      (Tap.find ⟨"/tap"⟩ twins "a").toOption = some "Formula/a.yml" ∧
      (Tap.load ⟨"/tap"⟩ twins "a").toOption.map (·.desc) = some "one" ∧
      (Formula.load twins "/tap/Formula/sub/a.yml").toOption.map (·.desc) = some "two" := by
  decide +kernel

end Tap

end Taproom
