import Taproom.Proofs.Pouring

/-!
What an archive may name. The name is walked piece by piece from the directory that is unpacked into, and
it is allowed if the walk ends there or below. Where the walk goes on its way does not matter.
-/

namespace Taproom

open Path (IsComponent IsWalked)

namespace Path

variable {names : List String} {root name : String}

/-- One piece of a path from a place, which is given by the names that lead there from the root. -/
def step (here : List String) (piece : String) : List String :=
  if piece = "" ∨ piece = "." then here
  else if piece = ".." then here.dropLast
  else here ++ [piece]

/-- Where the pieces of a path lead from a place. -/
def course (here : List String) (p : String) : List String := (splitAt p '/').foldl step here

theorem step_eq_enter {walked : List (List Char)} {c : List Char} (done : IsWalked true walked.reverse) :
    (enter true walked c).reverse.map String.ofList =
      step (walked.reverse.map String.ofList) (String.ofList c) := by
  have empty : String.ofList c = "" ↔ c = [] := by simp [← String.toList_inj]
  have dot : String.ofList c = "." ↔ c = ['.'] := by simp [← String.toList_inj]
  have up : String.ofList c = ".." ↔ c = ['.', '.'] := by simp [← String.toList_inj]
  simp only [enter.eq_def, step, empty, dot, up]
  split
  · rfl
  · split
    · cases walked with
      | nil => rfl
      | cons top rest =>
        have down : top ≠ ['.', '.'] := (done.components top (by simp)).2.2.1
        simp [down]
    · simp

theorem foldl_enter_eq_step {walked pieces : List (List Char)} (free : ∀ c ∈ pieces, '/' ∉ c)
    (done : IsWalked true walked.reverse) :
    (pieces.foldl (enter true) walked).reverse.map String.ofList =
      (pieces.map String.ofList).foldl step (walked.reverse.map String.ofList) := by
  induction pieces generalizing walked with
  | nil => rfl
  | cons c pieces ih =>
    rw [List.forall_mem_cons] at free
    rw [List.foldl_cons, ih free.2 (enter_isWalked done free.1), step_eq_enter done]
    rfl

/-- The components of a path are where its pieces lead from the root. -/
theorem components_eq_course (p : String) : components p = course [] p :=
  foldl_enter_eq_step (fun _ => free_of_mem_pieces) .nil

theorem isComponent_of_mem_components {p c : String} (member : c ∈ components p) : IsComponent c.toList := by
  obtain ⟨chars, listed, rfl⟩ := List.mem_map.mp member
  rw [String.toList_ofList]
  exact (walk_isWalked true _).components chars listed

section

variable (each : ∀ c ∈ names, IsComponent c.toList)

include each

theorem components_ofComponents : components (ofComponents names) = names := by
  have steps := stepsOf_ofComponents each
  rw [stepsOf, isAbs_ofComponents] at steps
  rw [components, Text.chars_eq, steps]
  simp [Function.comp_def]

theorem course_eq_enter (p : String) :
    course names p = ((pieces p.toList).foldl (enter true) (names.map String.toList).reverse).reverse.map
      String.ofList ∧ ∀ c ∈ course names p, IsComponent c.toList := by
  have done : IsWalked true (names.map String.toList).reverse.reverse := by
    rw [List.reverse_reverse]
    exact .of_components (by simpa using each)
  have same := foldl_enter_eq_step (fun _ (member : _ ∈ pieces p.toList) => free_of_mem_pieces member) done
  have start : (names.map String.toList).reverse.reverse.map String.ofList = names := by
    simp [Function.comp_def]
  have split : (pieces p.toList).map String.ofList = splitAt p '/' := by simp [splitAt, pieces]
  rw [start, split] at same
  refine ⟨same.symm, fun c member => ?_⟩
  rw [course, ← same] at member
  obtain ⟨chars, listed, rfl⟩ := List.mem_map.mp member
  rw [String.toList_ofList]
  exact (foldl_enter_isWalked (fun _ => free_of_mem_pieces) done).components chars listed

/-- A path that is joined to a directory leads where its pieces lead from there. -/
theorem join_eq_course (p : String) : join [ofComponents names, p] = ofComponents (course names p) := by
  rw [join_ofComponents_eq each, (course_eq_enter each p).1]

end

theorem clean_eq_ofComponents (rooted : isAbs root = true) : clean root = ofComponents (components root) := by
  rw [clean_of_isAbs rooted, stepsOf, rooted, components, Text.chars_eq]

end Path

namespace Unpack

open Path (components course ofComponents)

variable {root name : String}

/-- No clean path starts with two slashes. -/
theorem not_startsWith_root {names : List String} (each : ∀ c ∈ names, IsComponent c.toList) :
    startsWith (ofComponents names) (ofComponents [] ++ "/") = false := by
  rw [startsWith, Option.isSome_eq_false_iff, Option.isNone_iff_eq_none, ← Option.not_isSome_iff_eq_none,
    Option.isSome_iff_exists]
  rintro ⟨rest, dropped⟩
  have chars := Text.eq_append_of_dropPrefix? dropped
  rw [Text.chars_eq, Text.chars_eq] at chars
  cases names with
  | nil => simp [ofComponents] at chars
  | cons c more =>
    obtain ⟨filled, -, -, free⟩ := each c (by simp)
    obtain ⟨first, tail, split⟩ := List.exists_cons_of_ne_nil filled
    rw [toList_ofComponents_of_ne (by simp), List.map_cons, List.flatMap_cons, split] at chars
    have second : first = '/' := (List.cons.inj (List.cons.inj chars).2).1
    exact free (by simp [split, second])

/-- A name is allowed if it leads to the directory or below it. Below the root of the disk nothing is. -/
theorem within_eq (rooted : Path.isAbs root = true) (name : String) :
    within root name =
      if components root <+: course (components root) name ∧
          (components root = [] → course (components root) name = []) then
        .ok (ofComponents (course (components root) name))
      else .error (.illegalPath name) := by
  have each : ∀ c ∈ components root, IsComponent c.toList := fun c => Path.isComponent_of_mem_components
  have further := (Path.course_eq_enter each name).2
  have cleaned := Path.clean_eq_ofComponents rooted
  rw [within, cleaned, Path.join_eq_course each]
  generalize components root = names at each further
  generalize course names name = place at further
  by_cases inside : names <+: place ∧ (names = [] → place = [])
  · rw [if_pos inside, if_neg]
    obtain ⟨⟨rest, rfl⟩, root⟩ := inside
    cases rest with
    | nil => simp
    | cons c rest =>
      have some : names ≠ [] := fun none => by simp [none] at root
      simp [startsWith_ofComponents some]
  · rw [if_neg inside, if_pos]
    have other : ofComponents place ≠ ofComponents names := by
      intro same
      have places := congrArg components same
      rw [Path.components_ofComponents further, Path.components_ofComponents each] at places
      exact inside ⟨places ▸ List.prefix_rfl, fun none => places.trans none⟩
    have apart : startsWith (ofComponents place) (ofComponents names ++ "/") = false := by
      by_contra starts
      rw [Bool.not_eq_false] at starts
      obtain ⟨rest, split⟩ := Path.names_of_startsWith each further starts
      refine inside ⟨split ▸ List.prefix_append names rest, ?_⟩
      rintro rfl
      rw [not_startsWith_root further] at starts
      cases starts
    simp [other, apart]

/-- An archive cannot name a file outside the directory that it is unpacked into: what it may name is the
directory itself or is below it, on a path that goes down only. A name is refused exactly if its pieces lead
from the directory to some place outside. They may leave it on the way. Only the root of the disk is
stricter, where a name may lead nowhere else. -/
theorem within_confines (rooted : Path.isAbs root = true) (name : String) :
    (∀ p, within root name = .ok p → Path.clean p = p ∧
      (p = Path.clean root ∨ ∃ c rest,
        components p = components (Path.clean root) ++ c :: rest ∧ ".." ∉ c :: rest)) ∧
      (Path.clean root ≠ "/" → ((∃ fault, within root name = .error fault) ↔
        ¬ course [] root <+: course (course [] root) name)) ∧
      (Path.clean root = "/" → ((∃ fault, within root name = .error fault) ↔
        course [] name ≠ [])) := by
  have each : ∀ c ∈ components root, IsComponent c.toList := fun c => Path.isComponent_of_mem_components
  have further := (Path.course_eq_enter each name).2
  have cleaned := Path.clean_eq_ofComponents rooted
  have top : Path.clean root = "/" ↔ components root = [] := by
    rw [cleaned]
    refine ⟨fun same => ?_, fun none => by rw [none]; rfl⟩
    rw [← Path.components_ofComponents each, same]
    rfl
  have refused : (∃ fault, within root name = .error fault) ↔
      ¬ (components root <+: course (components root) name ∧
        (components root = [] → course (components root) name = [])) := by
    rw [within_eq rooted]
    split <;> simp_all
  rw [refused, ← Path.components_eq_course]
  refine ⟨fun p ended => ?_, fun below => ?_, fun none => ?_⟩
  · rw [within_eq rooted] at ended
    split at ended
    case isFalse => cases ended
    case isTrue inside =>
      cases ended
      obtain ⟨⟨rest, split⟩, -⟩ := inside
      rw [Path.clean_ofComponents further, Path.components_ofComponents further, cleaned,
        Path.components_ofComponents each, ← split]
      refine ⟨rfl, ?_⟩
      cases rest with
      | nil => exact .inl (by rw [List.append_nil])
      | cons c rest =>
        refine .inr ⟨c, rest, rfl, fun up => ?_⟩
        exact (further ".." (split ▸ List.mem_append_right _ up)).2.2.1 rfl
  · have filled : components root ≠ [] := mt top.mpr below
    simp [filled]
  · simp [top.mp none]

/-- A name that leaves the directory and comes back is allowed, and one that ends beside it is not. -/
theorem within_confines_beside : Path.isAbs "/a/b/" = true ∧
    (∃ fault, within "/a/b/" "../bc/x" = .error fault) ∧
      ¬ ∃ fault, within "/a/b/" "../b//./x" = .error fault :=
  have below : Path.clean "/a/b/" ≠ "/" := by decide
  ⟨by decide, ((within_confines (by decide) _).2.1 below).mpr (by decide),
    mt ((within_confines (by decide) _).2.1 below).mp (by decide)⟩

end Unpack

end Taproom
