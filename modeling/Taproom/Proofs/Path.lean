import Mathlib.Data.List.Basic
import Mathlib.Data.List.Induction
import Mathlib.Data.List.TakeDrop
import Mathlib.Data.List.TakeWhile
import Taproom.Path

/-!
Paths seen through the steps that walking them leaves. Cleaning writes these steps down, joining
walks on, and a path whose pieces are all components walks exactly as it is written.
-/

namespace Taproom.Text

variable {sep : Char}

theorem splitAt_ne_nil (sep : Char) (s : List Char) : splitAt sep s ≠ [] := by
  cases s with
  | nil => simp [splitAt]
  | cons c s =>
    rw [splitAt]
    split
    · simp
    · split <;> simp

theorem splitAt_cons_of_ne {c : Char} (ne : c ≠ sep) (s : List Char) :
    ∃ w ws, splitAt sep s = w :: ws ∧ splitAt sep (c :: s) = (c :: w) :: ws := by
  rw [splitAt, if_neg ne]
  cases split : splitAt sep s with
  | nil => exact absurd split (splitAt_ne_nil sep s)
  | cons w ws => exact ⟨w, ws, rfl, rfl⟩

theorem splitAt_append_cons (sep : Char) (a b : List Char) :
    splitAt sep (a ++ sep :: b) = splitAt sep a ++ splitAt sep b := by
  induction a with
  | nil => simp [splitAt]
  | cons c a ih =>
    by_cases same : c = sep
    · subst same
      simp [splitAt, ih]
    · obtain ⟨w, ws, split, whole⟩ := splitAt_cons_of_ne same a
      obtain ⟨w', ws', split', whole'⟩ := splitAt_cons_of_ne same (a ++ sep :: b)
      rw [ih, split, List.cons_append, List.cons.injEq] at split'
      obtain ⟨rfl, rfl⟩ := split'
      rw [List.cons_append, whole, whole', List.cons_append]

theorem splitAt_of_notMem {s : List Char} (absent : sep ∉ s) : splitAt sep s = [s] := by
  induction s with
  | nil => rfl
  | cons c s ih =>
    rw [List.mem_cons, not_or] at absent
    obtain ⟨w, ws, split, whole⟩ := splitAt_cons_of_ne (Ne.symm absent.1) s
    rw [ih absent.2, List.cons.injEq] at split
    rw [whole, ← split.1, ← split.2]

theorem notMem_of_mem_splitAt {s w : List Char} (member : w ∈ splitAt sep s) : sep ∉ w := by
  induction s generalizing w with
  | nil => simp_all [splitAt]
  | cons c s ih =>
    by_cases same : c = sep
    · subst same
      rw [splitAt, if_pos rfl] at member
      rcases List.mem_cons.mp member with rfl | member
      · exact List.not_mem_nil
      · exact ih member
    · obtain ⟨v, vs, split, whole⟩ := splitAt_cons_of_ne same s
      rw [whole] at member
      rcases List.mem_cons.mp member with rfl | member
      · rw [List.mem_cons, not_or]
        exact ⟨Ne.symm same, ih (split ▸ List.mem_cons_self)⟩
      · exact ih (split ▸ List.mem_cons_of_mem v member)

theorem joinWith_cons_cons (sep w v : List Char) (ws : List (List Char)) :
    joinWith sep (w :: v :: ws) = w ++ sep ++ joinWith sep (v :: ws) := rfl

theorem splitAt_joinWith {ws : List (List Char)} (some : ws ≠ []) (free : ∀ w ∈ ws, sep ∉ w) :
    splitAt sep (joinWith [sep] ws) = ws := by
  induction ws with
  | nil => exact absurd rfl some
  | cons w ws ih =>
    have first := splitAt_of_notMem (free w List.mem_cons_self)
    cases ws with
    | nil => exact first
    | cons v ws =>
      have rest := ih (List.cons_ne_nil v ws) fun u member => free u (List.mem_cons_of_mem w member)
      rw [joinWith_cons_cons, List.append_assoc, List.singleton_append, splitAt_append_cons,
        first, rest, List.singleton_append]

theorem joinWith_eq_intercalate (sep : List Char) (ws : List (List Char)) :
    joinWith sep ws = sep.intercalate ws := by
  induction ws with
  | nil => rfl
  | cons w ws ih =>
    cases ws with
    | nil => simp [joinWith]
    | cons v ws => rw [joinWith_cons_cons, ih, List.intercalate_cons_cons, List.append_assoc]

end Taproom.Text

namespace Taproom.Path

open Text (joinWith)

/-- A piece of a path that leads one step down. -/
def IsComponent (c : List Char) : Prop := c ≠ [] ∧ c ≠ ['.'] ∧ c ≠ ['.', '.'] ∧ '/' ∉ c

instance : DecidablePred IsComponent := fun _ =>
  inferInstanceAs (Decidable (_ ∧ _ ∧ _ ∧ _))

theorem IsComponent.append {c more : List Char} (component : IsComponent c) (free : '/' ∉ more) :
    IsComponent (c ++ more) := by
  obtain ⟨nonempty, notDot, notUp, bare⟩ := component
  refine ⟨by simp [nonempty], ?_, ?_, by simp [bare, free]⟩
  · intro same
    rcases List.append_eq_singleton_iff.mp same with ⟨none, -⟩ | ⟨dot, -⟩
    · exact nonempty none
    · exact notDot dot
  · intro same
    obtain ⟨x, rest, rfl⟩ := List.exists_cons_of_ne_nil nonempty
    obtain ⟨rfl, tail⟩ := List.cons.inj same
    rcases List.append_eq_singleton_iff.mp tail with ⟨rfl, -⟩ | ⟨rfl, -⟩
    · exact notDot rfl
    · exact notUp rfl

def up : List Char := ['.', '.']

theorem isComponent_of_head {c : Char} {rest : List Char} (notDot : c ≠ '.')
    (free : '/' ∉ c :: rest) : IsComponent (c :: rest) :=
  ⟨by simp, by simp [notDot], by simp [notDot], free⟩

/-- What walking leaves, outermost first: steps down, and steps up before them unless the path is
rooted. -/
def IsWalked (rooted : Bool) (steps : List (List Char)) : Prop :=
  ∃ ups cs, steps = List.replicate ups up ++ cs ∧ (rooted = true → ups = 0) ∧ ∀ c ∈ cs, IsComponent c

variable {rooted : Bool} {walked cs steps : List (List Char)} {c p : List Char}

theorem enter_stays (stays : c = [] ∨ c = ['.']) : enter rooted walked c = walked := by
  simp [enter, stays]

theorem enter_component (component : IsComponent c) : enter rooted walked c = c :: walked := by
  obtain ⟨nonempty, notDot, notUp, -⟩ := component
  simp [enter, nonempty, notDot, notUp]

theorem foldl_enter_components (components : ∀ c ∈ cs, IsComponent c) :
    cs.foldl (enter rooted) walked = cs.reverse ++ walked := by
  induction cs generalizing walked with
  | nil => rfl
  | cons c cs ih =>
    rw [List.foldl_cons, enter_component (components c List.mem_cons_self),
      ih fun d member => components d (List.mem_cons_of_mem c member)]
    simp

theorem foldl_enter_ups (ups k : Nat) :
    (List.replicate ups up).foldl (enter false) (List.replicate k up) =
      List.replicate (ups + k) up := by
  induction ups generalizing k with
  | zero => simp
  | succ ups ih =>
    have step : enter false (List.replicate k up) up = List.replicate (k + 1) up := by
      cases k <;> simp [enter, up, List.replicate_succ]
    rw [List.replicate_succ, List.foldl_cons, step, ih]
    congr 1
    omega

theorem walk_of_isWalked (done : IsWalked rooted steps) : walk rooted steps = steps := by
  obtain ⟨ups, cs, rfl, downOnly, components⟩ := done
  have climbed : (List.replicate ups up).foldl (enter rooted) [] = List.replicate ups up := by
    cases rooted with
    | true => rw [downOnly rfl, List.replicate_zero, List.foldl_nil]
    | false => simpa using foldl_enter_ups ups 0
  rw [walk, List.foldl_append, climbed, foldl_enter_components components]
  simp

theorem enter_up (ups : Nat) (components : ∀ c ∈ cs, IsComponent c)
    (downOnly : rooted = true → ups = 0) :
    ∃ ups' cs', enter rooted (cs ++ List.replicate ups up) up = cs' ++ List.replicate ups' up ∧
      (rooted = true → ups' = 0) ∧ ∀ c ∈ cs', IsComponent c := by
  cases cs with
  | cons c cs =>
    have notUp : c ≠ ['.', '.'] := (components c List.mem_cons_self).2.2.1
    refine ⟨ups, cs, ?_, downOnly, fun d member => components d (List.mem_cons_of_mem c member)⟩
    simp [enter, up, notUp]
  | nil =>
    cases rooted with
    | true =>
      obtain rfl := downOnly rfl
      exact ⟨0, [], by simp [enter, up], fun _ => rfl, by simp⟩
    | false =>
      refine ⟨ups + 1, [], ?_, by simp, by simp⟩
      cases ups <;> simp [enter, up, List.replicate_succ]

theorem enter_isWalked (done : IsWalked rooted walked.reverse) (piece : '/' ∉ c) :
    IsWalked rooted (enter rooted walked c).reverse := by
  obtain ⟨ups, cs, same, downOnly, components⟩ := done
  rw [List.reverse_eq_iff, List.reverse_append, List.reverse_replicate] at same
  by_cases stays : c = [] ∨ c = ['.']
  · rw [enter_stays stays]
    exact ⟨ups, cs, by simp [same], downOnly, components⟩
  · by_cases isUp : c = up
    · have innermost : ∀ d ∈ cs.reverse, IsComponent d := fun d member =>
        components d (List.mem_reverse.mp member)
      obtain ⟨ups', cs', entered, downOnly, components⟩ := enter_up ups innermost downOnly
      rw [same, isUp, entered]
      exact ⟨ups', cs'.reverse, by simp, downOnly, by simpa using components⟩
    · rw [not_or] at stays
      have component : IsComponent c := ⟨stays.1, stays.2, isUp, piece⟩
      rw [enter_component component]
      refine ⟨ups, cs ++ [c], by simp [same], downOnly, ?_⟩
      intro d member
      rcases List.mem_append.mp member with member | member
      · exact components d member
      · rwa [List.mem_singleton.mp member]

theorem foldl_enter_isWalked {pieces : List (List Char)} (free : ∀ c ∈ pieces, '/' ∉ c)
    (done : IsWalked rooted walked.reverse) :
    IsWalked rooted (pieces.foldl (enter rooted) walked).reverse := by
  induction pieces generalizing walked with
  | nil => exact done
  | cons c pieces ih =>
    rw [List.foldl_cons]
    apply ih fun d member => free d (List.mem_cons_of_mem c member)
    exact enter_isWalked done (free c List.mem_cons_self)

theorem free_of_mem_pieces (member : c ∈ pieces p) : '/' ∉ c := Text.notMem_of_mem_splitAt member

theorem IsWalked.nil : IsWalked rooted [] := ⟨0, [], rfl, fun _ => rfl, by simp⟩

theorem walk_isWalked (rooted : Bool) (p : List Char) : IsWalked rooted (walk rooted (pieces p)) :=
  foldl_enter_isWalked (fun _ => free_of_mem_pieces) .nil

theorem IsWalked.piece (done : IsWalked rooted steps) (member : c ∈ steps) : c ≠ [] ∧ '/' ∉ c := by
  obtain ⟨ups, cs, rfl, -, components⟩ := done
  rcases List.mem_append.mp member with member | member
  · rw [List.eq_of_mem_replicate member]
    decide
  · exact ⟨(components c member).1, (components c member).2.2.2⟩

theorem IsWalked.components_after {before after : List (List Char)}
    (done : IsWalked rooted (before ++ c :: after)) (component : IsComponent c) :
    ∀ d ∈ after, IsComponent d := by
  obtain ⟨ups, cs, same, -, components⟩ := done
  rcases List.append_eq_append_iff.mp same with ⟨middle, climbed, rest⟩ | ⟨middle, -, rest⟩
  · cases middle with
    | nil =>
      intro d member
      rw [List.nil_append] at rest
      exact components d (rest ▸ List.mem_cons_of_mem c member)
    | cons e middle =>
      rw [List.cons_append, List.cons.injEq] at rest
      have isUp : c ∈ List.replicate ups up := by
        rw [climbed, rest.1]
        simp
      exact absurd (List.eq_of_mem_replicate isUp) component.2.2.1
  · intro d member
    apply components
    rw [rest]
    simp [member]

/-! ### Writing steps down -/

def write (rooted : Bool) (steps : List (List Char)) : List Char :=
  if rooted then '/' :: joinWith ['/'] steps
  else if steps = [] then ['.'] else joinWith ['/'] steps

theorem joinWith_eq_nil_iff (done : IsWalked rooted steps) : joinWith ['/'] steps = [] ↔ steps = [] := by
  constructor
  · intro none
    cases steps with
    | nil => rfl
    | cons c rest =>
      have nonempty := (done.piece List.mem_cons_self).1
      cases rest with
      | nil => exact absurd none nonempty
      | cons d rest => simp [Text.joinWith_cons_cons] at none
  · rintro rfl
    rfl

theorem cleanChars_eq (p : List Char) :
    cleanChars p = write (isRooted p) (walk (isRooted p) (pieces p)) := by
  have empty := joinWith_eq_nil_iff (walk_isWalked (isRooted p) p)
  simp only [cleanChars, write, empty]

theorem pieces_joinWith (done : IsWalked rooted steps) (some : steps ≠ []) :
    pieces (joinWith ['/'] steps) = steps :=
  Text.splitAt_joinWith some fun _ member => (done.piece member).2

theorem pieces_write (done : IsWalked true steps) (some : steps ≠ []) :
    pieces (write true steps) = [] :: steps := by
  have split : pieces (write true steps) = [] :: pieces (joinWith ['/'] steps) := by
    simp [write, pieces, Text.splitAt]
  rw [split, pieces_joinWith done some]

theorem isRooted_write (done : IsWalked rooted steps) : isRooted (write rooted steps) = rooted := by
  cases rooted with
  | true => rfl
  | false =>
    cases steps with
    | nil => rfl
    | cons c rest =>
      obtain ⟨nonempty, free⟩ := done.piece List.mem_cons_self
      obtain ⟨a, c, rfl⟩ := List.exists_cons_of_ne_nil nonempty
      have notRoot : a ≠ '/' := by
        rintro rfl
        exact free List.mem_cons_self
      cases rest with
      | nil => simp [write, joinWith, isRooted, notRoot]
      | cons d rest => simp [write, Text.joinWith_cons_cons, isRooted, notRoot]

theorem walk_cons_nil (rooted : Bool) (ps : List (List Char)) :
    walk rooted ([] :: ps) = walk rooted ps := by
  simp [walk, enter]

theorem walk_write (done : IsWalked rooted steps) :
    walk rooted (pieces (write rooted steps)) = steps := by
  by_cases none : steps = []
  · subst none
    cases rooted <;> simp [write, joinWith, pieces, Text.splitAt, walk, enter]
  · cases rooted with
    | true => rw [pieces_write done none, walk_cons_nil, walk_of_isWalked done]
    | false =>
      rw [write, if_neg Bool.false_ne_true, if_neg none, pieces_joinWith done none,
        walk_of_isWalked done]

/-! ### Paths as texts -/

/-- The steps that walking a path leaves, outermost first. -/
def stepsOf (p : String) : List (List Char) := walk (isAbs p) (pieces p.toList)

theorem stepsOf_isWalked (p : String) : IsWalked (isAbs p) (stepsOf p) := walk_isWalked _ _

theorem toList_clean (p : String) : (clean p).toList = write (isAbs p) (stepsOf p) := by
  rw [clean, String.toList_ofList, cleanChars_eq, Text.chars_eq, stepsOf, isAbs, Text.chars_eq]

@[simp] theorem isAbs_clean (p : String) : isAbs (clean p) = isAbs p := by
  rw [isAbs, Text.chars_eq, toList_clean, isRooted_write (stepsOf_isWalked p)]

@[simp] theorem stepsOf_clean (p : String) : stepsOf (clean p) = stepsOf p := by
  rw [stepsOf, isAbs_clean, toList_clean, walk_write (stepsOf_isWalked p)]

/-- Cleaned paths are told apart by whether they are rooted and by their steps. -/
theorem clean_eq_clean_iff (p q : String) :
    clean p = clean q ↔ isAbs p = isAbs q ∧ stepsOf p = stepsOf q := by
  constructor
  · intro same
    rw [← isAbs_clean p, ← isAbs_clean q, ← stepsOf_clean p, ← stepsOf_clean q, same]
    exact ⟨rfl, rfl⟩
  · rintro ⟨rooted, steps⟩
    rw [← String.toList_inj, toList_clean, toList_clean, rooted, steps]

theorem pieces_intercalate (p : String) (ps : List String) :
    pieces ("/".intercalate (p :: ps)).toList = (p :: ps).flatMap fun q => pieces q.toList := by
  induction ps generalizing p with
  | nil => simp
  | cons q ps ih =>
    have split : ("/".intercalate (p :: q :: ps)).toList =
        p.toList ++ '/' :: ("/".intercalate (q :: ps)).toList := by
      simp
    rw [split, pieces, Text.splitAt_append_cons, ← pieces, ← pieces, ih]
    simp only [List.flatMap_cons]

variable {p : String}

theorem isAbs_intercalate (some : p ≠ "") (ps : List String) :
    isAbs ("/".intercalate (p :: ps)) = isAbs p := by
  cases ps with
  | nil => simp
  | cons q ps =>
    have split : ("/".intercalate (p :: q :: ps)).toList =
        p.toList ++ '/' :: ("/".intercalate (q :: ps)).toList := by
      simp
    have nonempty : p.toList ≠ [] := by simpa using some
    obtain ⟨c, rest, chars⟩ := List.exists_cons_of_ne_nil nonempty
    rw [isAbs, isAbs, Text.chars_eq, Text.chars_eq, split, chars]
    by_cases slash : c = '/' <;> simp [isRooted, slash]

theorem flatMap_pieces_filter (ps : List String) (walked : List (List Char)) :
    ((ps.filter (· ≠ "")).flatMap fun q => pieces q.toList).foldl (enter rooted) walked =
      (ps.flatMap fun q => pieces q.toList).foldl (enter rooted) walked := by
  induction ps generalizing walked with
  | nil => rfl
  | cons q ps ih =>
    by_cases empty : q = ""
    · subst empty
      rw [List.filter_cons_of_neg (by simp), ih, List.flatMap_cons]
      simp [pieces, Text.splitAt, enter]
    · rw [List.filter_cons_of_pos (by simpa using empty), List.flatMap_cons, List.flatMap_cons,
        List.foldl_append, List.foldl_append, ih]

theorem join_cons_of_ne (some : p ≠ "") (ps : List String) :
    join (p :: ps) = clean ("/".intercalate (p :: ps.filter (· ≠ ""))) := by
  rw [join, List.filter_cons_of_pos (by simpa using some)]

theorem isAbs_join (some : p ≠ "") (ps : List String) : isAbs (join (p :: ps)) = isAbs p := by
  rw [join_cons_of_ne some, isAbs_clean, isAbs_intercalate some]

theorem stepsOf_join (some : p ≠ "") (ps : List String) :
    stepsOf (join (p :: ps)) =
      ((ps.flatMap fun q => pieces q.toList).foldl (enter (isAbs p)) (stepsOf p).reverse).reverse := by
  rw [join_cons_of_ne some, stepsOf_clean, stepsOf, isAbs_intercalate some, pieces_intercalate,
    List.flatMap_cons, walk, List.foldl_append, flatMap_pieces_filter, stepsOf, walk,
    List.reverse_reverse]

theorem join_dot (some : p ≠ "") (ps : List String) : join (p :: "." :: ps) = join (p :: ps) := by
  have cleaned : ∀ qs, clean (join (p :: qs)) = join (p :: qs) := by
    intro qs
    rw [join_cons_of_ne some, clean_eq_clean_iff, isAbs_clean, stepsOf_clean]
    exact ⟨rfl, rfl⟩
  have stays : pieces ".".toList = [['.']] := by decide
  rw [← cleaned, ← cleaned ps, clean_eq_clean_iff, isAbs_join some, isAbs_join some, stepsOf_join some,
    stepsOf_join some, List.flatMap_cons, stays, List.singleton_append, List.foldl_cons,
    enter_stays (Or.inr rfl)]
  exact ⟨rfl, rfl⟩

theorem isAbs_component (component : IsComponent p.toList) : isAbs p = false := by
  unfold isAbs isRooted
  split
  · rename_i rest chars
    rw [Text.chars_eq] at chars
    exact absurd (chars ▸ List.mem_cons_self) component.2.2.2
  · rfl

theorem stepsOf_component (component : IsComponent p.toList) : stepsOf p = [p.toList] := by
  rw [stepsOf, pieces, Text.splitAt_of_notMem component.2.2.2, walk, List.foldl_cons,
    enter_component component]
  rfl

theorem stepsOf_join_component (p : String) {q : String} (component : IsComponent q.toList)
    (ps : List String) :
    isAbs (join (p :: q :: ps)) = isAbs p ∧
      stepsOf (join (p :: q :: ps)) =
        ((ps.flatMap fun r => pieces r.toList).foldl (enter (isAbs p))
          (q.toList :: (stepsOf p).reverse)).reverse := by
  by_cases empty : p = ""
  · subst empty
    have nonempty : q ≠ "" := by
      rintro rfl
      exact component.1 rfl
    have dropped : join ("" :: q :: ps) = join (q :: ps) := by
      rw [join, List.filter_cons_of_neg (by simp), join]
    rw [dropped, isAbs_join nonempty, stepsOf_join nonempty, isAbs_component component,
      stepsOf_component component]
    exact ⟨rfl, rfl⟩
  · have piece : pieces q.toList = [q.toList] := Text.splitAt_of_notMem component.2.2.2
    rw [isAbs_join empty, stepsOf_join empty, List.flatMap_cons, piece, List.singleton_append,
      List.foldl_cons, enter_component component]
    exact ⟨rfl, rfl⟩

@[simp] theorem clean_clean (p : String) : clean (clean p) = clean p := by
  rw [clean_eq_clean_iff, isAbs_clean, stepsOf_clean]
  exact ⟨rfl, rfl⟩

theorem clean_join {ps : List String} (some : ∃ p ∈ ps, p ≠ "") : clean (join ps) = join ps := by
  unfold join
  split
  · rename_i none
    obtain ⟨p, member, nonempty⟩ := some
    have kept : p ∈ ps.filter (· ≠ "") := List.mem_filter.mpr ⟨member, by simpa using nonempty⟩
    rw [none] at kept
    cases kept
  · exact clean_clean _

/-! ### Absolute paths by their names -/

theorem IsWalked.of_components (components : ∀ c ∈ steps, IsComponent c) : IsWalked rooted steps :=
  ⟨0, steps, by simp, fun _ => rfl, components⟩

theorem IsWalked.components (done : IsWalked true steps) : ∀ c ∈ steps, IsComponent c := by
  obtain ⟨ups, cs, rfl, downOnly, components⟩ := done
  obtain rfl := downOnly rfl
  simpa using components

theorem write_concat (steps : List (List Char)) (c : List Char) :
    write true (steps ++ [c]) = steps.flatMap ('/' :: ·) ++ '/' :: c := by
  have joined : ∀ (w : List Char) (ws : List (List Char)),
      joinWith ['/'] (w :: ws) = w ++ ws.flatMap ('/' :: ·) := by
    intro w ws
    induction ws generalizing w with
    | nil => simp [joinWith]
    | cons v ws ih => rw [Text.joinWith_cons_cons, ih]; simp
  cases steps with
  | nil => simp [write, joinWith]
  | cons w ws => simp [write, joined]

theorem pieces_flatMap (free : ∀ c ∈ steps, '/' ∉ c) :
    pieces (steps.flatMap ('/' :: ·)) = [] :: steps := by
  induction steps using List.reverseRecOn with
  | nil => rfl
  | append_singleton steps c ih =>
    have before := ih fun d member => free d (List.mem_append_left [c] member)
    have last := Text.splitAt_of_notMem (free c (by simp))
    rw [List.flatMap_append, List.flatMap_singleton, pieces, Text.splitAt_append_cons, last,
      ← pieces, before, List.cons_append]

variable {names : List String} {name : String}

theorem toList_ofComponents (names : List String) :
    (ofComponents names).toList = write true (names.map String.toList) := by
  rw [ofComponents, String.toList_append, String.toList_intercalate, write, if_pos rfl,
    Text.joinWith_eq_intercalate]
  rfl

theorem ofComponents_ne_empty (names : List String) : ofComponents names ≠ "" := by
  intro empty
  have chars := toList_ofComponents names
  rw [empty] at chars
  simp [write] at chars

@[simp] theorem isAbs_ofComponents (names : List String) : isAbs (ofComponents names) = true := by
  rw [isAbs, Text.chars_eq, toList_ofComponents]
  rfl

theorem stepsOf_ofComponents (components : ∀ c ∈ names, IsComponent c.toList) :
    stepsOf (ofComponents names) = names.map String.toList := by
  rw [stepsOf, isAbs_ofComponents, toList_ofComponents]
  exact walk_write (.of_components (by simpa using components))

theorem clean_of_isAbs (rooted : isAbs p = true) :
    clean p = ofComponents ((stepsOf p).map String.ofList) := by
  rw [← String.toList_inj, toList_clean, toList_ofComponents, rooted]
  simp

theorem clean_ofComponents (components : ∀ c ∈ names, IsComponent c.toList) :
    clean (ofComponents names) = ofComponents names := by
  rw [clean_of_isAbs (isAbs_ofComponents names), stepsOf_ofComponents components]
  simp

theorem names_of_startsWith {more : List String} (components : ∀ c ∈ names, IsComponent c.toList)
    (further : ∀ c ∈ more, IsComponent c.toList)
    (starts : startsWith (ofComponents more) (ofComponents names ++ "/")) :
    ∃ rest, more = names ++ rest := by
  by_cases none : names = []
  · exact ⟨more, by rw [none, List.nil_append]⟩
  · obtain ⟨rest, dropped⟩ := Option.isSome_iff_exists.mp starts
    have chars := Text.eq_append_of_dropPrefix? dropped
    rw [Text.chars_eq, Text.chars_eq, String.toList_append, toList_ofComponents, toList_ofComponents,
      List.append_assoc] at chars
    have done : IsWalked true (names.map String.toList) := .of_components (by simpa using components)
    have left : pieces (write true (names.map String.toList) ++ ("/".toList ++ rest)) =
        ([] :: names.map String.toList) ++ pieces rest := by
      rw [← pieces_write done (by simpa using none)]
      exact Text.splitAt_append_cons '/' _ rest
    have some : more ≠ [] := by
      rintro rfl
      have lengths := congrArg List.length (chars ▸ left)
      have rests := List.length_pos_of_ne_nil (Text.splitAt_ne_nil '/' rest)
      have nonempty := List.length_pos_of_ne_nil none
      simp [write, joinWith, pieces, Text.splitAt] at lengths
      omega
    have whole : IsWalked true (more.map String.toList) := .of_components (by simpa using further)
    rw [← chars, pieces_write whole (by simpa using some), List.cons_append, List.cons.injEq] at left
    refine ⟨(pieces rest).map String.ofList, ?_⟩
    have := congrArg (List.map String.ofList) left.2
    simpa using this

theorem dropWhile_concat {c : List Char} (free : '/' ∉ c) (before : List Char) :
    (before ++ '/' :: c).reverse.dropWhile (· ≠ '/') = '/' :: before.reverse := by
  have all : ∀ x ∈ c.reverse, decide (x ≠ '/') = true := by
    intro x member
    simp only [decide_eq_true_eq]
    rintro rfl
    exact free (List.mem_reverse.mp member)
  rw [List.reverse_append, List.reverse_cons, List.append_assoc, List.dropWhile_append_of_pos all]
  simp

section

variable (components : ∀ c ∈ names, IsComponent c.toList)

include components

theorem dir_ofComponents (last : IsComponent name.toList) : dir (ofComponents (names ++ [name])) = ofComponents names := by
  have chars : (ofComponents (names ++ [name])).toList =
      (names.map String.toList).flatMap ('/' :: ·) ++ '/' :: name.toList := by
    rw [toList_ofComponents, List.map_append, List.map_singleton, write_concat]
  have free : ∀ c ∈ names.map String.toList, '/' ∉ c := by
    simpa using fun c member => (components c member).2.2.2
  have rooted : isAbs (String.ofList ((names.map String.toList).flatMap ('/' :: ·) ++ ['/'])) := by
    cases names <;> simp [isAbs, isRooted]
  have steps : stepsOf (String.ofList ((names.map String.toList).flatMap ('/' :: ·) ++ ['/'])) =
      names.map String.toList := by
    have done : IsWalked true (names.map String.toList) := .of_components (by simpa using components)
    rw [stepsOf, rooted, String.toList_ofList, pieces, Text.splitAt_append_cons, ← pieces,
      pieces_flatMap free, List.cons_append, walk_cons_nil, walk, List.foldl_append, ← List.reverse_reverse
      (List.foldl (enter true) [] (names.map String.toList)), ← walk, walk_of_isWalked done]
    simp [Text.splitAt, enter]
  rw [dir, Text.chars_eq, chars, dropWhile_concat last.2.2.2, List.reverse_cons, List.reverse_reverse,
    clean_of_isAbs rooted, steps]
  simp

theorem join_ofComponents (last : IsComponent name.toList) :
    join [ofComponents names, name] = ofComponents (names ++ [name]) := by
  obtain ⟨rooted, steps⟩ := stepsOf_join_component (ofComponents names) last []
  rw [isAbs_ofComponents] at rooted
  have nonempty : name ≠ "" := by
    rintro rfl
    exact last.1 rfl
  rw [← clean_join ⟨name, by simp, nonempty⟩, clean_of_isAbs rooted, steps,
    stepsOf_ofComponents components]
  simp

theorem join_ofComponents_eq (name : String) :
    join [ofComponents names, name] = ofComponents
      ((((pieces name.toList).foldl (enter true) (names.map String.toList).reverse).reverse).map
        String.ofList) := by
  have some := ofComponents_ne_empty names
  have rooted : isAbs (join [ofComponents names, name]) = true := by
    rw [isAbs_join some, isAbs_ofComponents]
  rw [← clean_join ⟨_, List.mem_cons_self, some⟩, clean_of_isAbs rooted, stepsOf_join some,
    isAbs_ofComponents, stepsOf_ofComponents components, List.flatMap_singleton]

theorem join_ofComponents_piece (piece : '/' ∉ name.toList ∨ name = "/") :
    join [ofComponents names, name] = ofComponents names ∨
      join [ofComponents names, name] = ofComponents names.dropLast ∨
      IsComponent name.toList := by
  rw [join_ofComponents_eq components]
  rcases piece with free | rfl
  · rw [pieces, Text.splitAt_of_notMem free, List.foldl_cons, List.foldl_nil]
    by_cases stays : name.toList = [] ∨ name.toList = ['.']
    · left
      rw [enter_stays stays]
      simp
    · by_cases isUp : name.toList = up
      · right; left
        rw [not_or] at stays
        obtain rfl | ⟨init, last, rfl⟩ := List.eq_nil_or_concat' names
        · simp [enter, isUp, up]
        · have down : last.toList ≠ ['.', '.'] := (components last (by simp)).2.2.1
          simp [enter, isUp, up, down]
      · rw [not_or] at stays
        exact Or.inr (Or.inr ⟨stays.1, stays.2, isUp, free⟩)
  · left
    have split : pieces "/".toList = [[], []] := by decide
    rw [split]
    simp [enter]

end

/-- The last component of a path is free of slashes unless the path is the root. -/
theorem base_free (p : String) : '/' ∉ (base p).toList ∨ base p = "/" := by
  unfold base
  split
  · exact Or.inl (by decide)
  · dsimp only
    split
    · exact Or.inr rfl
    · left
      rw [String.toList_ofList, List.mem_reverse]
      intro member
      simpa using List.mem_takeWhile_imp member

/-! ### Relative paths by their names -/

def relative (names : List String) : String := "/".intercalate names

theorem toList_relative (names : List String) :
    (relative names).toList = joinWith ['/'] (names.map String.toList) := by
  rw [relative, String.toList_intercalate, Text.joinWith_eq_intercalate]
  rfl

theorem toList_relative_concat (names : List String) (name : String) :
    (relative (names ++ [name])).toList = names.flatMap (·.toList ++ ['/']) ++ name.toList := by
  induction names with
  | nil => simp [relative]
  | cons first names ih =>
    have next : (first :: names ++ [name]).map String.toList =
        first.toList :: (names ++ [name]).map String.toList := rfl
    obtain ⟨c, cs, further⟩ := List.exists_cons_of_ne_nil
      (show (names ++ [name]).map String.toList ≠ [] by simp)
    rw [toList_relative] at ih ⊢
    rw [next, further, Text.joinWith_cons_cons, ← further, ih]
    simp

section

variable (some : names ≠ [])

include some

theorem pieces_relative (components : ∀ c ∈ names, IsComponent c.toList) :
    pieces (relative names).toList = names.map String.toList := by
  rw [toList_relative]
  apply Text.splitAt_joinWith (by simpa using some)
  simpa using fun c member => (components c member).2.2.2

theorem relative_ne_empty (components : ∀ c ∈ names, IsComponent c.toList) :
    relative names ≠ "" := by
  intro empty
  have split := pieces_relative some components
  rw [empty] at split
  obtain ⟨c, cs, rfl⟩ := List.exists_cons_of_ne_nil some
  have first : c.toList = [] := by
    have parts : pieces "".toList = [[]] := by decide
    rw [parts] at split
    simpa using (List.cons.inj split).1.symm
  exact (components c (by simp)).1 first

theorem isAbs_relative (components : ∀ c ∈ names, IsComponent c.toList) :
    isAbs (relative names) = false := by
  obtain ⟨c, cs, rfl⟩ := List.exists_cons_of_ne_nil some
  have component := components c (by simp)
  rw [relative, isAbs_intercalate]
  · exact isAbs_component component
  · rintro rfl
    exact component.1 rfl

theorem foldl_enter_relative {rooted : Bool} {walked : List (List Char)}
    (components : ∀ c ∈ names, IsComponent c.toList) :
    (pieces (relative names).toList).foldl (enter rooted) walked =
      (names.map String.toList).reverse ++ walked := by
  rw [pieces_relative some components]
  exact foldl_enter_components (by simpa using components)

theorem stepsOf_relative (components : ∀ c ∈ names, IsComponent c.toList) :
    stepsOf (relative names) = names.map String.toList := by
  rw [stepsOf, walk, foldl_enter_relative some components]
  simp

theorem clean_relative (components : ∀ c ∈ names, IsComponent c.toList) :
    clean (relative names) = relative names := by
  rw [← String.toList_inj, toList_clean, isAbs_relative some components,
    stepsOf_relative some components, write, if_neg Bool.false_ne_true, if_neg (by simpa using some),
    toList_relative]

end

theorem join_relative (p : String) (some : names ≠ []) (components : ∀ c ∈ names, IsComponent c.toList) :
    isAbs (join [p, relative names]) = isAbs p ∧
      stepsOf (join [p, relative names]) = stepsOf p ++ names.map String.toList := by
  have nonempty := relative_ne_empty some components
  by_cases empty : p = ""
  · subst empty
    have dropped : join ["", relative names] = relative names := by
      simp [join, nonempty, clean_relative some components]
    rw [dropped, isAbs_relative some components, stepsOf_relative some components]
    exact ⟨rfl, rfl⟩
  · rw [isAbs_join empty, stepsOf_join empty, List.flatMap_singleton,
      foldl_enter_relative some components]
    simp

theorem join_components (some : names ≠ []) (components : ∀ c ∈ names, IsComponent c.toList) :
    join names = relative names := by
  have kept : names.filter (· ≠ "") = names := by
    rw [List.filter_eq_self]
    intro c member
    have nonempty := (components c member).1
    simp only [ne_eq, decide_not, Bool.not_eq_true', decide_eq_false_iff_not]
    rintro rfl
    exact nonempty rfl
  obtain ⟨c, cs, rfl⟩ := List.exists_cons_of_ne_nil some
  rw [join, kept]
  exact clean_relative some components

theorem join_relative_component (some : names ≠ []) (components : ∀ c ∈ names, IsComponent c.toList)
    (last : IsComponent name.toList) : join [relative names, name] = relative (names ++ [name]) := by
  have all : ∀ c ∈ names ++ [name], IsComponent c.toList :=
    List.forall_mem_append.mpr ⟨components, by simpa using last⟩
  have nonempty : name ≠ "" := by
    rintro rfl
    exact last.1 rfl
  rw [← clean_relative (by simp) all, ← clean_join ⟨name, by simp, nonempty⟩, clean_eq_clean_iff]
  obtain ⟨rooted, steps⟩ := stepsOf_join_component (relative names) last []
  rw [rooted, steps, isAbs_relative some components, isAbs_relative (by simp) all,
    stepsOf_relative some components, stepsOf_relative (by simp) all]
  simp

theorem takeWhile_concat {c : List Char} (free : '/' ∉ c) (before : List Char)
    (ends : before = [] ∨ ∃ front, before = front ++ ['/']) :
    (before ++ c).reverse.takeWhile (· ≠ '/') = c.reverse := by
  have all : ∀ x ∈ c.reverse, decide (x ≠ '/') = true := by
    intro x member
    simp only [decide_eq_true_eq]
    rintro rfl
    exact free (List.mem_reverse.mp member)
  rw [List.reverse_append, List.takeWhile_append_of_pos all]
  rcases ends with rfl | ⟨front, rfl⟩ <;> simp

variable (names : List String)

theorem ends_flatMap :
    names.flatMap (·.toList ++ ['/']) = [] ∨
      ∃ front, names.flatMap (·.toList ++ ['/']) = front ++ ['/'] := by
  obtain rfl | ⟨init, last, rfl⟩ := List.eq_nil_or_concat' names
  · exact Or.inl rfl
  · exact Or.inr ⟨init.flatMap (·.toList ++ ['/']) ++ last.toList, by simp⟩

theorem takeWhile_relative (free : '/' ∉ name.toList) :
    (relative (names ++ [name])).toList.reverse.takeWhile (· ≠ '/') = name.toList.reverse := by
  rw [toList_relative_concat]
  exact takeWhile_concat free _ (ends_flatMap names)

theorem base_relative (last : IsComponent name.toList) :
    base (relative (names ++ [name])) = name := by
  have ending := takeWhile_relative names last.2.2.2
  have reversed : name.toList.reverse ≠ [] := by simpa using last.1
  obtain ⟨c, cs, split⟩ := List.exists_cons_of_ne_nil reversed
  have slash : c ≠ '/' := by
    rintro rfl
    exact last.2.2.2 (List.mem_reverse.mp (split ▸ List.mem_cons_self))
  obtain ⟨more, chars⟩ : ∃ more, (relative (names ++ [name])).toList.reverse = c :: more := by
    rw [toList_relative_concat, List.reverse_append, split]
    exact ⟨_, rfl⟩
  have nonempty : relative (names ++ [name]) ≠ "" := by
    intro empty
    rw [empty] at chars
    simp at chars
  have kept : (c :: more).dropWhile (· = '/') = c :: more :=
    List.dropWhile_cons_of_neg (by simpa using slash)
  rw [base, if_neg nonempty]
  simp only [Text.chars_eq, chars, kept]
  rw [if_neg (by simp), ← chars, ending, List.reverse_reverse, String.ofList_toList]

theorem ext_relative {front : List Char} {extension : List Char}
    (free : '/' ∉ name.toList) (dot : '.' ∉ extension) (split : name.toList = front ++ '.' :: extension) :
    ext (relative (names ++ [name])) = String.ofList ('.' :: extension) := by
  have all : ∀ x ∈ extension.reverse, decide (x ≠ '.') = true := by
    intro x member
    simp only [decide_eq_true_eq]
    rintro rfl
    exact dot (List.mem_reverse.mp member)
  have reversed : name.toList.reverse = extension.reverse ++ '.' :: front.reverse := by
    simp [split]
  have parts : (extension.reverse ++ '.' :: front.reverse).span (· ≠ '.') =
      (extension.reverse, '.' :: front.reverse) := by
    rw [List.span_eq_takeWhile_dropWhile, List.takeWhile_append_of_pos all,
      List.dropWhile_append_of_pos all]
    simp
  rw [ext]
  simp only [Text.chars_eq, takeWhile_relative names free, reversed, parts, List.reverse_reverse]

theorem stem_relative {front extension : String}
    (component : IsComponent (front ++ "." ++ extension).toList) (dot : '.' ∉ extension.toList) :
    stem (relative (names ++ [front ++ "." ++ extension])) = front := by
  have chars : (front ++ "." ++ extension).toList = front.toList ++ '.' :: extension.toList := by
    simp
  rw [stem, base_relative names component,
    ext_relative names component.2.2.2 dot chars, trimSuffix, Text.chars_eq, Text.chars_eq, chars, Text.dropSuffix?,
    String.toList_ofList, List.reverse_append, Text.dropPrefix?_append]
  simp

end Taproom.Path
