import Taproom.Keg.Variables
import Taproom.Proofs.Pouring
import Taproom.Service

/-!
Variables in texts. A text is cut into characters and tokens, and putting values in changes each token on
its own. Descriptors of services look for a few marks only, steps of formulae for every variable, and both
put in the same.
-/

namespace Taproom

namespace Text

variable {s rest name other : List Char} {value? : List Char → Option (List Char)}
  {values : List (List Char × List Char)}

def IsName (name : List Char) : Prop := name ≠ [] ∧ ∀ c ∈ name, isVariableChar c = true

/-- A variable as a text writes it. -/
def token (name : List Char) : List Char := '$' :: '\x7b' :: name ++ ['\x7d']

/-- A piece of a text. -/
inductive Piece where
  | char (c : Char)
  | token (name : List Char)

/-- A text and its pieces from left to right. A character stands for itself only where no token
begins. -/
inductive Cut : List Char → List Piece → Prop
  | nil : Cut [] []
  | char {c s pieces} : (∀ name rest, IsName name → c :: s ≠ token name ++ rest) → Cut s pieces →
      Cut (c :: s) (.char c :: pieces)
  | token {name s pieces} : IsName name → Cut s pieces → Cut (token name ++ s) (.token name :: pieces)

/-- What is put in the place of a piece. -/
def Piece.fill (value? : List Char → Option (List Char)) : Piece → List Char
  | .char c => [c]
  | .token name => (value? name).getD (Text.token name)

theorem IsName.takeWhile (named : IsName name) (rest : List Char) :
    (name ++ '\x7d' :: rest).takeWhile isVariableChar = name := by
  rw [List.takeWhile_append_of_pos named.2, List.takeWhile_cons_of_neg (by decide), List.append_nil]

theorem token_append_inj (named : IsName name) (named' : IsName other) {rest' : List Char}
    (same : token name ++ rest = token other ++ rest') : name = other ∧ rest = rest' := by
  have inner : name ++ '\x7d' :: rest = other ++ '\x7d' :: rest' := by simpa [token] using same
  have names := congrArg (List.takeWhile isVariableChar) inner
  rw [named.takeWhile, named'.takeWhile] at names
  subst names
  exact ⟨rfl, by simpa using inner⟩

theorem nameAt?_eq_some_iff : nameAt? s = some (name, rest) ↔ IsName name ∧ s = token name ++ rest := by
  constructor
  · intro read
    unfold nameAt? at read
    split at read
    case h_2 => cases read
    case h_1 body =>
      split at read
      case h_2 => cases read
      case h_1 c tail after taken dropped =>
        cases read
        refine ⟨⟨by simp, fun c member => ?_⟩, ?_⟩
        · rw [← taken] at member
          exact List.mem_takeWhile_imp member
        · rw [← List.takeWhile_append_dropWhile (p := isVariableChar) (l := body), taken, dropped]
          simp [token]
  · rintro ⟨named, rfl⟩
    obtain ⟨c, tail, rfl⟩ := List.exists_cons_of_ne_nil named.1
    have dropped : (c :: tail ++ '\x7d' :: rest).dropWhile isVariableChar = '\x7d' :: rest := by
      rw [List.dropWhile_append_of_pos named.2, List.dropWhile_cons_of_neg (by decide)]
    simp only [token, List.cons_append, List.append_assoc, List.nil_append, nameAt?]
    rw [← List.cons_append, named.takeWhile, dropped]
    rfl

theorem exists_cut (s : List Char) : ∃ pieces, Cut s pieces := by
  induction long : s.length using Nat.strongRecOn generalizing s with
  | ind n ih =>
    cases s with
    | nil => exact ⟨[], .nil⟩
    | cons c s =>
      cases read : nameAt? (c :: s) with
      | none =>
        obtain ⟨pieces, cut⟩ := ih s.length (by simp [← long]) s rfl
        refine ⟨_, .char (fun name rest named same => ?_) cut⟩
        simp [nameAt?_eq_some_iff.mpr ⟨named, same⟩] at read
      | some found =>
        obtain ⟨name, rest⟩ := found
        have shorter := length_nameAt? read
        obtain ⟨named, split⟩ := nameAt?_eq_some_iff.mp read
        obtain ⟨pieces, cut⟩ := ih rest.length (long ▸ shorter) rest rfl
        exact ⟨_, split ▸ Cut.token named cut⟩

theorem expandVariables_of_read (read : nameAt? s = some (name, rest)) :
    expandVariables value? s = (value? name).getD (token name) ++ expandVariables value? rest := by
  cases s with
  | nil => cases read
  | cons c s =>
    rw [expandVariables]
    split
    · rename_i found
      cases found.symm.trans read
      cases value? name <;> rfl
    · rename_i unread
      simp [read] at unread

theorem expandVariables_of_unread {c : Char} (unread : nameAt? (c :: s) = none) :
    expandVariables value? (c :: s) = c :: expandVariables value? s := by
  rw [expandVariables]
  split
  · rename_i read
    simp [unread] at read
  · rfl

theorem expandVariables_of_cut {pieces : List Piece} (cut : Cut s pieces) :
    expandVariables value? s = pieces.flatMap (Piece.fill value?) := by
  induction cut with
  | nil => rw [expandVariables, List.flatMap_nil]
  | @char c s pieces plain _ ih =>
    have unread : nameAt? (c :: s) = none := by
      rw [Option.eq_none_iff_forall_ne_some]
      rintro ⟨name, rest⟩ read
      obtain ⟨named, split⟩ := nameAt?_eq_some_iff.mp read
      exact plain name rest named split
    rw [expandVariables_of_unread unread, ih]
    rfl
  | token named _ ih =>
    rw [expandVariables_of_read (nameAt?_eq_some_iff.mpr ⟨named, rfl⟩), ih]
    rfl

/-! ### Marks that are tokens -/

/-- A table that puts values in the place of tokens. -/
def tokens (values : List (List Char × List Char)) : List (List Char × List Char) :=
  values.map fun (name, value) => (token name, value)

section

variable (named : ∀ entry ∈ values, IsName entry.1)

include named

theorem firstMark?_token (known : IsName name) (rest : List Char) :
    firstMark? (tokens values) (token name ++ rest) = (values.lookup name).map (·, rest) := by
  induction values with
  | nil => rfl
  | cons entry values ih =>
    obtain ⟨other, value⟩ := entry
    rw [List.forall_mem_cons] at named
    rw [firstMark?, tokens, List.map_cons, List.findSome?_cons, List.lookup_cons]
    by_cases same : name = other
    · simp [same, dropPrefix?_append]
    · have apart : dropPrefix? (token other) (token name ++ rest) = none := by
        rw [Option.eq_none_iff_forall_ne_some]
        intro after dropped
        exact same (token_append_inj known named.1 (eq_append_of_dropPrefix? dropped)).1
      simp only [apart, Option.map_none, beq_false_of_ne same]
      exact ih named.2

theorem firstMark?_plain (plain : ∀ name rest, IsName name → s ≠ token name ++ rest) :
    firstMark? (tokens values) s = none := by
  simp only [firstMark?, List.findSome?_eq_none_iff, tokens, List.mem_map, Option.map_eq_none_iff]
  rintro _ ⟨⟨name, value⟩, member, rfl⟩
  rw [Option.eq_none_iff_forall_ne_some]
  intro rest dropped
  exact plain name rest (named _ member) (eq_append_of_dropPrefix? dropped)

theorem replaceMarks_plain {c : Char} (plain : ∀ name rest, IsName name → c :: s ≠ token name ++ rest) :
    replaceMarks (tokens values) (c :: s) = c :: replaceMarks (tokens values) s := by
  rw [replaceMarks, firstMark?_plain named plain]

/-- No token begins where there is no dollar. -/
theorem replaceMarks_append {front : List Char} (free : '$' ∉ front) :
    replaceMarks (tokens values) (front ++ s) = front ++ replaceMarks (tokens values) s := by
  induction front with
  | nil => rfl
  | cons c front ih =>
    rw [List.mem_cons, not_or] at free
    rw [List.cons_append, replaceMarks_plain named, ih free.2, List.cons_append]
    rintro name rest - same
    exact free.1 (List.cons.inj same).1.symm

theorem replaceMarks_of_cut {pieces : List Piece} (cut : Cut s pieces) :
    replaceMarks (tokens values) s = pieces.flatMap (Piece.fill (values.lookup ·)) := by
  induction cut with
  | nil => rw [replaceMarks, List.flatMap_nil]
  | char plain _ ih =>
    rw [replaceMarks_plain named plain, ih]
    rfl
  | @token name s pieces known _ ih =>
    have read := firstMark?_token named known s
    have chars : token name ++ s = '$' :: ('\x7b' :: name ++ ['\x7d'] ++ s) := by simp [token]
    rw [List.flatMap_cons, Piece.fill, ← ih]
    rw [chars] at read ⊢
    rw [replaceMarks, read]
    cases values.lookup name with
    | some value =>
      simp only [Option.map_some, Option.getD_some]
      rw [dif_pos (by simp; omega)]
    | none =>
      have free : '$' ∉ '\x7b' :: name ++ ['\x7d'] := by
        have : '$' ∉ name := fun member => by simpa [isVariableChar, isDigit] using known.2 '$' member
        simpa using this
      simp only [Option.map_none, Option.getD_none]
      rw [replaceMarks_append named free, token]
      rfl

end

end Text

namespace Service

variable {keg : String}

/-- The variables that descriptors of services know. -/
def known : List String := ["prefix", "bin", "sbin", "etc", "var", "share"]

/-- What these names stand for in the steps of a formula. -/
def stepValues (name version keg : String) : Variables :=
  (Variables.ofKeg name version keg).filter fun k _ => k ∈ known

/-- What is put in for a name in the descriptor of a service. -/
def values (keg : List Char) : List (List Char × List Char) :=
  [("prefix".toList, keg), ("bin".toList, keg ++ "/bin".toList), ("sbin".toList, keg ++ "/sbin".toList),
   ("etc".toList, keg ++ "/etc".toList), ("var".toList, keg ++ "/var".toList),
   ("share".toList, keg ++ "/share".toList)]

theorem marks_eq_tokens (keg : List Char) : marks keg = Text.tokens (values keg) := by
  simp [marks, Text.tokens, values, Text.token]

theorem values_named (keg : List Char) : ∀ entry ∈ values keg, Text.IsName entry.1 := by
  have named : ∀ name ∈ (values keg).map (·.1), name ≠ [] ∧ name.all Text.isVariableChar = true := by
    simp only [values, List.map_cons, List.map_nil]
    decide
  intro entry member
  obtain ⟨filled, chars⟩ := named entry.1 (List.mem_map_of_mem member)
  exact ⟨filled, List.all_eq_true.mp chars⟩

section

variable (rooted : Path.isAbs keg = true) (cleaned : Path.clean keg = keg) (below : keg ≠ "/")

include rooted cleaned below

theorem join_eq_append {c : String} (component : Path.IsComponent c.toList) :
    Path.join [keg, c] = keg ++ "/" ++ c := by
  have components := Disk.namesOf_components rooted
  have path : Path.ofComponents (Disk.namesOf keg) = keg := (Path.clean_of_isAbs rooted).symm.trans cleaned
  have inner : Disk.namesOf keg ≠ [] := by
    intro none
    rw [none] at path
    exact below path.symm
  have chars := Unpack.toList_ofComponents_of_ne inner
  rw [path] at chars
  conv_lhs => rw [← path, Path.join_ofComponents components component]
  rw [← String.toList_inj, Unpack.toList_ofComponents_of_ne (by simp)]
  simp [chars]

/-- The names that a service knows have the values that they have for the steps of a formula. -/
theorem get?_stepValues (name version : String) (n : List Char) :
    ((stepValues name version keg).get? (String.ofList n)).map String.toList =
      (values keg.toList).lookup n := by
  have found : ∀ k v, (k, v) ∈ _ → (Variables.ofKeg name version keg).get? k = some v :=
    fun k v => (Dict.get?_ofList_eq_some_iff (by simp) k v).mpr
  have join : ∀ c ∈ ["bin", "sbin", "etc", "var", "share"], Path.join [keg, c] = keg ++ "/" ++ c := by
    intro c member
    refine join_eq_append rooted cleaned below ?_
    revert c
    decide
  rw [stepValues, Dict.get?_filter]
  by_cases member : String.ofList n ∈ known
  · simp only [known, List.mem_cons, List.not_mem_nil, or_false] at member
    rcases member with same | same | same | same | same | same
    all_goals
      obtain rfl := String.ofList_eq.mp same
      rw [String.ofList_toList, found _ _ (by simp; rfl)]
      simp [known, values, List.lookup, join]
  · rw [Option.filter_eq_none_iff.mpr (by simp [member])]
    symm
    rw [Option.map_none, List.lookup_eq_none_iff]
    intro entry listed
    rw [bne_iff_ne]
    rintro rfl
    have names : (values keg.toList).map (fun e => String.ofList e.1) = known := by simp [values, known]
    exact member (names ▸ List.mem_map_of_mem listed)

end

/-- A text is cut into characters and tokens from left to right, and both put values in the place of its
tokens: what is no token is kept, a token without a value is kept, and a value is not looked at again. The
descriptor of a service knows fewer variables, and puts in for them what the steps of a formula get. -/
theorem expand_eq_expand_ofKeg (rooted : Path.isAbs keg = true) (cleaned : Path.clean keg = keg)
    (below : keg ≠ "/") (name version s : String) :
    expand keg s = Variables.expand (stepValues name version keg) s ∧
      ∃ pieces, Text.Cut s.toList pieces ∧
        (∀ v : Variables, (v.expand s).toList =
          pieces.flatMap (Text.Piece.fill fun n => (v.get? (String.ofList n)).map String.toList)) ∧
        (expand keg s).toList = pieces.flatMap (Text.Piece.fill ((values keg.toList).lookup ·)) := by
  obtain ⟨pieces, cut⟩ := Text.exists_cut s.toList
  have steps : ∀ v : Variables, (v.expand s).toList =
      pieces.flatMap (Text.Piece.fill fun n => (v.get? (String.ofList n)).map String.toList) := by
    intro v
    rw [Variables.expand, String.toList_ofList, Text.expandVariables_of_cut cut]
  have service : (expand keg s).toList = pieces.flatMap (Text.Piece.fill ((values keg.toList).lookup ·)) := by
    rw [expand, String.toList_ofList, marks_eq_tokens, Text.replaceMarks_of_cut (values_named _) cut]
  refine ⟨?_, pieces, cut, steps, service⟩
  rw [← String.toList_inj, steps, service]
  simp only [get?_stepValues rooted cleaned below]

/-- A token begins inside of what is none, and a value that looks like a token stays. -/
theorem expand_eq_expand_nested :
    expand "/k/$\x7bbin\x7d" "$\x7b$\x7bprefix\x7d\x7d$\x7blib\x7d" =
      Variables.expand (stepValues "a" "1" "/k/$\x7bbin\x7d") "$\x7b$\x7bprefix\x7d\x7d$\x7blib\x7d" :=
  (expand_eq_expand_ofKeg (by decide) (by decide) (by decide) "a" "1" _).1

end Service

end Taproom
