import Mathlib.Algebra.BigOperators.Group.List.Basic
import Mathlib.Computability.Language
import Taproom.Proofs.BottleName

/-!
Versions in the addresses of archives. Where a file name ends in a dash, a version and the ending of an
archive, that version is found, whatever stands before the dash: a version with a dash in it goes on with
a word there, so none can begin earlier.
-/

namespace Taproom.Version

open scoped Computability
open Text (isDigit dropPrefix? dropSuffix?)

/-! ### How versions are spelled -/

def one (p : Char → Bool) : Language Char := {w | ∃ c, p c = true ∧ w = [c]}

def exactly (s : String) : Language Char := {w | w = s.toList}

def number : Language Char := one isDigit * (one isDigit)∗

def isMark (c : Char) : Bool := c = '-' || c = '.' || c = '_'

def preRelease : Language Char :=
  (1 + one isMark) *
    (exactly "alpha" + exactly "beta" + exactly "rc" + exactly "pre" + exactly "p") * (one isDigit)∗

/-- Numbers with dots between them, maybe a word for what comes before a release, and maybe a letter. -/
def spellings : Language Char :=
  number * (exactly "." * number)∗ * (1 + preRelease) * (1 + one isLower)

def archiveSuffixes : List String := ".tar" :: (archiveEndings ++ archiveEndings.map (".tar" ++ ·))

theorem digits_of_mem_kstar {w : List Char} (member : w ∈ (one isDigit)∗) : ∀ c ∈ w, isDigit c = true := by
  obtain ⟨parts, rfl, each⟩ := Language.mem_kstar.mp member
  intro c inside
  obtain ⟨part, isPart, here⟩ := List.mem_flatten.mp inside
  obtain ⟨c', digit, rfl⟩ := each part isPart
  exact List.mem_singleton.mp here ▸ digit

theorem exists_of_mem_number {w : List Char} (member : w ∈ number) :
    ∃ c ds, w = c :: ds ∧ ∀ x ∈ c :: ds, isDigit x = true := by
  obtain ⟨first, ⟨c, digit, rfl⟩, ds, more, rfl⟩ := Language.mem_mul.mp member
  refine ⟨c, ds, rfl, ?_⟩
  rw [List.forall_mem_cons]
  exact ⟨digit, digits_of_mem_kstar more⟩

theorem exists_of_mem_preRelease {w : List Char} (member : w ∈ preRelease) :
    ∃ mark word ds, w = mark ++ String.toList word ++ ds ∧ (mark = [] ∨ ∃ c, isMark c = true ∧ mark = [c]) ∧
      word ∈ preWords ∧ ∀ c ∈ ds, isDigit c = true := by
  obtain ⟨front, ⟨mark, isMark, word, isWord, rfl⟩, ds, digits, rfl⟩ := Language.mem_mul.mp member
  refine ⟨mark, String.ofList word, ds, by simp, isMark, ?_, digits_of_mem_kstar digits⟩
  rcases isWord with (((rfl | rfl) | rfl) | rfl) | rfl <;> simp [preWords]

def isAsked (c : Char) : Bool := c = '/' || c = '?' || c = '#'

section Plain

variable {l l' : Language Char}

def Plain (l : Language Char) : Prop := ∀ w ∈ l, ∀ c ∈ w, isAsked c = false

theorem Plain.add (plain : Plain l) (plain' : Plain l') : Plain (l + l') := by
  rintro w (left | right)
  · exact plain w left
  · exact plain' w right

theorem Plain.mul (plain : Plain l) (plain' : Plain l') : Plain (l * l') := by
  rintro _ ⟨w, member, w', member', rfl⟩
  exact List.forall_mem_append.mpr ⟨plain w member, plain' w' member'⟩

theorem Plain.kstar (plain : Plain l) : Plain l∗ := by
  rintro _ ⟨parts, rfl, each⟩ c inside
  obtain ⟨w, isPart, here⟩ := List.mem_flatten.mp inside
  exact plain w (each w isPart) c here

theorem plain_one : Plain 1 := by
  rintro _ rfl c inside
  cases inside

theorem plain_of_all {s : String} (all : s.toList.all (fun c => !isAsked c) = true) :
    ∀ c ∈ s.toList, isAsked c = false := by
  simpa using all

theorem plain_exactly {s : String} (all : s.toList.all (fun c => !isAsked c) = true) : Plain (exactly s) := by
  rintro _ rfl
  exact plain_of_all all

theorem plain_of_kind {p : Char → Bool} (differ : ∀ c, isAsked c = true → p c = false) : Plain (one p) := by
  rintro _ ⟨c, isOne, rfl⟩ c' inside
  obtain rfl := List.mem_singleton.mp inside
  by_contra asked
  rw [differ c' (by simpa using asked)] at isOne
  cases isOne

theorem plain_spellings : Plain spellings := by
  have kinds : ∀ c, isAsked c = true → isDigit c = false ∧ isMark c = false ∧ isLower c = false := by
    intro c asked
    simp only [isAsked, Bool.or_eq_true, decide_eq_true_eq] at asked
    rcases asked with (rfl | rfl) | rfl <;> decide
  have digit : Plain (one isDigit) := plain_of_kind fun c asked => (kinds c asked).1
  have mark : Plain (one isMark) := plain_of_kind fun c asked => (kinds c asked).2.1
  have letter : Plain (one isLower) := plain_of_kind fun c asked => (kinds c asked).2.2
  have words : Plain (exactly "alpha" + exactly "beta" + exactly "rc" + exactly "pre" + exactly "p") :=
    ((((plain_exactly (by decide)).add (plain_exactly (by decide))).add (plain_exactly (by decide))).add
      (plain_exactly (by decide))).add (plain_exactly (by decide))
  have dots : Plain (exactly "." * number)∗ := ((plain_exactly (by decide)).mul (digit.mul digit.kstar)).kstar
  have pre : Plain preRelease := ((plain_one.add mark).mul words).mul digit.kstar
  exact (((digit.mul digit.kstar).mul dots).mul (plain_one.add pre)).mul (plain_one.add letter)

end Plain

/-! ### Spelled versions are recognised -/

section Recognised

variable {s rest tail : List Char}

def Stops (s : List Char) : Prop := ∀ c ∈ s.head?, isDigit c = false

theorem dropWhile_digits {ds : List Char} (digits : ∀ c ∈ ds, isDigit c = true) (stops : Stops rest) :
    (ds ++ rest).dropWhile isDigit = rest := by
  rw [List.dropWhile_append_of_pos digits]
  cases rest with
  | nil => rfl
  | cons c rest => exact List.dropWhile_cons_of_neg (by simpa using stops c rfl)

theorem isDigit_of_isLower {c : Char} (lower : isLower c = true) : isDigit c = false := by
  rw [isLower, Bool.and_eq_true, decide_eq_true_eq] at lower
  rw [isDigit, Bool.and_eq_false_iff]
  refine Or.inr (decide_eq_false fun small => ?_)
  exact absurd (Char.le_trans lower.1 small) (by decide)

theorem isDigit_of_isMark {c : Char} (mark : isMark c = true) : isDigit c = false := by
  simp only [isMark, Bool.or_eq_true, decide_eq_true_eq] at mark
  rcases mark with (rfl | rfl) | rfl <;> decide

theorem letters_of_mem {w : List Char} (member : w ∈ 1 + one isLower) : isLetterTail w = true ∧ Stops w := by
  rcases member with rfl | ⟨c, lower, rfl⟩
  · exact ⟨rfl, by simp [Stops]⟩
  · exact ⟨lower, by simpa [Stops] using isDigit_of_isLower lower⟩

theorem head_of_preWord {word : String} (isWord : word ∈ preWords) :
    ∃ c more, word.toList = c :: more ∧ isMark c = false ∧ isDigit c = false ∧ c ∈ ['a', 'b', 'r', 'p'] := by
  simp only [preWords, List.mem_cons, List.not_mem_nil, or_false] at isWord
  rcases isWord with rfl | rfl | rfl | rfl | rfl <;> exact ⟨_, _, rfl, by decide⟩

theorem isTail_of_word {word : String} {mark : List Char} (isWord : word ∈ preWords)
    (marked : mark = [] ∨ ∃ c, isMark c = true ∧ mark = [c]) (few : isLetterTail (rest.dropWhile isDigit) = true) :
    isTail (mark ++ word.toList ++ rest) = true := by
  unfold isTail
  rw [Bool.or_eq_true, List.any_eq_true]
  refine Or.inr ⟨word, isWord, ?_⟩
  rcases marked with rfl | ⟨c, isMark, rfl⟩
  · obtain ⟨c, more, split, notMark, -⟩ := head_of_preWord isWord
    have kept : ¬ (c = '-' ∨ c = '.' ∨ c = '_') := by simpa [Version.isMark, not_or, and_assoc] using notMark
    simp only [List.nil_append, split, List.cons_append, if_neg kept]
    rw [← List.cons_append, ← split, Text.dropPrefix?_append]
    exact few
  · have dropped : c = '-' ∨ c = '.' ∨ c = '_' := by simpa [Version.isMark, or_assoc] using isMark
    simp only [List.cons_append, List.nil_append, if_pos dropped, Text.dropPrefix?_append]
    exact few

theorem isTail_of_mem (member : tail ∈ (1 + preRelease) * (1 + one isLower)) : isTail tail = true ∧ Stops tail := by
  obtain ⟨front, isFront, letters, isLetters, rfl⟩ := Language.mem_mul.mp member
  obtain ⟨few, stops⟩ := letters_of_mem isLetters
  rcases isFront with rfl | isPre
  · exact ⟨by simp [isTail, few], stops⟩
  · obtain ⟨mark, word, ds, rfl, marked, isWord, digits⟩ := exists_of_mem_preRelease isPre
    constructor
    · rw [List.append_assoc]
      exact isTail_of_word isWord marked (by rwa [dropWhile_digits digits stops])
    · obtain ⟨c, more, split, -, notDigit, -⟩ := head_of_preWord isWord
      rcases marked with rfl | ⟨m, isMark, rfl⟩
      · simpa [Stops, split] using notDigit
      · simpa [Stops] using isDigit_of_isMark isMark

theorem dropDigits?_number {first : List Char} (isNumber : first ∈ number) (stops : Stops rest) :
    dropDigits? (first ++ rest) = some rest := by
  obtain ⟨c, ds, rfl, digits⟩ := exists_of_mem_number isNumber
  rw [List.forall_mem_cons] at digits
  rw [List.cons_append, dropDigits?, if_pos digits.1, dropWhile_digits digits.2 stops]

theorem isVersionOf_of_numbers {first : List Char} (isNumber : first ∈ number) {groups : List (List Char)}
    (each : ∀ g ∈ groups, g ∈ exactly "." * number) (ends : isTail tail = true) (stops : Stops tail)
    {fuel : Nat} (enough : groups.length < fuel) :
    isVersionOf fuel (first ++ (groups.flatten ++ tail)) = true := by
  induction groups generalizing first fuel with
  | nil =>
    obtain ⟨fuel, rfl⟩ := Nat.exists_eq_succ_of_ne_zero (Nat.ne_zero_of_lt enough)
    rw [List.flatten_nil, List.nil_append, isVersionOf, dropDigits?_number isNumber stops]
    simp [ends]
  | cons g groups ih =>
    obtain ⟨fuel, rfl⟩ := Nat.exists_eq_succ_of_ne_zero (Nat.ne_zero_of_lt enough)
    rw [List.forall_mem_cons] at each
    obtain ⟨⟨dot, rfl, next, isNext, rfl⟩, others⟩ := each
    have fewer : groups.length < fuel := by simpa using enough
    have more := ih isNext others fewer
    have shape : ((".".toList ++ next) :: groups).flatten ++ tail = '.' :: (next ++ (groups.flatten ++ tail)) := by
      simp
    rw [shape, isVersionOf, dropDigits?_number isNumber (by simp [Stops, isDigit])]
    simp [more]

theorem isVersion_of_mem {v : List Char} (spelled : v ∈ spellings) : isVersion v = true := by
  rw [spellings, mul_assoc] at spelled
  obtain ⟨front, ⟨first, isNumber, more, isMore, rfl⟩, tail, isTail, rfl⟩ := Language.mem_mul.mp spelled
  obtain ⟨groups, rfl, each⟩ := Language.mem_kstar.mp isMore
  obtain ⟨ends, stops⟩ := isTail_of_mem isTail
  -- Every group has its dot, so there are no more groups than characters.
  have filled : groups.length ≤ groups.flatten.length := by
    rw [List.length_flatten, ← List.length_map List.length]
    refine List.length_le_sum_of_one_le _ fun n isLength => ?_
    obtain ⟨g, member, rfl⟩ := List.mem_map.mp isLength
    obtain ⟨dot, rfl, next, -, rfl⟩ := each g member
    simp
  rw [isVersion, List.append_assoc]
  refine isVersionOf_of_numbers isNumber each ends stops ?_
  simp only [List.length_append]
  omega

end Recognised

/-! ### No version begins before the dash -/

section Marks

variable {x y rest : List Char} {m c : Char}

theorem isMark_of_isDigit (digit : isDigit c = true) : isMark c = false := by
  by_contra mark
  rw [isDigit_of_isMark (by simpa using mark)] at digit
  cases digit

theorem eq_nil_or_of_isLetterTail {s : List Char} (few : isLetterTail s = true) :
    s = [] ∨ ∃ c, isLower c = true ∧ s = [c] := by
  unfold isLetterTail at few
  split at few
  · exact Or.inl rfl
  · exact Or.inr ⟨_, few, rfl⟩
  · cases few

theorem isMark_of_mem_body {word : String} (isWord : word ∈ preWords) {body : List Char}
    (dropped : dropPrefix? word.toList body = some rest) (few : isLetterTail (rest.dropWhile isDigit) = true)
    (member : c ∈ body) : isMark c = false := by
  have plain : ∀ word ∈ preWords, word.toList.all (fun c => !isMark c) = true := by decide
  have lower : ∀ c, isLower c = true → isMark c = false := by
    intro c lower
    by_contra mark
    simp only [isMark, Bool.not_eq_false, Bool.or_eq_true, decide_eq_true_eq] at mark
    rcases mark with (rfl | rfl) | rfl <;> exact absurd lower (by decide)
  rw [Text.eq_append_of_dropPrefix? dropped, ← List.takeWhile_append_dropWhile (p := isDigit) (l := rest)] at member
  rcases List.mem_append.mp member with inWord | inRest
  · simpa using List.all_eq_true.mp (plain word isWord) c inWord
  · rcases List.mem_append.mp inRest with digits | letters
    · exact isMark_of_isDigit (List.mem_takeWhile_imp digits)
    · rcases eq_nil_or_of_isLetterTail few with none | ⟨c', isLower, single⟩
      · rw [none] at letters
        cases letters
      · rw [single, List.mem_singleton] at letters
        exact letters ▸ lower c' isLower

theorem isTail_mark (mark : isMark m = true) (ends : isTail (x ++ m :: c :: y) = true) :
    c ∈ ['a', 'b', 'r', 'p'] := by
  unfold isTail at ends
  rw [Bool.or_eq_true, List.any_eq_true] at ends
  rcases ends with few | ⟨word, isWord, ends⟩
  · rcases eq_nil_or_of_isLetterTail few with none | ⟨c', -, single⟩
    · simp at none
    · have length := congrArg List.length single
      simp only [List.length_append, List.length_cons, List.length_nil] at length
      omega
  · have unmarked : ∀ {body : List Char} {rest : List Char}, dropPrefix? word.toList body = some rest →
        isLetterTail (rest.dropWhile isDigit) = true → m ∉ body := by
      intro body rest dropped few member
      rw [isMark_of_mem_body isWord dropped few member] at mark
      cases mark
    split at ends
    · rename_i rest dropped
      cases x with
      | nil =>
        have isMark' : m = '-' ∨ m = '.' ∨ m = '_' := by simpa [isMark, or_assoc] using mark
        simp only [List.nil_append, if_pos isMark'] at dropped
        obtain ⟨first, more, split, -, -, isFirst⟩ := head_of_preWord isWord
        have whole := Text.eq_append_of_dropPrefix? dropped
        rw [split, List.cons_append, List.cons.injEq] at whole
        exact whole.1 ▸ isFirst
      | cons ch x =>
        refine absurd ?_ (unmarked dropped ends)
        simp only [List.cons_append]
        split <;> simp
    · cases ends

theorem exists_of_dropDigits? {s : List Char} (dropped : dropDigits? s = some rest) :
    ∃ ds, ds ≠ [] ∧ s = ds ++ rest ∧ ∀ c ∈ ds, isDigit c = true := by
  unfold dropDigits? at dropped
  split at dropped
  · rename_i c s
    split at dropped
    · rename_i digit
      cases dropped
      refine ⟨c :: s.takeWhile isDigit, by simp, by simp, ?_⟩
      rw [List.forall_mem_cons]
      exact ⟨digit, fun x member => List.mem_takeWhile_imp member⟩
    · cases dropped
  · cases dropped

theorem isDigit_of_isVersionOf {fuel : Nat} (isVersion : isVersionOf fuel (c :: y) = true) : isDigit c = true := by
  cases fuel with
  | zero => cases isVersion
  | succ fuel =>
    by_contra other
    rw [isVersionOf, dropDigits?, if_neg other] at isVersion
    cases isVersion

theorem isVersionOf_mark (mark : isMark m = true) {fuel : Nat}
    (isVersion : isVersionOf fuel (x ++ m :: c :: y) = true) :
    m = '.' ∧ isDigit c = true ∨ c ∈ ['a', 'b', 'r', 'p'] := by
  induction fuel generalizing x with
  | zero => cases isVersion
  | succ fuel ih =>
    rw [isVersionOf] at isVersion
    split at isVersion
    · cases isVersion
    · rename_i rest dropped
      obtain ⟨ds, -, whole, digits⟩ := exists_of_dropDigits? dropped
      -- The mark stands after the digits.
      obtain ⟨x', rfl⟩ : ∃ x', rest = x' ++ m :: c :: y := by
        rcases List.append_eq_append_iff.mp whole with ⟨between, rfl, split⟩ | ⟨x', -, split⟩
        · cases between with
          | nil => exact ⟨[], split.symm⟩
          | cons b between =>
            obtain ⟨rfl, -⟩ := List.cons.inj split
            have digit := digits m (by simp)
            rw [isDigit_of_isMark mark] at digit
            cases digit
        · exact ⟨x', split⟩
      rw [Bool.or_eq_true] at isVersion
      rcases isVersion with ends | more
      · exact Or.inr (isTail_mark mark ends)
      · split at more
        · rename_i next isNext
          cases x' with
          | nil =>
            obtain ⟨rfl, rfl⟩ := List.cons.inj isNext
            exact Or.inl ⟨rfl, isDigit_of_isVersionOf more⟩
          | cons first x' =>
            obtain ⟨-, rfl⟩ := List.cons.inj isNext
            exact ih more
        · cases more

end Marks

/-! ### The version in a file name -/

section Names

variable {v file : List Char}

inductive Shown (v : List Char) : List Char → Prop where
  | plain : Shown v v
  | lettered : Shown v ('v' :: v)

theorem Shown.wholeVersion? {w : List Char} (shown : Shown v w) (isVersion : isVersion v = true) :
    wholeVersion? w = some v := by
  cases shown with
  | lettered => rw [Version.wholeVersion?, if_pos isVersion]
  | plain =>
    obtain ⟨c, rest, rfl, digit⟩ := isDigit_of_isVersion isVersion
    unfold Version.wholeVersion?
    split
    · rename_i same
      obtain ⟨rfl, -⟩ := List.cons.inj same
      cases digit
    · rw [if_pos isVersion]

theorem Shown.head {w : List Char} (shown : Shown v w) (isVersion : isVersion v = true) :
    ∃ c rest, w = c :: rest ∧ c ∉ ['a', 'b', 'r', 'p'] := by
  cases shown with
  | lettered => exact ⟨'v', v, rfl, by decide⟩
  | plain =>
    obtain ⟨c, rest, rfl, digit⟩ := isDigit_of_isVersion isVersion
    refine ⟨c, rest, rfl, fun letter => ?_⟩
    simp only [List.mem_cons, List.not_mem_nil, or_false] at letter
    rcases letter with rfl | rfl | rfl | rfl <;> cases digit

theorem wholeVersion?_eq_none {c : Char} (notWord : c ∉ ['a', 'b', 'r', 'p']) (x y : List Char) :
    wholeVersion? (x ++ '-' :: c :: y) = none := by
  have refused : ∀ x, isVersion (x ++ '-' :: c :: y) = false := by
    intro x
    by_contra isVersion
    rw [Bool.not_eq_false, Version.isVersion] at isVersion
    rcases isVersionOf_mark (by decide) isVersion with ⟨dash, -⟩ | word
    · cases dash
    · exact notWord word
  unfold wholeVersion?
  split
  · rename_i rest whole
    cases x with
    | nil => cases whole
    | cons ch x =>
      rw [List.cons_append] at whole
      obtain ⟨-, rfl⟩ := List.cons.inj whole
      rw [refused x]
      rfl
  · rw [refused x]
    rfl

theorem afterMark?_append {c : Char} (notWord : c ∉ ['a', 'b', 'r', 'p']) {y : List Char}
    (found : wholeVersion? (c :: y) = some v) (name : List Char) :
    afterMark? (name ++ '-' :: c :: y) = some v := by
  induction name with
  | nil => rw [List.nil_append, afterMark?, if_pos (Or.inl rfl), found]
  | cons ch name ih =>
    rw [List.cons_append, afterMark?, wholeVersion?_eq_none notWord, ih]
    split <;> rfl

theorem ofName?_append {w : List Char} (isVersion : isVersion v = true) (shown : Shown v w) (name : List Char) :
    ofName? (name ++ '-' :: w) = some v := by
  have found := shown.wholeVersion? isVersion
  obtain ⟨c, y, rfl, notWord⟩ := shown.head isVersion
  rw [ofName?, wholeVersion?_eq_none notWord, Option.none_or, afterMark?_append notWord found]

theorem ofName?_whole {w : List Char} (isVersion : isVersion v = true) (shown : Shown v w) :
    ofName? w = some v := by
  rw [ofName?, shown.wholeVersion? isVersion, Option.some_or]

end Names

/-! ### Endings of archives -/

theorem not_tar_suffix {v : List Char} (isVersion : isVersion v = true) (x : List Char) :
    ¬ ".tar".toList <:+ x ++ v := by
  rintro ⟨front, split⟩
  rcases List.append_eq_append_iff.mp split with ⟨before, -, within⟩ | ⟨before, -, within⟩
  · -- All of the version stands in the ending, which has no digit.
    obtain ⟨c, rest, rfl, digit⟩ := isDigit_of_isVersion isVersion
    have none : ".tar".toList.all (fun c => !isDigit c) = true := by decide
    rw [within] at none
    simp [digit] at none
  · have ending : ".tar".toList = '.' :: 't' :: ['a', 'r'] := by decide
    rw [within, ending, Version.isVersion] at isVersion
    rcases isVersionOf_mark (by decide) isVersion with ⟨-, digit⟩ | word
    · cases digit
    · exact absurd word (by decide)

theorem findEnding {ending : String} (isEnding : ending ∈ archiveEndings) (s : List Char) :
    archiveEndings.findSome? (fun e => dropSuffix? e.toList (s ++ ending.toList)) = some s := by
  have alone : ∀ e ∈ archiveEndings, ∀ e' ∈ archiveEndings, e.toList <:+ e'.toList → e = e' := by decide
  have this := (Text.dropSuffix?_eq_some_iff ending.toList (s ++ ending.toList) s).mpr rfl
  cases found : archiveEndings.findSome? (fun e => dropSuffix? e.toList (s ++ ending.toList)) with
  | none =>
    rw [List.findSome?_eq_none_iff.mp found ending isEnding] at this
    cases this
  | some body =>
    obtain ⟨e, member, dropped⟩ := List.exists_of_findSome?_eq_some found
    have whole := (Text.dropSuffix?_eq_some_iff ..).mp dropped
    obtain rfl : e = ending := by
      have ends : e.toList <:+ s ++ ending.toList := ⟨body, whole.symm⟩
      rcases List.suffix_or_suffix_of_suffix ends (List.suffix_append s ending.toList) with within | within
      · exact alone e member ending isEnding within
      · exact (alone ending isEnding e member within).symm
    rw [List.append_cancel_right whole]

theorem stripArchive_append {s : List Char} (bare : ¬ ".tar".toList <:+ s) {suffix : String}
    (isSuffix : suffix ∈ archiveSuffixes) : stripArchive (s ++ suffix.toList) = s := by
  have tar : dropSuffix? ".tar".toList (s ++ ".tar".toList) = some s := (Text.dropSuffix?_eq_some_iff ..).mpr rfl
  have kept : (dropSuffix? ".tar".toList s).getD s = s := by
    cases dropped : dropSuffix? ".tar".toList s with
    | none => rfl
    | some body => exact absurd ⟨body, ((Text.dropSuffix?_eq_some_iff ..).mp dropped).symm⟩ bare
  rw [archiveSuffixes, List.mem_cons, List.mem_append, List.mem_map] at isSuffix
  rw [stripArchive]
  rcases isSuffix with rfl | isEnding | ⟨ending, isEnding, rfl⟩
  · have none : archiveEndings.findSome? (fun e => dropSuffix? e.toList (s ++ ".tar".toList)) = none := by
      have apart : ∀ e ∈ archiveEndings, ¬ e.toList <:+ ".tar".toList ∧ e.toList.length ≤ 4 := by decide
      rw [List.findSome?_eq_none_iff]
      intro e member
      cases dropped : dropSuffix? e.toList (s ++ ".tar".toList) with
      | none => rfl
      | some body =>
        have ends : e.toList <:+ s ++ ".tar".toList := ⟨body, ((Text.dropSuffix?_eq_some_iff ..).mp dropped).symm⟩
        exact absurd (List.suffix_of_suffix_length_le ends (List.suffix_append s _) (apart e member).2)
          (apart e member).1
    rw [none, tar]
    rfl
  · rw [findEnding isEnding]
    exact kept
  · rw [String.toList_append, ← List.append_assoc, findEnding isEnding]
    simp only [tar, Option.getD_some]

/-! ### The version in an address -/

theorem base_append (front : String) {file : String} (filled : file ≠ "") (free : '/' ∉ file.toList) :
    Path.base (front ++ "/" ++ file) = file := by
  have reversed : file.toList.reverse ≠ [] := by simpa using filled
  obtain ⟨c, cs, split⟩ := List.exists_cons_of_ne_nil reversed
  have slash : c ≠ '/' := by
    rintro rfl
    exact free (List.mem_reverse.mp (split ▸ List.mem_cons_self))
  have last := Path.takeWhile_concat free (front.toList ++ ['/']) (Or.inr ⟨_, rfl⟩)
  have chars : (front ++ "/" ++ file).toList = front.toList ++ ['/'] ++ file.toList := by simp
  have kept : (front.toList ++ ['/'] ++ file.toList).reverse.dropWhile (· = '/') =
      (front.toList ++ ['/'] ++ file.toList).reverse := by
    rw [List.reverse_append, split, List.cons_append]
    exact List.dropWhile_cons_of_neg (by simpa using slash)
  have nonempty : front ++ "/" ++ file ≠ "" := by
    intro empty
    have := congrArg String.toList empty
    simp at this
  rw [Path.base, if_neg nonempty]
  simp only [Text.chars_eq, chars, kept]
  rw [if_neg (by simp), last, List.reverse_reverse, String.ofList_toList]

variable {v extra suffix : String}

theorem takeWhile_query {address : String} (plain : ∀ c ∈ address.toList, c ≠ '?' ∧ c ≠ '#')
    (query : ∀ c ∈ extra.toList.head?, c = '?' ∨ c = '#') :
    (address ++ extra).toList.takeWhile (fun c => c ≠ '?' ∧ c ≠ '#') = address.toList := by
  rw [String.toList_append, List.takeWhile_append_of_pos (by simpa using plain)]
  cases rest : extra.toList with
  | nil => simp
  | cons c cs =>
    have mark := query c (by simp [rest])
    rw [List.takeWhile_cons_of_neg (by simp; tauto), List.append_nil]

theorem ofUrl_eq {front file : String} (frontPlain : ∀ c ∈ front.toList, c ≠ '?' ∧ c ≠ '#')
    (filled : file ≠ "") (filePlain : ∀ c ∈ file.toList, isAsked c = false)
    (query : ∀ c ∈ extra.toList.head?, c = '?' ∨ c = '#')
    (found : ofName? (stripArchive file.toList) = some v.toList) : ofUrl (front ++ "/" ++ file ++ extra) = v := by
  have free : ∀ c ∈ file.toList, c ≠ '/' ∧ c ≠ '?' ∧ c ≠ '#' := by
    simpa [isAsked, not_or, and_assoc] using filePlain
  have plain : ∀ c ∈ (front ++ "/" ++ file).toList, c ≠ '?' ∧ c ≠ '#' := by
    simp only [String.toList_append, List.forall_mem_append]
    exact ⟨⟨frontPlain, by simp⟩, fun c member => (free c member).2⟩
  have nonempty : front ++ "/" ++ file ++ extra ≠ "" := by
    intro empty
    have := congrArg String.toList empty
    simp at this
  rw [ofUrl, if_neg nonempty]
  dsimp only
  rw [takeWhile_query plain query, String.ofList_toList, base_append front filled fun slash => (free _ slash).1 rfl,
    found]
  exact String.ofList_toList

theorem plain_suffix (isSuffix : suffix ∈ archiveSuffixes) : ∀ c ∈ suffix.toList, isAsked c = false := by
  have all : ∀ suffix ∈ archiveSuffixes, suffix.toList.all (fun c => !isAsked c) = true := by decide
  exact plain_of_all (all suffix isSuffix)

/-- The version of an archive is found in its address, after whatever name and a dash or as all of the
file name, with the letter that stands for the word or without, before every ending that archives have
and whatever is asked of the server. -/
theorem ofUrl_recovers_version {front name v suffix extra : String}
    (frontPlain : ∀ c ∈ front.toList, c ≠ '?' ∧ c ≠ '#') (namePlain : ∀ c ∈ name.toList, isAsked c = false)
    (spelled : v.toList ∈ spellings) (isSuffix : suffix ∈ archiveSuffixes)
    (query : ∀ c ∈ extra.toList.head?, c = '?' ∨ c = '#') :
    ofUrl (front ++ "/" ++ (name ++ "-" ++ v ++ suffix) ++ extra) = v ∧
      ofUrl (front ++ "/" ++ (name ++ "-v" ++ v ++ suffix) ++ extra) = v ∧
      ofUrl (front ++ "/" ++ (v ++ suffix) ++ extra) = v ∧
      ofUrl (front ++ "/" ++ ("v" ++ v ++ suffix) ++ extra) = v := by
  have isVersion := isVersion_of_mem spelled
  have versionPlain := plain_spellings v.toList spelled
  have suffixPlain := plain_suffix isSuffix
  -- What stands before the version takes no part but for the version being found after it.
  have recovers : ∀ before : String, (∀ c ∈ before.toList, isAsked c = false) →
      ofName? (before.toList ++ v.toList) = some v.toList →
      ofUrl (front ++ "/" ++ (before ++ v ++ suffix) ++ extra) = v := by
    intro before beforePlain found
    refine ofUrl_eq frontPlain ?_ ?_ query ?_
    · intro empty
      have := congrArg String.toList empty
      obtain ⟨c, rest, split, -⟩ := isDigit_of_isVersion isVersion
      simp [split] at this
    · simp only [String.toList_append, List.forall_mem_append]
      exact ⟨⟨beforePlain, versionPlain⟩, suffixPlain⟩
    · rw [String.toList_append, String.toList_append,
        stripArchive_append (not_tar_suffix isVersion before.toList) isSuffix, found]
  refine ⟨recovers (name ++ "-") ?_ ?_, recovers (name ++ "-v") ?_ ?_, ?_, recovers "v" (plain_of_all (by decide)) ?_⟩
  · simp only [String.toList_append, List.forall_mem_append]
    exact ⟨namePlain, plain_of_all (by decide)⟩
  · simpa using ofName?_append isVersion .plain name.toList
  · simp only [String.toList_append, List.forall_mem_append]
    exact ⟨namePlain, plain_of_all (by decide)⟩
  · simpa using ofName?_append isVersion .lettered name.toList
  · simpa using recovers "" (by simp) (by simpa using ofName?_whole isVersion .plain)
  · simpa using ofName?_whole isVersion .lettered

/-- A version that looks like the ending of an archive, after a name that looks like a version. -/
theorem ofUrl_recovers_seeming_ending :
    "1.7z".toList ∈ spellings ∧ ".tar.gz" ∈ archiveSuffixes ∧
      ofUrl "https://example.com/lib-2.0-rc1-1.7z.tar.gz?raw=1.0.zip" = "1.7z" := by
  have one : ∀ c, isDigit c = true → [c] ∈ number := fun c digit =>
    ⟨[c], ⟨c, digit, rfl⟩, [], Language.nil_mem_kstar _, rfl⟩
  have dot : [['.', '7']].flatten ∈ (exactly "." * number)∗ := by
    refine Language.join_mem_kstar fun w member => ?_
    obtain rfl := List.mem_singleton.mp member
    exact ⟨['.'], by simp [exactly], ['7'], one '7' (by decide), rfl⟩
  have spelled : "1.7z".toList ∈ spellings := by
    refine ⟨['1', '.', '7'], ⟨['1', '.', '7'], ⟨['1'], one '1' (by decide), _, dot, rfl⟩, [], Or.inl rfl, rfl⟩, ['z'],
      Or.inr ⟨'z', by decide, rfl⟩, by decide⟩
  have isSuffix : ".tar.gz" ∈ archiveSuffixes := by decide
  have found := (@ofUrl_recovers_version "https://example.com" "lib-2.0-rc1" _ _ "?raw=1.0.zip" (by simp)
    (plain_of_all (by decide)) spelled isSuffix (by simp)).1
  have whole : "https://example.com" ++ "/" ++ ("lib-2.0-rc1" ++ "-" ++ "1.7z" ++ ".tar.gz") ++ "?raw=1.0.zip" =
      "https://example.com/lib-2.0-rc1-1.7z.tar.gz?raw=1.0.zip" := by decide
  exact ⟨spelled, isSuffix, whole ▸ found⟩

end Taproom.Version
