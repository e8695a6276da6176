import Taproom.Formula.Basic
import Taproom.Proofs.BottleName
import Taproom.Proofs.Versions

/-!
Revisions of formulae. A version with a higher revision is a newer package version, whatever the version
looks like. The one case that takes an argument is a version that itself ends in an underscore and a
number: without a revision of its own, that number is taken for one.
-/

namespace Taproom

namespace Text

variable {c sep : Char} {s before after : List Char}

theorem readInt?_of_digits (filled : s ≠ []) (digits : ∀ c ∈ s, isDigit c)
    (fits : (digitsValue s : Int) ≤ maxInt) : readInt? s = some (digitsValue s : Int) := by
  have sign : ∀ rest, s ≠ '-' :: rest ∧ s ≠ '+' :: rest := by
    intro rest
    constructor <;> rintro rfl <;> exact absurd (digits _ (List.mem_cons_self ..)) (by decide)
  have all : s.all isDigit := List.all_eq_true.mpr digits
  have least : minInt ≤ (digitsValue s : Int) := by
    rw [minInt]
    omega
  rw [readInt?, readInt]
  · simp [filled, all, least, fits, Except.toOption]
  · exact fun rest => (sign rest).1
  · exact fun rest => (sign rest).2

theorem isDigit_of_mem_repr {n : Nat} (member : c ∈ n.repr.toList) : isDigit c := by
  rw [Nat.toList_repr] at member
  have digit := Nat.isDigit_of_mem_toDigits (by decide) (by decide) member
  rw [Char.isDigit, Bool.and_eq_true] at digit
  rw [isDigit, Bool.and_eq_true]
  exact digit

theorem readInt?_repr {n : Nat} (fits : (n : Int) ≤ maxInt) : readInt? n.repr.toList = some (n : Int) := by
  have value : digitsValue n.repr.toList = n := by
    rw [Nat.toList_repr]
    exact Nat.ofDigitChars_ten_toDigits
  have filled : n.repr.toList ≠ [] := by
    rw [Nat.toList_repr]
    exact Nat.toDigits_ne_nil
  have read := readInt?_of_digits filled (fun _ => isDigit_of_mem_repr) (value.symm ▸ fits)
  rwa [value] at read

theorem mem_of_cut? (cut : cut? [sep] s = some (before, after)) (member : c ∈ s) (other : c ≠ sep) :
    c ∈ before ∨ c ∈ after := by
  rw [eq_of_cut? cut] at member
  simpa [other] using member

theorem exists_mem_splitAt (member : c ∈ s) (other : c ≠ sep) : ∃ w ∈ splitAt sep s, c ∈ w := by
  induction s with
  | nil => cases member
  | cons d s ih =>
    rw [splitAt]
    split
    · rename_i same
      have later : c ∈ s := (List.mem_cons.mp member).resolve_left fun first => other (first.trans same)
      obtain ⟨w, listed, inside⟩ := ih later
      exact ⟨w, List.mem_cons_of_mem _ listed, inside⟩
    · cases pieces : splitAt sep s with
      | nil =>
        rcases List.mem_cons.mp member with rfl | later
        · exact ⟨[c], List.mem_singleton_self _, List.mem_singleton_self _⟩
        · obtain ⟨w, listed, -⟩ := ih later
          rw [pieces] at listed
          cases listed
      | cons w ws =>
        rcases List.mem_cons.mp member with rfl | later
        · exact ⟨c :: w, List.mem_cons_self .., List.mem_cons_self ..⟩
        · obtain ⟨u, listed, inside⟩ := ih later
          rw [pieces] at listed
          rcases List.mem_cons.mp listed with rfl | listed
          · exact ⟨d :: u, List.mem_cons_self .., List.mem_cons_of_mem _ inside⟩
          · exact ⟨u, List.mem_cons_of_mem _ listed, inside⟩

theorem mem_dropWhile {p : Char → Bool} (member : c ∈ s) (stops : p c = false) : c ∈ s.dropWhile p := by
  rw [← List.takeWhile_append_dropWhile (p := p) (l := s), List.mem_append] at member
  refine member.resolve_left fun early => ?_
  rw [List.mem_takeWhile_imp early] at stops
  cases stops

theorem mem_trim (member : c ∈ s) (dark : isBlank c = false) : c ∈ trim s := by
  rw [trim, List.mem_reverse]
  exact mem_dropWhile (List.mem_reverse.mpr (mem_dropWhile member dark)) dark

theorem mem_joinWith {w : List Char} {ws : List (List Char)} (listed : w ∈ ws) (member : c ∈ w) :
    c ∈ joinWith [sep] ws := by
  fun_induction joinWith [sep] ws with
  | case1 => cases listed
  | case2 u => rwa [← List.mem_singleton.mp listed]
  | case3 u us _ ih =>
    rw [List.mem_append]
    rcases List.mem_cons.mp listed with rfl | later
    · exact Or.inl (List.mem_append_left _ member)
    · exact Or.inr (ih later)

end Text

namespace Semver

variable {c : Char} {s : List Char}

theorem isDigit_of_number? {n : Nat} (read : number? s = some n) (member : c ∈ s) : isDigit c := by
  unfold number? at read
  split at read
  · cases member
  · split at read
    · rename_i held
      simp only [Bool.and_eq_true] at held
      exact List.all_eq_true.mp held.1.1 c member
    · cases read

theorem isWordChar_of_isDigit (digit : isDigit c) : isWordChar c := by
  simp [isWordChar, digit]

theorem isWordChar_of_part? {p : Part} (read : part? s = some p) (member : c ∈ s) : isWordChar c := by
  unfold part? at read
  split at read
  · cases read
  · split at read
    · rename_i digits
      exact isWordChar_of_isDigit (List.all_eq_true.mp digits c member)
    · split at read
      · rename_i letters
        exact List.all_eq_true.mp letters c member
      · cases read

theorem exists_mem_threeParts (member : c ∈ s) (other : c ≠ '.') : ∃ w ∈ threeParts s, c ∈ w := by
  unfold threeParts
  split
  · exact ⟨s, List.mem_singleton_self s, member⟩
  · rename_i a rest cut
    rcases Text.mem_of_cut? cut member other with first | later
    · split <;> exact ⟨a, List.mem_cons_self .., first⟩
    · split
      · exact ⟨rest, by simp, later⟩
      · rename_i again
        rcases Text.mem_of_cut? again later other with inside | inside
        · exact ⟨_, by simp, inside⟩
        · exact ⟨_, by simp, inside⟩

theorem mem_stripZeros (member : c ∈ s) (other : c ≠ '0') : c ∈ stripZeros s := by
  have kept : c ∈ s.dropWhile (· = '0') := Text.mem_dropWhile member (by simpa using other)
  unfold stripZeros
  split
  · exact member
  · split
    · rename_i rest
      rw [rest] at kept
      split
      · exact kept
      · exact List.mem_cons_of_mem _ kept
    · rename_i nothing
      rw [nothing] at kept
      cases kept

theorem mem_cutWords {mark : Char} (member : c ∈ s) (other : c ≠ mark) (dot : c ≠ '.') :
    c ∈ (cutWords mark s).1 ∨ ∃ w ∈ (cutWords mark s).2, c ∈ w := by
  unfold cutWords
  split
  · rename_i before after cut
    rcases Text.mem_of_cut? cut member other with first | later
    · exact Or.inl first
    · exact Or.inr (Text.exists_mem_splitAt later dot)
  · exact Or.inl member

theorem isWordChar_of_mapM_part? {ws : List (List Char)} {pre : List Part} (read : ws.mapM part? = some pre)
    {w : List Char} (listed : w ∈ ws) (member : c ∈ w) : isWordChar c := by
  induction ws generalizing pre with
  | nil => cases listed
  | cons u us ih =>
    rw [List.mapM_cons] at read
    obtain ⟨p, first, others⟩ := Option.bind_eq_some_iff.mp read
    obtain ⟨ps, later, -⟩ := Option.bind_eq_some_iff.mp others
    rcases List.mem_cons.mp listed with rfl | listed
    · exact isWordChar_of_part? first member
    · exact ih later listed

theorem isWordChar_of_parse? {v : Semver} (read : parse? s = some v) (member : c ∈ s) (dot : c ≠ '.')
    (plus : c ≠ '+') : isWordChar c := by
  by_cases minus : c = '-'
  · rw [minus]
    rfl
  obtain ⟨w, listed, inside⟩ := exists_mem_threeParts member dot
  unfold parse? at read
  split at read
  · rename_i x y z parts
    rw [parts] at listed
    split at read
    · rename_i major minor first second
      dsimp only at read
      split at read
      · rename_i built
        split at read
        · rename_i patch pre third others
          simp only [List.mem_cons, List.not_mem_nil, or_false] at listed
          rcases listed with rfl | rfl | rfl
          · exact isWordChar_of_isDigit (isDigit_of_number? first inside)
          · exact isWordChar_of_isDigit (isDigit_of_number? second inside)
          · rcases mem_cutWords inside plus dot with early | ⟨word, listed, within⟩
            · rcases mem_cutWords early minus dot with number | ⟨word, listed, within⟩
              · exact isWordChar_of_isDigit (isDigit_of_number? third number)
              · exact isWordChar_of_mapM_part? others listed within
            · have letters := List.all_eq_true.mp built word listed
              rw [Bool.and_eq_true] at letters
              exact List.all_eq_true.mp letters.2 c within
        · cases read
      · cases read
    · cases read
  · cases read

theorem underscore_mem_of_tolerate {t : List Char} (member : '_' ∈ s) (kept : tolerate s = some t) :
    '_' ∈ t := by
  have trimmed : '_' ∈ Text.trim s := Text.mem_trim member (by decide)
  have dropped : '_' ∈ (Text.dropPrefix? ['v'] (Text.trim s)).getD (Text.trim s) := by
    cases drop : Text.dropPrefix? ['v'] (Text.trim s) with
    | none => exact trimmed
    | some rest =>
      rw [Text.eq_append_of_dropPrefix? drop] at trimmed
      simpa using trimmed
  obtain ⟨w, listed, inside⟩ := exists_mem_threeParts dropped (by decide)
  have stripped := List.mem_map_of_mem (f := stripZeros) listed
  have held : '_' ∈ stripZeros w := mem_stripZeros inside (by decide)
  unfold tolerate at kept
  dsimp only at kept
  split at kept
  · split at kept
    · cases kept
    · cases kept
      exact Text.mem_joinWith (List.mem_append_left _ stripped) held
  · cases kept
    exact Text.mem_joinWith stripped held

theorem parseTolerant?_of_underscore (member : '_' ∈ s) : parseTolerant? s = none := by
  rw [parseTolerant?, Option.bind_eq_none_iff]
  intro t kept
  rw [Option.eq_none_iff_forall_ne_some]
  intro v read
  have letter := isWordChar_of_parse? read (underscore_mem_of_tolerate member kept) (by decide) (by decide)
  exact absurd letter (by decide)

theorem compareChars_append (s : List Char) (c : Char) (t : List Char) :
    compareChars s (s ++ c :: t) = .lt := by
  induction s with
  | nil => rfl
  | cons a s ih => simpa [compareChars] using ih

end Semver

namespace Version

theorem toList_withRevision (v : String) {n : Nat} (positive : 0 < n) :
    (withRevision v n).toList = v.toList ++ '_' :: n.repr.toList := by
  have written : toString (n : Int) = n.repr := rfl
  rw [withRevision, if_pos (by omega), written]
  simp

theorem splitRevision_withRevision (v : String) {r : Int} (positive : 0 < r) (fits : r ≤ Text.maxInt) :
    splitRevision (withRevision v r).toList = (v.toList, r) := by
  obtain ⟨n, rfl⟩ := Int.eq_ofNat_of_zero_le positive.le
  have digits : '_' ∉ n.repr.toList := fun member =>
    absurd (Text.isDigit_of_mem_repr member) (by decide)
  have cut : Text.cutLast? ['_'] (v.toList ++ '_' :: n.repr.toList) = some (v.toList, n.repr.toList) :=
    (Text.cutLast?_eq_some_iff '_').mpr ⟨rfl, digits⟩
  rw [toList_withRevision v (by omega), splitRevision, cut]
  simp only [Text.readInt?_repr fits]

theorem compareParts_self (v : List Char) : compareParts v v = .eq := by
  rw [compareParts]
  cases Semver.parseTolerant? v with
  | none => exact Std.ReflCmp.compare_self
  | some x =>
    show Semver.compare x x = .eq
    exact Std.ReflCmp.compare_self

theorem compareParts_splitRevision (v : List Char) :
    splitRevision v = (v, 0) ∨ compareParts (splitRevision v).1 v = .lt := by
  cases cut : Text.cutLast? ['_'] v with
  | none =>
    left
    rw [splitRevision, cut]
  | some parts =>
    obtain ⟨before, after⟩ := parts
    cases read : Text.readInt? after with
    | none =>
      left
      rw [splitRevision, cut]
      simp only [read]
    | some n =>
      right
      have split : splitRevision v = (before, n) := by
        rw [splitRevision, cut]
        simp only [read]
      have whole : v = before ++ '_' :: after := ((Text.cutLast?_eq_some_iff '_').mp cut).1
      -- The whole has an underscore and so reads as no version: the two are compared as texts.
      have unread : Semver.parseTolerant? v = none := Semver.parseTolerant?_of_underscore (by simp [whole])
      have texts : compareParts before v = Semver.compareChars before v := by
        rw [compareParts, unread]
        cases Semver.parseTolerant? before <;> rfl
      rw [split, texts, whole]
      exact Semver.compareChars_append before '_' after

theorem compare_withRevision_lt (v : String) {r s : Int} (least : 0 ≤ r) (bumped : r < s)
    (fits : s ≤ Text.maxInt) : compare (withRevision v r) (withRevision v s) = .lt := by
  have newer := splitRevision_withRevision v (least.trans_lt bumped) fits
  rcases least.eq_or_lt with rfl | positive
  · have plain : withRevision v 0 = v := rfl
    rw [compare, newer, plain]
    rcases compareParts_splitRevision v.toList with unrevised | before
    · rw [unrevised]
      simp only [compareParts_self, Ordering.eq_then]
      exact compare_lt_iff_lt.mpr bumped
    · simp only [before, Ordering.lt_then]
  · have older := splitRevision_withRevision v positive (bumped.le.trans fits)
    rw [compare, older, newer]
    simp only [compareParts_self, Ordering.eq_then]
    exact compare_lt_iff_lt.mpr bumped

end Version

namespace Formula

/-- Of two formulae of one version, that with the higher revision has the newer package version. -/
theorem packageVersion?_lt_of_revision_lt {older newer : Formula} {v : String} (first : older.version? = some v)
    (second : newer.version? = some v) (least : 0 ≤ older.revision)
    (bumped : older.revision < newer.revision) (fits : newer.revision ≤ Text.maxInt) :
    older.packageVersion? = some (Version.withRevision v older.revision) ∧
      newer.packageVersion? = some (Version.withRevision v newer.revision) ∧
      Version.compare (Version.withRevision v older.revision) (Version.withRevision v newer.revision) = .lt := by
  refine ⟨?_, ?_, Version.compare_withRevision_lt v least bumped fits⟩
  · rw [packageVersion?, first, Option.map_some]
  · rw [packageVersion?, second, Option.map_some]

/-- A version that seems to have a revision already gets one after it. -/
theorem packageVersion?_seemingly_revised :
    let older : Formula := { version := "1.2_3" }
    let newer : Formula := { version := "1.2_3", revision := 1 }
    older.packageVersion? = some "1.2_3" ∧ newer.packageVersion? = some "1.2_3_1" ∧
      Version.compare "1.2_3" "1.2_3_1" = .lt :=
  packageVersion?_lt_of_revision_lt (v := "1.2_3") (by decide) (by decide) (by decide) (by decide) (by decide)

end Formula

end Taproom
