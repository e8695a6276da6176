import Mathlib.Data.List.Infix
import Taproom.Bottle
import Taproom.Proofs.KegPath

/-!
The names of bottle files. The parts of a name are told apart by the first places where its marks
stand, so that it is read back as what it was made of exactly if the parts hold no such marks. The
names and versions of sound formulae may hold them.
-/

namespace Taproom

/-! ### Cutting at the first separator -/

namespace Text

variable {sep s before after : List Char}

theorem dropPrefix?_eq_none_iff (p s : List Char) : dropPrefix? p s = none ↔ ¬ p <+: s := by
  constructor
  · rintro none ⟨rest, rfl⟩
    rw [dropPrefix?_append] at none
    cases none
  · intro apart
    cases dropped : dropPrefix? p s with
    | none => rfl
    | some rest => exact absurd ⟨rest, (eq_append_of_dropPrefix? dropped).symm⟩ apart

theorem dropSuffix?_eq_some_iff (p s rest : List Char) :
    dropSuffix? p s = some rest ↔ s = rest ++ p := by
  constructor
  · exact eq_append_of_dropSuffix?
  · rintro rfl
    rw [dropSuffix?, List.reverse_append, dropPrefix?_append, Option.map_some, List.reverse_reverse]

/-- A text is cut at the first place where the separator stands. No place before it can reach further
than to the last character of the separator there. -/
theorem cut?_eq_some_iff (nonempty : sep ≠ []) :
    cut? sep s = some (before, after) ↔
      s = before ++ sep ++ after ∧ ¬ sep <:+: before ++ sep.dropLast := by
  have short : sep.dropLast.length + 1 = sep.length := by
    have positive := List.length_pos_iff.mpr nonempty
    rw [List.length_dropLast]
    omega
  have front : ∀ before after : List Char, before ++ sep.dropLast <+: before ++ sep ++ after :=
    fun before after => ((List.prefix_append_right_inj before).mpr sep.dropLast_prefix).trans
      (List.prefix_append _ after)
  induction s generalizing before with
  | nil => simp [cut?, nonempty]
  | cons c s ih =>
    rw [cut?]
    cases dropped : dropPrefix? sep (c :: s) with
    | some rest =>
      have whole := eq_append_of_dropPrefix? dropped
      simp only [Option.some.injEq, Prod.mk.injEq]
      constructor
      · rintro ⟨rfl, rfl⟩
        refine ⟨whole, fun inside => ?_⟩
        have fits := inside.length_le
        rw [List.nil_append] at fits
        omega
      · rintro ⟨split, first⟩
        cases before with
        | nil => exact ⟨rfl, List.append_cancel_left (whole.symm.trans split)⟩
        | cons b before =>
          have starts : sep <+: (b :: before) ++ sep ++ after := ⟨rest, by rw [← split, whole]⟩
          have early := List.prefix_of_prefix_length_le starts (front (b :: before) after)
            (by simp only [List.length_append, List.length_cons]; omega)
          exact absurd early.isInfix first
    | none =>
      have apart := (dropPrefix?_eq_none_iff sep (c :: s)).mp dropped
      simp only [Option.map_eq_some_iff, Prod.exists, Prod.mk.injEq]
      constructor
      · rintro ⟨before, after, cut, rfl, rfl⟩
        obtain ⟨rfl, first⟩ := ih.mp cut
        refine ⟨rfl, fun inside => ?_⟩
        rcases List.infix_cons_iff.mp inside with starts | inside
        · exact apart (starts.trans (front (c :: before) after))
        · exact first inside
      · rintro ⟨split, first⟩
        cases before with
        | nil => exact absurd ⟨after, split.symm⟩ apart
        | cons b before =>
          obtain ⟨rfl, rest⟩ := List.cons.inj split
          refine ⟨before, after, ih.mpr ⟨rest, fun inside => first ?_⟩, rfl, rfl⟩
          exact List.infix_cons_iff.mpr (Or.inr inside)

theorem cutLast?_eq_some_iff (c : Char) :
    cutLast? [c] s = some (before, after) ↔ s = before ++ c :: after ∧ c ∉ after := by
  have shape : cutLast? [c] s = some (before, after) ↔
      cut? [c] s.reverse = some (after.reverse, before.reverse) := by
    rw [cutLast?, Option.map_eq_some_iff, Prod.exists]
    simp only [List.reverse_singleton, Prod.mk.injEq, List.reverse_eq_iff]
    constructor
    · rintro ⟨a, b, cut, rfl, rfl⟩
      exact cut
    · intro cut
      exact ⟨_, _, cut, rfl, rfl⟩
  rw [shape, cut?_eq_some_iff (List.cons_ne_nil c []), List.reverse_eq_iff]
  simp [List.singleton_infix_iff]

/-- A text that is followed by a part of a mark holds the mark no more than it does alone, if the mark
begins like nothing else in it. -/
theorem infix_append_dropLast_iff {c : Char} {rest : List Char} (single : c ∉ rest)
    (s : List Char) : c :: rest <:+: s ++ (c :: rest).dropLast ↔ c :: rest <:+: s := by
  have short : (c :: rest).dropLast.length = rest.length := by simp
  rw [List.infix_append_iff]
  constructor
  · rintro (inside | inside | ⟨front, back, split, ends, starts⟩)
    · exact inside
    · have fits := inside.length_le
      rw [short, List.length_cons] at fits
      omega
    · cases back with
      | nil =>
        rw [List.append_nil] at split
        exact (split ▸ ends).isInfix
      | cons x back =>
        obtain ⟨more, begins⟩ := starts.trans (List.dropLast_prefix (c :: rest))
        obtain ⟨rfl, -⟩ := List.cons.inj begins
        cases front with
        | nil =>
          have fits := starts.length_le
          rw [List.nil_append] at split
          rw [← split, short, List.length_cons] at fits
          omega
        | cons first front =>
          obtain ⟨-, rfl⟩ := List.cons.inj split
          simp at single
  · exact Or.inl

end Text

namespace Bottle

variable {name version tag base : List Char} {rebuild : Int}

/-! ### Reading names of files -/

/-- What stands before the mark of a bottle. -/
def stemChars (name version tag : List Char) : List Char :=
  name ++ ['-', '-'] ++ version ++ ['.'] ++ tag

/-- The parts that are read from the name of a file are those around the first marks in it. -/
theorem parseFileNameChars?_eq_some_iff (base name version tag : List Char) :
    parseFileNameChars? (base ++ ".tar.gz".toList) = some (name, version, tag) ↔
      '/' ∉ base ∧ name ≠ [] ∧ version ≠ [] ∧ tag ≠ [] ∧ '.' ∉ tag ∧
        (∃ rest, Text.cut? ['-', '-'] base = some (name, rest)) ∧
        ∃ rest, Text.cut? ".bottle".toList base = some (stemChars name version tag, rest) := by
  have dropped := (Text.dropSuffix?_eq_some_iff ".tar.gz".toList _ base).mpr rfl
  have ending : '/' ∉ ".tar.gz".toList := by decide
  have bare : '/' ∈ base ++ ".tar.gz".toList ↔ '/' ∈ base := by
    rw [List.mem_append, or_iff_left ending]
  rw [parseFileNameChars?, dropped]
  simp only [Option.bind_eq_bind, Option.bind_some, Option.bind_none, List.contains_eq_mem, bare,
    decide_eq_true_eq, Option.ite_none_left_eq_some, Option.bind_eq_some_iff, Prod.exists,
    Text.cutLast?_eq_some_iff, Option.some.injEq, Prod.mk.injEq, Bool.or_eq_true, not_or, not_lt]
  constructor
  · rintro ⟨free, name, rest, named, body, rest', marked, ⟨nonempty, -⟩, long, version, tag,
      ⟨parts, undotted⟩, ⟨versioned, tagged⟩, rfl, rfl, rfl⟩
    refine ⟨free, nonempty, versioned, tagged, undotted, ⟨rest, named⟩, rest', ?_⟩
    have first : name ++ ['-', '-'] <+: base := ⟨rest, (Text.eq_of_cut? named).symm⟩
    have second : body <+: base := by
      rw [Text.eq_of_cut? marked, List.append_assoc]
      exact List.prefix_append body _
    obtain ⟨more, rfl⟩ := List.prefix_of_prefix_length_le first second (by simpa using long)
    have whole : more = version ++ '.' :: tag := by simpa using parts
    rw [marked, whole]
    simp [stemChars]
  · rintro ⟨free, nonempty, versioned, tagged, undotted, ⟨rest, named⟩, rest', marked⟩
    refine ⟨free, name, rest, named, _, rest', marked, ⟨nonempty, ?_⟩, ?_, version, tag, ⟨?_, undotted⟩,
      ⟨versioned, tagged⟩, rfl, rfl, rfl⟩
    · simp only [stemChars, List.length_append]
      omega
    · simp only [stemChars, List.length_append, List.length_cons, List.length_nil]
      omega
    · simp [stemChars]

/-- Whether the parts of a bottle's name can be told apart again. -/
structure Separable (name version tag : List Char) : Prop where
  named : name ≠ []
  versioned : version ≠ []
  tagged : tag ≠ []
  bare : '/' ∉ name ∧ '/' ∉ version ∧ '/' ∉ tag
  undotted : '.' ∉ tag
  dashes : ¬ ['-', '-'] <:+: name
  lastDash : ¬ ['-'] <:+ name
  unmarked : ¬ ".bottle".toList <:+: stemChars name version tag

theorem dashes_iff (name : List Char) :
    ¬ ['-', '-'] <:+: name ++ ['-'] ↔ ¬ ['-', '-'] <:+: name ∧ ¬ ['-'] <:+ name := by
  have ends : ['-', '-'] <:+ name ++ ['-'] ↔ ['-'] <:+ name := by
    rw [List.suffix_concat_iff]
    constructor
    · rintro (none | ⟨t, split, ends⟩)
      · cases none
      · rwa [List.append_singleton_inj.mp (show ['-'] ++ ['-'] = t ++ ['-'] from split) |>.1]
    · intro ends
      exact Or.inr ⟨['-'], rfl, ends⟩
  rw [List.infix_concat_iff, ends, not_or, and_comm]

theorem free_rebuildMark (rebuild : Int) : '/' ∉ rebuildMark rebuild := by
  unfold rebuildMark
  split
  · rename_i positive
    have digits := Version.free_repr positive
    simpa using digits
  · exact List.not_mem_nil

theorem parseFileNameChars?_fileNameChars (name version tag : List Char) (rebuild : Int) :
    parseFileNameChars? (fileNameChars name version tag rebuild) = some (name, version, tag) ↔
      Separable name version tag := by
  have whole : fileNameChars name version tag rebuild =
      stemChars name version tag ++ ".bottle".toList ++ rebuildMark rebuild ++ ".tar.gz".toList := by
    simp [fileNameChars, stemChars]
  have dashed : ∀ rest, Text.cut? ['-', '-'] (stemChars name version tag ++ ".bottle".toList ++
      rebuildMark rebuild) = some (name, rest) ↔
        rest = version ++ ['.'] ++ tag ++ ".bottle".toList ++ rebuildMark rebuild ∧
          ¬ ['-', '-'] <:+: name ∧ ¬ ['-'] <:+ name := by
    intro rest
    rw [Text.cut?_eq_some_iff (by simp), ← dashes_iff]
    refine and_congr ?_ Iff.rfl
    simp [stemChars, eq_comm]
  have marked : ∀ rest, Text.cut? ".bottle".toList (stemChars name version tag ++
      ".bottle".toList ++ rebuildMark rebuild) = some (stemChars name version tag, rest) ↔
        rest = rebuildMark rebuild ∧ ¬ ".bottle".toList <:+: stemChars name version tag := by
    intro rest
    have mark : ".bottle".toList = '.' :: "bottle".toList := by decide
    rw [Text.cut?_eq_some_iff (by decide), mark, Text.infix_append_dropLast_iff (by decide)]
    simp [eq_comm]
  have bare : '/' ∉ stemChars name version tag ++ ".bottle".toList ++ rebuildMark rebuild ↔
      '/' ∉ name ∧ '/' ∉ version ∧ '/' ∉ tag := by
    have ending : '/' ∉ ".bottle".toList := by decide
    simp [stemChars, free_rebuildMark]
  rw [whole, parseFileNameChars?_eq_some_iff, bare]
  simp only [dashed, marked, exists_eq_left]
  constructor
  · rintro ⟨bare, named, versioned, tagged, undotted, ⟨dashes, lastDash⟩, unmarked⟩
    exact ⟨named, versioned, tagged, bare, undotted, dashes, lastDash, unmarked⟩
  · rintro ⟨named, versioned, tagged, bare, undotted, dashes, lastDash, unmarked⟩
    exact ⟨bare, named, versioned, tagged, undotted, ⟨dashes, lastDash⟩, unmarked⟩

theorem parseFileName?_fileNameFor (name version tag : String) (rebuild : Int) :
    parseFileName? (fileNameFor name version tag rebuild) = some ⟨name, version, tag⟩ ↔
      Separable name.toList version.toList tag.toList := by
  rw [← parseFileNameChars?_fileNameChars _ _ _ rebuild, parseFileName?, fileNameFor,
    String.toList_ofList, Option.map_eq_some_iff]
  simp only [Prod.exists, Label.mk.injEq, ← String.toList_inj, String.toList_ofList]
  constructor
  · rintro ⟨_, _, _, parsed, rfl, rfl, rfl⟩
    exact parsed
  · intro parsed
    exact ⟨_, _, _, parsed, rfl, rfl, rfl⟩

/-- The name of a bottle file is read back as its name, version and tag exactly if none of them is empty
or holds a slash, the tag has no dot, the name neither holds two dashes nor ends in one, and the mark
of a bottle stands nowhere in what comes before it. The number of the rebuild does not matter. -/
theorem fileNameFor_read_back_iff (name version tag : String) (rebuild : Int) :
    parseFileName? (fileNameFor name version tag rebuild) = some ⟨name, version, tag⟩ ↔
      (name ≠ "" ∧ version ≠ "" ∧ tag ≠ "") ∧
        ('/' ∉ name.toList ∧ '/' ∉ version.toList ∧ '/' ∉ tag.toList) ∧ '.' ∉ tag.toList ∧
        ¬ "--".toList <:+: name.toList ∧ ¬ "-".toList <:+ name.toList ∧
        ¬ ".bottle".toList <:+: (name ++ "--" ++ version ++ "." ++ tag).toList := by
  have stem : (name ++ "--" ++ version ++ "." ++ tag).toList =
      stemChars name.toList version.toList tag.toList := by
    simp [stemChars]
  rw [parseFileName?_fileNameFor, stem]
  constructor
  · rintro ⟨named, versioned, tagged, bare, undotted, dashes, lastDash, unmarked⟩
    exact ⟨⟨by simpa using named, by simpa using versioned, by simpa using tagged⟩, bare, undotted,
      dashes, lastDash, unmarked⟩
  · rintro ⟨⟨named, versioned, tagged⟩, bare, undotted, dashes, lastDash, unmarked⟩
    exact ⟨by simpa using named, by simpa using versioned, by simpa using tagged, bare, undotted,
      dashes, lastDash, unmarked⟩

/-! ### Bottles of sound formulae -/

/-- The tags of platforms: Linux on one of two processors, or a release of macOS on one of them. -/
inductive IsPlatformTag : String → Prop where
  | linux : IsPlatformTag "x86_64_linux"
  | armLinux : IsPlatformTag "arm64_linux"
  | release {r : String} (plain : ∀ c ∈ ['.', '/', '_'], c ∉ r.toList) : IsPlatformTag r
  | armRelease {r : String} (plain : ∀ c ∈ ['.', '/', '_'], c ∉ r.toList) :
      IsPlatformTag ("arm64_" ++ r)

theorem IsPlatformTag.free {tag : String} (isTag : IsPlatformTag tag) :
    '.' ∉ tag.toList ∧ '/' ∉ tag.toList := by
  cases isTag with
  | linux => decide
  | armLinux => decide
  | release plain => exact ⟨plain '.' (by simp), plain '/' (by simp)⟩
  | armRelease plain =>
    have front : '.' ∉ "arm64_".toList ∧ '/' ∉ "arm64_".toList := by decide
    simp only [String.toList_append, List.mem_append, not_or]
    exact ⟨⟨front.1, plain '.' (by simp)⟩, front.2, plain '/' (by simp)⟩

/-- A bottle of a sound formula is registered as what it is exactly if its version is a bare text, its
name neither holds two dashes nor ends in one, and no part brings the mark of a bottle. -/
theorem label_read_back_iff (f : Formula) (sound : f.problems f.name = []) {tag : String}
    (isTag : IsPlatformTag tag) :
    ∃ v file, f.packageVersion? = some v ∧ fileName? f tag = some file ∧
      (parseFileName? file = some ⟨f.name, v, tag⟩ ↔
        v ≠ "" ∧ '/' ∉ v.toList ∧ tag ≠ "" ∧ ¬ "--".toList <:+: f.name.toList ∧
          ¬ "-".toList <:+ f.name.toList ∧
          ¬ ".bottle".toList <:+: (f.name ++ "--" ++ v ++ "." ++ tag).toList) := by
  obtain ⟨version, known⟩ := Formula.version?_of_sound sound
  obtain ⟨nonempty, -, -, bare⟩ :=
    Formula.isComponent_of_isName (Formula.isName_of_sound sound)
  obtain ⟨undotted, tagBare⟩ := isTag.free
  have packaged : f.packageVersion? = some (Version.withRevision version f.revision) := by
    rw [Formula.packageVersion?, known, Option.map_some]
  refine ⟨_, _, packaged, by rw [fileName?, packaged, Option.map_some], ?_⟩
  generalize Version.withRevision version f.revision = v
  have stem : (f.name ++ "--" ++ v ++ "." ++ tag).toList =
      stemChars f.name.toList v.toList tag.toList := by
    simp [stemChars]
  rw [parseFileName?_fileNameFor, stem]
  constructor
  · rintro ⟨-, versioned, tagged, ⟨-, free, -⟩, -, dashes, lastDash, unmarked⟩
    exact ⟨by simpa using versioned, free, by simpa using tagged, dashes, lastDash, unmarked⟩
  · rintro ⟨versioned, free, tagged, dashes, lastDash, unmarked⟩
    exact ⟨nonempty, by simpa using versioned, by simpa using tagged, ⟨bare, free, tagBare⟩, undotted,
      dashes, lastDash, unmarked⟩

theorem greeter_label_read_back :
    Builder.greeter.problems Builder.greeter.name = [] ∧ IsPlatformTag "arm64_sonoma" ∧
      fileName? Builder.greeter "arm64_sonoma" = some "hello--1.0_2.arm64_sonoma.bottle.tar.gz" ∧
      parseFileName? "hello--1.0_2.arm64_sonoma.bottle.tar.gz" =
        some ⟨"hello", "1.0_2", "arm64_sonoma"⟩ := by
  have sound : Builder.greeter.problems Builder.greeter.name = [] := by decide
  have isTag : IsPlatformTag "arm64_sonoma" := .armRelease (r := "sonoma") (by simp)
  have known : Builder.greeter.packageVersion? = some "1.0_2" := by decide
  have named : fileName? Builder.greeter "arm64_sonoma" =
      some "hello--1.0_2.arm64_sonoma.bottle.tar.gz" := by decide
  obtain ⟨v, file, version, isFile, readBack⟩ := label_read_back_iff Builder.greeter sound isTag
  obtain rfl := Option.some.inj (version.symm.trans known)
  obtain rfl := Option.some.inj (isFile.symm.trans named)
  exact ⟨sound, isTag, named, readBack.mpr (by decide)⟩

/-- A sound formula whose name holds what separates names from versions. -/
def headers : Formula := { Builder.greeter with name := "lib--headers", revision := 0 }

/-- Its bottle is taken for one of another formula. -/
theorem headers_taken_for_lib :
    headers.problems headers.name = [] ∧ headers.packageVersion? = some "1.0" ∧
      IsPlatformTag "x86_64_linux" ∧
      fileName? headers "x86_64_linux" = some "lib--headers--1.0.x86_64_linux.bottle.tar.gz" ∧
      parseFileName? "lib--headers--1.0.x86_64_linux.bottle.tar.gz" =
        some ⟨"lib", "headers--1.0", "x86_64_linux"⟩ :=
  ⟨by decide, by decide, .linux, by decide, by decide⟩

end Bottle

end Taproom
