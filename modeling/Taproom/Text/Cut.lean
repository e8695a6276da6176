/-!
Cutting text at a separator, from the front or from the back, and at white space.
All functions work on lists of characters, so that each is a plain recursion.
-/

namespace Taproom.Text

/-- The characters of a text. Those of plain ASCII are its bytes. -/
def chars (s : String) : List Char :=
  let bytes := s.toByteArray.data.toList
  if bytes.all (·.toNat < 128) then bytes.map fun b => Char.ofNat b.toNat else s.toList

theorem map_utf8EncodeChar {c : Char} (low : ∀ b ∈ String.utf8EncodeChar c, b.toNat < 128) :
    (String.utf8EncodeChar c).map (fun b => Char.ofNat b.toNat) = [c] := by
  by_cases ascii : c.val.toNat ≤ 0x7f
  · have same : c.val.toNat % 2 ^ 8 = c.toNat := Nat.mod_eq_of_lt (by omega)
    simp only [String.utf8EncodeChar, ascii, if_true, List.map_cons, List.map_nil,
      UInt8.toNat_ofNat', same, Char.ofNat_toNat]
  · have high := low _ (List.head_mem String.utf8EncodeChar_ne_nil)
    simp only [String.utf8EncodeChar, ascii, if_false] at high
    split at high
    all_goals try split at high
    all_goals
      simp only [List.head_cons, UInt8.toNat_ofNat'] at high
      omega

@[simp]
theorem chars_eq (s : String) : chars s = s.toList := by
  obtain ⟨l, rfl⟩ : ∃ l, s = String.ofList l := ⟨s.toList, String.ofList_toList.symm⟩
  rw [chars, String.toList_ofList]
  split
  · rename_i low
    have bytes : (String.ofList l).toByteArray.data.toList = l.flatMap String.utf8EncodeChar := by
      simp [String.ofList, List.utf8Encode]
    rw [bytes] at low ⊢
    clear bytes
    induction l with
    | nil => rfl
    | cons c l ih =>
      rw [List.flatMap_cons, List.all_append, Bool.and_eq_true] at low
      rw [List.flatMap_cons, List.map_append, ih low.2, map_utf8EncodeChar (by simpa using low.1)]
      rfl
  · rfl

def dropPrefix? (p s : List Char) : Option (List Char) :=
  match p, s with
  | [], s => some s
  | _ :: _, [] => none
  | a :: p, b :: s => if a = b then dropPrefix? p s else none

def dropSuffix? (p s : List Char) : Option (List Char) :=
  (dropPrefix? p.reverse s.reverse).map List.reverse

def cut? (sep : List Char) : List Char → Option (List Char × List Char)
  | [] => if sep = [] then some ([], []) else none
  | c :: s =>
    match dropPrefix? sep (c :: s) with
    | some rest => some ([], rest)
    | none => (cut? sep s).map fun (before, after) => (c :: before, after)

def cutLast? (sep : List Char) (s : List Char) : Option (List Char × List Char) :=
  (cut? sep.reverse s.reverse).map fun (after, before) => (before.reverse, after.reverse)

def occursIn (sep s : List Char) : Bool := (cut? sep s).isSome

theorem dropPrefix?_append (p s : List Char) : dropPrefix? p (p ++ s) = some s := by
  induction p with
  | nil => simp [dropPrefix?]
  | cons c p ih => simp [dropPrefix?, ih]

theorem eq_append_of_dropPrefix? {p s r : List Char} (h : dropPrefix? p s = some r) :
    s = p ++ r := by
  induction p generalizing s with
  | nil => simpa [dropPrefix?] using h
  | cons a p ih =>
    cases s with
    | nil => simp [dropPrefix?] at h
    | cons b s =>
      rw [dropPrefix?] at h
      split at h
      · rename_i hab
        simp [hab, ih h]
      · simp at h

theorem eq_append_of_dropSuffix? {p s r : List Char} (h : dropSuffix? p s = some r) :
    s = r ++ p := by
  obtain ⟨back, found, rfl⟩ := Option.map_eq_some_iff.mp h
  have whole := eq_append_of_dropPrefix? found
  rwa [List.reverse_eq_iff, List.reverse_append, List.reverse_reverse] at whole

theorem eq_of_cut? {sep s before after : List Char} (h : cut? sep s = some (before, after)) :
    s = before ++ sep ++ after := by
  induction s generalizing before with
  | nil =>
    rw [cut?] at h
    split at h <;> simp_all
  | cons c s ih =>
    rw [cut?] at h
    split at h
    · rename_i rest hrest
      simp only [Option.some.injEq, Prod.mk.injEq] at h
      obtain ⟨rfl, rfl⟩ := h
      simpa using eq_append_of_dropPrefix? hrest
    · obtain ⟨⟨b, a⟩, hba, heq⟩ := Option.map_eq_some_iff.1 h
      simp only [Prod.mk.injEq] at heq
      obtain ⟨rfl, rfl⟩ := heq
      simp [ih hba]

/-- White space of the Unicode standard: the ASCII controls and blanks, and every separator. -/
def isBlank (c : Char) : Bool :=
  let n := c.toNat
  n == 0x20 || (0x09 ≤ n && n ≤ 0x0d) || n == 0x85 || n == 0xa0 || n == 0x1680 ||
  (0x2000 ≤ n && n ≤ 0x200a) || n == 0x2028 || n == 0x2029 || n == 0x202f || n == 0x205f ||
  n == 0x3000

def trim (s : List Char) : List Char :=
  ((s.dropWhile isBlank).reverse.dropWhile isBlank).reverse

def runs (sep : Char → Bool) : List Char → List (List Char)
  | [] => []
  | c :: s =>
    if sep c then runs sep s
    else
      match s, runs sep s with
      | d :: _, w :: ws => if sep d then [c] :: w :: ws else (c :: w) :: ws
      | _, ws => [c] :: ws

def words (s : List Char) : List (List Char) := runs isBlank s

def splitAt (sep : Char) : List Char → List (List Char)
  | [] => [[]]
  | c :: s =>
    if c = sep then [] :: splitAt sep s
    else
      match splitAt sep s with
      | [] => [[c]]
      | w :: ws => (c :: w) :: ws

def joinWith (sep : List Char) : List (List Char) → List Char
  | [] => []
  | [w] => w
  | w :: ws => w ++ sep ++ joinWith sep ws

end Taproom.Text

namespace Taproom

def startsWith (s p : String) : Bool := (Text.dropPrefix? (Text.chars p) (Text.chars s)).isSome

def trimPrefix (s p : String) : String :=
  match Text.dropPrefix? (Text.chars p) (Text.chars s) with
  | some r => String.ofList r
  | none => s

def endsWith (s p : String) : Bool := (Text.dropSuffix? (Text.chars p) (Text.chars s)).isSome

def trimSuffix (s p : String) : String :=
  match Text.dropSuffix? (Text.chars p) (Text.chars s) with
  | some r => String.ofList r
  | none => s

def containsText (s p : String) : Bool := Text.occursIn (Text.chars p) (Text.chars s)

def trimBlank (s : String) : String := String.ofList (Text.trim (Text.chars s))

def words (s : String) : List String := (Text.words (Text.chars s)).map String.ofList

def splitAt (s : String) (sep : Char) : List String :=
  (Text.splitAt sep (Text.chars s)).map String.ofList

def sortNames (l : List String) : List String := l.mergeSort fun a b => decide (a ≤ b)

end Taproom
