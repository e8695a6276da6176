import Taproom.Graph.Record
import Taproom.Proofs.Dict

/-!
What is written as JSON is read back as it was.
-/

namespace Taproom

open Text (hex)

namespace Json

variable {c : Char} {s rest acc : List Char} {units : List Nat} {fuel depth : Nat}

/-! ### Texts -/

def coded : List Nat := List.range 0x20 ++ [0x26, 0x3c, 0x3e, 0x2028, 0x2029]

theorem hex_coded : ∀ n ∈ coded, (hex 4 n).length = 4 ∧
    ((hex 4 n).filterMap hexDigit?).length = 4 ∧
    ((hex 4 n).filterMap hexDigit?).foldl (fun n d => 16 * n + d) 0 = n := by
  decide

theorem readUnit_hex {n : Nat} (isCoded : n ∈ coded) (rest : List Char) :
    readUnit (hex 4 n ++ rest) = .ok (n, rest) := by
  obtain ⟨four, digits, value⟩ := hex_coded n isCoded
  have front : (hex 4 n ++ rest).take 4 = hex 4 n := List.take_left' four
  have back : (hex 4 n ++ rest).drop 4 = rest := List.drop_left' four
  rw [readUnit, front, back]
  simp only [digits, value, if_true]

theorem joinUnits_small (small : ∀ u ∈ units, u < 0xd800) : joinUnits units = units.map Char.ofNat := by
  induction units with
  | nil => rfl
  | cons n units ih =>
    rw [List.forall_mem_cons] at small
    have alone : ¬ (0xd800 ≤ n) := by omega
    cases units with
    | nil => simp [joinUnits, alone]
    | cons m units =>
      rw [joinUnits, ih small.2]
      simp [alone]

def soFar (units : List Nat) (acc : List Char) : List Char :=
  acc.reverse ++ units.reverse.map Char.ofNat

theorem readText_escapeChar (c : Char) (fuel : Nat) (acc rest : List Char)
    (small : ∀ u ∈ units, u < 0xd800) :
    ∃ units' acc', (∀ u ∈ units', u < 0xd800) ∧ soFar units' acc' = soFar units acc ++ [c] ∧
      readText (fuel + 1) units acc (escapeChar c ++ rest) = readText fuel units' acc' rest := by
  have joined : joinUnits units.reverse = units.reverse.map Char.ofNat :=
    joinUnits_small (by simpa using small)
  -- A character that ends the code units before it.
  have plain : ∀ text, (∀ fuel, readText (fuel + 1) units acc (text ++ rest) =
      readText fuel [] (c :: ((joinUnits units.reverse).reverse ++ acc)) rest) →
      ∃ units' acc', (∀ u ∈ units', u < 0xd800) ∧ soFar units' acc' = soFar units acc ++ [c] ∧
        readText (fuel + 1) units acc (text ++ rest) = readText fuel units' acc' rest := by
    intro text step
    refine ⟨[], _, by simp, ?_, step fuel⟩
    simp [soFar, joined]
  by_cases short : c ∈ ['"', '\\', '\n', '\r', '\t', '\x08', '\x0c']
  · simp only [List.mem_cons, List.not_mem_nil, or_false] at short
    rcases short with rfl | rfl | rfl | rfl | rfl | rfl | rfl
    all_goals exact plain _ fun fuel => by simp [readText, escapeChar]
  · simp only [List.mem_cons, List.not_mem_nil, or_false, not_or] at short
    obtain ⟨quote, backslash, newline, return', tab, back, feed⟩ := short
    simp only [escapeChar, quote, backslash, newline, return', tab, back, feed, if_false]
    split
    · rename_i special
      have isCoded : c.toNat ∈ coded := by
        simp only [Bool.or_eq_true, decide_eq_true_eq] at special
        rcases special with ((((control | rfl) | rfl) | rfl) | rfl) | rfl
        · exact List.mem_append_left _ (List.mem_range.mpr control)
        all_goals decide
      have small' : c.toNat < 0xd800 := by
        have all : ∀ n ∈ coded, n < 0xd800 := by decide
        exact all _ isCoded
      refine ⟨c.toNat :: units, acc, List.forall_mem_cons.mpr ⟨small', small⟩, ?_, ?_⟩
      · simp [soFar]
      · rw [List.append_assoc, List.cons_append, List.cons_append, List.nil_append, readText.eq_def]
        simp [readUnit_hex isCoded]
    · rename_i special
      refine plain _ fun fuel => ?_
      have visible : ¬ c.toNat < 0x20 := by
        simp only [Bool.or_eq_true, decide_eq_true_eq, not_or] at special
        exact special.1.1.1.1.1
      rw [List.singleton_append, readText.eq_def]
      simp [visible, backslash]

theorem readText_escape (s : List Char) (fuel : Nat) (rest : List Char)
    (small : ∀ u ∈ units, u < 0xd800) (enough : s.length < fuel) :
    readText fuel units acc (s.flatMap escapeChar ++ '"' :: rest) =
      .ok (soFar units acc ++ s, rest) := by
  induction s generalizing fuel units acc with
  | nil =>
    obtain _ | fuel := fuel
    · omega
    have joined : joinUnits units.reverse = units.reverse.map Char.ofNat :=
      joinUnits_small (by simpa using small)
    rw [List.flatMap_nil, List.nil_append, readText]
    simp [soFar, joined]
  | cons c s ih =>
    obtain _ | fuel := fuel
    · omega
    obtain ⟨units', acc', small', more, step⟩ :=
      readText_escapeChar c fuel acc (s.flatMap escapeChar ++ '"' :: rest) small
    rw [List.flatMap_cons, List.append_assoc, step,
      ih fuel small' (by simpa using enough), more, List.append_assoc, List.singleton_append]

theorem length_escapeChar (c : Char) : 0 < (escapeChar c).length := by
  unfold escapeChar
  repeat' split
  all_goals simp

theorem length_le_escape (s : List Char) : s.length ≤ (s.flatMap escapeChar).length := by
  induction s with
  | nil => exact le_rfl
  | cons c s ih =>
    have some := length_escapeChar c
    simp only [List.flatMap_cons, List.length_append, List.length_cons]
    omega

theorem toList_renderText (s : String) :
    (renderText s).toList = '"' :: (s.toList.flatMap escapeChar ++ ['"']) := by
  simp [renderText]

theorem readText_renderText (s : String) (rest : List Char) :
    ∀ body, (renderText s).toList ++ rest = '"' :: body →
      readText (body.length + 1) [] [] body = .ok (s.toList, rest) := by
  intro body same
  rw [toList_renderText, List.cons_append, List.cons.injEq] at same
  obtain ⟨-, rfl⟩ := same
  have long := length_le_escape s.toList
  rw [List.append_assoc, List.singleton_append,
    readText_escape s.toList _ rest (by simp) (by simp only [List.length_append]; omega)]
  rfl

/-! ### Values -/

/-- Values made of texts, truth values, empty arrays and objects, nested at most so deep. -/
inductive Plain : Nat → Json → Prop where
  | bool (n : Nat) (b : Bool) : Plain n (.bool b)
  | str (n : Nat) (s : String) : Plain n (.str s)
  | nothing (n : Nat) : Plain (n + 1) (.arr [])
  | obj {n : Nat} {members : List (String × Json)} (each : ∀ m ∈ members, Plain n m.2) :
      Plain (n + 1) (.obj members)

/-- A reader gives a value back from its text, whatever follows. -/
def ReadBack (n : Nat) (v : Json) : Prop :=
  ∀ fuel depth rest, depth + n ≤ maxDepth → (render v).toList.length < fuel →
    readValue fuel depth ((render v).toList ++ rest) = .ok (v, rest)

theorem renderMembers_cons (m : String × Json) (ms : List (String × Json)) :
    renderMembers (m :: ms) = renderText m.1 ++ ":" ++ render m.2 ++
      (if ms = [] then "" else "," ++ renderMembers ms) := by
  cases ms with
  | nil => simp [renderMembers]
  | cons m' ms => simp [renderMembers, String.append_assoc]

def afterMember (fuel depth : Nat) (acc : List (String × Json)) (s : List Char) :
    Except Fault (Json × List Char) :=
  match s.dropWhile isGap with
  | [] => .error .ended
  | ',' :: s => readMembers fuel depth s acc
  | '\x7d' :: s => .ok (.obj acc.reverse, s)
  | c :: _ => .error (.unexpected c "after object key:value pair")

theorem readMembers_member (key : String) {v : Json} {fuel depth : Nat} {next : Char}
    {tail : List Char} (value : readValue fuel depth ((render v).toList ++ next :: tail) =
      .ok (v, next :: tail)) (acc : List (String × Json)) :
    readMembers (fuel + 1) depth
        ((renderText key).toList ++ ':' :: ((render v).toList ++ next :: tail)) acc =
      afterMember fuel depth ((key, v) :: acc) (next :: tail) := by
  have quote : ∀ s, ('"' :: s).dropWhile isGap = '"' :: s := fun _ => rfl
  have colon : ∀ s, (':' :: s).dropWhile isGap = ':' :: s := fun _ => rfl
  have read := readText_renderText key (':' :: ((render v).toList ++ next :: tail)) _
    (by rw [toList_renderText, List.cons_append])
  rw [toList_renderText, List.cons_append]
  simp only [readMembers, quote, colon, read, value, String.ofList_toList]
  rfl

theorem readMembers_renderMembers {n : Nat} {members : List (String × Json)} (some : members ≠ [])
    (each : ∀ m ∈ members, ReadBack n m.2) (fuel depth : Nat) (rest : List Char)
    (acc : List (String × Json)) (deep : depth + n ≤ maxDepth)
    (enough : (renderMembers members).toList.length < fuel) :
    readMembers fuel depth ((renderMembers members).toList ++ '\x7d' :: rest) acc =
      .ok (.obj (acc.reverse ++ members), rest) := by
  induction members generalizing fuel acc with
  | nil => exact absurd rfl some
  | cons m members ih =>
    obtain ⟨key, v⟩ := m
    rw [List.forall_mem_cons] at each
    obtain _ | fuel := fuel
    · omega
    rw [renderMembers_cons] at enough ⊢
    by_cases last : members = []
    · subst last
      have value := each.1 fuel depth ('\x7d' :: rest) deep (by simp at enough ⊢; omega)
      have step := readMembers_member key value acc
      simpa [afterMember, isGap] using step
    · have value := each.1 fuel depth (',' :: ((renderMembers members).toList ++ '\x7d' :: rest)) deep
        (by simp [last] at enough ⊢; omega)
      have step := readMembers_member key value acc
      have onward := ih last each.2 fuel ((key, v) :: acc) (by simp [last] at enough; omega)
      simp only [last, if_false, String.toList_append]
      simpa [afterMember, isGap, onward] using step

theorem readValue_render {n : Nat} {v : Json} (plain : Plain n v) : ReadBack n v := by
  induction plain with
  | bool n b =>
    intro fuel depth rest deep enough
    obtain _ | fuel := fuel
    · omega
    cases b <;> simp [render, readValue, isGap, readWord, Except.map]
  | str n s =>
    intro fuel depth rest deep enough
    obtain _ | fuel := fuel
    · omega
    have quote : isGap '"' = false := by decide
    have read := readText_renderText s rest _ (by rw [toList_renderText, List.cons_append])
    rw [render, toList_renderText, List.cons_append]
    simp only [readValue, List.dropWhile_cons, quote, Bool.false_eq_true, if_false, read, Except.map,
      String.ofList_toList]
  | nothing n =>
    intro fuel depth rest deep enough
    obtain _ | fuel := fuel
    · omega
    have shallow : ¬ depth ≥ maxDepth := by omega
    simp [render, renderItems, readValue, isGap, shallow]
  | @obj n members _ each =>
    intro fuel depth rest deep enough
    obtain _ | fuel := fuel
    · omega
    have shallow : ¬ depth ≥ maxDepth := by omega
    have text : (render (.obj members)).toList ++ rest =
        '\x7b' :: ((renderMembers members).toList ++ '\x7d' :: rest) := by
      simp [render]
    have brace : isGap '\x7b' = false := by decide
    rw [text]
    simp only [readValue, List.dropWhile_cons, brace, Bool.false_eq_true, if_false, shallow]
    by_cases none : members = []
    · subst none
      simp [renderMembers, isGap]
    · have read := readMembers_renderMembers none each fuel (depth + 1) rest [] (by omega)
        (by simp [render] at enough; omega)
      obtain ⟨m, ms, rfl⟩ := List.exists_cons_of_ne_nil none
      have first : ∃ more, (renderMembers (m :: ms)).toList = '"' :: more := by
        rw [renderMembers_cons]
        simp only [String.toList_append, toList_renderText, List.cons_append]
        exact ⟨_, rfl⟩
      obtain ⟨more, first⟩ := first
      rw [first, List.cons_append] at read ⊢
      have quote : isGap '"' = false := by decide
      simpa [List.dropWhile_cons, quote] using read

theorem parse_render {n : Nat} {v : Json} (plain : Plain n v) (deep : n ≤ maxDepth) :
    parse (render v) = .ok v := by
  have read := readValue_render plain (2 * (render v).toList.length + 2) 0 [] (by omega) (by omega)
  rw [List.append_nil] at read
  simp only [parse, read, bind, Except.bind, pure, Except.pure, List.dropWhile_nil]

theorem dict?_obj {α : Type} {read : Json → Option α} (write : α → Json)
    (back : ∀ v, read (write v) = some v) (d : Dict String α) :
    dict? read {} (.obj (d.toList.map fun e => (e.1, write e.2))) = some d := by
  have fold : ∀ (l : List (String × α)) (start : Dict String α),
      (l.map fun e => (e.1, write e.2)).foldlM
          (fun d e => return d.insert e.1 (← read e.2)) start =
        some (l.foldl (fun d e => d.insert e.1 e.2) start) := by
    intro l
    induction l with
    | nil => exact fun _ => rfl
    | cons e l ih =>
      intro start
      rw [List.map_cons, List.foldlM_cons]
      simp only [back]
      exact ih _
  exact (fold d.toList {}).trans (congrArg some (Dict.ofList_toList d))

end Json

theorem Names.ofJson?_toJson (n : Names) : Names.ofJson? {} n.toJson = some n := by
  have members : n.toJson = .obj (n.entries.map fun e => (e.1, .obj [])) := by
    rw [Names.toJson, Names.toList, Dict.keys, List.map_map]
    rfl
  rw [members]
  exact Json.dict?_obj (fun _ : Unit => .obj []) (fun _ => rfl) n

theorem Names.plain_toJson (n : Names) : Json.Plain 2 n.toJson := by
  refine .obj fun m member => ?_
  obtain ⟨k, -, rfl⟩ := List.mem_map.mp member
  exact .obj (by simp)

theorem Package.plain_toJson (p : Package) : Json.Plain 3 p.toJson := by
  refine .obj ?_
  simp only [List.forall_mem_cons, List.not_mem_nil, false_imp_iff, implies_true, and_true]
  exact ⟨.str 2 _, .str 2 _, .bool 2 _, .bool 2 _, .bool 2 _, p.build.plain_toJson,
    p.run.plain_toJson, p.test.plain_toJson⟩

theorem Dict.ofJson?_toJson (d : Dict String String) :
    Json.dict? (Json.text? "") {} d.toJson = some d :=
  Json.dict?_obj .str (fun _ => rfl) d

theorem Package.ofJson?_toJson (p : Package) : Package.ofJson? p.toJson = some p := by
  have names : ["Name", "Version", "Dirty", "Failed", "Disabled", "BuildDepends", "Depends",
      "TestDepends"].map Json.fieldName = ["name", "version", "dirty", "failed", "disabled",
      "builddepends", "depends", "testdepends"] := by decide +kernel
  simp only [List.map_cons, List.map_nil, List.cons.injEq, and_true] at names
  obtain ⟨name, version, dirty, failed, disabled, build, run, test⟩ := names
  simp [Package.ofJson?, Package.toJson, Json.readFields, name, version, dirty, failed, disabled,
    build, run, test, Package.setField, Json.text?, Json.bool?, Names.ofJson?_toJson]

namespace Atom

theorem plain_toJson (a : Atom) : Json.Plain 5 a.toJson := by
  have texts : ∀ d : Dict String String, Json.Plain 4 d.toJson := by
    intro d
    refine .obj fun m member => ?_
    obtain ⟨⟨k, v⟩, -, rfl⟩ := List.mem_map.mp member
    exact .str 3 v
  refine .obj ?_
  simp only [List.forall_mem_cons, List.not_mem_nil, false_imp_iff, implies_true, and_true]
  refine ⟨?_, .str 4 a.rev, ?_, texts a.aliases, texts a.bad⟩
  · refine .obj ?_
    simp only [List.forall_mem_cons, List.not_mem_nil, false_imp_iff, implies_true, and_true]
    exact ⟨.str 3 _, .str 3 _⟩
  · refine .obj fun m member => ?_
    obtain ⟨⟨k, p⟩, -, rfl⟩ := List.mem_map.mp member
    exact p.plain_toJson

theorem packages_back (a : Atom) : Json.dict? Package.ofJson? {}
    (.obj (a.packages.toList.map fun (k, p) => (k, p.toJson))) = some a.packages :=
  Json.dict?_obj Package.toJson Package.ofJson?_toJson a.packages

theorem decode?_encode (p : Platform) (a : Atom) : decode? { platform := p } a.encode = some a := by
  have names : ["Platform", "Rev", "Pkgs", "Aliases", "Bad", "Arch", "OS"].map Json.fieldName =
      ["platform", "rev", "pkgs", "aliases", "bad", "arch", "os"] := by decide +kernel
  simp only [List.map_cons, List.map_nil, List.cons.injEq, and_true] at names
  obtain ⟨platform, rev, packages, aliases, bad, arch, system⟩ := names
  rw [decode?, encode, Json.parse_render (plain_toJson a) (by decide)]
  simp [toJson, Json.readFields, platform, rev, packages, aliases, bad, setField, Platform.toJson,
    arch, system, Platform.setField, Json.text?, packages_back, Dict.ofJson?_toJson]

end Atom

end Taproom
