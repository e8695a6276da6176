import Taproom.Keg.Cellar
import Taproom.Proofs.Extraction
import Taproom.Proofs.Ways

/-!
Where kegs are made: a cellar, of whose path only the first names need lead to a directory yet, and a
directory in which directories for builds are made. Neither the cellar nor its racks are links, so
that the path of a rack or of a keg leads where its names say.
-/

namespace Taproom

open Path (IsComponent)

namespace Disk

variable {names rest : List String} {base place here : Place} {d d' : Disk} {follow : Bool}
  {tree : Dict (List String) Entry} {links : Nat} {e : Entry} {p : String}

/-! ### Removing -/

/-- Nothing is left of a place, and nothing else is different. -/
structure Pruned (place : Place) (d d' : Disk) : Prop where
  rest : d' = { d with tree := d'.tree }
  entries : ∀ p, d'.tree.get? p = if place <+: p then none else d.tree.get? p

namespace Pruned

variable (pruned : Pruned place d d')

include pruned

theorem gone (l : List String) : d'.tree.get? (place ++ l) = none := by
  rw [pruned.entries, if_pos (List.prefix_append place l)]

theorem kept {p : Place} (out : ¬ place <+: p) : d'.tree.get? p = d.tree.get? p := by
  rw [pruned.entries, if_neg out]

theorem old {p : Place} (found : d'.tree.get? p = some e) :
    d.tree.get? p = some e ∧ ¬ place <+: p := by
  rw [pruned.entries] at found
  split at found
  · cases found
  · rename_i out
    exact ⟨found, out⟩

theorem bodies : d'.bodies = d.bodies := by
  rw [pruned.rest]

theorem sound (sound : d.Sound) : d'.Sound where
  inDir p c e found := by
    obtain ⟨there, out⟩ := pruned.old found
    rcases sound.inDir p c e there with root | ⟨mode, isDir⟩
    · exact Or.inl root
    · refine Or.inr ⟨mode, (pruned.kept fun below => out ?_).trans isDir⟩
      exact below.trans (List.prefix_append p [c])
  numbered p body found := by
    rw [pruned.rest]
    exact sound.numbered p body (pruned.old found).1

end Pruned

theorem Pruned.refl (sound : d.Sound) (notRoot : place ≠ []) (absent : d.tree.get? place = none) :
    Pruned place d d where
  rest := rfl
  entries p := by
    split
    · rename_i below
      obtain ⟨l, rfl⟩ := below
      exact sound.empty_below notRoot absent l
    · rfl

theorem pruned_prune (place : Place) (d : Disk) : Pruned place d (d.prune place) :=
  ⟨rfl, get?_prune d place⟩

theorem pruned_erase (sound : d.Sound) (notRoot : place ≠ [])
    (notDir : ∀ mode, d.tree.get? place ≠ some (.dir mode)) :
    Pruned place d { d with tree := d.tree.erase place } where
  rest := rfl
  entries p := by
    dsimp only
    split
    · rename_i below
      obtain ⟨l, rfl⟩ := below
      by_cases none : l = []
      · rw [none, List.append_nil, Dict.get?_erase_self]
      · rw [Dict.get?_erase_of_ne _ (by simpa using none)]
        cases found : d.tree.get? (place ++ l) with
        | none => rfl
        | some e =>
          rcases hasDir_above sound.inDir found none with root | ⟨mode, isDir⟩
          · exact absurd root notRoot
          · exact absurd isDir (notDir mode)
    · rename_i out
      refine Dict.get?_erase_of_ne _ ?_
      rintro rfl
      exact out List.prefix_rfl

theorem removeAll_pruned (sound : d.Sound) (found : d.find false p = .ok (place, e))
    (notRoot : place ≠ []) : Pruned place d ((Act.removeAll p).run d).2 := by
  have present : d.tree.get? place = some e := by
    simpa [ entry?, notRoot] using ((find_eq_ok_iff ..).mp found).2
  rw [Act.run_removeAll, found]
  cases e with
  | dir mode => exact pruned_prune place d
  | file body => exact pruned_erase sound notRoot (by simp [present])
  | link target => exact pruned_erase sound notRoot (by simp [present])

/-! ### Writing -/

theorem write_ok (located : d.locate true p = .ok place) (notRoot : place ≠ [])
    (inDir : HasDir d.tree place.dropLast)
    (isFile : ∀ e, d.tree.get? place = some e → ∃ body, e = .file body) (content : ByteArray)
    (mode : Nat) : ∃ d', d.write p content mode = .ok d' := by
  unfold write
  rw [located]
  simp only [bind, Except.bind, entry?, if_neg notRoot]
  cases found : d.tree.get? place with
  | none =>
    rw [if_pos ((isDir_iff d _).mpr inDir)]
    exact ⟨_, rfl⟩
  | some e =>
    obtain ⟨body, rfl⟩ := isFile e found
    exact ⟨_, rfl⟩

/-! ### Reading -/

theorem find_extends (grown : Extends d'.tree d.tree) (cwd : d'.cwd = d.cwd)
    (found : d.find follow p = .ok (place, e)) : d'.find follow p = .ok (place, e) := by
  obtain ⟨located, present⟩ := (find_eq_ok_iff ..).mp found
  rw [ entry?] at present
  refine (find_eq_ok_iff ..).mpr ⟨?_, ?_⟩
  · rw [Disk.locate_eq_walk] at located ⊢
    split at located
    · cases located
    · rename_i given
      rw [if_neg given, cwd]
      refine walk_extends grown located fun inner absent => ?_
      rw [if_neg inner, absent] at present
      cases present
  · rw [ entry?]
    by_cases root : place = []
    · rwa [if_pos root] at present ⊢
    · rw [if_neg root] at present ⊢
      exact grown place e present

/-! ### Paths below a directory -/

theorem length_le_ofComponents (names : List String) : names.length ≤ (Path.ofComponents names).length := by
  have each : ∀ l : List String, l.length ≤ ((l.map String.toList).flatMap ('/' :: ·)).length := by
    intro l
    induction l with
    | nil => simp
    | cons c l ih =>
      rw [List.map_cons, List.flatMap_cons, List.length_append, List.length_cons, List.length_cons]
      omega
  rcases List.eq_nil_or_concat' names with rfl | ⟨init, name, rfl⟩
  · simp
  · have front := each init
    rw [← String.length_toList, Act.toList_ofComponents_concat, List.length_append,
      List.length_append, List.length_singleton, List.length_cons]
    omega

theorem walk_unfollowed {c target : String} (named : IsName c)
    (found : tree.get? (here ++ [c]) = some (.link target)) :
    walk tree false links here [c] = .ok (here ++ [c]) := by
  rw [walk_enters named.enters, found]
  rfl

theorem walk_to_nothing (named : ∀ c ∈ names, IsName c)
    (dirs : ∀ l e, l ≠ [] → l <+: names → tree.get? (here ++ l) = some e → ∃ mode, e = .dir mode)
    (absent : tree.get? (here ++ names) = none) :
    walk tree follow links here names = .ok (here ++ names) ∨
      walk tree follow links here names = .error .missing := by
  induction names generalizing here with
  | nil => simp [walk]
  | cons c rest ih =>
    rw [List.forall_mem_cons] at named
    cases found : tree.get? (here ++ [c]) with
    | none =>
      by_cases last : rest = []
      · subst last
        exact Or.inl (walk_absent named.1 found)
      · exact Or.inr (walk_missing named.1 found last)
    | some e =>
      obtain ⟨mode, rfl⟩ := dirs [c] e (by simp) (by simp) found
      have step : here ++ c :: rest = here ++ [c] ++ rest := by simp
      rw [walk_dir named.1 found, step]
      refine ih named.2 (fun l e long front there => ?_) (step ▸ absent)
      refine dirs (c :: l) e (by simp) (by simpa using front) ?_
      simpa using there

namespace Site

variable (site : Site names base d)

include site

theorem locate_ok (further : rest ≠ []) (named : ∀ c ∈ rest, IsName c)
    (isDir : HasDir d.tree (base ++ rest).dropLast) (clear : Clear d.tree follow base rest) :
    d.locate follow (Path.ofComponents (names ++ rest)) = .ok (base ++ rest) := by
  have components := site.components_append fun c member => (named c member).1
  obtain ⟨init, c, rfl⟩ := (List.eq_nil_or_concat' rest).resolve_left further
  rw [← List.append_assoc, List.dropLast_concat] at isDir
  obtain ⟨links, onward⟩ : ∃ links, walk d.tree follow maxLinks [] (names ++ (init ++ [c])) =
      walk d.tree follow links base (init ++ [c]) :=
    walk_append (Or.inl further) site.there site.isDir
  have front : walk d.tree true links base init = .ok (base ++ init) := by
    by_cases none : init = []
    · rw [none, walk, List.append_nil]
    · by_cases root : base ++ init = []
      · exact absurd (List.append_eq_nil_iff.mp root).2 none
      · obtain ⟨mode, found⟩ := isDir.resolve_left root
        exact walk_present site.sound.inDir
          (fun c member => named c (List.mem_append_left _ member)) found (by simp)
  obtain ⟨left, last⟩ : ∃ left, walk d.tree follow links base (init ++ [c]) =
      walk d.tree follow left (base ++ init) [c] :=
    walk_append (Or.inl (List.cons_ne_nil c [])) front isDir
  rw [locate_ofComponents d follow components, onward, last, ← List.append_assoc]
  have name := named c (by simp)
  by_cases isLink : ∃ target, d.tree.get? (base ++ init ++ [c]) = some (.link target)
  · obtain ⟨target, found⟩ := isLink
    obtain ⟨-, rfl⟩ := clear (init ++ [c]) [] target (by simp) (by simp) (List.append_assoc .. ▸ found)
    exact walk_unfollowed name found
  · exact walk_last name.enters (not_exists.mp isLink)

theorem find_eq_ok_iff (further : rest ≠ []) (named : ∀ c ∈ rest, IsName c)
    (clear : Clear d.tree follow base rest) (e : Entry) :
    d.find follow (Path.ofComponents (names ++ rest)) = .ok (place, e) ↔
      place = base ++ rest ∧ d.tree.get? (base ++ rest) = some e := by
  have notRoot : base ++ rest ≠ [] := by simp [further]
  rw [Disk.find_eq_ok_iff]
  constructor
  · rintro ⟨located, present⟩
    obtain ⟨rfl, -⟩ := site.locate further (fun c member => (named c member).1) clear located
    exact ⟨rfl, by simpa [ entry?, notRoot] using present⟩
  · rintro ⟨rfl, present⟩
    refine ⟨site.locate_ok further named ?_ clear, by simpa [ entry?, notRoot] using present⟩
    obtain ⟨init, c, rfl⟩ := (List.eq_nil_or_concat' rest).resolve_left further
    rw [← List.append_assoc] at present ⊢
    rw [List.dropLast_concat]
    exact site.sound.inDir _ c e present

theorem find_missing (further : rest ≠ []) (named : ∀ c ∈ rest, IsName c)
    (dirs : ∀ l e, l ≠ [] → l <+: rest → d.tree.get? (base ++ l) = some e → ∃ mode, e = .dir mode)
    (absent : d.tree.get? (base ++ rest) = none) :
    d.find follow (Path.ofComponents (names ++ rest)) = .error .missing := by
  have components := site.components_append fun c member => (named c member).1
  have nothing : d.entry? (base ++ rest) = none := by
    rw [ entry?, if_neg (by simp [further]), absent]
  obtain ⟨links, onward⟩ : ∃ links, walk d.tree follow maxLinks [] (names ++ rest) =
      walk d.tree follow links base rest :=
    walk_append (Or.inl further) site.there site.isDir
  rw [Disk.find, locate_ofComponents d follow components, onward]
  rcases walk_to_nothing named dirs absent with ends | missing
  · rw [ends]
    dsimp only [bind, Except.bind]
    rw [nothing]
    rfl
  · rw [missing]
    rfl

theorem removeAll_absent (further : rest ≠ []) (named : ∀ c ∈ rest, IsName c)
    (clear : Clear d.tree false base rest) (absent : d.tree.get? (base ++ rest) = none) :
    ((Act.removeAll (Path.ofComponents (names ++ rest))).run d).2 = d := by
  rw [Act.run_removeAll]
  rcases found : d.find false (Path.ofComponents (names ++ rest)) with reason | ⟨place, e⟩
  · rfl
  · have there := ((site.find_eq_ok_iff further named clear e).mp found).2
    rw [absent] at there
    cases there

theorem removeAll_pruned (further : rest ≠ [])
    (named : ∀ c ∈ rest, IsName c) (clear : Clear d.tree false base rest) :
    Pruned (base ++ rest) d ((Act.removeAll (Path.ofComponents (names ++ rest))).run d).2 := by
  have notRoot : base ++ rest ≠ [] := by simp [further]
  cases present : d.tree.get? (base ++ rest) with
  | some e =>
    exact Disk.removeAll_pruned site.sound
      ((site.find_eq_ok_iff further named clear e).mpr ⟨rfl, present⟩) notRoot
  | none =>
    rw [site.removeAll_absent further named clear present]
    exact .refl site.sound notRoot present

theorem made_new (components : ∀ c ∈ rest, IsComponent c.toList)
    (clear : Clear d.tree true base rest) (made : Made (names ++ rest) d d') {p : Place}
    (notRoot : p ≠ []) (found : d'.tree.get? p = some e) :
    d.tree.get? p = some e ∨
      (∃ mode, e = .dir mode) ∧ ∃ l, l ≠ [] ∧ l <+: rest ∧ p = base ++ l := by
  have onward := site.mono (made.sound site.sound) made.grown
  rcases made.new p e found with old | ⟨mode, n, rfl, reached⟩
  · exact Or.inl old
  rw [List.take_append] at reached
  by_cases within : rest.take (n - names.length) = []
  · -- The directory is on the way to the one that was there before.
    left
    rw [within, List.append_nil] at reached
    obtain ⟨middle, front, isDir⟩ : ∃ middle, walk d.tree true maxLinks [] (names.take n) = .ok middle ∧
        HasDir d.tree middle := by
      have there := site.there
      rw [← List.take_append_drop n names] at there
      by_cases whole : names.drop n = []
      · rw [whole, List.append_nil] at there
        exact ⟨base, there, site.isDir⟩
      · exact walk_front site.sound.inDir (Or.inl rfl) whole there
    obtain ⟨rfl⟩ : middle = p := by
      have same := (walk_extends made.grown front fun inner absent => ?_).symm.trans reached
      · exact Except.ok.inj same
      · simp [absent, HasDir, inner] at isDir
    obtain ⟨mode', old⟩ := isDir.resolve_left notRoot
    rw [made.grown _ _ old] at found
    rw [old, found]
  · right
    have front : rest.take (n - names.length) <+: rest := List.take_prefix _ rest
    have past : names.length ≤ n := by
      by_contra before
      exact within (by rw [Nat.sub_eq_zero_of_le (by omega), List.take_zero])
    rw [List.take_of_length_le past] at reached
    refine ⟨⟨mode, rfl⟩, _, within, front, ?_⟩
    refine walk_below onward.there onward.isDir within
      (fun c member => components c (front.subset member)) ?_ reached
    obtain ⟨more, split⟩ := front
    intro before after target parts some link
    refine absurd (made.clear clear before (after ++ more) target ?_ some link).2 (by decide)
    rw [← List.append_assoc, ← parts, split]

theorem makeDir_ok (further : rest ≠ []) (named : ∀ c ∈ rest, IsName c)
    (inDir : HasDir d.tree (base ++ rest).dropLast) (clear : Clear d.tree false base rest)
    (absent : d.tree.get? (base ++ rest) = none) (mode : Nat) :
    d.makeDir (Path.ofComponents (names ++ rest)) mode =
      .ok { d with tree := d.tree.insert (base ++ rest) (.dir (masked mode)) } := by
  have whole := site.components_append fun c member => (named c member).1
  have located := site.locate_ok further named inDir clear
  have nothing : d.entry? (base ++ rest) = none := by
    rw [ entry?, if_neg (by simp [further]), absent]
  rw [locate_ofComponents d false whole] at located
  obtain ⟨init, name, split⟩ := (List.eq_nil_or_concat' (names ++ rest)).resolve_left (by simp [further])
  rw [split] at whole located ⊢
  rw [makeDir_ofComponents (fun c member => whole c (List.mem_append_left _ member)) (whole name (by simp)),
    located]
  dsimp only
  rw [nothing]
  dsimp only
  rw [if_pos ((isDir_iff d _).mpr inDir)]

theorem makeDirs_ok (named : ∀ c ∈ rest, IsName c)
    (dirs : ∀ l e, l ≠ [] → l <+: rest → d.tree.get? (base ++ l) = some e → ∃ mode, e = .dir mode)
    {fuel : Nat} (enough : rest.length < fuel) (mode : Nat) :
    ∃ d', (Act.makeDirs fuel (Path.ofComponents (names ++ rest)) mode).run d = (.ok (), d') ∧
      HasDir d'.tree (base ++ rest) := by
  have clear : ∀ {l : List String} (follow : Bool), l <+: rest → Clear d.tree follow base l := by
    intro l follow front before after target split long found
    obtain ⟨mode, isDir⟩ := dirs before _ long ((split ▸ List.prefix_append before after).trans front) found
    cases isDir
  -- Each directory is made after the one above it.
  have upTo : ∀ l fuel, l <+: rest → l.length < fuel →
      ∃ d', (Act.makeDirs fuel (Path.ofComponents (names ++ l)) mode).run d = (.ok (), d') ∧
        HasDir d'.tree (base ++ l) := by
    intro l
    induction l using List.reverseRecOn with
    | nil =>
      rintro (_ | fuel) - enough
      · cases enough
      · obtain ⟨old, found⟩ := site.find
        refine ⟨d, ?_, by simpa using site.isDir⟩
        rw [List.append_nil, Act.run_makeDirs, found]
    | append_singleton init c ih =>
      rintro (_ | fuel) front enough
      · cases enough
      have further : init ++ [c] ≠ [] := by simp
      have names' : ∀ c' ∈ init ++ [c], IsName c' := fun c' member => named c' (front.subset member)
      have before : init <+: rest := (List.prefix_append init [c]).trans front
      cases present : d.tree.get? (base ++ (init ++ [c])) with
      | some e =>
        obtain ⟨old, rfl⟩ := dirs _ e further front present
        have found := (site.find_eq_ok_iff further names' (clear true front) _).mpr ⟨rfl, present⟩
        refine ⟨d, ?_, Or.inr ⟨old, present⟩⟩
        rw [Act.run_makeDirs, found]
      | none =>
        have missing : d.find true (Path.ofComponents (names ++ (init ++ [c]))) = .error .missing :=
          site.find_missing further names' (fun l e long under => dirs l e long (under.trans front)) present
        have components : ∀ c' ∈ init, IsComponent c'.toList := fun c' member =>
          (named c' (before.subset member)).1
        obtain ⟨d₁, above, made, isDir⟩ : ∃ d₁, (Act.makeParents fuel
            (Path.ofComponents (names ++ (init ++ [c]))) mode).run d = (.ok (), d₁) ∧
            Made (names ++ init) d d₁ ∧ HasDir d₁.tree (base ++ init) := by
          rw [← List.append_assoc, Act.makeParents_ofComponents fuel _ (names' c (by simp)).1]
          split
          · rename_i none
            obtain ⟨rfl, rfl⟩ := List.append_eq_nil_iff.mp none
            exact ⟨d, rfl, .refl _ d, by simpa using site.isDir⟩
          · obtain ⟨d₁, ran, isDir⟩ := ih fuel before (by simpa using enough)
            exact ⟨d₁, ran, (makeDirs_made fuel (site.components_append components) mode d ran).1, isDir⟩
        have site₁ : Site names base d₁ := site.mono (made.sound site.sound) made.grown
        have absent : d₁.tree.get? (base ++ (init ++ [c])) = none := by
          rw [Option.eq_none_iff_forall_ne_some]
          intro e found
          rcases site.made_new components (clear true before) made (by simp) found with
            old | ⟨-, l, -, under, same⟩
          · cases old.symm.trans present
          · have length := under.length_le
            rw [← List.append_cancel_left same, List.length_append, List.length_singleton] at length
            omega
        have done := site₁.makeDir_ok further names' (by rwa [← List.append_assoc, List.dropLast_concat])
          (made.clear (clear false front)) absent mode
        have ran : (Act.makeDirs (fuel + 1) (Path.ofComponents (names ++ (init ++ [c]))) mode).run d =
            (.ok (), { d₁ with tree := d₁.tree.insert (base ++ (init ++ [c])) (.dir (masked mode)) }) := by
          rw [Act.run_makeDirs, missing]
          dsimp only
          rw [above]
          dsimp only
          rw [done]
        exact ⟨_, ran, Or.inr ⟨masked mode, Dict.get?_insert_self ..⟩⟩
  exact upTo rest fuel List.prefix_rfl enough

end Site

end Disk

open Disk (Place Entry HasDir IsName Clear Extends Site Pruned)

/-! ### Cellars -/

def IsBuildName (c : String) : Prop := ∃ rest, c = "nbrew-" ++ rest

/-- Where a cellar is and where directories for builds are made, with the directories and links along
which their paths lead. Of the cellar's path only the first names need lead to a directory. None of
these directories and links is in the cellar or in a directory for a build. -/
structure Layout where
  ways : Dict (List String) Entry
  front : List String
  rest : List String
  base : Place
  temp : List String
  bench : Place
  components : ∀ c ∈ front, IsComponent c.toList
  named : ∀ c ∈ rest, IsName c
  tempComponents : ∀ c ∈ temp, IsComponent c.toList
  toBase : Disk.walk ways true Disk.maxLinks [] front = .ok base
  baseDir : HasDir ways base
  toBench : Disk.walk ways true Disk.maxLinks [] temp = .ok bench
  benchDir : HasDir ways bench
  apart : ∀ c, IsBuildName c → ¬ bench ++ [c] <+: base ++ rest ∧ ¬ base ++ rest <+: bench ++ [c]
  free : ∀ p e, ways.get? p = some e →
    (base ++ rest <+: p → p = base ++ rest) ∧ ∀ c, IsBuildName c → ¬ bench ++ [c] <+: p

namespace Layout

variable {y : Layout} {d d' : Disk} {names names' : List String} {name version c : String}
  {body mode : Nat} {follow : Bool}

def place (y : Layout) (names : List String) : Place := y.base ++ (y.rest ++ names)

def path (y : Layout) (names : List String) : String := Path.ofComponents (y.front ++ (y.rest ++ names))

structure Of (y : Layout) (b : Builder) : Prop where
  cellar : b.cellar = y.path []
  temp : b.temp = Path.ofComponents y.temp

theorem place_append (y : Layout) (names more : List String) :
    y.place (names ++ more) = y.place names ++ more := by
  simp [place]

theorem place_inj : y.place names = y.place names' ↔ names = names' := by
  simp [place]

theorem place_below_iff : y.place names <+: y.place names' ↔ names <+: names' := by
  rw [place, place, List.prefix_append_right_inj, List.prefix_append_right_inj]

theorem place_ne_nil (some : names ≠ []) : y.place names ≠ [] := by
  simp [place, some]

@[simp] theorem dropLast_place_concat (names : List String) (name : String) :
    (y.place (names ++ [name])).dropLast = y.place names := by
  rw [place_append, List.dropLast_concat]

theorem below (y : Layout) (names : List String) : y.place [] <+: y.place names :=
  place_below_iff.mpr (List.nil_prefix)

theorem not_below_build (build : IsBuildName c) (names : List String) :
    ¬ y.bench ++ [c] <+: y.place names := by
  intro under
  obtain ⟨out, off⟩ := y.apart c build
  have cellar : y.base ++ y.rest <+: y.place names := by
    rw [place, ← List.append_assoc]
    exact List.prefix_append _ names
  rcases List.prefix_or_prefix_of_prefix under cellar with before | after
  · exact out before
  · exact off after

theorem path_components (named : ∀ c ∈ names, IsComponent c.toList) :
    ∀ c ∈ y.front ++ (y.rest ++ names), IsComponent c.toList := by
  refine List.forall_mem_append.mpr ⟨y.components, List.forall_mem_append.mpr ⟨?_, named⟩⟩
  exact fun c member => (y.named c member).1

theorem join_path {more : List String} (named : ∀ c ∈ names, IsComponent c.toList) (some : more ≠ [])
    (further : ∀ c ∈ more, IsComponent c.toList) :
    Path.join (y.path names :: more) = y.path (names ++ more) := by
  rw [path, Path.join_ofComponents_append (path_components named) some further, path]
  simp

/-! ### Disks with a cellar -/

/-- The cellar and the directory for builds can be reached, and neither the cellar nor any of its
racks is a link. -/
structure Stands (y : Layout) (d : Disk) : Prop where
  sound : d.Sound
  ways : Extends d.tree y.ways
  cellar : ∀ l target, l ≠ [] → l <+: y.rest → d.tree.get? (y.base ++ l) ≠ some (.link target)
  racks : ∀ name target, d.tree.get? (y.place [name]) ≠ some (.link target)

namespace Stands

theorem site (stands : y.Stands d) : Site y.front y.base d := by
  refine ⟨stands.sound, y.components, Disk.walk_extends stands.ways y.toBase ?_,
    y.baseDir.mono stands.ways⟩
  intro notRoot absent
  obtain ⟨mode, found⟩ := y.baseDir.resolve_left notRoot
  rw [absent] at found
  cases found

theorem benchSite (stands : y.Stands d) : Site y.temp y.bench d := by
  refine ⟨stands.sound, y.tempComponents, Disk.walk_extends stands.ways y.toBench ?_,
    y.benchDir.mono stands.ways⟩
  intro notRoot absent
  obtain ⟨mode, found⟩ := y.benchDir.resolve_left notRoot
  rw [absent] at found
  cases found

theorem clear (stands : y.Stands d) (noLink : ∀ l target, 2 ≤ l.length → l <+: names →
      d.tree.get? (y.place l) = some (.link target) → l = names ∧ follow = false) :
    Clear d.tree follow y.base (y.rest ++ names) := by
  intro before after target split some found
  rcases List.append_eq_append_iff.mp split with ⟨more, within, beyond⟩ | ⟨more, within, -⟩
  · subst within
    rw [beyond] at noLink
    rcases more with _ | ⟨c, _ | ⟨c', rest⟩⟩
    · rw [List.append_nil] at found some
      exact absurd found (stands.cellar y.rest target some List.prefix_rfl)
    · exact absurd found (stands.racks c target)
    · obtain ⟨ends, still⟩ := noLink (c :: c' :: rest) target (by simp) (List.prefix_append _ after) found
      exact ⟨by simpa using ends, still⟩
  · exact absurd found (stands.cellar before target some ⟨more, within.symm⟩)

theorem clear_rack (stands : y.Stands d) (name : String) :
    Clear d.tree follow y.base (y.rest ++ [name]) := by
  refine stands.clear fun l target long front => ?_
  have length := front.length_le
  simp only [List.length_singleton] at length
  omega

theorem clear_keg (stands : y.Stands d) (name version : String) :
    Clear d.tree false y.base (y.rest ++ [name, version]) := by
  refine stands.clear fun l target long front found => ⟨?_, rfl⟩
  exact front.eq_of_length_le (by simpa using long)

theorem named_rest (named : ∀ c ∈ names, IsName c) : ∀ c ∈ y.rest ++ names, IsName c :=
  List.forall_mem_append.mpr ⟨y.named, named⟩

theorem exists_iff (stands : y.Stands d) (inner : names ≠ []) (named : ∀ c ∈ names, IsName c)
    (clear : Clear d.tree true y.base (y.rest ++ names)) :
    d.exists? (y.path names) = true ↔ ∃ e, d.tree.get? (y.place names) = some e := by
  have found : ∀ p e, d.find true (Path.ofComponents (y.front ++ (y.rest ++ names))) = .ok (p, e) ↔
      p = y.place names ∧ d.tree.get? (y.place names) = some e := fun p e =>
    stands.site.find_eq_ok_iff (by simp [inner]) (named_rest named) clear e
  rw [Disk.exists?, path]
  constructor
  · intro present
    cases outcome : d.find true (Path.ofComponents (y.front ++ (y.rest ++ names))) with
    | error reason =>
      rw [outcome] at present
      cases present
    | ok there => exact ⟨there.2, ((found there.1 there.2).mp outcome).2⟩
  · rintro ⟨e, present⟩
    rw [(found _ e).mpr ⟨rfl, present⟩]
    rfl

end Stands

/-- A keg that is absent or a directory. Each of some files in it is absent or a file that has no name
elsewhere in the cellar. -/
structure Tidy (y : Layout) (keg files : List String) (d : Disk) : Prop where
  dir : ∀ e, d.tree.get? (y.place keg) = some e → ∃ mode, e = .dir mode
  own : ∀ file ∈ files, ∀ e, d.tree.get? (y.place (keg ++ [file])) = some e →
    ∃ body, e = .file body ∧ ∀ names, names ≠ [] → ¬ keg <+: names → d.tree.get? (y.place names) ≠ some (.file body)

/-- A disk on which a keg can be filled. -/
structure Ready (y : Layout) (keg files : List String) (d : Disk) : Prop extends y.Stands d, y.Tidy keg files d

/-- Work on a keg: directories on the way to it may be new, and nothing else of the cellar changes. -/
structure Works (y : Layout) (keg files : List String) (d d' : Disk) : Prop where
  ready : y.Ready keg files d'
  way : ∀ l, l ≠ [] → l <+: y.rest ++ keg → l ≠ y.rest ++ keg →
    d'.tree.get? (y.base ++ l) = d.tree.get? (y.base ++ l) ∨
      d.tree.get? (y.base ++ l) = none ∧ ∃ mode, d'.tree.get? (y.base ++ l) = some (.dir mode)
  others : ∀ names, ¬ names <+: keg → ¬ keg <+: names →
    d'.tree.get? (y.place names) = d.tree.get? (y.place names)
  bodies : ∀ names body, names ≠ [] → ¬ keg <+: names → d.tree.get? (y.place names) = some (.file body) →
    d'.bodies.get? body = d.bodies.get? body

def IsComplete (y : Layout) (name version : String) (d : Disk) : Prop :=
  ∃ e, d.tree.get? (y.place [name, version, Receipt.fileName]) = some e

variable {keg files : List String} {d'' : Disk}

theorem Tidy.of_absent (sound : d.Sound) (some : keg ≠ []) (absent : d.tree.get? (y.place keg) = none) :
    y.Tidy keg files d where
  dir e found := by
    rw [absent] at found
    cases found
  own file member e found := by
    rw [place_append, sound.empty_below (place_ne_nil some) absent] at found
    cases found

namespace Works

theorem entry (works : y.Works keg files d d') (inner : names ≠ []) (outside : ¬ keg <+: names) :
    d'.tree.get? (y.place names) = d.tree.get? (y.place names) ∨
      d.tree.get? (y.place names) = none ∧ names <+: keg ∧
        ∃ mode, d'.tree.get? (y.place names) = some (.dir mode) := by
  by_cases onWay : names <+: keg
  · have before : y.rest ++ names <+: y.rest ++ keg := (List.prefix_append_right_inj _).mpr onWay
    have notYet : y.rest ++ names ≠ y.rest ++ keg := by
      intro same
      rw [List.append_cancel_left same] at outside
      exact outside List.prefix_rfl
    exact (works.way _ (by simp [inner]) before notYet).imp_right fun ⟨absent, isDir⟩ => ⟨absent, onWay, isDir⟩
  · exact Or.inl (works.others names onWay outside)

/-- Directories on the way to the cellar stay, and may be new. -/
theorem toCellar (works : y.Works keg files d d') (inner : keg ≠ []) {l : List String} (long : l ≠ [])
    (front : l <+: y.rest) : d'.tree.get? (y.base ++ l) = d.tree.get? (y.base ++ l) ∨
      d.tree.get? (y.base ++ l) = none ∧ ∃ mode, d'.tree.get? (y.base ++ l) = some (.dir mode) := by
  refine works.way l long (front.trans (List.prefix_append _ _)) fun same => ?_
  have length := front.length_le
  have positive := List.length_pos_iff.mpr inner
  simp only [same, List.length_append] at length
  omega

theorem rack (works : y.Works [name, version] files d d') :
    d'.tree.get? (y.place [name]) = d.tree.get? (y.place [name]) ∨
      d.tree.get? (y.place [name]) = none ∧ ∃ mode, d'.tree.get? (y.place [name]) = some (.dir mode) :=
  (works.entry (List.cons_ne_nil name []) (by simp)).imp_right fun ⟨absent, _, isDir⟩ => ⟨absent, isDir⟩

theorem file (works : y.Works keg files d d') (inner : names ≠ []) (outside : ¬ keg <+: names)
    (found : d.tree.get? (y.place names) = some (.file body)) :
    d'.tree.get? (y.place names) = some (.file body) := by
  rcases works.entry inner outside with same | ⟨absent, -⟩
  · rw [same, found]
  · rw [absent] at found
    cases found

theorem refl (ready : y.Ready keg files d) : y.Works keg files d d :=
  ⟨ready, fun _ _ _ _ => Or.inl rfl, fun _ _ _ => rfl, fun _ _ _ _ _ => rfl⟩

theorem trans (first : y.Works keg files d d') (second : y.Works keg files d' d'') :
    y.Works keg files d d'' where
  ready := second.ready
  way l some onWay notYet := by
    rcases first.way l some onWay notYet with same | ⟨absent, mode, isDir⟩
    · rw [← same]
      exact second.way l some onWay notYet
    · rcases second.way l some onWay notYet with same | ⟨absent', -⟩
      · exact Or.inr ⟨absent, mode, same.trans isDir⟩
      · rw [isDir] at absent'
        cases absent'
  others names off outside := (second.others names off outside).trans (first.others names off outside)
  bodies names body some outside found :=
    (second.bodies names body some outside (first.file some outside found)).trans
      (first.bodies names body some outside found)

theorem of_same (ready : y.Ready keg files d) (sound : d'.Sound) (ways : Extends d'.tree y.ways)
    (same : ∀ p, p <+: y.place [] ∨ y.place [] <+: p → d'.tree.get? p = d.tree.get? p)
    (bodies : d'.bodies = d.bodies) : y.Works keg files d d' := by
  have inside : ∀ names, d'.tree.get? (y.place names) = d.tree.get? (y.place names) := fun names =>
    same _ (Or.inr (y.below names))
  have onWay : ∀ l, l <+: y.rest ++ keg → d'.tree.get? (y.base ++ l) = d.tree.get? (y.base ++ l) := by
    intro l front
    refine same _ ?_
    have whole : y.base ++ l <+: y.place keg := (List.prefix_append_right_inj _).mpr front
    exact List.prefix_or_prefix_of_prefix whole (y.below keg)
  refine ⟨⟨⟨sound, ways, ?_, ?_⟩, ⟨?_, ?_⟩⟩, ?_, ?_, ?_⟩
  · intro l target long front
    rw [onWay l (front.trans (List.prefix_append _ keg))]
    exact ready.cellar l target long front
  · intro name target
    rw [inside]
    exact ready.racks name target
  · rw [inside]
    exact ready.dir
  · intro file member e found
    rw [inside] at found
    obtain ⟨body, isFile, alone⟩ := ready.own file member e found
    refine ⟨body, isFile, fun names long outside => ?_⟩
    rw [inside]
    exact alone names long outside
  · exact fun l _ front _ => Or.inl (onWay l front)
  · exact fun names _ _ => inside names
  · exact fun names body _ _ _ => by rw [bodies]

theorem clear (stands : y.Stands d) (named : keg ≠ []) (pruned : Pruned (y.place keg) d d') :
    y.Works keg files d d' := by
  have sound := pruned.sound stands.sound
  have absent : d'.tree.get? (y.place keg) = none := by simpa using pruned.gone []
  have onWay : ∀ l, l <+: y.rest ++ keg → l ≠ y.rest ++ keg →
      d'.tree.get? (y.base ++ l) = d.tree.get? (y.base ++ l) := by
    intro l front notYet
    refine pruned.kept fun below => notYet ?_
    exact front.eq_of_length_le ((List.prefix_append_right_inj _).mp below).length_le
  refine ⟨⟨⟨sound, ?_, ?_, ?_⟩, .of_absent sound named absent⟩, ?_, ?_, ?_⟩
  · intro p e found
    rw [pruned.kept fun below => ?_, stands.ways p e found]
    have cellar : y.place [] <+: p := (y.below keg).trans below
    rw [place, List.append_nil] at cellar
    obtain rfl := (y.free p e found).1 cellar
    have length := below.length_le
    have := List.length_pos_iff.mpr named
    simp only [place, List.length_append] at length
    omega
  · intro l target long front found
    exact stands.cellar l target long front (pruned.old found).1
  · intro name target found
    exact stands.racks name target (pruned.old found).1
  · exact fun l _ front notYet => Or.inl (onWay l front notYet)
  · exact fun names _ outside => pruned.kept fun below => outside (place_below_iff.mp below)
  · exact fun names body _ _ _ => by rw [pruned.bodies]

theorem sweep (ready : y.Ready keg files d) (build : IsBuildName c)
    (pruned : Pruned (y.bench ++ [c]) d d') : y.Works keg files d d' := by
  refine .of_same ready (pruned.sound ready.sound) ?_ ?_ pruned.bodies
  · intro p e found
    rw [pruned.kept ((y.free p e found).2 c build), ready.ways p e found]
  · rintro p (above | below)
    · exact pruned.kept fun under => not_below_build build [] (under.trans above)
    · obtain ⟨names, rfl⟩ := below
      rw [← place_append]
      exact pruned.kept (not_below_build build _)

theorem bench (ready : y.Ready keg files d) {n : Nat} (build : IsBuildName c)
    (absent : d.tree.get? (y.bench ++ [c]) = none) :
    y.Works keg files d { d with tree := d.tree.insert (y.bench ++ [c]) (.dir mode), serial := n } := by
  have inserted := ready.sound.insert (e := .dir mode) absent
    (by rw [List.dropLast_concat]; exact ready.benchSite.isDir) (by simp)
  refine .of_same ready ⟨inserted.inDir, inserted.numbered⟩ ?_ ?_ rfl
  · intro p e found
    exact Disk.extends_insert absent p e (ready.ways p e found)
  · rintro p (above | below)
    · refine Dict.get?_insert_of_ne _ ?_ _
      rintro rfl
      exact not_below_build build [] above
    · obtain ⟨names, rfl⟩ := below
      refine Dict.get?_insert_of_ne _ ?_ _
      rw [← place_append]
      intro same
      exact not_below_build (y := y) build ([] ++ names) (by rw [same])

theorem made (ready : y.Ready keg files d) (inner : keg ≠ []) (named : ∀ c ∈ keg, IsName c)
    (clear : Clear d.tree true y.base (y.rest ++ keg))
    (made : Disk.Made (y.front ++ (y.rest ++ keg)) d d') : y.Works keg files d d' := by
  have new : ∀ p e, p ≠ [] → d'.tree.get? p = some e → d.tree.get? p = some e ∨
      (∃ mode, e = .dir mode) ∧ ∃ l, l ≠ [] ∧ l <+: y.rest ++ keg ∧ p = y.base ++ l := fun p e =>
    ready.site.made_new (fun c member => (Stands.named_rest named c member).1) clear made
  have link : ∀ p target, p ≠ [] → d'.tree.get? p = some (.link target) →
      d.tree.get? p = some (.link target) := by
    intro p target notRoot found
    rcases new p _ notRoot found with old | ⟨⟨mode, isDir⟩, -⟩
    · exact old
    · cases isDir
  have other : ∀ names, names ≠ [] → ¬ names <+: keg →
      d'.tree.get? (y.place names) = d.tree.get? (y.place names) := by
    intro names inner off
    cases found : d.tree.get? (y.place names) with
    | some e => exact made.grown _ e found
    | none =>
      cases found' : d'.tree.get? (y.place names) with
      | none => rfl
      | some e =>
        rcases new _ e (place_ne_nil inner) found' with old | ⟨-, l, -, front, place⟩
        · rw [found] at old
          cases old
        · obtain rfl := List.append_cancel_left place
          exact absurd ((List.prefix_append_right_inj _).mp front) off
  have bodies : d'.bodies = d.bodies := by rw [made.rest]
  refine ⟨⟨⟨made.sound ready.sound, ?_, ?_, ?_⟩, ⟨?_, ?_⟩⟩, ?_, ?_, ?_⟩
  · exact fun p e found => made.grown p e (ready.ways p e found)
  · intro l target long front found
    exact ready.cellar l target long front (link _ target (by simp [long]) found)
  · intro name target found
    exact ready.racks name target (link _ target (place_ne_nil (by simp)) found)
  · intro e found
    rcases new _ e (place_ne_nil inner) found with old | ⟨isDir, -⟩
    · exact ready.dir e old
    · exact isDir
  · intro file member e found
    have longer : ¬ keg ++ [file] <+: keg := fun front => by
      have := front.length_le
      rw [List.length_append, List.length_singleton] at this
      omega
    rw [other _ (by simp) longer] at found
    obtain ⟨body, isFile, alone⟩ := ready.own file member e found
    refine ⟨body, isFile, fun names inner outside found => ?_⟩
    rcases new _ _ (place_ne_nil inner) found with old | ⟨⟨mode, isDir⟩, -⟩
    · exact alone names inner outside old
    · cases isDir
  · intro l long front notYet
    cases found : d.tree.get? (y.base ++ l) with
    | some e => exact Or.inl (made.grown _ e found)
    | none =>
      cases found' : d'.tree.get? (y.base ++ l) with
      | none => exact Or.inl rfl
      | some e =>
        rcases new _ e (by simp [long]) found' with old | ⟨⟨mode, rfl⟩, -⟩
        · rw [found] at old
          cases old
        · exact Or.inr ⟨rfl, mode, rfl⟩
  · intro names off outside
    refine other names ?_ off
    rintro rfl
    exact off List.nil_prefix
  · exact fun names body _ _ _ => by rw [bodies]

end Works

namespace Ready

variable {file : String}

theorem clear_file (ready : y.Ready [name, version] files d) (member : file ∈ files) :
    Clear d.tree true y.base (y.rest ++ [name, version, file]) := by
  refine ready.clear fun l target long front found => ?_
  rcases List.prefix_concat_iff.mp (show l <+: [name, version] ++ [file] from front) with rfl | front
  · obtain ⟨body, isFile, -⟩ := ready.own file member _ found
    cases isFile
  · obtain rfl := front.eq_of_length_le (by simpa using long)
    obtain ⟨mode, isDir⟩ := ready.dir _ found
    cases isDir

theorem clear_keg (ready : y.Ready [name, version] files d) :
    Clear d.tree true y.base (y.rest ++ [name, version]) := by
  refine ready.clear fun l target long front found => ?_
  obtain rfl := front.eq_of_length_le (by simpa using long)
  obtain ⟨mode, isDir⟩ := ready.dir _ found
  cases isDir

theorem setBody (ready : y.Ready keg files d) (member : file ∈ files)
    (found : d.tree.get? (y.place (keg ++ [file])) = some (.file body)) (b : Disk.Body) :
    y.Works keg files d (d.setBody body b) := by
  obtain ⟨_, ⟨⟩, alone⟩ := ready.own file member _ found
  refine ⟨⟨⟨⟨ready.sound.inDir, ready.sound.numbered⟩, ready.ways, ready.cellar, ready.racks⟩,
    ⟨ready.dir, ready.own⟩⟩, fun _ _ _ _ => Or.inl rfl, fun _ _ _ => rfl, ?_⟩
  intro names other inner outside there
  refine Dict.get?_insert_of_ne _ ?_ _
  rintro rfl
  exact alone names inner outside there

theorem newFile (ready : y.Ready keg files d)
    (absent : d.tree.get? (y.place (keg ++ [file])) = none) (inDir : HasDir d.tree (y.place keg))
    (content : ByteArray) (mode : Nat) :
    y.Works keg files d (d.newFile (y.place (keg ++ [file])) content mode) := by
  have under : keg <+: keg ++ [file] := List.prefix_append keg [file]
  have grown : Extends (d.tree.insert (y.place (keg ++ [file])) (.file d.nextBody)) d.tree :=
    Disk.extends_insert absent
  have outer : ∀ names, ¬ keg <+: names →
      (d.tree.insert (y.place (keg ++ [file])) (.file d.nextBody)).get? (y.place names) =
        d.tree.get? (y.place names) := by
    intro names outside
    refine Dict.get?_insert_of_ne _ ?_ _
    intro same
    exact outside (place_inj.mp same ▸ under)
  have onWay : ∀ l, l <+: y.rest ++ keg →
      (d.tree.insert (y.place (keg ++ [file])) (.file d.nextBody)).get? (y.base ++ l) =
        d.tree.get? (y.base ++ l) := by
    intro l front
    refine Dict.get?_insert_of_ne _ ?_ _
    intro same
    have length := front.length_le
    rw [List.append_cancel_left same] at length
    simp only [List.length_append, List.length_singleton] at length
    omega
  refine ⟨⟨⟨ready.sound.newFile absent ?_ content mode, ?_, ?_, ?_⟩, ⟨?_, ?_⟩⟩, ?_, ?_, ?_⟩
  · rwa [place_append, List.dropLast_concat]
  · exact fun p e found => grown p e (ready.ways p e found)
  · intro l target long front
    rw [Disk.newFile, onWay l (front.trans (List.prefix_append _ keg))]
    exact ready.cellar l target long front
  · intro rack target found
    rcases Disk.get?_newFile_cases found with ⟨-, isLink⟩ | old
    · cases isLink
    · exact ready.racks rack target old
  · exact fun e found => ready.dir e ((onWay _ List.prefix_rfl).symm.trans found)
  · intro file' member e found
    rcases Disk.get?_newFile_cases found with ⟨-, isFile⟩ | old
    · refine ⟨d.nextBody, isFile, fun names _ outside there => ?_⟩
      rw [Disk.newFile, outer names outside] at there
      exact absurd (ready.sound.numbered _ _ there) (by omega)
    · obtain ⟨body, isFile, alone⟩ := ready.own file' member e old
      refine ⟨body, isFile, fun names inner outside => ?_⟩
      rw [Disk.newFile, outer names outside]
      exact alone names inner outside
  · exact fun l _ front _ => Or.inl (onWay l front)
  · exact fun names _ outside => outer names outside
  · intro names body inner outside found
    refine Dict.get?_insert_of_ne _ ?_ _
    have := ready.sound.numbered _ _ found
    omega

theorem putFile (ready : y.Ready [name, version] files d) (named : ∀ c ∈ [name, version], IsName c)
    (member : file ∈ files) (component : IsComponent file.toList) (content : ByteArray) (mode : Nat) :
    let ran := (Act.putFile (y.path [name, version, file]) content mode).run d
    y.Works [name, version] files d ran.2 ∧ (ran.1 = .ok () →
      ∃ body, ran.2.tree.get? (y.place [name, version, file]) = some (.file body)) := by
  rw [Act.putFile, Act.run_change]
  cases written : d.write (y.path [name, version, file]) content mode with
  | error reason => exact ⟨.refl ready, by simp⟩
  | ok d' =>
    obtain ⟨place, located, outcome⟩ := Disk.write_eq_ok written
    have components : ∀ c ∈ y.rest ++ [name, version, file], IsComponent c.toList := by
      simp only [List.forall_mem_append, List.forall_mem_cons] at named ⊢
      exact ⟨fun c inRest => (y.named c inRest).1, named.1.1, named.2.1.1, component, by simp⟩
    obtain ⟨rfl, inDir⟩ := ready.site.locate (by simp) components (ready.clear_file member) located
    have inKeg : HasDir d.tree (y.place [name, version]) :=
      dropLast_place_concat [name, version] file ▸ inDir
    rcases outcome with ⟨body, mode', present, rfl⟩ | ⟨absent, rfl⟩
    · have found := Disk.get?_of_entry?_file present
      exact ⟨ready.setBody member found _, fun _ => ⟨body, found⟩⟩
    · have none : d.tree.get? (y.place [name, version, file]) = none := by
        simpa [Disk.entry?, Layout.place] using absent
      exact ⟨ready.newFile none inKeg content _, fun _ => ⟨d.nextBody, Dict.get?_insert_self ..⟩⟩

theorem putFile_ok (ready : y.Ready [name, version] files d)
    (named : ∀ c ∈ [name, version], IsName c) (member : file ∈ files) (isName : IsName file)
    {old : Nat} (isDir : d.tree.get? (y.place [name, version]) = some (.dir old))
    (content : ByteArray) (mode : Nat) :
    ((Act.putFile (y.path [name, version, file]) content mode).run d).1 = .ok () := by
  have inDir : HasDir d.tree (y.place [name, version, file]).dropLast :=
    dropLast_place_concat (y := y) [name, version] file ▸ Or.inr ⟨old, isDir⟩
  have located : d.locate true (y.path [name, version, file]) = .ok (y.place [name, version, file]) :=
    ready.site.locate_ok (by simp) (Stands.named_rest (by simpa [isName] using named)) inDir
      (ready.clear_file member)
  obtain ⟨d', written⟩ := Disk.write_ok located (place_ne_nil (by simp)) inDir
    (fun e found => (ready.own file member e found).imp fun _ own => own.1) content mode
  rw [Act.putFile, Act.run_change, written]

theorem makeDirAll (ready : y.Ready [name, version] files d) (named : ∀ c ∈ [name, version], IsName c)
    (mode : Nat) :
    y.Works [name, version] files d ((Act.makeDirAll (y.path [name, version]) mode).run d).2 := by
  rcases outcome : (Act.makeDirAll (y.path [name, version]) mode).run d with ⟨result, d'⟩
  have made := (Disk.makeDirs_made _ (path_components fun c member => (named c member).1) mode d outcome).1
  exact .made ready (by simp) named ready.clear_keg made

theorem makeTempDir (ready : y.Ready keg files d) (component : IsComponent name.toList) :
    y.Works keg files d
        ((Act.makeTempDir (Path.ofComponents y.temp) ("nbrew-" ++ name ++ "-")).run d).2 ∧
      ∀ dir d', (Act.makeTempDir (Path.ofComponents y.temp) ("nbrew-" ++ name ++ "-")).run d =
          (.ok dir, d') →
        ∃ c, IsBuildName c ∧ IsName c ∧ dir = Path.ofComponents (y.temp ++ [c]) := by
  have free : ("nbrew-" ++ name ++ "-").toList.contains '/' = false := by
    simpa using component.2.2.2
  have before : IsComponent ("nbrew-" ++ name ++ "-").toList := by
    rw [String.append_assoc, String.toList_append]
    exact Path.IsComponent.append (by decide) (by simpa using component.2.2.2)
  have last := Act.isComponent_freshDir before d.serial
  have counted : y.Ready keg files { d with serial := d.serial + 1 } :=
    ⟨⟨⟨ready.sound.inDir, ready.sound.numbered⟩, ready.ways, ready.cellar, ready.racks⟩,
      ⟨ready.dir, ready.own⟩⟩
  have counting : y.Works keg files d { d with serial := d.serial + 1 } :=
    .of_same ready counted.sound counted.ways (fun _ _ => rfl) rfl
  rcases Act.run_makeTempDir y.tempComponents free d with ⟨e, failed⟩ | ⟨d', made, done⟩
  · rw [failed]
    exact ⟨counting, by simp⟩
  · rw [done]
    obtain ⟨place, reached, -, absent, -, rfl⟩ := Disk.makeDir_eq_ok y.tempComponents last made
    have there := ready.benchSite.there
    have isDir := ready.benchSite.isDir
    have isName : IsName (Act.freshDir ("nbrew-" ++ name ++ "-") d.serial) := by
      obtain ⟨left, onward⟩ := Disk.walk_append (Or.inl (List.cons_ne_nil _ [])) there isDir
      rw [onward] at reached
      exact Disk.isName_of_walk last reached
    obtain rfl := Disk.walk_below there isDir (List.cons_ne_nil _ []) (by simpa using last)
      (Disk.clear_singleton _ _ _) reached
    have build : IsBuildName (Act.freshDir ("nbrew-" ++ name ++ "-") d.serial) :=
      ⟨name ++ "-" ++ toString (1000000000 + d.serial), by simp [Act.freshDir, String.append_assoc]⟩
    refine ⟨.bench ready build absent, ?_⟩
    rintro dir d' ⟨⟩
    exact ⟨_, build, isName, rfl⟩

theorem removeAll_build (ready : y.Ready keg files d) (build : IsBuildName c) (isName : IsName c) :
    let d' := ((Act.removeAll (Path.ofComponents (y.temp ++ [c]))).run d).2
    y.Works keg files d d' ∧ ∀ names, d'.tree.get? (y.place names) = d.tree.get? (y.place names) := by
  have pruned := ready.benchSite.removeAll_pruned (List.cons_ne_nil c []) (by simpa using isName)
    (Disk.clear_singleton _ _ _)
  exact ⟨.sweep ready build pruned, fun names => pruned.kept (not_below_build build names)⟩

theorem absent_of_not_exists (ready : y.Ready [name, version] files d)
    (named : ∀ c ∈ [name, version], IsName c) (missing : d.exists? (y.path [name, version]) = false) :
    d.tree.get? (y.place [name, version]) = none := by
  have := (ready.exists_iff (by simp) named ready.clear_keg).not.mp (by simp [missing])
  simpa [Option.eq_none_iff_forall_ne_some] using this

end Ready

namespace Stands

variable (stands : y.Stands d)

include stands

theorem removeAll_keg (named : ∀ c ∈ [name, version], IsName c) :
    Pruned (y.place [name, version]) d ((Act.removeAll (y.path [name, version])).run d).2 :=
  stands.site.removeAll_pruned (by simp) (named_rest named) (stands.clear_keg name version)

theorem removeAll_rack (isName : IsName name) :
    Pruned (y.place [name]) d ((Act.removeAll (y.path [name])).run d).2 :=
  stands.site.removeAll_pruned (by simp) (named_rest (by simpa using isName)) (stands.clear_rack name)

theorem find_rack_iff (isName : IsName name) {p : Place} {e : Entry} :
    d.find follow (y.path [name]) = .ok (p, e) ↔
      p = y.place [name] ∧ d.tree.get? (y.place [name]) = some e :=
  stands.site.find_eq_ok_iff (by simp) (named_rest (by simpa using isName)) (stands.clear_rack name) e

theorem find_rack_missing (isName : IsName name)
    (way : ∀ l e, l ≠ [] → l <+: y.rest → d.tree.get? (y.base ++ l) = some e → ∃ mode, e = .dir mode)
    (absent : d.tree.get? (y.place [name]) = none) :
    d.find follow (y.path [name]) = .error .missing := by
  refine stands.site.find_missing (by simp) (named_rest (by simpa using isName)) (fun l e long front found => ?_)
    absent
  rcases List.prefix_concat_iff.mp front with rfl | front
  · exact absurd (found.symm.trans absent) (by simp)
  · exact way l e long front found

theorem isEmpty_below_rack (empty : ∀ c, d.tree.get? (y.place [name, c]) = none) :
    (d.below (y.place [name])).isEmpty = true := by
  rw [List.isEmpty_iff, List.eq_nil_iff_forall_not_mem]
  rintro ⟨names, e⟩ member
  obtain ⟨inner, found⟩ := (Disk.mem_below_iff ..).mp member
  obtain ⟨c, rest, rfl⟩ := List.exists_cons_of_ne_nil inner
  have absent : d.tree.get? (y.place [name] ++ [c]) = none := by
    rw [← place_append]
    exact empty c
  have below := stands.sound.empty_below (by simp) absent rest
  rw [List.append_assoc, List.singleton_append, found] at below
  cases below

theorem remove_rack (isName : IsName name) (isDir : d.tree.get? (y.place [name]) = some (.dir mode))
    (empty : ∀ c, d.tree.get? (y.place [name, c]) = none) :
    Pruned (y.place [name]) d ((Act.remove (y.path [name])).run d).2 := by
  have found : d.find false (y.path [name]) = .ok (y.place [name], .dir mode) :=
    (stands.find_rack_iff isName).mpr ⟨rfl, isDir⟩
  rw [Act.remove, Act.run_change, Disk.unlink, found]
  simp only [bind, Except.bind, stands.isEmpty_below_rack empty, ↓reduceIte]
  exact Disk.pruned_prune _ d

end Stands

/-! ### A small cellar -/

theorem premises_ways : (Dict.ofList [(["cellar"], Entry.dir 0o755), (["tmp"], .dir 0o755)]).toList =
    [(["cellar"], .dir 0o755), (["tmp"], .dir 0o755)] := by decide

theorem premises_at (either : c = "cellar" ∨ c = "tmp") :
    let ways := Dict.ofList [(["cellar"], Entry.dir 0o755), (["tmp"], .dir 0o755)]
    (∀ x ∈ [c], IsComponent x.toList) ∧ Disk.walk ways true Disk.maxLinks [] [c] = .ok [c] ∧
      HasDir ways [c] := by
  have named : IsName c := by rcases either with rfl | rfl <;> decide
  have found : (Dict.ofList [(["cellar"], Entry.dir 0o755), (["tmp"], .dir 0o755)]).get? [c] =
      some (.dir 0o755) := by
    rw [Dict.get?_eq_some_iff, premises_ways]
    rcases either with rfl | rfl <;> simp
  refine ⟨by simpa using named.1, ?_, Or.inr ⟨_, found⟩⟩
  rw [Disk.walk_dir named found, Disk.walk]
  rfl

/-- A cellar and a directory for builds that lie at the root. -/
def premises : Layout where
  ways := .ofList [(["cellar"], .dir 0o755), (["tmp"], .dir 0o755)]
  front := ["cellar"]
  rest := []
  base := ["cellar"]
  temp := ["tmp"]
  bench := ["tmp"]
  components := (premises_at (.inl rfl)).1
  named := by simp
  tempComponents := (premises_at (.inr rfl)).1
  toBase := (premises_at (.inl rfl)).2.1
  baseDir := (premises_at (.inl rfl)).2.2
  toBench := (premises_at (.inr rfl)).2.1
  benchDir := (premises_at (.inr rfl)).2.2
  apart := by simp
  free p e found := by
    rw [Dict.get?_eq_some_iff, premises_ways] at found
    simp only [List.mem_cons, Prod.mk.injEq, List.not_mem_nil, or_false] at found
    rcases found with ⟨rfl, -⟩ | ⟨rfl, -⟩ <;> simp

theorem premises_stands (sound : d.isSound = true) (cellar : d.tree.get? ["cellar"] = some (.dir 0o755))
    (temp : d.tree.get? ["tmp"] = some (.dir 0o755))
    (links : (d.tree.toList.all fun x => x.2 matches .dir _ | .file _) = true) : premises.Stands d where
  sound := Disk.sound_of_isSound sound
  ways p e found := by
    rw [Dict.get?_eq_some_iff, premises, premises_ways] at found
    simp only [List.mem_cons, Prod.mk.injEq, List.not_mem_nil, or_false] at found
    rcases found with ⟨rfl, rfl⟩ | ⟨rfl, rfl⟩ <;> assumption
  cellar l target long front := absurd (List.prefix_nil.mp front) long
  racks name target found := by
    have plain := List.all_eq_true.mp links _ ((Dict.get?_eq_some_iff ..).mp found)
    cases plain

end Layout

end Taproom
