import Taproom.Manager.Api
import Taproom.Proofs.Index
import Taproom.Proofs.Stamps

/-!
What can be asked of a manager once the tap was brought to the disk. Every operation changes the
graphs one by one and keeps them, or it fails and leaves the manager as it was; a request is answered
by such operations.
-/

namespace Taproom

open Relation (ReflTransGen)

/-! ### Reading and comparing -/

namespace Graph

variable {d : Disk} {g : Graph} {n : String} {p : Package}

theorem dirty_of_packageOf {atom : Atom} {t : Tap} (made : packageOf atom d t n = .ok p) :
    p.dirty = true := by
  rw [packageOf] at made
  simp only [bind, Except.bind] at made
  split at made
  · cases made
  · split at made
    · split at made
      · cases made
      · cases made
        rfl
    · cases made

theorem dirty_keepFailure (old : Option Package) (p : Package) :
    (keepFailure old p).dirty = p.dirty := by
  unfold keepFailure
  split
  · split <;> rfl
  · rfl

theorem dirty_importName (found : (importName d g n).atom.packages.get? n = some p) :
    p.dirty = true := by
  rw [importName] at found
  split at found
  · split at found
    · rename_i made
      rw [Dict.get?_insert_self, Option.some.injEq] at found
      rw [← found, dirty_keepFailure]
      exact dirty_of_packageOf made
    · rw [Dict.get?_erase_self] at found
      cases found
  · rw [Dict.get?_erase_self] at found
    cases found

theorem get?_importName_of_ne {other : String} (ne : other ≠ n) :
    (importName d g n).atom.packages.get? other = g.atom.packages.get? other := by
  rw [importName]
  split
  · split
    · exact Dict.get?_insert_of_ne _ ne _
    · exact Dict.get?_erase_of_ne _ ne
  · exact Dict.get?_erase_of_ne _ ne

theorem get?_importNames_of_notMem {names : List String} (unread : n ∉ names) :
    (importNames d g names).atom.packages.get? n = g.atom.packages.get? n := by
  induction names generalizing g with
  | nil => rfl
  | cons first names ih =>
    rw [List.mem_cons, not_or] at unread
    rw [importNames, List.foldl_cons, ← importNames, ih unread.2, get?_importName_of_ne unread.1]

theorem dirty_importNames {names : List String} (read : n ∈ names)
    (found : (importNames d g names).atom.packages.get? n = some p) : p.dirty = true := by
  induction names generalizing g with
  | nil => cases read
  | cons first names ih =>
    rw [importNames, List.foldl_cons, ← importNames] at found
    by_cases later : n ∈ names
    · exact ih later found
    · rw [get?_importNames_of_notMem later] at found
      obtain rfl := (List.mem_cons.mp read).resolve_right later
      exact dirty_importName found

/-- The names that are read from the tap when some paths changed. -/
def namesRead (d : Disk) (paths : List String) (g : Graph) : List String :=
  if paths.any fun p => Path.base p == "aliases" then
    if (g.tap.aliases d).isOk then (g.tap.paths d).map Path.stem else []
  else (paths.map Tap.nameOfPath).filter (· ≠ "")

theorem get?_clean (g : Graph) (ix : Index) (n : String) :
    (g.clean ix).atom.packages.get? n = (g.atom.packages.get? n).map fun p =>
      { p with dirty := !isCovered ix g.atom.platform.tag n p } :=
  Dict.get?_map ..

theorem isCovered_iff (ix : Index) (tag n : String) (p : Package) :
    isCovered ix tag n p = true ↔ ∃ e, ix.get? tag n = some e ∧ e.version = p.version := by
  unfold isCovered
  cases ix.get? tag n with
  | none => simp
  | some e => simp

end Graph

namespace Manager

variable {m m' : Manager} {d d' : Disk} {tag : String}

theorem importPaths_eq (d : Disk) (paths : List String) (g : Graph) :
    ∃ table, importPaths d paths g =
      (Graph.importNames d (withAliases g table) (g.namesRead d paths)).check.2 := by
  rw [importPaths, Graph.importChanged, Graph.namesRead]
  split
  · rw [Graph.loadAliases]
    cases loaded : g.tap.aliases d with
    | error fault => exact ⟨g.atom.aliases, rfl⟩
    | ok table => exact ⟨table, rfl⟩
  · exact ⟨g.atom.aliases, rfl⟩

theorem importPaths_frame (d : Disk) (paths : List String) (g : Graph) :
    (importPaths d paths g).atom.platform = g.atom.platform ∧
      (importPaths d paths g).atom.rev = g.atom.rev := by
  obtain ⟨table, read⟩ := importPaths_eq d paths g
  have frame := Graph.importNames_frame d (withAliases g table) (g.namesRead d paths)
  rw [read]
  exact ⟨frame.platform, frame.rev⟩

/-! ### Operations -/

inductive Operation where
  | syncTo (c : Checkout) (rev : String)
  | importChanged (paths : List String)
  | cleanPlatform (net : Http.Transport) (tag : String)
  | addBottle (tag : String) (e : Index.Entry)
  | clean
  | loadIndexes (net : Http.Transport) (urls : Dict String (Dict String String))
  | setFailed (tag name : String) (failed : Bool)

namespace Operation

def after (m : Manager) (d : Disk) : Operation → Manager
  | syncTo c rev => (m.syncTo c rev d).2.1
  | importChanged paths => m.importChanged paths d
  | cleanPlatform net tag => (m.cleanPlatform net d tag).toOption.getD m
  | addBottle tag e => (m.addBottle tag e).toOption.getD m
  | clean => m.clean
  | loadIndexes net urls => m.loadIndexes net d urls
  | setFailed tag name failed => (m.setFailed tag name failed).toOption.getD m

/-- What an operation that succeeds changes: the revision, the index, and each graph by itself. -/
inductive Changes (m : Manager) (d : Disk) :
    Operation → String → Index → (String → Graph → Graph) → Prop where
  | syncTo {c : Checkout} {rev : String} {paths : List String} {disk : Disk}
      (moved : (c.moveTo rev).run d = (.ok paths, disk)) :
      Changes m d (.syncTo c rev) rev m.index fun _ g => setRev (importPaths disk paths g) rev
  | importChanged (paths : List String) :
      Changes m d (.importChanged paths) m.rev m.index fun _ g => importPaths d paths g
  | cleanPlatform {net : Http.Transport} {tag : String} {index : Index}
      (reloaded : m.index.reload net d tag = (.ok (), index)) :
      Changes m d (.cleanPlatform net tag) m.rev index fun other g =>
        if other = tag then g.clean index else g
  | addBottle (tag : String) (e : Index.Entry) :
      Changes m d (.addBottle tag e) m.rev (m.index.add tag e) fun other g =>
        if other = tag then g.clean (m.index.add tag e) else g
  | clean : Changes m d .clean m.rev m.index fun _ g => g.clean m.index
  | loadIndexes (net : Http.Transport) (urls : Dict String (Dict String String)) (index : Index) :
      Changes m d (.loadIndexes net urls) m.rev index fun _ g => g.clean index
  | setFailed {tag name : String} {failed : Bool} {g g' : Graph}
      (found : m.graphs.get? tag = some g) (marked : g.setFailed name failed = .ok g') :
      Changes m d (.setFailed tag name failed) m.rev m.index fun other h =>
        if other = tag then g' else h

/-- An operation fails before it changes anything. -/
inductive Fails (m : Manager) (d : Disk) : Operation → Prop where
  | syncTo {c : Checkout} {rev : String} {f : Fault} {disk : Disk}
      (stays : (c.moveTo rev).run d = (.error f, disk)) : Fails m d (.syncTo c rev)
  | cleanPlatform {net : Http.Transport} {tag : String} {f : Fault} {index : Index}
      (failed : m.index.reload net d tag = (.error f, index)) : Fails m d (.cleanPlatform net tag)
  | unknownClean {net : Http.Transport} {tag : String} (unknown : m.graphs.get? tag = none) :
      Fails m d (.cleanPlatform net tag)
  | unknownBottle {tag : String} {e : Index.Entry} (unknown : m.graphs.get? tag = none) :
      Fails m d (.addBottle tag e)
  | setFailed (tag name : String) (failed : Bool) : Fails m d (.setFailed tag name failed)

end Operation

theorem graph_of_get? {g : Graph} (found : m.graphs.get? tag = some g) : m.graph tag = .ok g := by
  rw [graph, found]

theorem graph_of_absent (absent : m.graphs.get? tag = none) :
    m.graph tag = .error (.unknownPlatform tag) := by
  rw [graph, absent]

theorem cleanTag_eq (m : Manager) (tag : String) :
    m.cleanTag tag = persist { m with
      graphs := m.graphs.map fun other g => if other = tag then g.clean m.index else g } := by
  rw [cleanTag, Dict.modify_eq_map]

/-- An operation fails and leaves the manager alone, or it changes the graphs and keeps them. -/
theorem after_cases (m : Manager) (d : Disk) (o : Operation) :
    o.Fails m d ∧ o.after m d = m ∨
      ∃ rev index change, o.Changes m d rev index change ∧
        o.after m d = persist { m with rev, index, graphs := m.graphs.map change } := by
  cases o with
  | syncTo c rev =>
    rcases outcome : (c.moveTo rev).run d with ⟨result, disk⟩
    cases result with
    | error f =>
      refine Or.inl ⟨.syncTo outcome, ?_⟩
      simp only [Operation.after, syncTo, outcome]
    | ok paths =>
      refine Or.inr ⟨_, _, _, .syncTo outcome, ?_⟩
      simp only [Operation.after, syncTo, outcome]
  | importChanged paths => exact Or.inr ⟨_, _, _, .importChanged paths, rfl⟩
  | cleanPlatform net tag =>
    cases found : m.graphs.get? tag with
    | none =>
      refine Or.inl ⟨.unknownClean found, ?_⟩
      rw [Operation.after, cleanPlatform, graph_of_absent found]
      rfl
    | some g =>
      rcases outcome : m.index.reload net d tag with ⟨result, index⟩
      cases result with
      | error f =>
        refine Or.inl ⟨.cleanPlatform outcome, ?_⟩
        rw [Operation.after, cleanPlatform, graph_of_get? found, outcome]
        rfl
      | ok u =>
        refine Or.inr ⟨_, _, _, .cleanPlatform outcome, ?_⟩
        rw [Operation.after, cleanPlatform, graph_of_get? found, outcome]
        exact cleanTag_eq { m with index } tag
  | addBottle tag e =>
    cases found : m.graphs.get? tag with
    | none =>
      refine Or.inl ⟨.unknownBottle found, ?_⟩
      rw [Operation.after, addBottle, graph_of_absent found]
      rfl
    | some g =>
      refine Or.inr ⟨_, _, _, .addBottle tag e, ?_⟩
      rw [Operation.after, addBottle, graph_of_get? found]
      exact cleanTag_eq { m with index := m.index.add tag e } tag
  | clean => exact Or.inr ⟨_, _, _, .clean, rfl⟩
  | loadIndexes net urls => exact Or.inr ⟨_, _, _, .loadIndexes net urls _, rfl⟩
  | setFailed tag name failed =>
    cases found : m.graphs.get? tag with
    | none =>
      refine Or.inl ⟨.setFailed tag name failed, ?_⟩
      rw [Operation.after, setFailed, graph_of_absent found]
      rfl
    | some g =>
      cases marked : g.setFailed name failed with
      | error f =>
        refine Or.inl ⟨.setFailed tag name failed, ?_⟩
        rw [Operation.after, setFailed, graph_of_get? found]
        simp only [bind, Except.bind, marked]
        rfl
      | ok g' =>
        refine Or.inr ⟨_, _, _, .setFailed found marked, ?_⟩
        rw [Operation.after, setFailed, graph_of_get? found]
        simp only [bind, Except.bind, marked]
        rw [← Dict.insert_eq_map m.graphs (by rw [found]; rfl) g']
        rfl

theorem setFailed_frame {g g' : Graph} {name : String} {failed : Bool}
    (marked : g.setFailed name failed = .ok g') :
    g'.atom.platform = g.atom.platform ∧ g'.atom.rev = g.atom.rev := by
  rw [Graph.setFailed] at marked
  split at marked
  · cases marked
    exact ⟨rfl, rfl⟩
  · cases marked

namespace Operation.Changes

variable {o : Operation} {rev : String} {index : Index} {change : String → Graph → Graph} {g : Graph}

theorem platform (changes : o.Changes m d rev index change) (found : m.graphs.get? tag = some g) :
    (change tag g).atom.platform = g.atom.platform := by
  cases changes with
  | syncTo moved => exact (importPaths_frame ..).1
  | importChanged paths => exact (importPaths_frame ..).1
  | cleanPlatform reloaded => dsimp only; split <;> rfl
  | addBottle bottle e => dsimp only; split <;> rfl
  | clean => rfl
  | loadIndexes net urls => rfl
  | setFailed marking marked =>
    dsimp only
    split
    · rename_i same
      rw [same, marking, Option.some.injEq] at found
      exact found ▸ (setFailed_frame marked).1
    · rfl

theorem stamp (changes : o.Changes m d rev index change) (found : m.graphs.get? tag = some g)
    (stamped : g.atom.rev = m.rev) : (change tag g).atom.rev = rev := by
  cases changes with
  | syncTo moved => rfl
  | importChanged paths => exact (importPaths_frame ..).2.trans stamped
  | cleanPlatform reloaded => dsimp only; split <;> exact stamped
  | addBottle bottle e => dsimp only; split <;> exact stamped
  | clean => exact stamped
  | loadIndexes net urls => exact stamped
  | setFailed marking marked =>
    dsimp only
    split
    · rename_i same
      rw [same, marking, Option.some.injEq] at found
      exact (setFailed_frame marked).2.trans (found ▸ stamped)
    · exact stamped

end Operation.Changes

/-! ### Requests -/

/-- One operation after another, each of which finds some disk. -/
def Operated (m m' : Manager) : Prop := ∃ (o : Operation) (d : Disk), m' = o.after m d

theorem operated_mark (tag name : String) (failed : Bool) (m : Manager) (d : Disk) :
    ReflTransGen Operated m (markAnswer tag name failed m d).2.1 := by
  rw [markAnswer]
  split
  · cases marked : m.setFailed tag name failed with
    | error f => exact .refl
    | ok m' =>
      refine .single ⟨.setFailed tag name failed, d, ?_⟩
      rw [Operation.after, marked]
      rfl
  · exact .refl

theorem operated_clean (net : Http.Transport) (tag : String) (m : Manager) (d : Disk) :
    ReflTransGen Operated m (cleanAnswer net tag m d).2.1 := by
  rw [cleanAnswer]
  split
  · cases cleaned : m.cleanPlatform net d tag with
    | error f => exact .refl
    | ok m' =>
      refine .single ⟨.cleanPlatform net tag, d, ?_⟩
      rw [Operation.after, cleaned]
      rfl
  · exact .refl

theorem operated_sync (c : Checkout) (rev : String) (m : Manager) (d : Disk) :
    ReflTransGen Operated m (syncAnswer c rev m d).2.1 := by
  rw [syncAnswer]
  rcases c.fetch.run d with ⟨result, d'⟩
  cases result with
  | error f => exact .refl
  | ok u =>
    dsimp only
    have synced : Operated m (m.syncTo c rev d').2.1 := ⟨.syncTo c rev, d', rfl⟩
    rcases outcome : m.syncTo c rev d' with ⟨result, m', d''⟩
    rw [outcome] at synced
    cases result with
    | error f => exact .single synced
    | ok u => exact (ReflTransGen.single synced).tail ⟨.clean, d'', rfl⟩

theorem handler_of_choose {α : Type} {routes : List (Http.Route α)} {call : Http.Call} {h : α}
    (chosen : Http.choose routes call = .handler h) : ∃ r ∈ routes, ∃ parts, h = r.handler parts := by
  rw [Http.choose] at chosen
  split at chosen
  · cases chosen
  · dsimp only at chosen
    split at chosen
    · rename_i r parts found
      cases chosen
      obtain ⟨r', member, fits⟩ := List.mem_filterMap.mp (List.mem_of_find?_eq_some found)
      obtain ⟨parts', -, same⟩ := Option.map_eq_some_iff.mp fits
      cases same
      exact ⟨r, member, parts, rfl⟩
    · split at chosen <;> cases chosen

theorem withGraph_manager (m : Manager) (d : Disk) (tag : String) (k : Graph → Http.Response) :
    (withGraph m d tag k).2.1 = m := by
  rw [withGraph]
  split <;> rfl

/-- Every request is answered by operations, if it changes anything. -/
theorem operated_answer (c : Checkout) (net : Http.Transport) (call : Http.Call) (m : Manager)
    (d : Disk) : ReflTransGen Operated m (answer c net call m d).2.1 := by
  rw [answer]
  split
  · rename_i h chosen
    obtain ⟨r, member, parts, rfl⟩ := handler_of_choose chosen
    have same : ∀ {x : Manager}, x = m → ReflTransGen Operated m x := fun eq => eq ▸ .refl
    simp only [routes, List.mem_cons, List.not_mem_nil, or_false] at member
    rcases member with rfl | rfl | rfl | rfl | rfl | rfl | rfl | rfl | rfl | rfl | rfl | rfl
    · exact .refl
    iterate 6 exact same (withGraph_manager ..)
    · exact .refl
    · exact operated_mark ..
    · exact operated_mark ..
    · exact operated_clean ..
    · exact operated_sync ..
  · exact .refl
  · exact .refl

end Manager

end Taproom
