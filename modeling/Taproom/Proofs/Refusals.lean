import Taproom.Proofs.Archives
import Taproom.Proofs.Operations

/-!
Operations that are refused. Each is refused for reasons that can be seen beforehand, and then nothing
changes: not the revision, no graph, nothing that the index holds and nothing in the store. When a
platform is read again, all of its repositories can be read and the index holds what they hold; else the
index stays as it was, however many of them were read.
-/

namespace Taproom

/-! ### What repositories hold -/

namespace Index

variable {net : Http.Transport} {d : Disk} {urls order : List String} {shelf start : Shelf}
  {name other : String} {e : Entry}

/-- One of the repositories holds a bottle, which goes by its name if it names no package itself. -/
def Holds (net : Http.Transport) (d : Disk) (urls : List String) (name : String) (e : Entry) : Prop :=
  ∃ url ∈ urls, ∃ entries held, fetch net d url = .ok entries ∧ entries.get? name = some held ∧
    held.named name = e

/-- A shelf has an entry for exactly the names that repositories hold, and each is from one of them. -/
structure Reflects (net : Http.Transport) (d : Disk) (urls : List String) (shelf : Shelf) : Prop where
  sound : ∀ name e, shelf.get? name = some e → Holds net d urls name e
  complete : ∀ name e, Holds net d urls name e → (shelf.get? name).isSome

theorem Holds.mono (holds : Holds net d urls name e) (subset : urls ⊆ order) : Holds net d order name e := by
  obtain ⟨url, member, rest⟩ := holds
  exact ⟨url, subset member, rest⟩

theorem Reflects.of_perm (reflects : Reflects net d order shelf) (same : order.Perm urls) :
    Reflects net d urls shelf where
  sound name e found := (reflects.sound name e found).mono same.subset
  complete name e holds := reflects.complete name e (holds.mono same.symm.subset)

theorem get?_offer_of_ne (ne : other ≠ name) (shelf : Shelf) (e : Entry) :
    (offer shelf name e).get? other = shelf.get? other := by
  unfold offer
  split
  · split
    · rfl
    · exact Dict.get?_insert_of_ne _ ne _
  · exact Dict.get?_insert_of_ne _ ne _

theorem get?_offer_self (shelf : Shelf) (name : String) (e : Entry) :
    (offer shelf name e).get? name = some (e.named name) ∨
      ∃ current, shelf.get? name = some current ∧ (offer shelf name e).get? name = some current := by
  unfold offer
  split
  · rename_i current found
    split
    · exact Or.inr ⟨current, found, found⟩
    · exact Or.inl (Dict.get?_insert_self ..)
  · exact Or.inl (Dict.get?_insert_self ..)

example : ((offer (.ofList [("a", { version := "1.9" })]) "a" { version := "1.10" }).get? "a").map (·.version) =
    some "1.10" := by decide +kernel

theorem isSome_get?_offer (shelf : Shelf) (e : Entry) :
    ((offer shelf name e).get? other).isSome ↔ other = name ∨ (shelf.get? other).isSome := by
  by_cases same : other = name
  · subst same
    rcases get?_offer_self shelf other e with taken | ⟨current, -, kept⟩
    · simp [taken]
    · simp [kept]
  · simp [get?_offer_of_ne same, same]

theorem get?_foldl_offer {l : List (String × Entry)}
    (found : (l.foldl (fun shelf (name, e) => offer shelf name e) shelf).get? name = some e) :
    shelf.get? name = some e ∨ ∃ held, (name, held) ∈ l ∧ held.named name = e := by
  induction l generalizing shelf with
  | nil => exact Or.inl found
  | cons p l ih =>
    rcases ih found with before | ⟨held, member, named⟩
    · by_cases same : name = p.1
      · subst same
        rcases get?_offer_self shelf p.1 p.2 with taken | ⟨current, there, kept⟩
        · exact Or.inr ⟨p.2, List.mem_cons_self, Option.some.inj (taken.symm.trans before)⟩
        · exact Or.inl (there.trans (kept.symm.trans before))
      · exact Or.inl ((get?_offer_of_ne same ..).symm.trans before)
    · exact Or.inr ⟨held, List.mem_cons_of_mem _ member, named⟩

theorem isSome_get?_foldl_offer (l : List (String × Entry)) (shelf : Shelf) (name : String) :
    ((l.foldl (fun shelf (name, e) => offer shelf name e) shelf).get? name).isSome ↔
      (∃ held, (name, held) ∈ l) ∨ (shelf.get? name).isSome := by
  induction l generalizing shelf with
  | nil => simp
  | cons p l ih =>
    rw [List.foldl_cons, ih, isSome_get?_offer]
    constructor
    · rintro (⟨held, member⟩ | rfl | before)
      · exact Or.inl ⟨held, List.mem_cons_of_mem _ member⟩
      · exact Or.inl ⟨p.2, List.mem_cons_self⟩
      · exact Or.inr before
    · rintro (⟨held, member⟩ | before)
      · rcases List.mem_cons.mp member with same | member
        · exact Or.inr (Or.inl (by rw [← same]))
        · exact Or.inl ⟨held, member⟩
      · exact Or.inr (Or.inr before)

def gather (net : Http.Transport) (d : Disk) (urls : List String) (start : Shelf) : Except Fault Shelf :=
  urls.foldlM (fun shelf url => return offerAll shelf (← fetch net d url)) start

theorem gather_cons (url : String) (urls : List String) (start : Shelf) :
    gather net d (url :: urls) start =
      fetch net d url >>= fun entries => gather net d urls (offerAll start entries) := by
  rw [gather, List.foldlM_cons]
  cases fetch net d url <;> rfl

theorem gather_isOk_iff (net : Http.Transport) (d : Disk) (urls : List String) (start : Shelf) :
    (∃ shelf, gather net d urls start = .ok shelf) ↔
      ∀ url ∈ urls, ∃ entries, fetch net d url = .ok entries := by
  induction urls generalizing start with
  | nil => simpa using ⟨start, rfl⟩
  | cons url urls ih =>
    rw [gather_cons, List.forall_mem_cons]
    cases fetched : fetch net d url with
    | error f => simp [bind, Except.bind]
    | ok entries => simpa [bind, Except.bind] using ih (offerAll start entries)

theorem gather_reflects (done : gather net d urls start = .ok shelf) :
    (∀ name e, shelf.get? name = some e → start.get? name = some e ∨ Holds net d urls name e) ∧
      ∀ name, (start.get? name).isSome ∨ (∃ e, Holds net d urls name e) → (shelf.get? name).isSome := by
  induction urls generalizing start with
  | nil =>
    cases done
    refine ⟨fun name e found => Or.inl found, ?_⟩
    rintro name (before | ⟨e, url, member, -⟩)
    · exact before
    · cases member
  | cons url urls ih =>
    rw [gather_cons] at done
    cases fetched : fetch net d url with
    | error f =>
      rw [fetched] at done
      cases done
    | ok entries =>
      rw [fetched] at done
      obtain ⟨sound, complete⟩ := ih done
      constructor
      · intro name e found
        rcases sound name e found with before | holds
        · rcases get?_foldl_offer before with earlier | ⟨held, member, named⟩
          · exact Or.inl earlier
          · exact Or.inr ⟨url, List.mem_cons_self, entries, held, fetched,
              (Dict.get?_eq_some_iff ..).mpr member, named⟩
        · exact Or.inr (holds.mono (List.subset_cons_self ..))
      · rintro name (before | ⟨e, other, member, entries', held, fetched', found, named⟩)
        · exact complete name (Or.inl ((isSome_get?_foldl_offer ..).mpr (Or.inr before)))
        · rcases List.mem_cons.mp member with rfl | member
          · cases fetched.symm.trans fetched'
            have listed : (name, held) ∈ entries.toList := (Dict.get?_eq_some_iff ..).mp found
            exact complete name (Or.inl ((isSome_get?_foldl_offer ..).mpr (Or.inl ⟨held, listed⟩)))
          · exact complete name (Or.inr ⟨e, other, member, entries', held, fetched', found, named⟩)

theorem Reflects.of_gather (done : gather net d urls {} = .ok shelf) : Reflects net d urls shelf := by
  obtain ⟨sound, complete⟩ := gather_reflects done
  refine ⟨fun name e found => (sound name e found).resolve_left ?_,
    fun name e holds => complete name (Or.inr ⟨e, holds⟩)⟩
  intro nothing
  cases nothing

theorem reload_cases (ix : Index) (net : Http.Transport) (d : Disk) (tag : String) :
    (∃ shelf, gather net d (ix.urls.getD tag {}).values {} = .ok shelf ∧
        ix.reload net d tag = (.ok (), ix.replace tag shelf)) ∨
      ∃ f, gather net d (ix.urls.getD tag {}).values {} = .error f ∧ ix.reload net d tag = (.error f, ix) := by
  cases outcome : gather net d (ix.urls.getD tag {}).values {} with
  | ok shelf =>
    refine Or.inl ⟨shelf, rfl, ?_⟩
    rw [reload, ← gather, outcome]
  | error f =>
    refine Or.inr ⟨f, rfl, ?_⟩
    rw [reload, ← gather, outcome]

end Index

/-! ### What is refused -/

namespace Manager

variable {m m' : Manager} {d : Disk} {tag name : String} {net : Http.Transport} {failed : Bool}

namespace Operation

def outcome (m : Manager) (d : Disk) : Operation → Except Fault Unit
  | syncTo c rev => (m.syncTo c rev d).1
  | cleanPlatform net tag => (m.cleanPlatform net d tag).map fun _ => ()
  | addBottle tag e => (m.addBottle tag e).map fun _ => ()
  | setFailed tag name failed => (m.setFailed tag name failed).map fun _ => ()
  | importChanged _ | clean | loadIndexes _ _ => .ok ()

/-- Why an operation is refused: a revision that cannot be reached, a platform or a package that is not
known, a repository that cannot be read. -/
def Refused (m : Manager) (d : Disk) : Operation → Prop
  | syncTo c rev => ∃ f d', (c.moveTo rev).run d = (.error f, d')
  | cleanPlatform net tag => m.graphs.get? tag = none ∨
      ∃ repo url f, (m.index.urls.getD tag {}).get? repo = some url ∧ Index.fetch net d url = .error f
  | addBottle tag _ => m.graphs.get? tag = none
  | setFailed tag name _ => ∀ g, m.graphs.get? tag = some g → g.atom.packages.get? (g.canonicalName name) = none
  | importChanged _ | clean | loadIndexes _ _ => False

end Operation

theorem syncTo_outcome (m : Manager) (d : Disk) (c : Checkout) (rev : String) :
    (∃ f, (m.syncTo c rev d).1 = .error f) ↔ ∃ f d', (c.moveTo rev).run d = (.error f, d') := by
  rcases outcome : (c.moveTo rev).run d with ⟨f | changed, d'⟩
  · simp [syncTo, outcome]
  · simp [syncTo, outcome]

theorem reload_error_iff (ix : Index) (net : Http.Transport) (d : Disk) (tag : String) :
    (∃ f, (ix.reload net d tag).1 = .error f) ↔
      ∃ repo url f, (ix.urls.getD tag {}).get? repo = some url ∧ Index.fetch net d url = .error f := by
  have all := Index.gather_isOk_iff net d (ix.urls.getD tag {}).values {}
  rcases ix.reload_cases net d tag with ⟨shelf, done, reloaded⟩ | ⟨f, stopped, reloaded⟩
  · rw [reloaded]
    refine ⟨by simp, ?_⟩
    rintro ⟨repo, url, f, listed, unread⟩
    obtain ⟨entries, fetched⟩ := all.mp ⟨shelf, done⟩ url ((Dict.mem_values_iff ..).mpr ⟨repo, listed⟩)
    cases unread.symm.trans fetched
  · rw [reloaded]
    refine ⟨fun _ => ?_, fun _ => ⟨f, rfl⟩⟩
    by_contra readable
    push Not at readable
    obtain ⟨shelf, done⟩ := all.mpr fun url member => by
      obtain ⟨repo, listed⟩ := (Dict.mem_values_iff ..).mp member
      cases fetched : Index.fetch net d url with
      | ok entries => exact ⟨entries, rfl⟩
      | error f => exact absurd fetched (readable repo url f listed)
    cases stopped.symm.trans done

theorem cleanPlatform_eq_ok_iff : m.cleanPlatform net d tag = .ok m' ↔
    (m.graphs.get? tag).isSome ∧ ∃ index, m.index.reload net d tag = (.ok (), index) ∧
      m' = { m with index }.cleanTag tag := by
  cases found : m.graphs.get? tag with
  | none => simp [cleanPlatform, graph_of_absent found, bind, Except.bind]
  | some g =>
    rcases outcome : m.index.reload net d tag with ⟨f | u, index⟩
    · simp [cleanPlatform, graph_of_get? found, outcome, bind, Except.bind, throw, throwThe,
        MonadExceptOf.throw]
    · simp [cleanPlatform, graph_of_get? found, outcome, bind, Except.bind, pure, Except.pure, eq_comm]

theorem setFailed_isOk_iff (m : Manager) (tag name : String) (failed : Bool) :
    (∃ m', m.setFailed tag name failed = .ok m') ↔
      ∃ g p, m.graphs.get? tag = some g ∧ g.atom.packages.get? (g.canonicalName name) = some p := by
  cases found : m.graphs.get? tag with
  | none => simp [setFailed, graph_of_absent found, bind, Except.bind]
  | some g =>
    cases held : g.atom.packages.get? (g.canonicalName name) with
    | none => simp [setFailed, graph_of_get? found, Graph.setFailed, held, bind, Except.bind]
    | some p => simp [setFailed, graph_of_get? found, Graph.setFailed, held, bind, Except.bind, pure, Except.pure]

theorem addBottle_isOk_iff (m : Manager) (tag : String) (e : Index.Entry) :
    (∃ m', m.addBottle tag e = .ok m') ↔ (m.graphs.get? tag).isSome := by
  cases found : m.graphs.get? tag with
  | none => simp [addBottle, graph_of_absent found, bind, Except.bind]
  | some g => simp [addBottle, graph_of_get? found, bind, Except.bind, pure, Except.pure]

theorem error_iff_not_ok {α : Type} (x : Except Fault α) :
    (∃ f, x.map (fun _ => ()) = .error f) ↔ ¬ ∃ v, x = .ok v := by
  cases x with
  | error f => simp [Except.map]
  | ok v => simp [Except.map]

namespace Operation

theorem outcome_error_iff (m : Manager) (d : Disk) (o : Operation) :
    (∃ f, o.outcome m d = .error f) ↔ o.Refused m d := by
  cases o with
  | syncTo c rev => exact syncTo_outcome m d c rev
  | importChanged paths => simp [outcome, Refused]
  | clean => simp [outcome, Refused]
  | loadIndexes net urls => simp [outcome, Refused]
  | cleanPlatform net tag =>
    rw [outcome, Refused, error_iff_not_ok, ← reload_error_iff]
    simp only [cleanPlatform_eq_ok_iff]
    cases m.graphs.get? tag with
    | none => simp
    | some g =>
      rcases m.index.reload net d tag with ⟨f | u, index⟩
      · simp
      · simp
  | addBottle tag e =>
    rw [outcome, Refused, error_iff_not_ok, addBottle_isOk_iff, Option.not_isSome_iff_eq_none]
  | setFailed tag name failed =>
    rw [outcome, Refused, error_iff_not_ok, setFailed_isOk_iff]
    constructor
    · intro unknown g found
      exact Option.eq_none_iff_forall_ne_some.mpr fun p held => unknown ⟨g, p, found, held⟩
    · rintro unknown ⟨g, p, found, held⟩
      cases (unknown g found).symm.trans held

theorem after_of_refused {o : Operation} (refused : o.Refused m d) : o.after m d = m := by
  obtain ⟨f, failed⟩ := (outcome_error_iff m d o).mpr refused
  have stays : ∀ x : Except Fault Manager, x.map (fun _ => ()) = .error f → x.toOption.getD m = m := by
    intro x error
    cases x with
    | error f => rfl
    | ok m' => cases error
  cases o with
  | syncTo c rev =>
    obtain ⟨f, d', unmoved⟩ := refused
    simp only [after, Manager.syncTo, unmoved]
  | importChanged paths => cases failed
  | clean => cases failed
  | loadIndexes net urls => cases failed
  | cleanPlatform net tag => exact stays _ failed
  | addBottle tag e => exact stays _ failed
  | setFailed tag name mark => exact stays _ failed

end Operation

/-! ### Requests -/

theorem markAnswer_cases (m : Manager) (d : Disk) (tag name : String) (failed : Bool) :
    (Operation.setFailed tag name failed).Refused m d ∧ (markAnswer tag name failed m d).1.status = 404 ∧
        (markAnswer tag name failed m d).2 = (m, d) ∨
      ¬ (Operation.setFailed tag name failed).Refused m d ∧ (markAnswer tag name failed m d).1.status = 204 := by
  rw [← Operation.outcome_error_iff, Operation.outcome, error_iff_not_ok, markAnswer, Dict.contains]
  cases outcome : m.setFailed tag name failed with
  | error f => exact Or.inl ⟨by simp, by split <;> rfl, by split <;> rfl⟩
  | ok m' =>
    obtain ⟨g, p, found, -⟩ := (setFailed_isOk_iff ..).mp ⟨m', outcome⟩
    exact Or.inr ⟨by simp, by rw [found]; rfl⟩

theorem refusal_of_answered (x : Except Fault Manager) (status : Nat)
    (refusal : 400 ≤ (match x with
      | .ok m' => ((.empty 204, m', d) : Answer)
      | .error f => (.fault status f, m, d)).1.status) :
    (match x with
      | .ok m' => ((.empty 204, m', d) : Answer)
      | .error f => (.fault status f, m, d)).2.1 = m := by
  cases x with
  | ok m' =>
    have quiet : ¬ 400 ≤ 204 := by decide
    exact absurd refusal quiet
  | error f => rfl

theorem markAnswer_refusal (refusal : 400 ≤ (markAnswer tag name failed m d).1.status) :
    (markAnswer tag name failed m d).2.1 = m := by
  unfold markAnswer at refusal ⊢
  split
  · rename_i known
    rw [if_pos known] at refusal
    exact refusal_of_answered _ 404 refusal
  · rfl

theorem cleanAnswer_refusal (refusal : 400 ≤ (cleanAnswer net tag m d).1.status) :
    (cleanAnswer net tag m d).2.1 = m := by
  unfold cleanAnswer at refusal ⊢
  split
  · rename_i known
    rw [if_pos known] at refusal
    exact refusal_of_answered _ 500 refusal
  · rfl

theorem syncAnswer_refusal {c : Checkout} {rev : String} (refusal : 400 ≤ (syncAnswer c rev m d).1.status) :
    (syncAnswer c rev m d).2.1 = m := by
  rw [syncAnswer] at refusal ⊢
  rcases fetched : c.fetch.run d with ⟨f | u, d'⟩
  · rfl
  · rw [fetched] at refusal
    dsimp only at refusal ⊢
    rcases moved : (c.moveTo rev).run d' with ⟨f | changed, d''⟩
    · simp [syncTo, moved]
    · simp [syncTo, moved, Http.Response.empty] at refusal

theorem answer_refusal (c : Checkout) (net : Http.Transport) (call : Http.Call)
    (refusal : 400 ≤ (answer c net call m d).1.status) : (answer c net call m d).2.1 = m := by
  rw [answer] at refusal ⊢
  split
  · rename_i h chosen
    rw [chosen] at refusal
    obtain ⟨r, member, parts, rfl⟩ := handler_of_choose chosen
    simp only [routes, List.mem_cons, List.not_mem_nil, or_false] at member
    rcases member with rfl | rfl | rfl | rfl | rfl | rfl | rfl | rfl | rfl | rfl | rfl | rfl
    · rfl
    iterate 6 exact withGraph_manager ..
    · rfl
    · exact markAnswer_refusal refusal
    · exact markAnswer_refusal refusal
    · exact cleanAnswer_refusal refusal
    · exact syncAnswer_refusal refusal
  · rfl
  · rfl

/-! ### A platform that is read again -/

/-- Graphs that differ in nothing but in which packages need building. -/
structure SameButDirty (g g' : Graph) : Prop where
  tap : g'.tap = g.tap
  outside : { g'.atom with packages := {} } = { g.atom with packages := {} }
  packages : ∀ n, (g'.atom.packages.get? n).map ({ · with dirty := false }) =
    (g.atom.packages.get? n).map ({ · with dirty := false })

theorem SameButDirty.refl (g : Graph) : SameButDirty g g := ⟨rfl, rfl, fun _ => rfl⟩

theorem sameButDirty_clean (g : Graph) (ix : Index) : SameButDirty g (g.clean ix) where
  tap := rfl
  outside := rfl
  packages n := by
    rw [Graph.get?_clean, Option.map_map]
    rfl

/-- What reading a platform again does: its shelf is that of its repositories, its graph is compared
with it, and all else stays as it was. -/
structure Cleaned (net : Http.Transport) (d : Disk) (tag : String) (m m' : Manager) : Prop where
  rev : m'.rev = m.rev
  platforms : m'.platforms = m.platforms
  urls : m'.index.urls = m.index.urls
  shelf : Index.Reflects net d (m.index.urls.getD tag {}).values (m'.index.shelf tag)
  shelves : ∀ other, other ≠ tag → m'.index.shelf other = m.index.shelf other
  known : ∀ other, (m'.graphs.get? other).isSome = (m.graphs.get? other).isSome
  graphs : ∀ other g, m.graphs.get? other = some g →
    ∃ g', m'.graphs.get? other = some g' ∧ SameButDirty g g' ∧ (other ≠ tag → g' = g)
  compared : ∀ g', m'.graphs.get? tag = some g' → ∀ n p, g'.atom.packages.get? n = some p →
    p.dirty = !Graph.isCovered m'.index g'.atom.platform.tag n p

theorem Cleaned.of_cleanPlatform (done : m.cleanPlatform net d tag = .ok m') : Cleaned net d tag m m' := by
  obtain ⟨-, index, reloaded, rfl⟩ := cleanPlatform_eq_ok_iff.mp done
  rcases m.index.reload_cases net d tag with ⟨shelf, gathered, replaced⟩ | ⟨f, -, stays⟩
  · cases reloaded.symm.trans replaced
    have graphs : ∀ other, (({ m with index := m.index.replace tag shelf } : Manager).cleanTag tag).graphs.get? other =
        (m.graphs.get? other).map fun g => if other = tag then g.clean (m.index.replace tag shelf) else g := by
      intro other
      rw [cleanTag_eq]
      exact Dict.get?_map ..
    have own : (m.index.replace tag shelf).shelf tag = shelf := Dict.getD_insert_self ..
    refine ⟨rfl, rfl, rfl, ?_, fun other ne => Dict.getD_insert_of_ne _ ne .., ?_, ?_, ?_⟩
    · change Index.Reflects net d _ ((m.index.replace tag shelf).shelf tag)
      rw [own]
      exact .of_gather gathered
    · intro other
      rw [graphs, Option.isSome_map]
    · intro other g found
      refine ⟨_, (graphs other).trans (by rw [found, Option.map_some]), ?_, fun ne => if_neg ne⟩
      split
      · exact sameButDirty_clean ..
      · exact .refl g
    · intro g' found n p held
      rw [graphs, Option.map_eq_some_iff] at found
      obtain ⟨g, -, rfl⟩ := found
      rw [if_pos rfl, Graph.get?_clean, Option.map_eq_some_iff] at held
      obtain ⟨before, -, rfl⟩ := held
      rw [if_pos rfl]
      rfl
  · cases reloaded.symm.trans stays

/-- What is refused changes nothing, and it is told beforehand what will be refused. A platform is read
again as a whole, in whatever order its repositories are read, or it stays as it was. -/
theorem refusal_changes_nothing (m : Manager) (d : Disk) :
    (∀ o : Operation, ((∃ f, o.outcome m d = .error f) ↔ o.Refused m d) ∧
      (o.Refused m d → o.after m d = m)) ∧
    (∀ tag name failed, ((Operation.setFailed tag name failed).Refused m d ↔
        (markAnswer tag name failed m d).1.status = 404) ∧
      ((Operation.setFailed tag name failed).Refused m d → (markAnswer tag name failed m d).2 = (m, d))) ∧
    (∀ c net call, 400 ≤ (answer c net call m d).1.status → (answer c net call m d).2.1 = m) ∧
    (∀ net tag f index, m.index.reload net d tag = (.error f, index) → index = m.index) ∧
    ∀ net tag m', m.cleanPlatform net d tag = .ok m' → Cleaned net d tag m m' ∧
      ∀ order, order.Perm (m.index.urls.getD tag {}).values →
        ∃ shelf, Index.gather net d order {} = .ok shelf ∧
          Index.Reflects net d (m.index.urls.getD tag {}).values shelf := by
  refine ⟨fun o => ⟨Operation.outcome_error_iff m d o, Operation.after_of_refused⟩, ?_,
    fun c net call => answer_refusal c net call, ?_, ?_⟩
  · intro tag name failed
    rcases markAnswer_cases m d tag name failed with ⟨refused, status, same⟩ | ⟨allowed, status⟩
    · simp [refused, status, same]
    · simp [allowed, status]
  · intro net tag f index failed
    rcases m.index.reload_cases net d tag with ⟨shelf, -, replaced⟩ | ⟨f', -, stays⟩
    · cases failed.symm.trans replaced
    · cases failed.symm.trans stays
      rfl
  · intro net tag m' done
    refine ⟨.of_cleanPlatform done, fun order same => ?_⟩
    obtain ⟨-, index, reloaded, -⟩ := cleanPlatform_eq_ok_iff.mp done
    rcases m.index.reload_cases net d tag with ⟨shelf, gathered, -⟩ | ⟨f, -, stays⟩
    · have all := (Index.gather_isOk_iff ..).mp ⟨shelf, gathered⟩
      obtain ⟨shelf', gathered'⟩ := (Index.gather_isOk_iff net d order {}).mpr fun url member =>
        all url (same.subset member)
      exact ⟨shelf', gathered', (Index.Reflects.of_gather gathered').of_perm same⟩
    · cases reloaded.symm.trans stays

/-! ### Two repositories -/

def depot (repositories : Dict String String) : Manager where
  platforms := [⟨"x86_64", "linux"⟩]
  graphs := .ofList [("x86_64_linux", ⟨⟨"/tap"⟩, {
    platform := ⟨"x86_64", "linux"⟩
    packages := .ofList [("app", { name := "app", version := "1.1", dirty := true })] }⟩)]
  index := {
    urls := .ofList [("x86_64_linux", repositories)]
    shelves := .ofList [("x86_64_linux", .ofList [("gone", { name := "gone", version := "1.0" })])] }

def mixed : Dict String String := .ofList [("extra", "ftp://e.org/extra"), ("main", "http://e.org/main")]

def single : Dict String String := .ofList [("main", "http://e.org/main")]

def wares : Index.Shelf := .ofList [("app", { name := "app", version := "1.1" })]

def waresNet : Http.Transport := fun _ => .ok { status := 200, body := ⟨(Index.encode wares).toArray⟩ }

theorem fetch_of_body {net : Http.Transport} {bytes : List UInt8} {shelf : Index.Shelf}
    (answers : ∀ r, net r = .ok { status := 200, body := ⟨bytes.toArray⟩ })
    (decoded : Index.decode bytes = .ok shelf) (d : Disk) :
    Index.fetch net d "http://e.org/main" = .ok shelf := by
  have url : ((Url.parse "http://e.org/main").toOption.any fun u =>
      u.withoutEmptyPort.scheme = "http" ∧ u.withoutEmptyPort.host ≠ "") = true := by decide
  obtain ⟨u, told, plain⟩ := (Option.any_eq_true ..).mp url
  obtain ⟨scheme, host⟩ := of_decide_eq_true plain
  have answered : Http.get net "http://e.org/main" =
      .ok { status := 200, body := ⟨bytes.toArray⟩ } := by
    rw [Http.get, Http.send, eq_ok_of_toOption told]
    simp only [bind, Except.bind, Except.mapError, scheme, host, ne_eq, not_true_eq_false, false_and,
      if_false, answers, during]
  rw [Index.fetch, if_pos (by decide), answered]
  exact decoded

theorem fetch_wares (d : Disk) : Index.fetch waresNet d "http://e.org/main" = .ok wares := by
  have decoded : Index.decode (Index.encode wares) = .ok wares :=
    Index.eq_ok_of_entries (by decide +kernel)
  exact fetch_of_body (fun _ => rfl) decoded d

theorem fetch_unknown (net : Http.Transport) (d : Disk) :
    Index.fetch net d "ftp://e.org/extra" = .error (.told "unknown index scheme") := by
  rw [Index.fetch, if_neg (by decide), if_neg (by decide)]
  rfl

/-- One of two repositories cannot be read, so that neither counts; alone, the other does. -/
theorem depot_refusal_changes_nothing :
    ((Operation.cleanPlatform waresNet "x86_64_linux").Refused (depot mixed) {} ∧
      (Operation.cleanPlatform waresNet "x86_64_linux").after (depot mixed) {} = depot mixed) ∧
    ∃ m', (depot single).cleanPlatform waresNet {} "x86_64_linux" = .ok m' ∧
      m'.index.get? "x86_64_linux" "gone" = none ∧ (m'.index.get? "x86_64_linux" "app").isSome := by
  constructor
  · have refused : (Operation.cleanPlatform waresNet "x86_64_linux").Refused (depot mixed) {} :=
      Or.inr ⟨"extra", _, _, by decide, fetch_unknown ..⟩
    exact ⟨refused, ((refusal_changes_nothing _ {}).1 _).2 refused⟩
  · have addresses : ((depot single).index.urls.getD "x86_64_linux" {}).values = ["http://e.org/main"] := by
      decide
    obtain ⟨answers, -, -, -, cleaned⟩ := refusal_changes_nothing (depot single) {}
    have allowed : ¬ (Operation.cleanPlatform waresNet "x86_64_linux").Refused (depot single) {} := by
      rintro (unknown | ⟨repo, url, f, listed, unread⟩)
      · exact absurd unknown (by decide)
      · have member := (Dict.mem_values_iff ..).mpr ⟨repo, listed⟩
        rw [addresses, List.mem_singleton] at member
        rw [member, fetch_wares] at unread
        cases unread
    cases outcome : (depot single).cleanPlatform waresNet {} "x86_64_linux" with
    | error f =>
      refine absurd ((answers _).1.mp ⟨f, ?_⟩) allowed
      rw [Operation.outcome, outcome]
      rfl
    | ok m' =>
      obtain ⟨done, -⟩ := cleaned waresNet "x86_64_linux" m' outcome
      refine ⟨m', rfl, ?_, ?_⟩
      · cases found : m'.index.get? "x86_64_linux" "gone" with
        | none => rfl
        | some e =>
          obtain ⟨url, member, entries, held, fetched, listed, -⟩ := done.shelf.sound "gone" e found
          rw [addresses, List.mem_singleton] at member
          rw [member, fetch_wares] at fetched
          cases fetched
          have none : wares.get? "gone" = none := by decide
          cases none.symm.trans listed
      · let e : Index.Entry := { name := "app", version := "1.1" }
        have listed : wares.get? "app" = some e := by decide
        exact done.shelf.complete "app" e
          ⟨_, by rw [addresses, List.mem_singleton], wares, e, fetch_wares _, listed, rfl⟩

end Manager

end Taproom
