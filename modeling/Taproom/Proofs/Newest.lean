import Taproom.Proofs.Refusals

/-!
The newest bottle of each package. Whatever was loaded and added for a platform, in whatever order, the
index holds for each name one of the entries that were offered, and none that was offered is newer, if
all of their versions can be read. The same holds of the repositories of a platform that is read again.
-/

namespace Taproom.Index

/-! ### What is offered -/

/-- What a repository offers; one that cannot be read offers nothing. -/
def fetched (net : Http.Transport) (d : Disk) (url : String) : Shelf := (fetch net d url).toOption.getD {}

/-- A call that may change what is held for a platform. A repository is read as the world is then. -/
inductive Call where
  | load (net : Http.Transport) (d : Disk) (tag repo url : String)
  | add (tag : String) (e : Entry)

namespace Call

def tag : Call → String
  | load _ _ tag _ _ => tag
  | add tag _ => tag

def offers : Call → Shelf
  | load net d _ _ url => fetched net d url
  | add _ e => Dict.empty.insert e.name e

def run (ix : Index) : Call → Index
  | load net d tag repo url => (ix.load net d tag repo url).2
  | add tag e => ix.add tag e

end Call

def afterCalls (ix : Index) (calls : List Call) : Index := calls.foldl Call.run ix

def offersFor (tag : String) (calls : List Call) : List Shelf :=
  (calls.filter (·.tag = tag)).map Call.offers

def reloadIn (ix : Index) (net : Http.Transport) (d : Disk) (tag : String) (order : List String) :
    Except Fault Unit × Index :=
  match gather net d order {} with
  | .ok shelf => (.ok (), ix.replace tag shelf)
  | .error f => (.error f, ix)

/-- An entry is offered under a name, which it takes if it names no package itself. -/
def Offered (offers : List Shelf) (name : String) (e : Entry) : Prop :=
  ∃ entries ∈ offers, ∃ given, entries.get? name = some given ∧ given.named name = e

/-- One of the entries that were offered is held, if there are any. If their versions can all be read,
none of them is newer. -/
structure IsNewest (offered : Entry → Prop) (held : Option Entry) : Prop where
  isSome : ∀ e, offered e → held.isSome
  among : ∀ h, held = some h → offered h
  newest : (∀ e, offered e → Version.Reads e.version) →
    ∀ h e, held = some h → offered e → Version.compare h.version e.version ≠ .lt

/-- A shelf holds the newest of each name. -/
def Stocks (offers : List Shelf) (shelf : Shelf) : Prop :=
  ∀ name, IsNewest (Offered offers name) (shelf.get? name)

/-- Two shelves hold equal versions, as far as what was offered can be read. -/
def Agree (offers : List Shelf) (shelf shelf' : Shelf) : Prop :=
  ∀ name, (∀ e, Offered offers name e → Version.Reads e.version) → ∀ h h', shelf.get? name = some h →
    shelf'.get? name = some h' → Version.compare h.version h'.version = .eq

variable {net : Http.Transport} {d : Disk} {ix : Index} {tag other name : String} {e : Entry}
  {shelf shelf' start entries : Shelf} {offers offers' : List Shelf}

theorem Offered.mono (offered : Offered offers name e) (subset : offers ⊆ offers') : Offered offers' name e := by
  obtain ⟨entries, member, rest⟩ := offered
  exact ⟨entries, subset member, rest⟩

theorem offered_append_singleton :
    Offered (offers ++ [entries]) name e ↔
      Offered offers name e ∨ ∃ given, entries.get? name = some given ∧ given.named name = e := by
  constructor
  · rintro ⟨held, member, rest⟩
    rcases List.mem_append.mp member with before | last
    · exact Or.inl ⟨held, before, rest⟩
    · rw [List.mem_singleton] at last
      exact Or.inr (last ▸ rest)
  · rintro (before | rest)
    · exact before.mono (List.subset_append_left ..)
    · exact ⟨entries, List.mem_append_right _ (List.mem_singleton_self _), rest⟩

/-! ### One entry -/

theorem version_named (e : Entry) (name : String) : (e.named name).version = e.version := by
  rw [Entry.named]
  split <;> rfl

theorem isLE_of_not_lt {v w : String} (low : Version.compare v w ≠ .lt) : (Version.compare w v).isLE := by
  have swapped : Version.compare v w = (Version.compare w v).swap := Std.OrientedCmp.eq_swap
  rw [swapped] at low
  cases order : Version.compare w v with
  | lt => rfl
  | eq => rfl
  | gt =>
    rw [order] at low
    exact absurd rfl low

/-- The step: an entry that is offered to a name takes the place of one that is not newer. -/
theorem IsNewest.offer {offered : Entry → Prop} (held : IsNewest offered (shelf.get? name)) (e : Entry) :
    IsNewest (fun x => offered x ∨ x = e.named name) ((offer shelf name e).get? name) where
  isSome _ _ := (isSome_get?_offer shelf e).mpr (Or.inl rfl)
  among h found := by
    rcases get?_offer_self shelf name e with taken | ⟨current, there, kept⟩
    · exact Or.inr (Option.some.inj (found.symm.trans taken))
    · exact Or.inl (held.among h (there.trans (kept.symm.trans found)))
  newest reads h x found among := by
    have named := version_named e name
    have readsNew := reads _ (Or.inr rfl)
    have readsOld : ∀ x, offered x → Version.Reads x.version := fun x given => reads x (Or.inl given)
    unfold Index.offer at found
    split at found
    · rename_i current there
      split at found
      · rename_i newer
        cases there.symm.trans found
        rcases among with before | rfl
        · exact held.newest readsOld _ x there before
        · rw [named, newer]
          decide
      · rename_i older
        rw [Dict.get?_insert_self] at found
        cases found
        rcases among with before | rfl
        · -- What was offered before is at most as new as what was held.
          have first := isLE_of_not_lt (held.newest readsOld _ x there before)
          have second : (Version.compare current.version (e.named name).version).isLE := by
            rw [named]
            cases order : Version.compare current.version e.version with
            | lt => rfl
            | eq => rfl
            | gt => exact absurd order older
          have both := Version.isLE_trans_of_reads (reads x (Or.inl before))
            (readsOld _ (held.among _ there)) readsNew first second
          intro lower
          rw [Std.OrientedCmp.gt_of_lt lower] at both
          exact absurd both Bool.false_ne_true
        · rw [Version.compare_self]
          decide
    · rename_i nothing
      rw [Dict.get?_insert_self] at found
      cases found
      rcases among with before | rfl
      · rw [nothing] at held
        exact absurd (held.isSome x before) Bool.false_ne_true
      · rw [Version.compare_self]
        decide

theorem get?_offer_congr (same : shelf.get? name = shelf'.get? name) (e : Entry) :
    (offer shelf name e).get? name = (offer shelf' name e).get? name := by
  unfold Index.offer
  rw [same]
  split
  · split
    · exact same
    · rw [Dict.get?_insert_self, Dict.get?_insert_self]
  · rw [Dict.get?_insert_self, Dict.get?_insert_self]

/-! ### One shelf after the other -/

theorem get?_foldl_offer_of_notMem {l : List (String × Entry)} (absent : name ∉ l.map (·.1)) :
    (l.foldl (fun shelf (name, e) => Index.offer shelf name e) shelf).get? name = shelf.get? name := by
  induction l generalizing shelf with
  | nil => rfl
  | cons p l ih =>
    rw [List.map_cons, List.mem_cons, not_or] at absent
    rw [List.foldl_cons, ih absent.2]
    exact get?_offer_of_ne absent.1 ..

theorem get?_foldl_offer_of_mem {l : List (String × Entry)} (distinct : l.Pairwise fun a b => a.1 ≠ b.1)
    (member : (name, e) ∈ l) :
    (l.foldl (fun shelf (name, e) => Index.offer shelf name e) shelf).get? name =
      (Index.offer shelf name e).get? name := by
  induction l generalizing shelf with
  | nil => cases member
  | cons p l ih =>
    obtain ⟨first, rest⟩ := List.pairwise_cons.mp distinct
    rw [List.foldl_cons]
    rcases List.mem_cons.mp member with rfl | later
    · refine get?_foldl_offer_of_notMem ?_
      rw [List.mem_map]
      rintro ⟨q, listed, same⟩
      exact first q listed same.symm
    · rw [ih rest later]
      exact get?_offer_congr (get?_offer_of_ne (first _ later).symm ..) e

theorem get?_offerAll_of_some (found : entries.get? name = some e) (shelf : Shelf) :
    (offerAll shelf entries).get? name = (Index.offer shelf name e).get? name :=
  get?_foldl_offer_of_mem entries.toList_distinct ((Dict.get?_eq_some_iff ..).mp found)

theorem get?_offerAll_of_none (absent : entries.get? name = none) (shelf : Shelf) :
    (offerAll shelf entries).get? name = shelf.get? name := by
  refine get?_foldl_offer_of_notMem fun member => ?_
  have known := (entries.get?_isSome_iff name).mpr member
  rw [absent] at known
  cases known

theorem Stocks.offerAll (stocks : Stocks offers shelf) (entries : Shelf) :
    Stocks (offers ++ [entries]) (offerAll shelf entries) := by
  intro name
  cases found : entries.get? name with
  | none =>
    have same : ∀ e, Offered (offers ++ [entries]) name e ↔ Offered offers name e := by
      intro e
      simp [offered_append_singleton, found]
    rw [get?_offerAll_of_none found, funext fun e => propext (same e)]
    exact stocks name
  | some given =>
    have same : ∀ e, Offered (offers ++ [entries]) name e ↔ Offered offers name e ∨ e = given.named name := by
      intro e
      simp [offered_append_singleton, found, eq_comm]
    rw [get?_offerAll_of_some found, funext fun e => propext (same e)]
    exact (stocks name).offer given

theorem stocks_nil : Stocks [] {} := by
  intro name
  constructor
  · rintro e ⟨entries, member, -⟩
    cases member
  · intro h found
    cases found
  · intro _ h _ found
    cases found

theorem Stocks.foldl (stocks : Stocks offers' shelf) (offers : List Shelf) :
    Stocks (offers' ++ offers) (offers.foldl Index.offerAll shelf) := by
  induction offers generalizing offers' shelf with
  | nil => rwa [List.append_nil]
  | cons entries offers ih =>
    rw [List.foldl_cons, List.append_cons]
    exact ih (stocks.offerAll entries)

theorem stocks_foldl (offers : List Shelf) : Stocks offers (offers.foldl Index.offerAll {}) :=
  stocks_nil.foldl offers

theorem Stocks.of_perm (stocks : Stocks offers shelf) (same : offers.Perm offers') : Stocks offers' shelf := by
  intro name
  have offered : Offered offers name = Offered offers' name := by
    funext e
    exact propext ⟨fun given => given.mono same.subset, fun given => given.mono same.symm.subset⟩
  rw [← offered]
  exact stocks name

/-- What two shelves hold of the same offers may differ, but not by more than in how it is written. -/
theorem Stocks.agree (stocks : Stocks offers shelf) (stocks' : Stocks offers shelf') :
    Agree offers shelf shelf' := by
  intro name reads h h' found found'
  have first := (stocks name).newest reads h h' found ((stocks' name).among h' found')
  have second := (stocks' name).newest reads h' h found' ((stocks name).among h found)
  cases order : Version.compare h.version h'.version with
  | lt => exact absurd order first
  | eq => rfl
  | gt => exact absurd (Std.OrientedCmp.lt_of_gt order) second

/-! ### Calls -/

theorem run_load (ix : Index) (net : Http.Transport) (d : Disk) (tag repo url : String) :
    ((ix.load net d tag repo url).2).shelf tag = offerAll (ix.shelf tag) (fetched net d url) := by
  rw [load, fetched]
  cases fetch net d url with
  | ok entries => exact Dict.getD_insert_self ..
  | error f => rfl

theorem shelf_run_self (ix : Index) (c : Call) : (c.run ix).shelf c.tag = offerAll (ix.shelf c.tag) c.offers := by
  cases c with
  | load net d tag repo url => exact run_load ..
  | add tag e => exact Dict.getD_insert_self ..

theorem shelf_run_of_ne (ix : Index) (c : Call) (ne : other ≠ c.tag) :
    (c.run ix).shelf other = ix.shelf other ∧ (c.run ix).urls.get? other = ix.urls.get? other := by
  cases c with
  | load net d tag repo url =>
    rw [Call.run, load]
    cases fetch net d url with
    | ok entries => exact ⟨Dict.getD_insert_of_ne _ ne .., Dict.get?_insert_of_ne _ ne ..⟩
    | error f => exact ⟨rfl, Dict.get?_insert_of_ne _ ne ..⟩
  | add tag e => exact ⟨Dict.getD_insert_of_ne _ ne .., rfl⟩

theorem shelf_afterCalls (ix : Index) (calls : List Call) (tag : String) :
    (ix.afterCalls calls).shelf tag = (offersFor tag calls).foldl offerAll (ix.shelf tag) := by
  induction calls generalizing ix with
  | nil => rfl
  | cons c calls ih =>
    rw [afterCalls, List.foldl_cons, ← afterCalls, ih]
    by_cases own : c.tag = tag
    · subst own
      rw [shelf_run_self, offersFor, offersFor, List.filter_cons_of_pos (by simp), List.map_cons, List.foldl_cons]
    · rw [(shelf_run_of_ne ix c (Ne.symm own)).1, offersFor, offersFor, List.filter_cons_of_neg (by simpa using own)]

theorem afterCalls_of_ne (ix : Index) {calls : List Call} (others : ∀ c ∈ calls, c.tag ≠ tag) :
    (ix.afterCalls calls).shelf tag = ix.shelf tag ∧ (ix.afterCalls calls).urls.get? tag = ix.urls.get? tag := by
  induction calls generalizing ix with
  | nil => exact ⟨rfl, rfl⟩
  | cons c calls ih =>
    obtain ⟨shelf, urls⟩ := shelf_run_of_ne ix c (others c List.mem_cons_self).symm
    obtain ⟨later, also⟩ := ih (c.run ix) fun c member => others c (List.mem_cons_of_mem _ member)
    exact ⟨later.trans shelf, also.trans urls⟩

/-! ### Reading a platform again -/

theorem gather_eq_foldl {urls : List String} (done : gather net d urls start = .ok shelf) :
    shelf = (urls.map (fetched net d)).foldl offerAll start := by
  induction urls generalizing start with
  | nil =>
    cases done
    rfl
  | cons url urls ih =>
    rw [gather_cons] at done
    cases read : fetch net d url with
    | error f =>
      rw [read] at done
      cases done
    | ok entries =>
      rw [read] at done
      have first : fetched net d url = entries := by rw [fetched, read]; rfl
      rw [List.map_cons, List.foldl_cons, first]
      exact ih done

/-- What reading a platform again leaves: the newest of what its repositories offer, and nothing else. -/
structure Restocked (net : Http.Transport) (d : Disk) (tag : String) (ix ix' : Index) : Prop where
  stocks : Stocks ((ix.urls.getD tag {}).values.map (fetched net d)) (ix'.shelf tag)
  urls : ix'.urls = ix.urls
  others : ∀ other, other ≠ tag → ix'.shelf other = ix.shelf other

theorem reload_eq_reloadIn (ix : Index) (net : Http.Transport) (d : Disk) (tag : String) :
    ix.reload net d tag = ix.reloadIn net d tag (ix.urls.getD tag {}).values := rfl

/-- The repositories of a platform are read again in whatever order, or one of them cannot be read. -/
theorem reloadIn_cases (ix : Index) (net : Http.Transport) (d : Disk) (tag : String) {order : List String}
    (same : order.Perm (ix.urls.getD tag {}).values) :
    ((∃ url ∈ order, ∃ f, fetch net d url = .error f) ∧ ∃ f, ix.reloadIn net d tag order = (.error f, ix)) ∨
      (∀ url ∈ order, ∃ entries, fetch net d url = .ok entries) ∧
        ∃ ix', ix.reloadIn net d tag order = (.ok (), ix') ∧ Restocked net d tag ix ix' := by
  cases outcome : gather net d order {} with
  | error f =>
    refine Or.inl ⟨?_, f, by rw [reloadIn, outcome]⟩
    by_contra readable
    push Not at readable
    obtain ⟨shelf, done⟩ := (gather_isOk_iff net d order {}).mpr fun url member => by
      cases read : fetch net d url with
      | ok entries => exact ⟨entries, rfl⟩
      | error f => exact absurd read (readable url member f)
    cases outcome.symm.trans done
  | ok shelf =>
    refine Or.inr ⟨(gather_isOk_iff net d order {}).mp ⟨shelf, outcome⟩, ix.replace tag shelf, ?_, ?_, rfl, ?_⟩
    · rw [reloadIn, outcome]
    · have own : (ix.replace tag shelf).shelf tag = shelf := Dict.getD_insert_self ..
      rw [own, gather_eq_foldl outcome]
      exact (stocks_foldl _).of_perm (same.map _)
    · exact fun other ne => Dict.getD_insert_of_ne _ ne ..

/-- The newest wins. What is held for a platform is the newest of what the calls for it offered, up to
how equal versions are written in whatever order they came, and calls for other platforms do not matter.
A platform that is read again is the newest of what its repositories offer, in whatever order they are
read, and nothing that was held before. -/
theorem holds_newest (calls : List Call) (tag : String) :
    (Stocks (offersFor tag calls) ((afterCalls {} calls).shelf tag) ∧
      ∀ order : List Call, order.Perm calls →
        Agree (offersFor tag calls) ((afterCalls {} calls).shelf tag) ((afterCalls {} order).shelf tag)) ∧
    (∀ ix : Index, (∀ c ∈ calls, c.tag ≠ tag) → (ix.afterCalls calls).shelf tag = ix.shelf tag ∧
      (ix.afterCalls calls).urls.get? tag = ix.urls.get? tag) ∧
    ∀ (ix : Index) net d, ix.reload net d tag = ix.reloadIn net d tag (ix.urls.getD tag {}).values ∧
      ∀ order, order.Perm (ix.urls.getD tag {}).values →
        ((∃ url ∈ order, ∃ f, fetch net d url = .error f) ∧ ∃ f, ix.reloadIn net d tag order = (.error f, ix)) ∨
        (∀ url ∈ order, ∃ entries, fetch net d url = .ok entries) ∧
          ∃ ix' again, ix.reloadIn net d tag order = (.ok (), ix') ∧ ix.reload net d tag = (.ok (), again) ∧
            Restocked net d tag ix ix' ∧ Restocked net d tag ix again ∧
            Agree ((ix.urls.getD tag {}).values.map (fetched net d)) (again.shelf tag) (ix'.shelf tag) := by
  have stocks : ∀ calls, Stocks (offersFor tag calls) ((afterCalls {} calls).shelf tag) := by
    intro calls
    rw [shelf_afterCalls]
    exact stocks_foldl _
  refine ⟨⟨stocks calls, fun order same => ?_⟩, fun ix others => afterCalls_of_ne ix others, ?_⟩
  · exact (stocks calls).agree ((stocks order).of_perm ((same.filter _).map _))
  · intro ix net d
    refine ⟨reload_eq_reloadIn .., fun order same => ?_⟩
    rcases reloadIn_cases ix net d tag same with unread | ⟨readable, ix', done, restocked⟩
    · exact Or.inl unread
    · refine Or.inr ⟨readable, ix', ?_⟩
      rcases reloadIn_cases ix net d tag (.refl _) with ⟨⟨url, listed, f, unread⟩, -⟩ | ⟨-, again, done', restocked'⟩
      · obtain ⟨entries, read⟩ := readable url (same.symm.subset listed)
        cases unread.symm.trans read
      · exact ⟨again, done, done', restocked, restocked', restocked'.stocks.agree restocked.stocks⟩

/-- A repository and two bottles, of which the newest is not the last; an address leads nowhere. -/
def deliveries : List Call :=
  [.add "x86_64_linux" { name := "app", version := "1.10" },
   .load Manager.waresNet {} "x86_64_linux" "main" "http://e.org/main",
   .load Manager.waresNet {} "x86_64_linux" "extra" "ftp://e.org/extra",
   .add "x86_64_linux" { name := "app", version := "1.9_1" }]

def delivered : List Shelf :=
  [.ofList [("app", { name := "app", version := "1.10" })], Manager.wares, {},
    .ofList [("app", { name := "app", version := "1.9_1" })]]

theorem offersFor_deliveries : offersFor "x86_64_linux" deliveries = delivered := by
  have main : fetched Manager.waresNet {} "http://e.org/main" = Manager.wares := by
    rw [fetched, Manager.fetch_wares]
    rfl
  have extra : fetched Manager.waresNet {} "ftp://e.org/extra" = {} := by
    rw [fetched, Manager.fetch_unknown]
    rfl
  simp only [offersFor, deliveries, Call.tag, decide_true, List.filter_cons_of_pos, List.filter_nil, List.map_cons,
    List.map_nil, Call.offers, main, extra]
  rfl

theorem reads_delivered (offered : Offered delivered "app" e) : Version.Reads e.version := by
  obtain ⟨entries, listed, given, found, rfl⟩ := offered
  have all : (delivered.all fun entries => (entries.get? "app").all fun e => Version.Reads e.version) = true := by
    decide
  have readable := List.all_eq_true.mp all entries listed
  rw [found, Option.all_some, decide_eq_true_eq] at readable
  rwa [version_named]

theorem deliveries_hold_newest : ∃ h, (afterCalls {} deliveries).get? "x86_64_linux" "app" = some h ∧
    Version.compare h.version "1.10" ≠ .lt ∧
    ∀ order : List Call, order.Perm deliveries → ∀ h', (afterCalls {} order).get? "x86_64_linux" "app" = some h' →
      Version.compare h.version h'.version = .eq := by
  obtain ⟨⟨stocks, agree⟩, -⟩ := holds_newest deliveries "x86_64_linux"
  rw [offersFor_deliveries] at stocks agree
  let app : Entry := { name := "app", version := "1.10" }
  have given : Offered delivered "app" app := ⟨_, List.mem_cons_self, app, by decide, by decide⟩
  obtain ⟨h, found⟩ := Option.isSome_iff_exists.mp ((stocks "app").isSome app given)
  refine ⟨h, found, (stocks "app").newest (fun _ => reads_delivered) h app found given, ?_⟩
  intro order same h' found'
  exact agree order same "app" (fun _ => reads_delivered) h h' found found'

end Taproom.Index
