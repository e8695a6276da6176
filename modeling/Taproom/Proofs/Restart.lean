import Taproom.Proofs.Operations

/-!
A manager that is started again. Whatever was asked of a manager, its store holds every graph as it
is, so that another manager with that store takes all of them from there and reads nothing of the
tap.
-/

namespace Taproom

namespace Manager

open Relation (ReflTransGen)

variable {m m' : Manager} {tags : List String} {s : Store}

/-- A store takes every text for some tags. -/
def Takes (s : Store) (tags : List String) : Prop :=
  ∀ tag ∈ tags, ∀ text, (s.put (storeKey tag) text).isOk = true

/-- No two tags have the same key. -/
def KeysDiffer (tags : List String) : Prop :=
  ∀ a ∈ tags, ∀ b ∈ tags, storeKey a = storeKey b → a = b

/-- The tag of a Linux or of a macOS release is one component of a path, and then its key is its
own. -/
theorem keysDiffer_of_components (components : ∀ tag ∈ tags, Path.IsComponent tag.toList) :
    KeysDiffer tags := by
  intro a first b second same
  have steps := congrArg Path.stepsOf same
  rw [storeKey, storeKey, (Path.stepsOf_join_component _ (components a first) []).2,
    (Path.stepsOf_join_component _ (components b second) []).2, List.reverse_inj] at steps
  exact String.toList_inj.mp (List.cons.inj steps).1

example : storeKey "x86_64_linux" ≠ storeKey "arm64_linux" := by decide +kernel

def textsOf (graphs : List (String × Graph)) : List (String × String) :=
  graphs.map fun e => (storeKey e.1, e.2.atom.encode)

/-! ### Keeping -/

theorem put_isOk_iff (s : Store) (key text : String) :
    (s.put key text).isOk = true ↔ s.putFault.or (s.keyFault? key) = none := by
  rw [Store.put]
  cases s.putFault.or (s.keyFault? key) <;> simp [Except.isOk, Except.toBool]

namespace Takes

theorem withEntries (takes : Takes s tags) (entries : Dict String String) :
    Takes { s with entries } tags := by
  intro tag member text
  have free := (put_isOk_iff ..).mp (takes tag member text)
  exact (put_isOk_iff ..).mpr free

theorem keep_eq (takes : Takes s tags) {tag : String} (member : tag ∈ tags) (g : Graph) :
    keep s tag g = { s with entries := s.entries.insert (storeKey tag) g.atom.encode } := by
  have free := (put_isOk_iff ..).mp (takes tag member g.atom.encode)
  rw [keep, Store.put, free]

theorem keepAll_eq (takes : Takes s tags) {l : List (String × Graph)}
    (members : ∀ e ∈ l, e.1 ∈ tags) :
    l.foldl (fun s (tag, g) => keep s tag g) s =
      { s with entries := (textsOf l).foldl (fun d e => d.insert e.1 e.2) s.entries } := by
  induction l generalizing s with
  | nil => rfl
  | cons e l ih =>
    rw [List.forall_mem_cons] at members
    obtain ⟨tag, g⟩ := e
    rw [List.foldl_cons]
    dsimp only
    rw [takes.keep_eq members.1, ih (takes.withEntries _) members.2]
    rfl

end Takes

/-- The graphs are those of some tags, at the revision of the manager, and the store has each of
them as it is. -/
structure Saved (tags : List String) (m : Manager) : Prop where
  known : ∀ tag, tag ∈ m.graphs.keys ↔ tag ∈ tags
  stamped : ∀ tag g, m.graphs.get? tag = some g → g.atom.rev = m.rev
  stored : ∃ s, m.store = some s ∧ Takes s tags ∧ ∀ tag g, m.graphs.get? tag = some g →
    s.entries.get? (storeKey tag) = some g.atom.encode

theorem saved_persist (differ : KeysDiffer tags) (store : m.store = some s)
    (takes : Takes s tags) (known : ∀ tag, tag ∈ m.graphs.keys ↔ tag ∈ tags)
    (stamped : ∀ tag g, m.graphs.get? tag = some g → g.atom.rev = m.rev) :
    Saved tags m.persist := by
  have members : ∀ e ∈ m.graphs.toList, e.1 ∈ tags := fun e member =>
    (known e.1).mp (List.mem_map_of_mem member)
  have distinct : (textsOf m.graphs.toList).Pairwise fun a b => a.1 ≠ b.1 := by
    rw [textsOf, List.pairwise_map]
    refine (Dict.toList_distinct m.graphs).imp_of_mem ?_
    intro a b first second different same
    exact different (differ _ (members a first) _ (members b second) same)
  have kept : m.persist.store = some { s with
      entries := (textsOf m.graphs.toList).foldl (fun d e => d.insert e.1 e.2) s.entries } := by
    rw [persist, store, Option.map_some, takes.keepAll_eq members]
  refine ⟨known, stamped, _, kept, takes.withEntries _, ?_⟩
  intro tag g found
  have listed := (Dict.get?_eq_some_iff m.graphs tag g).mp found
  exact Dict.get?_foldl_insert_of_mem distinct s.entries (List.mem_map.mpr ⟨_, listed, rfl⟩)

/-! ### Runs -/

theorem mem_keys_map (graphs : Dict String Graph) (change : String → Graph → Graph) (tag : String) :
    tag ∈ (graphs.map change).keys ↔ tag ∈ graphs.keys := by
  rw [← Dict.get?_isSome_iff, ← Dict.get?_isSome_iff, Dict.get?_map, Option.isSome_map]

theorem saved_after (differ : KeysDiffer tags) (saved : Saved tags m) (o : Operation) (d : Disk) :
    Saved tags (o.after m d) := by
  rcases after_cases m d o with ⟨-, same⟩ | ⟨rev, index, change, changes, result⟩
  · rw [same]
    exact saved
  · obtain ⟨s, store, takes, -⟩ := saved.stored
    rw [result]
    refine saved_persist differ (s := s) store takes ?_ ?_
    · exact fun tag => (mem_keys_map ..).trans (saved.known tag)
    · intro tag g found
      obtain ⟨g₀, before, rfl⟩ := (Dict.get?_map_eq_some_iff ..).mp found
      exact changes.stamp before (saved.stamped tag g₀ before)

/-- What can happen to a manager between two starts. -/
inductive Move : Manager → Manager → Prop where
  | operation (o : Operation) (m : Manager) (d : Disk) : Move m (o.after m d)
  | request (c : Checkout) (net : Http.Transport) (call : Http.Call) (m : Manager) (d : Disk) :
      Move m (answer c net call m d).2.1

theorem saved_move (differ : KeysDiffer tags) (saved : Saved tags m) (move : Move m m') :
    Saved tags m' := by
  cases move with
  | operation o m d => exact saved_after differ saved o d
  | request c net call m d =>
    have operated := operated_answer c net call m d
    generalize (answer c net call m d).2.1 = m' at operated
    induction operated with
    | refl => exact saved
    | tail _ last ih =>
      obtain ⟨o, d, rfl⟩ := last
      exact saved_after differ ih o d

theorem saved_run (differ : KeysDiffer tags) (saved : Saved tags m) (run : ReflTransGen Move m m') :
    Saved tags m' := by
  induction run with
  | refl => exact saved
  | tail _ last ih => exact saved_move differ ih last

/-! ### Starting -/

theorem mem_keys_fresh (t : Tap) (platforms : List Platform) (store : Option Store) (tag : String) :
    tag ∈ (fresh t platforms store).graphs.keys ↔ tag ∈ platforms.map (·.tag) := by
  rw [fresh, Dict.mem_keys_ofList, List.map_map]
  rfl

theorem saved_bootstrap {t : Tap} {platforms : List Platform} {index : Index} {c : Checkout}
    {d d' : Disk} (differ : KeysDiffer (platforms.map (·.tag)))
    (takes : Takes s (platforms.map (·.tag)))
    (booted : bootstrap c { fresh t platforms (some s) with index } d = (.ok (), m, d')) :
    Saved (platforms.map (·.tag)) m := by
  obtain ⟨rev, rfl⟩ := bootstrap_eq_ok booted
  refine saved_persist differ (s := s) rfl takes ?_ ?_
  · intro tag
    rw [mem_keys_map]
    exact (mem_keys_map ..).trans (mem_keys_fresh t platforms (some s) tag)
  · intro tag g found
    dsimp only at found
    obtain ⟨g₀, -, rfl⟩ := (Dict.get?_map_eq_some_iff ..).mp found
    split
    · assumption
    · exact (importFresh_frame ..).2.2

theorem encode_ne_empty (a : Atom) : a.encode ≠ "" := by
  intro empty
  have decoded := Atom.decode?_encode .host a
  rw [empty] at decoded
  cases decoded

theorem get_of_entry (reads : s.getFault = none) {key : String} {a : Atom}
    (entry : s.entries.get? key = some a.encode) : s.get key = .ok (some a.encode) := by
  rw [Store.get, reads]
  dsimp only
  rw [entry]
  split
  · rename_i empty
    exact absurd (Option.some.inj empty) (encode_ne_empty a)
  · rfl

theorem restore_of_entry (reads : s.getFault = none) {tag : String} {a : Atom}
    (entry : s.entries.get? (storeKey tag) = some a.encode) (g : Graph) :
    restore s tag g = { g with atom := a } := by
  rw [restore, get_of_entry reads entry]
  dsimp only
  rw [Atom.decode?_encode]

theorem bootstrap_of_run {c : Checkout} {d₁ d₂ d₃ : Disk} {rev : String}
    (brought : c.bootstrap.run d₁ = (.ok (), d₂)) (current : c.current.run d₂ = (.ok rev, d₃))
    (m : Manager) :
    bootstrap c m d₁ = (.ok (), persist { m.restoreAll with
      rev, graphs := m.restoreAll.graphs.map fun _ g =>
        if g.atom.rev = rev then g else importFresh d₃ rev g }, d₃) := by
  rw [bootstrap, brought]
  dsimp only
  rw [current]
  dsimp only
  rw [restoreAll_setRev]

theorem graph_of_restart {t : Tap} {platforms : List Platform}
    (saved : Saved (platforms.map (·.tag)) m) (reads : s.getFault = none)
    (entries : ∀ tag g, m.graphs.get? tag = some g →
      s.entries.get? (storeKey tag) = some g.atom.encode) (d : Disk) (tag : String) :
    ((((fresh t platforms (some s)).graphs.map fun tag g => restore s tag g).map fun _ g =>
      if g.atom.rev = m.rev then g else importFresh d m.rev g).get? tag) =
      (m.graphs.get? tag).map fun g => ⟨t, g.atom⟩ := by
  rw [Dict.get?_map, Dict.get?_map]
  have known : ((fresh t platforms (some s)).graphs.get? tag).isSome ↔ (m.graphs.get? tag).isSome := by
    rw [Dict.get?_isSome_iff, Dict.get?_isSome_iff, mem_keys_fresh, saved.known]
  cases found : m.graphs.get? tag with
  | none =>
    rw [found] at known
    have absent : (fresh t platforms (some s)).graphs.get? tag = none :=
      Option.not_isSome_iff_eq_none.mp fun present => nomatch known.mp present
    rw [absent]
    rfl
  | some g =>
    rw [found] at known
    obtain ⟨g₀, before⟩ := Option.isSome_iff_exists.mp (known.mpr rfl)
    obtain ⟨p, rfl⟩ := fresh_graph before
    rw [before, Option.map_some, restore_of_entry reads (entries tag g found), Option.map_some,
      if_pos (saved.stamped tag g found)]
    rfl

/-- Whatever was asked of a manager, each platform's text in the store is read back as its atom. A
manager that starts with the same texts has all atoms again if the tap is at the same revision; the
tap's place and the disks are arbitrary, so nothing depends on what is in the tap. -/
theorem restart_restores {t : Tap} {platforms : List Platform} {index : Index} {c : Checkout}
    {d d' : Disk} (differ : KeysDiffer (platforms.map (·.tag)))
    (takes : Takes s (platforms.map (·.tag)))
    (booted : bootstrap c { fresh t platforms (some s) with index } d = (.ok (), m, d'))
    (run : ReflTransGen Move m m') :
    ∃ s', m'.store = some s' ∧
      (∀ p ∈ platforms, ∃ g text, m'.graphs.get? p.tag = some g ∧
        s'.entries.get? (storeKey p.tag) = some text ∧
        Atom.decode? { platform := p } text = some g.atom) ∧
      ∀ (s₂ : Store) (t₂ : Tap) (index₂ : Index) (c₂ : Checkout) (d₁ d₂ d₃ : Disk),
        s₂.entries = s'.entries → s₂.getFault = none →
        c₂.bootstrap.run d₁ = (.ok (), d₂) → c₂.current.run d₂ = (.ok m'.rev, d₃) →
        ∃ m₂, bootstrap c₂ { fresh t₂ platforms (some s₂) with index := index₂ } d₁ =
            (.ok (), m₂, d₃) ∧ m₂.rev = m'.rev ∧
          ∀ tag, m₂.graphs.get? tag = (m'.graphs.get? tag).map fun g => ⟨t₂, g.atom⟩ := by
  have saved := saved_run differ (saved_bootstrap differ takes booted) run
  obtain ⟨s', store, -, entries⟩ := saved.stored
  refine ⟨s', store, ?_, ?_⟩
  · intro p member
    have present : (m'.graphs.get? p.tag).isSome := by
      rw [Dict.get?_isSome_iff, saved.known]
      exact List.mem_map_of_mem member
    obtain ⟨g, found⟩ := Option.isSome_iff_exists.mp present
    exact ⟨g, g.atom.encode, found, entries _ g found, Atom.decode?_encode p g.atom⟩
  · intro s₂ t₂ index₂ c₂ d₁ d₂ d₃ same reads brought current
    rw [← same] at entries
    refine ⟨_, bootstrap_of_run brought current _, rfl, fun tag => ?_⟩
    exact graph_of_restart saved reads entries d₃ tag

def standing (rev : String) : Checkout where
  bootstrap := pure ()
  fetch := pure ()
  moveTo _ := pure []
  current := pure rev

def pair : List Platform := [.host, ⟨"arm64", "sonoma"⟩]

theorem takes_pair : Takes (Store.fresh "bitcask") (pair.map (·.tag)) := by
  intro tag member text
  have free : ∀ tag ∈ pair.map (·.tag), ((Store.fresh "bitcask").putFault.or
      ((Store.fresh "bitcask").keyFault? (storeKey tag))).isNone := by decide
  exact (put_isOk_iff ..).mpr (Option.isNone_iff_eq_none.mp (free tag member))

/-- Two graphs that were compared come back where there is no tap at all. -/
theorem pair_restart_restores : ∃ m m' s' m₂,
    bootstrap editionsCheckout (fresh ⟨"/tap"⟩ pair (some (Store.fresh "bitcask"))) {} =
        (.ok (), m, edition "r1") ∧
      ReflTransGen Move m m' ∧ m'.store = some s' ∧
      bootstrap (standing "r1") (fresh ⟨"/nowhere"⟩ pair
        (some { Store.fresh "bitcask" with entries := s'.entries })) {} = (.ok (), m₂, {}) ∧
      (∃ g, m₂.graphs.get? "arm64_sonoma" = some g ∧ (g.recipeAt? "lib").isSome) ∧
      ∀ tag, m₂.graphs.get? tag = (m'.graphs.get? tag).map fun g => ⟨⟨"/nowhere"⟩, g.atom⟩ := by
  have brought : editionsCheckout.bootstrap.run {} = (.ok (), edition "r1") := rfl
  have current : editionsCheckout.current.run (edition "r1") = (.ok "r1", edition "r1") := rfl
  obtain ⟨m, rev, booted⟩ : ∃ m, m.rev = "r1" ∧ bootstrap editionsCheckout
      (fresh ⟨"/tap"⟩ pair (some (Store.fresh "bitcask"))) {} = (.ok (), m, edition "r1") :=
    ⟨_, rfl, bootstrap_of_run brought current _⟩
  have run := ReflTransGen.single (Move.operation .clean m {})
  have differ : KeysDiffer (pair.map (·.tag)) := keysDiffer_of_components (by decide)
  obtain ⟨s', store, -, restarts⟩ := restart_restores differ takes_pair booted run
  have again : (standing "r1").current.run {} = (.ok m.rev, {}) := by rw [rev]; rfl
  obtain ⟨m₂, restarted, -, graphs⟩ := restarts { Store.fresh "bitcask" with entries := s'.entries }
    ⟨"/nowhere"⟩ {} (standing "r1") {} {} {} rfl rfl rfl again
  have held : (((Operation.clean.after (bootstrap editionsCheckout
      (fresh ⟨"/tap"⟩ pair (some (Store.fresh "bitcask"))) {}).2.1 {}).graphs.get? "arm64_sonoma").any
        fun g => (g.recipeAt? "lib").isSome) = true := by decide +kernel
  rw [booted] at held
  obtain ⟨g, found, lib⟩ := (Option.any_eq_true ..).mp held
  have restored := graphs "arm64_sonoma"
  rw [found] at restored
  exact ⟨_, _, s', m₂, booted, run, store, restarted, ⟨_, restored, lib⟩, graphs⟩

end Manager

end Taproom
