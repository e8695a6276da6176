import Mathlib
import Taproom.Proofs.Disk

/-!
What actions do to a disk, and what they leave alone. An action is confined to some places if
everything else stays as it was, files that have no name among these places included.
-/

namespace Taproom

theorem eq_ok_of_toOption {ε α : Type} {x : Except ε α} {v : α} (told : x.toOption = some v) :
    x = .ok v := by
  cases x with
  | error e => cases told
  | ok w => exact congrArg _ (Option.some.inj told)

/-! ### Runs of actions -/

deriving instance DecidableEq for Disk.Body, Disk

namespace Act

variable {α β : Type} {a : Act α} {f : α → Act β} {d d' : Disk} {R : Disk → Disk → Prop}

theorem run_bind (a : Act α) (f : α → Act β) (d : Disk) :
    run (a >>= f) d =
      match run a d with
      | (.ok v, d') => run (f v) d'
      | (.error e, d') => (.error e, d') := by
  unfold run
  rw [ExceptT.run_bind]
  simp only [StateT.run_bind]
  cases (ExceptT.run a).run d with
  | mk result d' => cases result <;> rfl

theorem run_bind_eq_ok {v : β} (ran : run (a >>= f) d = (.ok v, d')) :
    ∃ w d₁, run a d = (.ok w, d₁) ∧ run (f w) d₁ = (.ok v, d') := by
  rw [run_bind] at ran
  rcases first : run a d with ⟨result, d₁⟩
  rw [first] at ran
  cases result with
  | error e => cases ran
  | ok w => exact ⟨w, d₁, rfl, ran⟩

theorem run_bind_of_ok {v : α} (ran : run a d = (.ok v, d')) : run (a >>= f) d = run (f v) d' := by
  rw [run_bind, ran]

theorem run_attempt (a : Act α) (d : Disk) :
    run (attempt a) d = (.ok (run a d).1, (run a d).2) := rfl

theorem run_get (d : Disk) : run (get : Act Disk) d = (.ok d, d) := rfl

theorem run_change (action subject : String) (f : Disk → Except Disk.Reason Disk) (d : Disk) :
    run (change action subject f) d =
      match f d with
      | .ok d' => (.ok (), d')
      | .error reason => (.error (.disk ⟨action, subject, reason⟩), d) := by
  rw [change, run_bind, run_get]
  dsimp only
  cases f d <;> rfl

theorem eq_ok_of_run_change {action subject : String} {f : Disk → Except Disk.Reason Disk}
    (ran : run (change action subject f) d = (.ok (), d')) : f d = .ok d' := by
  rw [run_change] at ran
  split at ran
  · rename_i changed
    rw [changed, (Prod.mk.inj ran).2]
  · cases (Prod.mk.inj ran).1

theorem run_bind_rel (trans : ∀ {d d' d''}, R d d' → R d' d'' → R d d'') (first : R d (a.run d).2)
    (second : ∀ v d', a.run d = (.ok v, d') → R d' ((f v).run d').2) : R d ((a >>= f).run d).2 := by
  rw [run_bind]
  rcases outcome : a.run d with ⟨result, d'⟩
  rw [outcome] at first
  cases result with
  | error e => exact first
  | ok v => exact trans first (second v d' outcome)

theorem run_forM_rel (refl : ∀ d, R d d) (trans : ∀ {d d' d''}, R d d' → R d' d'' → R d d'')
    {I : Disk → Prop} {l : List α} {f : α → Act PUnit}
    (step : ∀ x ∈ l, ∀ d, I d → R d ((f x).run d).2 ∧ I ((f x).run d).2) (start : I d) :
    R d ((l.forM f).run d).2 := by
  induction l generalizing d with
  | nil => exact refl d
  | cons x rest ih =>
    obtain ⟨first, still⟩ := step x List.mem_cons_self d start
    rw [List.forM]
    apply run_bind_rel (R := R) trans first
    intro _ d' outcome
    rw [outcome] at still
    exact ih (fun y member => step y (List.mem_cons_of_mem x member)) still

theorem run_during (context : String) (a : Act α) (d : Disk) :
    run (a.during context) d = ((run a d).1.mapError (Fault.during context), (run a d).2) := rfl

theorem run_ofExcept (r : Except Fault α) (d : Disk) : run (MonadExcept.ofExcept r) d = (r, d) := by
  cases r <;> rfl

theorem run_exists? (p : String) (d : Disk) : run (exists? p) d = (.ok (d.exists? p), d) := rfl

theorem run_contentOf (p : String) (d : Disk) : run (contentOf p) d = (d.read p, d) := by
  rw [contentOf, run_bind, run_get]
  exact run_ofExcept (d.read p) d

theorem run_andAlways (a : Act α) (cleanup : Act Unit) (d : Disk) :
    run (andAlways a cleanup) d = ((run a d).1, (run cleanup (run a d).2).2) := by
  rw [andAlways, run_bind, run_attempt]
  dsimp only
  rw [run_bind, run_attempt]
  exact run_ofExcept _ _

theorem run_look {α : Type} (action subject : String) (f : Disk → Except Disk.Reason α) (d : Disk) :
    run (look action subject f) d =
      ((f d).mapError fun reason => .disk ⟨action, subject, reason⟩, d) := by
  rw [look, run_bind, run_get]
  dsimp only
  cases f d <;> rfl

theorem run_stat (p : String) (d : Disk) : (run (stat p) d).2 = d := by
  rw [stat, run_bind, run_look]
  cases d.find true p <;> rfl

theorem run_listDir (p : String) (d : Disk) :
    run (listDir p) d =
      match d.find true p with
      | .ok (place, .dir _) => (.ok (d.children place), d)
      | .ok _ => (.error (.disk ⟨"open", p, .notDirectory⟩), d)
      | .error reason => (.error (.disk ⟨"open", p, reason⟩), d) := by
  rw [listDir, run_bind, run_look]
  rcases d.find true p with reason | ⟨place, e⟩
  · rfl
  · cases e <;> rfl

theorem run_removeAll (p : String) (d : Disk) :
    (run (removeAll p) d).2 =
      match d.find false p with
      | .ok (place, .dir _) => d.prune place
      | .ok (place, _) => { d with tree := d.tree.erase place }
      | .error _ => d := by
  rw [removeAll, run_bind, run_get]
  dsimp only
  rcases d.find false p with reason | ⟨place, e⟩
  · cases reason <;> rfl
  · cases e <;> rfl

theorem exists_run_of_isOk (taken : (a.run d).1.isOk = true) :
    ∃ v, a.run d = (.ok v, (a.run d).2) := by
  rcases outcome : a.run d with ⟨e | v, d'⟩
  · rw [outcome] at taken
    cases taken
  · exact ⟨v, rfl⟩

theorem run_eq_ok {v : α} (told : (a.run d).1.toOption = some v ∧ (a.run d).2 = d') : a.run d = (.ok v, d') :=
  Prod.ext (eq_ok_of_toOption told.1) told.2

end Act

/-! ### Confinement -/

namespace Disk

variable {inside : Place → Prop} {d d' d'' : Disk} {place : Place}

theorem find_eq_ok_iff (d : Disk) (follow : Bool) (p : String) (place : Place) (e : Entry) :
    d.find follow p = .ok (place, e) ↔
      d.locate follow p = .ok place ∧ d.entry? place = some e := by
  unfold find
  cases d.locate follow p with
  | error reason => simp [bind, Except.bind]
  | ok there =>
    simp only [bind, Except.bind, Except.ok.injEq]
    cases present : d.entry? there with
    | none =>
      refine iff_of_false (by simp [throw, throwThe, MonadExceptOf.throw]) ?_
      rintro ⟨rfl, found⟩
      rw [present] at found
      cases found
    | some e' =>
      constructor
      · intro found
        cases found
        exact ⟨rfl, present⟩
      · rintro ⟨rfl, found⟩
        rw [present] at found
        cases found
        rfl

theorem get?_prune (d : Disk) (place p : Place) :
    (d.prune place).tree.get? p = if place <+: p then none else d.tree.get? p := by
  rw [prune, Dict.get?_filter, isBelow]
  split
  · rename_i below
    simp [List.isPrefixOf_iff_prefix.mpr below]
  · rename_i apart
    have apart : place.isPrefixOf p = false := by
      rwa [← Bool.not_eq_true, List.isPrefixOf_iff_prefix]
    cases d.tree.get? p <;> simp [apart]

theorem get?_of_entry?_file {body : Nat} (found : d.entry? place = some (.file body)) :
    d.tree.get? place = some (.file body) := by
  unfold entry? at found
  split at found
  · cases found
  · exact found

theorem write_eq_ok {p : String} {content : ByteArray} {mode : Nat}
    (written : d.write p content mode = .ok d') :
    ∃ place, d.locate true p = .ok place ∧
      ((∃ body mode', d.entry? place = some (.file body) ∧ d' = d.setBody body ⟨content, mode'⟩) ∨
        d.entry? place = none ∧ d' = d.newFile place content (masked mode)) := by
  unfold write at written
  cases located : d.locate true p with
  | error reason =>
    rw [located] at written
    cases written
  | ok place =>
    rw [located] at written
    simp only [bind, Except.bind] at written
    refine ⟨place, rfl, ?_⟩
    split at written
    · rename_i body present
      cases written
      exact Or.inl ⟨body, _, present, rfl⟩
    · cases written
    · rename_i absent
      split at written
      · cases written
        exact Or.inr ⟨absent, rfl⟩
      · cases written

theorem makeLink_eq_ok {target p : String} (made : d.makeLink target p = .ok d') :
    ∃ place, d.locate false p = .ok place ∧ d.entry? place = none ∧
      d' = { d with tree := d.tree.insert place (.link target) } := by
  unfold makeLink at made
  cases located : d.locate false p with
  | error reason =>
    rw [located] at made
    cases made
  | ok place =>
    rw [located] at made
    simp only [bind, Except.bind] at made
    split at made
    · cases made
    · rename_i absent
      split at made
      · cases made
      · cases made
        exact ⟨place, rfl, absent, rfl⟩

theorem share_eq_ok {old new : String} (shared : d.share old new = .ok d') :
    ∃ source e place, d.find false old = .ok (source, e) ∧ (∀ mode, e ≠ .dir mode) ∧
      d.locate false new = .ok place ∧ d.entry? place = none ∧
      d' = { d with tree := d.tree.insert place e } := by
  unfold share at shared
  rcases found : d.find false old with reason | ⟨source, e⟩
  · rw [found] at shared
    cases shared
  · rw [found] at shared
    cases located : d.locate false new with
    | error reason =>
      simp only [bind, Except.bind, located] at shared
      cases shared
    | ok place =>
      simp only [bind, Except.bind, located] at shared
      split at shared
      · cases shared
      · cases shared
      · rename_i absent notDir
        cases shared
        exact ⟨source, _, place, rfl, notDir, rfl, absent, rfl⟩

/-- The disk on which what lay at `source` lies at `target`. -/
def relocate (d : Disk) (source target : Place) : Disk :=
  let moved := d.tree.toList.filterMap fun (k, e) =>
    if isBelow source k then some (target ++ k.drop source.length, e) else none
  { d.prune source with tree := moved.foldl (fun t (k, e) => t.insert k e) (d.prune source).tree }

theorem move_eq_ok {old new : String} (moved : d.move old new = .ok d') :
    ∃ source e target, d.find false old = .ok (source, e) ∧ d.locate false new = .ok target ∧
      (∀ mode, d.entry? target ≠ some (.dir mode)) ∧
      (source = target ∧ d' = d ∨ source ≠ target ∧ d' = d.relocate source target) := by
  unfold move at moved
  rcases found : d.find false old with reason | ⟨source, e⟩
  · rw [found] at moved
    cases moved
  · rw [found] at moved
    cases located : d.locate false new with
    | error reason =>
      simp only [bind, Except.bind, located] at moved
      cases moved
    | ok target =>
      simp only [bind, Except.bind, located] at moved
      refine ⟨source, e, target, rfl, rfl, ?_⟩
      split at moved
      · cases moved
      · cases moved
      · rename_i notDir _
        refine ⟨fun mode isDir => notDir mode isDir, ?_⟩
        split at moved
        · rename_i stays
          cases moved
          exact Or.inl ⟨stays, rfl⟩
        · rename_i leaves
          split at moved
          · cases moved
          · cases moved
            exact Or.inr ⟨leaves, rfl⟩

theorem get?_relocate {source target p : Place} {e : Entry}
    (found : (d.relocate source target).tree.get? p = some e) :
    (∃ rest, p = target ++ rest ∧ d.tree.get? (source ++ rest) = some e) ∨
      ¬ source <+: p ∧ d.tree.get? p = some e := by
  rcases Dict.get?_foldl_insert_cases _ _ found with moved | old
  · left
    obtain ⟨⟨k, e'⟩, member, image⟩ := List.mem_filterMap.mp moved
    rw [Option.ite_none_right_eq_some, Option.some.injEq, Prod.mk.injEq] at image
    obtain ⟨below, rfl, rfl⟩ := image
    obtain ⟨rest, rfl⟩ := List.isPrefixOf_iff_prefix.mp below
    exact ⟨rest, by simp, (Dict.get?_eq_some_iff ..).mpr member⟩
  · right
    rw [get?_prune] at old
    split at old
    · cases old
    · rename_i apart
      exact ⟨apart, old⟩

theorem get?_relocate_of_apart {source target p : Place} (out : ¬ source <+: p) (apart : ¬ target <+: p) :
    (d.relocate source target).tree.get? p = d.tree.get? p := by
  have kept : (d.prune source).tree.get? p = d.tree.get? p := by rw [get?_prune, if_neg out]
  rw [← kept]
  apply Dict.get?_foldl_insert
  intro member
  obtain ⟨⟨k, e⟩, moved, rfl⟩ := List.mem_map.mp member
  obtain ⟨⟨k', e'⟩, -, image⟩ := List.mem_filterMap.mp moved
  rw [Option.ite_none_right_eq_some, Option.some.injEq, Prod.mk.injEq] at image
  exact apart (image.2.1 ▸ List.prefix_append target _)

/-- One of the places is a name of a file. -/
def Holds (d : Disk) (inside : Place → Prop) (body : Nat) : Prop :=
  ∃ p, inside p ∧ d.tree.get? p = some (.file body)

/-- One disk differs from another only in what lies at some places. -/
structure ConfinedTo (inside : Place → Prop) (d d' : Disk) : Prop where
  entries : ∀ p, ¬ inside p → d'.tree.get? p = d.tree.get? p
  /-- The places get no new name for a file that lies elsewhere. -/
  names : ∀ body, d'.Holds inside body → d.nextBody ≤ body ∨ d.Holds inside body
  bodies : ∀ body, body < d.nextBody → ¬ d.Holds inside body →
    d'.bodies.get? body = d.bodies.get? body
  next : d.nextBody ≤ d'.nextBody

namespace ConfinedTo

theorem refl (inside : Place → Prop) (d : Disk) : ConfinedTo inside d d :=
  ⟨fun _ _ => rfl, fun _ => Or.inr, fun _ _ _ => rfl, le_rfl⟩

theorem trans (first : ConfinedTo inside d d') (second : ConfinedTo inside d' d'') :
    ConfinedTo inside d d'' where
  entries p out := (second.entries p out).trans (first.entries p out)
  names body holds := by
    rcases second.names body holds with new | holds
    · exact Or.inl (first.next.trans new)
    · exact first.names body holds
  bodies body old free := by
    have still : ¬ d'.Holds inside body := by
      intro holds
      rcases first.names body holds with new | holds
      · omega
      · exact free holds
    exact (second.bodies body (old.trans_le first.next) still).trans (first.bodies body old free)
  next := first.next.trans second.next

theorem mono {wider : Place → Prop} (confined : ConfinedTo inside d d')
    (sub : ∀ p, inside p → wider p) : ConfinedTo wider d d' where
  entries p out := confined.entries p fun within => out (sub p within)
  names body := by
    rintro ⟨p, within, found⟩
    by_cases inner : inside p
    · rcases confined.names body ⟨p, inner, found⟩ with new | ⟨q, held, found⟩
      · exact Or.inl new
      · exact Or.inr ⟨q, sub q held, found⟩
    · rw [confined.entries p inner] at found
      exact Or.inr ⟨p, within, found⟩
  bodies body old free := confined.bodies body old fun ⟨p, held, found⟩ => free ⟨p, sub p held, found⟩
  next := confined.next

theorem ofTree (tree : Dict (List String) Entry)
    (same : ∀ p, ¬ inside p → tree.get? p = d.tree.get? p)
    (held : ∀ p body, inside p → tree.get? p = some (.file body) → d.Holds inside body) :
    ConfinedTo inside d { d with tree := tree } where
  entries := same
  names _ := fun ⟨p, within, found⟩ => Or.inr (held p _ within found)
  bodies _ _ _ := rfl
  next := le_rfl

theorem insert (within : inside place) {e : Entry}
    (held : ∀ body, e = .file body → d.Holds inside body) :
    ConfinedTo inside d { d with tree := d.tree.insert place e } := by
  apply ofTree
  · intro p out
    exact Dict.get?_insert_of_ne _ (by rintro rfl; exact out within) _
  · intro p body here found
    by_cases same : p = place
    · subst same
      rw [Dict.get?_insert_self, Option.some.injEq] at found
      exact held body found
    · rw [Dict.get?_insert_of_ne _ same] at found
      exact ⟨p, here, found⟩

theorem erase (within : inside place) :
    ConfinedTo inside d { d with tree := d.tree.erase place } := by
  apply ofTree
  · intro p out
    exact Dict.get?_erase_of_ne _ (by rintro rfl; exact out within)
  · intro p body here found
    by_cases same : p = place
    · rw [same, Dict.get?_erase_self] at found
      cases found
    · rw [Dict.get?_erase_of_ne _ same] at found
      exact ⟨p, here, found⟩

theorem prune (within : ∀ p, place <+: p → inside p) : ConfinedTo inside d (d.prune place) := by
  apply ofTree
  · intro p out
    exact (get?_prune d place p).trans (if_neg fun below => out (within p below))
  · intro p body here found
    have found := (get?_prune d place p).symm.trans found
    split at found
    · cases found
    · exact ⟨p, here, found⟩

theorem relocate {source target : Place} (leaves : ∀ p, source <+: p → inside p)
    (arrives : ∀ p, target <+: p → inside p) : ConfinedTo inside d (d.relocate source target) := by
  apply ofTree
  · intro p out
    exact get?_relocate_of_apart (fun below => out (leaves p below)) fun below => out (arrives p below)
  · intro p body here found
    rcases get?_relocate found with ⟨rest, -, old⟩ | ⟨-, old⟩
    · exact ⟨_, leaves _ (List.prefix_append source rest), old⟩
    · exact ⟨p, here, old⟩

theorem newFile (within : inside place) (content : ByteArray) (mode : Nat) :
    ConfinedTo inside d (d.newFile place content mode) where
  entries p out := Dict.get?_insert_of_ne _ (by rintro rfl; exact out within) _
  names body := by
    rintro ⟨p, here, found⟩
    by_cases same : p = place
    · subst same
      rw [Disk.newFile, Dict.get?_insert_self] at found
      cases found
      exact Or.inl le_rfl
    · rw [Disk.newFile, Dict.get?_insert_of_ne _ same] at found
      exact Or.inr ⟨p, here, found⟩
  bodies body old _ := Dict.get?_insert_of_ne _ (by omega) _
  next := Nat.le_succ _

theorem setBody {id : Nat} (held : d.Holds inside id) (b : Body) :
    ConfinedTo inside d (d.setBody id b) where
  entries _ _ := rfl
  names _ := Or.inr
  bodies body _ free := Dict.get?_insert_of_ne _ (by rintro rfl; exact free held) _
  next := le_rfl

theorem removeAll {p : String} (leads : ∀ q, d.locate false p = .ok q → ∀ r, q <+: r → inside r) :
    ConfinedTo inside d ((Act.removeAll p).run d).2 := by
  rw [Act.run_removeAll]
  split
  · rename_i there mode found
    exact prune (leads there ((find_eq_ok_iff ..).mp found).1)
  · rename_i there e _ found
    exact erase (leads there ((find_eq_ok_iff ..).mp found).1 there List.prefix_rfl)
  · exact refl inside d

theorem putFile {p : String} {content : ByteArray} {mode : Nat}
    (leads : ∀ q, d.locate true p = .ok q → inside q) :
    ConfinedTo inside d ((Act.putFile p content mode).run d).2 := by
  rw [Act.putFile, Act.run_change]
  cases written : d.write p content mode with
  | error reason => exact refl inside d
  | ok d' =>
    obtain ⟨place, located, ⟨body, mode', present, rfl⟩ | ⟨-, rfl⟩⟩ := write_eq_ok written
    · exact setBody ⟨place, leads place located, get?_of_entry?_file present⟩ _
    · exact newFile (leads place located) _ _

end ConfinedTo

end Disk

end Taproom
