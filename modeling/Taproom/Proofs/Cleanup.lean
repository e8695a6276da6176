import Taproom.Proofs.Filling

/-!
Installations that fail. Nothing is left of the keg, and nothing else of the cellar is different
except the formula's rack. A build that fails leaves no rack that holds nothing, whether the rack was
there before or not; a bottle may leave a new and empty one.
-/

namespace Taproom.Builder

open Path (IsComponent)
open Disk (IsName Pruned)

variable {y : Layout} {b : Builder} {f : Formula} {o : Options} {name version phase dir : String}
  {v v' : Variables} {steps : List Step} {w w' : Workshop} {d d' : Disk} {files : List String}
  {x x' : Brew Unit} {e : Fault} {src : Source}

def filesOf (b : Builder) (f : Formula) : List String :=
  [Receipt.fileName, Service.fileName f b.platform]

theorem isComponent_serviceFile (b : Builder) (component : IsComponent f.name.toList) :
    IsComponent (Service.fileName f b.platform).toList := by
  have free := component.2.2.2
  rw [Service.fileName, Service.label]
  split
  · rw [String.append_assoc, String.toList_append]
    exact Path.IsComponent.append (by decide) (by simpa using free)
  · rw [String.append_assoc, String.toList_append]
    exact Path.IsComponent.append (by decide) (by simpa using free)

theorem isName_receiptFile : IsName Receipt.fileName := by decide

/-- A runner whose programs change nothing in a cellar but the keg that they are told of, and leave it
tidy. -/
def Heeds (runner : Program.Runner) (y : Layout) (keg files : List String) : Prop :=
  ∀ p d, p.env.head? = some ("PREFIX", y.path keg) → y.Ready keg files d →
    y.Works keg files d (runner p d).2

theorem works_bind {α β : Type} {keg : List String} {x : Brew α} {g : α → Brew β}
    (first : y.Works keg files w.disk (x.run w).2.disk)
    (second : ∀ r w', x.run w = (.ok r, w') → y.Ready keg files w'.disk →
      y.Works keg files w'.disk ((g r).run w').2.disk) :
    y.Works keg files w.disk ((x >>= g).run w).2.disk := by
  refine Brew.run_bind_rel (R := y.Works keg files) Layout.Works.trans first fun r w' ran => ?_
  rw [ran] at first
  exact second r w' ran first.ready

/-- Some work on a keg, after which it has a receipt unless the work failed. -/
structure Fills (y : Layout) (name version : String) (files : List String) (x : Brew Unit)
    (w : Workshop) : Prop where
  works : y.Works [name, version] files w.disk (x.run w).2.disk
  completes : (x.run w).1 = .ok () → y.IsComplete name version (x.run w).2.disk

theorem Fills.bind {α : Type} {x : Brew α} {g : α → Brew Unit}
    (first : y.Works [name, version] files w.disk (x.run w).2.disk)
    (second : ∀ r w', x.run w = (.ok r, w') → y.Ready [name, version] files w'.disk →
      Fills y name version files (g r) w') : Fills y name version files (x >>= g) w := by
  refine ⟨works_bind first fun r w' ran ready => (second r w' ran ready).works, fun ok => ?_⟩
  rw [Brew.run_bind] at ok ⊢
  rcases ran : x.run w with ⟨e | r, w'⟩
  · rw [ran] at ok
    cases ok
  · rw [ran] at first ok
    exact (second r w' ran first.ready).completes ok

theorem Fills.of_failed (ran : x.run w = (.error e, w'))
    (works : y.Works [name, version] files w.disk w'.disk) : Fills y name version files x w := by
  constructor
  · rw [ran]
    exact works
  · rw [ran]
    exact nofun

theorem Fills.of_run (ran : x.run w = x'.run w')
    (first : y.Works [name, version] files w.disk w'.disk)
    (second : Fills y name version files x' w') : Fills y name version files x w := by
  constructor
  · rw [ran]
    exact first.trans second.works
  · rw [ran]
    exact second.completes

/-- Some work that fills a keg, or leaves none if it fails. -/
structure Settles (y : Layout) (name version : String) (files : List String) (x : Brew Unit)
    (w : Workshop) : Prop extends Fills y name version files x w where
  vacates : ∀ e, (x.run w).1 = .error e →
    (x.run w).2.disk.tree.get? (y.place [name, version]) = none

theorem Settles.of_failed (ran : x.run w = (.error e, w'))
    (works : y.Works [name, version] files w.disk w'.disk)
    (absent : w'.disk.tree.get? (y.place [name, version]) = none) :
    Settles y name version files x w := by
  refine ⟨.of_failed ran works, ?_⟩
  rw [ran]
  exact fun _ _ => absent

theorem Settles.of_run (ran : x.run w = x'.run w')
    (first : y.Works [name, version] files w.disk w'.disk)
    (second : Settles y name version files x' w') : Settles y name version files x w := by
  refine ⟨.of_run ran first second.toFills, ?_⟩
  rw [ran]
  exact second.vacates

theorem Fills.lift {a : Act Unit} (works : y.Works [name, version] files w.disk (a.run w.disk).2)
    (completes : (a.run w.disk).1 = .ok () → y.IsComplete name version (a.run w.disk).2) :
    Fills y name version files (liftM a) w :=
  ⟨works, completes⟩

theorem Fills.andAlways {c : String} (build : IsBuildName c) (isName : IsName c)
    (filled : Fills y name version files x w) :
    Fills y name version files (x.andAlways (Act.removeAll (Path.ofComponents (y.temp ++ [c])))) w := by
  obtain ⟨works, kept⟩ := filled.works.ready.removeAll_build build isName
  constructor
  · rw [Brew.run_andAlways]
    exact filled.works.trans works
  · rw [Brew.run_andAlways]
    intro ok
    obtain ⟨e, found⟩ := filled.completes ok
    exact ⟨e, (kept _).trans found⟩

theorem runSteps_works {keg : List String} (heeds : Heeds b.runner y keg files)
    (told : v.getD "prefix" "" = y.path keg) (name phase dir : String) (i : Nat) (steps : List Step)
    (ready : y.Ready keg files w.disk) :
    y.Works keg files w.disk ((b.runSteps name phase dir v i steps).run w).2.disk := by
  induction steps generalizing i w with
  | nil => exact .refl ready
  | cons s rest ih =>
    rw [runSteps]
    split
    · refine works_bind ?_ fun _ w' _ ready => ih _ ready
      rw [runStep, Brew.run_bind, Brew.run_runProgram]
      dsimp only
      have worked := heeds (programOf s dir v) w.disk (by rw [programOf, told]; rfl) ready
      split <;> exact worked
    · exact ih _ ready

/-! ### Variables that tell of the keg -/

theorem ofKeg_tells (name version keg : String) :
    (Variables.ofKeg name version keg).getD "prefix" "" = keg := by
  have found : (Variables.ofKeg name version keg).get? "prefix" = some keg :=
    Dict.get?_ofList [("name", name), ("version", version)] _ keg (by simp)
  rw [Dict.getD, found]
  rfl

theorem stageResources_tells {resources : List Resource}
    (staged : (b.stageResources f dir resources v).run d = (.ok v', d')) :
    v'.getD "prefix" "" = v.getD "prefix" "" := by
  induction resources generalizing v d with
  | nil =>
    cases staged
    rfl
  | cons r rest ih =>
    rw [stageResources] at staged
    obtain ⟨u, d₁, -, staged⟩ := Act.run_bind_eq_ok staged
    rw [ih staged]
    refine Dict.getD_insert_of_ne _ (fun same => ?_) _ _
    have chars := congrArg String.toList same
    rw [String.toList_append] at chars
    cases chars

theorem layOut_tells {keg : String}
    (laid : (b.layOut f keg o src version dir).run d = (.ok v', d')) : v'.getD "prefix" "" = keg := by
  obtain ⟨u, d₁, -, staged⟩ := Act.run_bind_eq_ok laid
  rw [stageResources_tells staged, Dict.getD_insert_of_ne _ (by decide),
    Dict.getD_insert_of_ne _ (by decide), ofKeg_tells]

/-! ### Work on a keg -/

section Keg

variable (named : ∀ c ∈ [f.name, version], IsName c)
include named

theorem components_of_named : ∀ c ∈ [f.name, version], IsComponent c.toList := fun c member =>
  (named c member).1

theorem pathIn_keg : Receipt.pathIn (y.path [f.name, version]) =
    y.path [f.name, version, Receipt.fileName] :=
  Layout.join_path (components_of_named named) (by simp) (by simpa using isName_receiptFile.1)

section

variable (ready : y.Ready [f.name, version] (b.filesOf f) d)

include ready

theorem putService_works (content : ByteArray)
    (mode : Nat) : y.Works [f.name, version] (b.filesOf f) d ((Act.putFile
      (Path.join [y.path [f.name, version], Service.fileName f b.platform]) content mode).run d).2 := by
  have component := isComponent_serviceFile b (named f.name (by simp)).1
  rw [Layout.join_path (components_of_named named) (by simp) (by simpa using component)]
  exact (ready.putFile named (by simp [filesOf]) component content mode).1

theorem writeReceipt_works (r : Receipt) :
    let ran := (b.writeReceipt f (y.path [f.name, version]) r).run d
    y.Works [f.name, version] (b.filesOf f) d ran.2 ∧
      (ran.1 = .ok () → y.IsComplete f.name version ran.2) := by
  rw [writeReceipt, pathIn_keg named]
  obtain ⟨works, isFile⟩ := ready.putFile named (by simp [filesOf]) isName_receiptFile.1 _ _
  exact ⟨works, fun ok => (isFile ok).elim fun body found => ⟨_, found⟩⟩

theorem writeReceipt_ok {mode : Nat}
    (isDir : d.tree.get? (y.place [f.name, version]) = some (.dir mode)) (r : Receipt) :
    ((b.writeReceipt f (y.path [f.name, version]) r).run d).1 = .ok () := by
  rw [writeReceipt, pathIn_keg named]
  exact ready.putFile_ok named (by simp [filesOf]) isName_receiptFile isDir _ _

end

theorem finish_works (heeds : Heeds b.runner y [f.name, version] (b.filesOf f)) (number : String)
    (ready : y.Ready [f.name, version] (b.filesOf f) w.disk) :
    y.Works [f.name, version] (b.filesOf f) w.disk
      ((b.finish f (y.path [f.name, version]) number).run w).2.disk := by
  rw [finish]
  refine works_bind (runSteps_works heeds (ofKeg_tells ..) _ _ _ _ _ ready) fun _ w' _ ready => ?_
  cases Service.render? f (y.path [f.name, version]) b.platform with
  | none => exact .refl ready
  | some text =>
    rw [Brew.run_lift]
    dsimp only
    exact putService_works named ready _ _

theorem make_fills (heeds : Heeds b.runner y [f.name, version] (b.filesOf f)) {x : Bench}
    (told : x.values.getD "prefix" "" = y.path [f.name, version])
    (ready : y.Ready [f.name, version] (b.filesOf f) w.disk) :
    Fills y f.name version (b.filesOf f) (b.make f (y.path [f.name, version]) o x) w := by
  rw [make]
  refine .bind (runSteps_works heeds told _ _ _ _ _ ready) fun _ w' _ ready => ?_
  refine .bind (finish_works named heeds _ ready) fun _ w' _ ready => ?_
  obtain ⟨works, completes⟩ := writeReceipt_works named ready { isHead := o.head, source := originOf x.src }
  exact .lift works completes

/-- What is fetched and unpacked for the keg of a formula changes nothing else of the cellar and
leaves the keg tidy, and so does every program that is told of the keg. -/
structure Careful (y : Layout) (b : Builder) (f : Formula) (o : Options) (version : String) (d : Disk) :
    Prop where
  heeds : Heeds b.runner y [f.name, version] (b.filesOf f)
  laidOut : b.willBuild f o = true → ∀ src number dir d', toBuild f o.head = .ok (src, number) →
    (Act.makeTempDir b.temp ("nbrew-" ++ f.name ++ "-")).run d = (.ok dir, d') →
    y.Works [f.name, version] (b.filesOf f) d'
      ((b.layOut f (y.path [f.name, version]) o src number dir).run d').2
  fetched : b.willBuild f o = false → ∀ src, Bottle.source f b.platform = .ok src →
    let d' := ((b.fetcher.fetch (f.name ++ "-bottle") src).run d).2
    y.Works [f.name, version] (b.filesOf f) d d' ∧ d'.tree.get? (y.place [f.name, version]) = none
  poured : b.willBuild f o = false → ∀ src archive d', Bottle.source f b.platform = .ok src →
    (b.fetcher.fetch (f.name ++ "-bottle") src).run d = (.ok archive, d') →
    y.Works [f.name, version] (b.filesOf f) d' ((Bottle.pour archive src.sha256 b.cellar).run d').2

theorem buildIn_fills (heeds : Heeds b.runner y [f.name, version] (b.filesOf f)) {number : String}
    (laidOut : y.Works [f.name, version] (b.filesOf f) w.disk
      ((b.layOut f (y.path [f.name, version]) o src number dir).run w.disk).2) :
    Fills y f.name version (b.filesOf f) (b.buildIn f (y.path [f.name, version]) o src number dir) w := by
  have whole := run_buildIn b f (y.path [f.name, version]) o src number dir w
  rw [Act.run_bind] at whole
  rcases laid : (b.layOut f (y.path [f.name, version]) o src number dir).run w.disk with ⟨e | v, d⟩
  · rw [laid] at whole laidOut
    exact .of_failed whole laidOut
  · rw [laid] at whole laidOut
    dsimp only at whole laidOut
    have opened := laidOut.ready.makeDirAll named 0o755
    rw [Act.run_bind] at whole
    rcases made : (Act.makeDirAll (y.path [f.name, version]) 0o755).run d with ⟨e | u, d'⟩
    · rw [made] at whole opened
      exact .of_failed whole (laidOut.trans opened)
    · rw [made] at whole opened
      exact .of_run whole (laidOut.trans opened)
        (make_fills named heeds (layOut_tells laid) opened.ready)

theorem build_fills (of : y.Of b) (careful : Careful y b f o version w.disk)
    (builds : b.willBuild f o = true) (ready : y.Ready [f.name, version] (b.filesOf f) w.disk) :
    Fills y f.name version (b.filesOf f) (b.build f (y.path [f.name, version]) o) w := by
  have whole := run_build b f (y.path [f.name, version]) o w
  rcases wanted : toBuild f o.head with e | ⟨src, number⟩
  · rw [wanted] at whole
    exact .of_failed whole (.refl ready)
  rw [wanted, of.temp] at whole
  obtain ⟨works, fresh⟩ := ready.makeTempDir (named f.name (by simp)).1
  rcases made : (Act.makeTempDir (Path.ofComponents y.temp) ("nbrew-" ++ f.name ++ "-")).run w.disk with
    ⟨e | dir, d⟩
  · rw [made] at whole works
    exact .of_failed whole works
  · obtain ⟨c, build, isName, rfl⟩ := fresh dir d made
    rw [made] at whole works
    have laid := careful.laidOut builds src number _ d wanted (by rw [of.temp, made])
    have filled : Fills y f.name version (b.filesOf f) (b.buildIn f (y.path [f.name, version]) o src
        number (Path.ofComponents (y.temp ++ [c]))) { w with disk := d } :=
      buildIn_fills named careful.heeds laid
    refine .of_run whole works ?_
    split
    · exact filled
    · exact filled.andAlways build isName

theorem removeAll_keg_works (stands : y.Stands d) :
    let d' := ((Act.removeAll (y.path [f.name, version])).run d).2
    y.Works [f.name, version] files d d' ∧ d'.tree.get? (y.place [f.name, version]) = none := by
  have pruned := stands.removeAll_keg named
  exact ⟨.clear stands (by simp) pruned, by simpa using pruned.gone []⟩

theorem writeReceipt_settles (ready : y.Ready [f.name, version] (b.filesOf f) w.disk) (r : Receipt) :
    Settles y f.name version (b.filesOf f) (liftM (b.writeReceipt f (y.path [f.name, version]) r)) w := by
  obtain ⟨works, completes⟩ := writeReceipt_works named ready r
  refine ⟨.lift works completes, fun e failed => ?_⟩
  rw [Brew.run_lift] at failed ⊢
  dsimp only at failed ⊢
  cases found : w.disk.tree.get? (y.place [f.name, version]) with
  | some entry =>
    obtain ⟨mode, rfl⟩ := ready.dir entry found
    rw [writeReceipt_ok named ready found] at failed
    cases failed
  | none =>
    rw [writeReceipt, Act.putFile, Act.run_change] at failed ⊢
    split at failed
    · cases failed
    · exact found

theorem pour_settles (careful : Careful y b f o version w.disk) (pours : b.willBuild f o = false)
    (found : Bottle.source f b.platform = .ok src) {number : String}
    (numbered : versionOf f = .ok number) :
    Settles y f.name version (b.filesOf f) (b.pour f src (y.path [f.name, version])) w := by
  have whole := run_pour b f src (y.path [f.name, version]) w
  obtain ⟨fetching, untouched⟩ := careful.fetched pours src found
  rcases fetched : (b.fetcher.fetch (f.name ++ "-bottle") src).run w.disk with ⟨e | archive, d₁⟩
  · rw [fetched] at whole fetching untouched
    exact .of_failed whole fetching untouched
  have pouring := careful.poured pours src archive d₁ found fetched
  rw [fetched] at whole fetching
  dsimp only at whole fetching
  rcases poured : (Bottle.pour archive src.sha256 b.cellar).run d₁ with ⟨e | u, d₂⟩
  · rw [poured] at whole pouring
    obtain ⟨clearing, absent⟩ := removeAll_keg_works named pouring.ready.toStands
    exact .of_failed whole ((fetching.trans pouring).trans clearing) absent
  rw [poured] at whole pouring
  dsimp only at whole pouring
  have filling := fetching.trans pouring
  cases there : d₂.exists? (y.path [f.name, version]) with
  | false =>
    rw [there] at whole
    exact .of_failed whole filling (pouring.ready.absent_of_not_exists named there)
  | true =>
    rw [there, if_pos rfl, numbered] at whole
    dsimp only at whole
    have finishing : y.Works [f.name, version] (b.filesOf f) d₂ ((b.finish f
        (y.path [f.name, version]) number).run { w with disk := d₂ }).2.disk :=
      finish_works named careful.heeds number (w := { w with disk := d₂ }) pouring.ready
    rcases finished : (b.finish f (y.path [f.name, version]) number).run { w with disk := d₂ } with
      ⟨e | u, w₃⟩
    · rw [finished] at whole finishing
      obtain ⟨clearing, absent⟩ := removeAll_keg_works named finishing.ready.toStands
      exact .of_failed whole ((filling.trans finishing).trans clearing) absent
    · rw [finished] at whole finishing
      exact .of_run whole (filling.trans finishing) (writeReceipt_settles named finishing.ready _)

/-! ### What a failed installation leaves -/

def kegVersion (f : Formula) (head : Bool) : Except Fault String :=
  if head then .ok "HEAD" else packageVersionOf f

theorem kegPath_eq (of : y.Of b) {head : Bool} (wanted : kegVersion f head = .ok version) :
    b.kegPath f head = .ok (y.path [f.name, version]) := by
  have path : Path.join [b.cellar, f.name, version] = y.path [f.name, version] := by
    rw [of.cellar]
    exact Layout.join_path (by simp) (by simp) (components_of_named named)
  rw [kegVersion] at wanted
  rw [kegPath]
  split at wanted
  · cases wanted
    rw [if_pos ‹_›, path]
  · rw [if_neg ‹_›, wanted, Except.map, path]

end Keg

theorem versionOf_of_kegVersion (wanted : kegVersion f false = .ok version) :
    ∃ number, versionOf f = .ok number := by
  rw [kegVersion, if_neg (by decide), packageVersionOf, Formula.packageVersion?] at wanted
  rw [versionOf]
  cases found : f.version? with
  | some number => exact ⟨number, rfl⟩
  | none =>
    rw [found] at wanted
    cases wanted

/-- Nothing of a keg is left, and nothing else in the cellar but the keg's rack is different.
Directories on the way to the cellar may be new. -/
structure Vacated (y : Layout) (name version : String) (d d' : Disk) : Prop where
  gone : ∀ l, d'.tree.get? (y.place (name :: version :: l)) = none
  way : ∀ l, l ≠ [] → l <+: y.rest → d'.tree.get? (y.base ++ l) = d.tree.get? (y.base ++ l) ∨
    d.tree.get? (y.base ++ l) = none ∧ ∃ mode, d'.tree.get? (y.base ++ l) = some (.dir mode)
  others : ∀ names, names ≠ [] → names ≠ [name] → ¬ [name, version] <+: names →
    d'.tree.get? (y.place names) = d.tree.get? (y.place names)
  bodies : ∀ names body, names ≠ [] → ¬ [name, version] <+: names →
    d.tree.get? (y.place names) = some (.file body) → d'.bodies.get? body = d.bodies.get? body

theorem Vacated.of_works (works : y.Works [name, version] files d d')
    (absent : d'.tree.get? (y.place [name, version]) = none) : Vacated y name version d d' where
  gone l := by
    have below := works.ready.sound.empty_below (Layout.place_ne_nil (by simp)) absent l
    rwa [← Layout.place_append] at below
  way l long front := works.toCellar (by simp) long front
  others names inner notRack outside := by
    refine works.others names (fun front => ?_) outside
    match names, inner with
    | [a], _ => exact notRack (by simpa using front)
    | [a, c], _ =>
      obtain ⟨rfl, rfl⟩ : a = name ∧ c = version := by simpa using front
      exact outside List.prefix_rfl
    | a :: c :: x :: rest, _ => simpa using front.length_le
  bodies := works.bodies

theorem rack_eq (of : y.Of b) (isName : IsName name) : b.rack name = y.path [name] := by
  rw [rack, of.cellar]
  exact Layout.join_path (by simp) (by simp) (by simpa using isName.1)

/-- A rack is removed if it is a directory that holds nothing, and else left alone. -/
theorem removeEmptyRack_cases (of : y.Of b) (stands : y.Stands d) (isName : IsName name) :
    let d' := ((b.removeEmptyRack name).run d).2
    (∃ mode, d.tree.get? (y.place [name]) = some (.dir mode)) ∧
        (∀ c, d.tree.get? (y.place [name, c]) = none) ∧ Pruned (y.place [name]) d d' ∨
      d' = d ∧ ∀ mode, d.tree.get? (y.place [name]) = some (.dir mode) →
        ∃ c e, d.tree.get? (y.place [name, c]) = some e := by
  have children : ∀ c e, (c, e) ∈ d.children (y.place [name]) ↔
      d.tree.get? (y.place [name, c]) = some e := by
    intro c e
    rw [Disk.mem_children_iff, ← Layout.place_append]
    rfl
  rw [run_removeEmptyRack, rack_eq of isName]
  dsimp only
  by_cases isDir : ∃ mode, d.tree.get? (y.place [name]) = some (.dir mode)
  · obtain ⟨mode, isDir⟩ := isDir
    rw [(stands.find_rack_iff isName).mpr ⟨rfl, isDir⟩]
    dsimp only
    split
    · rename_i none
      have empty : ∀ c, d.tree.get? (y.place [name, c]) = Option.none := by
        intro c
        rw [Option.eq_none_iff_forall_ne_some]
        intro e found
        have member := (children c e).mpr found
        rw [none] at member
        cases member
      exact Or.inl ⟨⟨mode, isDir⟩, empty, stands.remove_rack isName isDir empty⟩
    · rename_i some
      obtain ⟨⟨c, e⟩, rest, first⟩ := List.exists_cons_of_ne_nil some
      exact Or.inr ⟨rfl, fun _ _ => ⟨c, e, (children c e).mp (by simp [first])⟩⟩
  · right
    refine ⟨?_, fun mode found => absurd ⟨mode, found⟩ isDir⟩
    split
    · rename_i place mode found
      exact absurd ⟨mode, ((stands.find_rack_iff isName).mp found).2⟩ isDir
    · rfl

theorem Vacated.pruned (vacated : Vacated y name version d d') (sound : d'.Sound)
    (empty : ∀ c, d'.tree.get? (y.place [name, c]) = none) {d'' : Disk}
    (pruned : Pruned (y.place [name]) d' d'') : Vacated y name version d d'' where
  gone l := by
    have gone := pruned.gone (version :: l)
    rwa [← Layout.place_append] at gone
  way l long front := by
    rw [pruned.kept fun below => ?_]
    · exact vacated.way l long front
    · have length := below.length_le
      have short := front.length_le
      simp only [Layout.place, List.length_append, List.length_singleton] at length
      omega
  others names inner notRack outside := by
    rw [← vacated.others names inner notRack outside]
    by_cases under : [name] <+: names
    · obtain ⟨rest, rfl⟩ := under
      rw [Layout.place_append, pruned.gone rest, ← Layout.place_append]
      cases rest with
      | nil => exact absurd (List.append_nil _) notRack
      | cons c rest =>
        have below := sound.empty_below (Layout.place_ne_nil (by simp)) (empty c) rest
        rw [← Layout.place_append] at below
        exact below.symm
    · exact pruned.kept fun below => under (Layout.place_below_iff.mp below)
  bodies names body inner outside found := by
    rw [pruned.bodies]
    exact vacated.bodies names body inner outside found

/-- Clearing away after a failed build. The rack stays if it holds something else, and where it is no
directory. -/
theorem clearAway_vacates (of : y.Of b) (sound : d.Sound) (named : ∀ c ∈ [name, version], IsName c)
    (works : y.Works [name, version] files d d') :
    let d'' := b.clearAway name (y.path [name, version]) d'
    y.Stands d'' ∧ Vacated y name version d d'' ∧ ∀ e, d''.tree.get? (y.place [name]) = some e ↔
      d.tree.get? (y.place [name]) = some e ∧ ((∃ mode, e = .dir mode) →
        ∃ c e', c ≠ version ∧ d.tree.get? (y.place [name, c]) = some e') := by
  have pruned := works.ready.removeAll_keg named
  have cleared := works.trans (.clear works.ready.toStands (by simp) pruned)
  have absent := pruned.gone []
  rw [List.append_nil] at absent
  have vacated := Vacated.of_works cleared absent
  have beside : ∀ c, c ≠ version → ((Act.removeAll (y.path [name, version])).run d').2.tree.get?
      (y.place [name, c]) = d.tree.get? (y.place [name, c]) := by
    intro c other
    exact vacated.others _ (by simp) (by simp) (by simpa using other.symm)
  have before := cleared.rack
  rcases removeEmptyRack_cases of cleared.ready.toStands (named name (by simp)) with
    ⟨⟨mode, isDir⟩, empty, emptied⟩ | ⟨same, busy⟩
  · have rackless : y.Works [name] files _ _ := .clear cleared.ready.toStands (by simp) emptied
    refine ⟨rackless.ready.toStands, vacated.pruned cleared.ready.sound empty emptied,
      fun e => iff_of_false ?_ ?_⟩
    · have gone := emptied.gone []
      rw [List.append_nil] at gone
      rw [clearAway, gone]
      simp
    · rintro ⟨found, holds⟩
      rcases before with same | ⟨none, -⟩
      · rw [isDir, found] at same
        obtain ⟨c, e', other, held⟩ := holds ⟨mode, (Option.some.inj same).symm⟩
        rw [← beside c other, empty c] at held
        cases held
      · rw [none] at found
        cases found
  · rw [clearAway, same]
    refine ⟨cleared.ready.toStands, vacated, fun e => ⟨fun found => ?_, fun held => ?_⟩⟩
    · have holds : (∃ mode, e = .dir mode) →
          ∃ c e', c ≠ version ∧ d.tree.get? (y.place [name, c]) = some e' := by
        rintro ⟨mode, rfl⟩
        obtain ⟨c, e', held⟩ := busy mode found
        have other : c ≠ version := by
          rintro rfl
          rw [absent] at held
          cases held
        exact ⟨c, e', other, (beside c other).symm.trans held⟩
      refine ⟨?_, holds⟩
      rcases before with same | ⟨none, mode, isDir⟩
      · rw [← same, found]
      · -- A rack that was made cannot hold what was there before it.
        rw [isDir] at found
        obtain ⟨c, e', -, held⟩ := holds ⟨mode, (Option.some.inj found).symm⟩
        have below := sound.empty_below (Layout.place_ne_nil (by simp)) none [c]
        rw [← Layout.place_append] at below
        exact absurd (held.symm.trans below) (by simp)
    · obtain ⟨found, -⟩ := held
      rcases before with same | ⟨none, -⟩
      · rw [same, found]
      · rw [none] at found
        cases found

/-! ### Installations -/

/-- A formula that can be installed in a cellar, and the version that its keg is named for. -/
structure Wanted (y : Layout) (b : Builder) (f : Formula) (o : Options) (version : String) : Prop where
  of : y.Of b
  enabled : f.disabled = none
  called : kegVersion f o.head = .ok version
  named : ∀ c ∈ [f.name, version], IsName c

def cleared (y : Layout) (f : Formula) (version : String) (w : Workshop) : Workshop :=
  { w with disk := ((Act.removeAll (y.path [f.name, version])).run w.disk).2 }

theorem cleared_works (named : ∀ c ∈ [f.name, version], IsName c) (stands : y.Stands w.disk)
    (files : List String) :
    y.Works [f.name, version] files w.disk (cleared y f version w).disk ∧
      (cleared y f version w).disk.tree.get? (y.place [f.name, version]) = none :=
  removeAll_keg_works named stands

section Install

variable (wanted : Wanted y b f o version)
  (incomplete : w.disk.exists? (Receipt.pathIn (y.path [f.name, version])) = false)
include wanted incomplete

theorem install_of_builds (builds : b.willBuild f o = true) :
    (b.install f o).run w =
      match (b.build f (y.path [f.name, version]) o).run (cleared y f version w) with
      | (.ok (), w') => (.ok (y.path [f.name, version]), w')
      | (.error e, w') => (.error e,
          { w' with disk := b.clearAway f.name (y.path [f.name, version]) w'.disk }) := by
  rw [run_install wanted.enabled (kegPath_eq wanted.named wanted.of wanted.called), incomplete,
    if_neg (by decide), builds, cleared]
  rfl

theorem install_of_pours (pours : b.willBuild f o = false) :
    ∃ src number, Bottle.source f b.platform = .ok src ∧ versionOf f = .ok number ∧
      (b.install f o).run w =
        match (b.pour f src (y.path [f.name, version])).run (cleared y f version w) with
        | (.ok (), w') => (.ok (y.path [f.name, version]), w')
        | (.error e, w') => (.error e, w') := by
  obtain ⟨⟨-, notHead⟩, offered⟩ : (o.fromSource = false ∧ o.head = false) ∧
      (Bottle.source f b.platform).isOk = true := by
    simpa [willBuild] using pours
  have called := wanted.called
  rw [notHead] at called
  obtain ⟨number, numbered⟩ := versionOf_of_kegVersion called
  cases found : Bottle.source f b.platform with
  | error e =>
    rw [found] at offered
    cases offered
  | ok src =>
    refine ⟨src, number, rfl, numbered, ?_⟩
    rw [run_install wanted.enabled (kegPath_eq wanted.named wanted.of wanted.called), incomplete,
      if_neg (by decide), pours, found, cleared]
    rfl

variable (stands : y.Stands w.disk) (careful : Careful y b f o version (cleared y f version w).disk)
include stands careful

theorem install_settles {result : Except Fault String} (ran : (b.install f o).run w = (result, w')) :
    match result with
    | .ok _ => y.Works [f.name, version] (b.filesOf f) w.disk w'.disk ∧ y.IsComplete f.name version w'.disk
    | .error _ => y.Stands w'.disk ∧ Vacated y f.name version w.disk w'.disk ∧
        (b.willBuild f o = true → ∀ e, w'.disk.tree.get? (y.place [f.name]) = some e ↔
          w.disk.tree.get? (y.place [f.name]) = some e ∧ ((∃ mode, e = .dir mode) →
            ∃ c e', c ≠ version ∧ w.disk.tree.get? (y.place [f.name, c]) = some e')) ∧
        (b.willBuild f o = false →
          w'.disk.tree.get? (y.place [f.name]) = w.disk.tree.get? (y.place [f.name]) ∨
            w.disk.tree.get? (y.place [f.name]) = none ∧
              ∃ mode, w'.disk.tree.get? (y.place [f.name]) = some (.dir mode)) := by
  have clearing := (cleared_works wanted.named stands (b.filesOf f)).1
  cases builds : b.willBuild f o with
  | true =>
    obtain ⟨works, completes⟩ := build_fills wanted.named wanted.of careful builds clearing.ready
    rw [install_of_builds wanted incomplete builds] at ran
    rcases built : (b.build f (y.path [f.name, version]) o).run (cleared y f version w) with ⟨e | u, w''⟩ <;>
      rw [built] at ran works completes <;> cases ran
    · obtain ⟨stands', vacated, rack⟩ :=
        clearAway_vacates wanted.of stands.sound wanted.named (clearing.trans works)
      exact ⟨stands', vacated, fun _ => rack, nofun⟩
    · exact ⟨clearing.trans works, completes rfl⟩
  | false =>
    obtain ⟨src, number, found, numbered, pours⟩ := install_of_pours wanted incomplete builds
    obtain ⟨⟨works, completes⟩, vacates⟩ := pour_settles wanted.named careful builds found numbered
    have whole := clearing.trans works
    rw [pours] at ran
    rcases poured : (b.pour f src (y.path [f.name, version])).run (cleared y f version w) with ⟨e | u, w''⟩ <;>
      rw [poured] at ran whole completes vacates <;> cases ran
    · exact ⟨whole.ready.toStands, .of_works whole (vacates e rfl), nofun, fun _ => whole.rack⟩
    · exact ⟨whole, completes rfl⟩

end Install

end Taproom.Builder
