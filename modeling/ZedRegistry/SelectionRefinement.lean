import ZedRegistry.LatestVersion
import ZedRegistry.Lib.Simulation
import ZedRegistry.PublicationRefinement
import ZedRegistry.SelectionModel

/-!
# Yanks and publishes refine the selection model

A run of the registry in which a package has three versions at most is matched by
a run of `formal/latest_selection.qnt`, and what the package, list and search
endpoints report as its latest version is what the model advertises.
-/

set_option autoImplicit false

namespace ZedRegistry.LatestSelection

open DescendingSort Execution PackageViews

variable {I : Interfaces} {le : String → String → Prop}

/-! ## The versions of a package -/

/-- A package and the three versions that the model's numbers stand for, in order. -/
structure Line (le : String → String → Prop) where
  package : Uuid
  spell : Int → String
  le_iff : ∀ i ∈ versions, ∀ j ∈ versions, le (spell i) (spell j) ↔ i ≤ j

namespace Line

variable (line : Line le)

/-- The version that an advertised number stands for. -/
def latest (advertised : Int) : Option String :=
  if advertised = noVersion then none else some (line.spell advertised)

/-- The package's commits are of the three versions. -/
def Admits (world : PublishWorld I) : PublishEvent I → Prop
  | .advance attempt _ => ∀ publish package,
      world.phases attempt = some (.running publish (.commit package)) →
        package.id = line.package → ∃ i ∈ versions, publish.ver = line.spell i
  | .arrive _ _ _ | .crash _ | .claimOrg _ | .yank _ _ | .updateIndex _ _ _ => True

variable {line}

theorem spell_injective {i j : Int} (known : i ∈ versions) (other : j ∈ versions)
    (same : line.spell i = line.spell j) : i = j := by
  have below := (line.le_iff i known j other).mp
    (same ▸ (line.le_iff i known i known).mpr le_rfl)
  have above := (line.le_iff j other i known).mp
    (same ▸ (line.le_iff i known i known).mpr le_rfl)
  omega

end Line

/-! ## The model's sets and the version table -/

/-- The committed row of one of the three versions. -/
def Line.row (line : Line le) (world : PublishWorld I) (i : Int) : Option (Version I) :=
  world.versions.committed (line.package, line.spell i)

structure Follows (line : Line le) (world : PublishWorld I) (s : State) : Prop where
  published : ∀ i ∈ versions, i ∈ s.published ↔ (line.row world i).isSome = true
  yanked : ∀ i ∈ versions, i ∈ s.yanked ↔
    ∃ row, line.row world i = some row ∧ row.yanked = true
  only : ∀ version row, world.versions.committed (line.package, version) = some row →
    ∃ i ∈ versions, version = line.spell i

section Steps

variable {line : Line le} {world next : PublishWorld I} {s : State}

def Answered (line : Line le) (s : State) (next : PublishWorld I) : Prop :=
  ∃ actions later, exec step s actions = some later ∧ Follows line next later

theorem Follows.beside (follows : Follows line world s)
    (same : ∀ version, next.versions.committed (line.package, version) =
      world.versions.committed (line.package, version)) : Answered line s next := by
  refine ⟨[], s, rfl, ?_, ?_, ?_⟩
  · intro i known
    rw [Line.row, same]
    exact follows.published i known
  · intro i known
    rw [Line.row, same]
    exact follows.yanked i known
  · intro version row found
    rw [same] at found
    exact follows.only version row found

/-- A commit adds the row it inserted and no other. -/
theorem committed_land {attempt : Nat} {publish : Publish I} {package : Package I}
    (inserts : HoldsVersion world attempt publish package.id) (key : VersionKey) :
    (key = (package.id, publish.ver) ∧ ∃ id, (world.land attempt publish
      package).versions.committed key = some (versionRow publish id package.id)) ∨
    key ≠ (package.id, publish.ver) ∧
      (world.land attempt publish package).versions.committed key =
        world.versions.committed key := by
  by_cases own : key = (package.id, publish.ver)
  · obtain ⟨id, pending⟩ := inserts.inserted
    exact .inl ⟨own, id, by rw [own]; exact RowTable.view_of_pending pending⟩
  · refine .inr ⟨own, RowTable.view_of_not_held fun row held => own ?_⟩
    exact inserts.only key row held

theorem Follows.land {attempt : Nat} {publish : Publish I} {package : Package I}
    {phase : PublishPhase I} (follows : Follows line world s)
    (inserts : HoldsVersion world attempt publish package.id)
    (absent : world.versions.committed (package.id, publish.ver) = none)
    (admitted : package.id = line.package → ∃ i ∈ versions, publish.ver = line.spell i) :
    Answered line s ((world.land attempt publish package).goto attempt phase) := by
  by_cases mine : package.id = line.package
  · obtain ⟨i, known, spelled⟩ := admitted mine
    rw [mine, spelled] at absent
    have before : line.row world i = none := absent
    have unpublished : i ∉ s.published := by
      rw [follows.published i known, before]
      exact Bool.false_ne_true
    have stepped : step s (.publish i) = some _ :=
      (if_pos known).trans (if_pos ⟨known, unpublished⟩)
    have rows := fun j => committed_land inserts (line.package, line.spell j)
    refine ⟨[.publish i], _, exec_singleton stepped, ?_, ?_, ?_⟩
    · intro j other
      rw [Finset.mem_insert]
      rcases rows j with ⟨own, id, added⟩ | ⟨own, kept⟩
      · obtain rfl : j = i := Line.spell_injective other known
          ((Prod.mk.inj own).2.trans spelled)
        have now : line.row ((world.land attempt publish package).goto attempt phase) j =
          some (versionRow publish id package.id) := added
        simp [now]
      · have now : line.row ((world.land attempt publish package).goto attempt phase) j =
          line.row world j := kept
        have differs : j ≠ i := by
          rintro rfl
          exact own (Prod.ext mine.symm spelled.symm)
        rw [now, ← follows.published j other]
        simp [differs]
    · intro j other
      rw [follows.yanked j other]
      rcases rows j with ⟨own, id, added⟩ | ⟨-, kept⟩
      · obtain rfl : j = i := Line.spell_injective other known
          ((Prod.mk.inj own).2.trans spelled)
        have now : line.row ((world.land attempt publish package).goto attempt phase) j =
          some (versionRow publish id package.id) := added
        rw [now, before]
        constructor
        · rintro ⟨row, found, -⟩
          contradiction
        · rintro ⟨row, found, flag⟩
          obtain rfl := Option.some.inj found
          exact absurd flag Bool.false_ne_true
      · have now : line.row ((world.land attempt publish package).goto attempt phase) j =
          line.row world j := kept
        rw [now]
    · intro version row found
      rcases committed_land inserts (line.package, version) with ⟨own, -⟩ | ⟨-, kept⟩
      · exact ⟨i, known, (Prod.mk.inj own).2.trans spelled⟩
      · exact follows.only version row (kept.symm.trans found)
  · refine follows.beside fun version => ?_
    rcases committed_land inserts (line.package, version) with ⟨own, -⟩ | ⟨-, kept⟩
    · exact absurd (Prod.mk.inj own).1.symm mine
    · exact kept

/-- The registry after one of the three versions got a new yank flag. -/
theorem Follows.flag {later : State} {i : Int} {row : Version I} {flag : Bool}
    (follows : Follows line world s) (known : i ∈ versions)
    (found : line.row world i = some row)
    (published : later.published = s.published)
    (yanked : ∀ j ∈ versions, j ∈ later.yanked ↔ if j = i then flag = true else j ∈ s.yanked) :
    Follows line { world with
      versions := world.versions.autocommit (line.package, line.spell i)
        (yankedVersion row flag) } later := by
  have own : line.row { world with
      versions := world.versions.autocommit (line.package, line.spell i)
        (yankedVersion row flag) } i = some (yankedVersion row flag) := by
    rw [Line.row, RowTable.committed_autocommit, if_pos rfl]
  have rest : ∀ j ∈ versions, j ≠ i → line.row { world with
      versions := world.versions.autocommit (line.package, line.spell i)
        (yankedVersion row flag) } j = line.row world j := by
    intro j other differs
    rw [Line.row, RowTable.committed_autocommit, if_neg]
    · rfl
    · exact fun same => differs (Line.spell_injective other known (Prod.mk.inj same).2)
  refine ⟨?_, ?_, ?_⟩
  · intro j other
    rw [published, follows.published j other]
    by_cases same : j = i
    · rw [same, own, found]
      rfl
    · rw [rest j other same]
  · intro j other
    rw [yanked j other]
    by_cases same : j = i
    · rw [if_pos same, same, own]
      constructor
      · exact fun set => ⟨_, rfl, set⟩
      · rintro ⟨row', same', set⟩
        obtain rfl := Option.some.inj same'
        exact set
    · rw [if_neg same, rest j other same]
      exact follows.yanked j other
  · intro version other committed
    rw [RowTable.committed_autocommit] at committed
    split at committed
    · rename_i same
      exact ⟨i, known, (Prod.mk.inj same).2⟩
    · exact follows.only version other committed

/-- A yank or a restore of one of the three, new or repeated. -/
theorem Follows.yank {i : Int} {row : Version I} (flag : Bool) (follows : Follows line world s)
    (known : i ∈ versions) (found : line.row world i = some row) :
    Answered line s { world with
      versions := world.versions.autocommit (line.package, line.spell i)
        (yankedVersion row flag) } := by
  have published : i ∈ s.published := by
    rw [follows.published i known, found]
    rfl
  cases flag with
  | true =>
      by_cases already : i ∈ s.yanked
      · have stepped : step s (.replayYank i) = some _ := (if_pos known).trans (if_pos already)
        refine ⟨_, _, exec_singleton stepped, follows.flag known found rfl fun j _ => ?_⟩
        split
        · rename_i same
          simp [same, already]
        · rfl
      · have stepped : step s (.yank i) = some _ :=
          (if_pos known).trans (if_pos ⟨published, already⟩)
        refine ⟨_, _, exec_singleton stepped, follows.flag known found rfl fun j _ => ?_⟩
        rw [Finset.mem_insert]
        split
        · rename_i same
          simp [same]
        · rename_i differs
          simp [differs]
  | false =>
      by_cases already : i ∈ s.yanked
      · have stepped : step s (.restore i) = some _ := (if_pos known).trans (if_pos already)
        refine ⟨_, _, exec_singleton stepped, follows.flag known found rfl fun j _ => ?_⟩
        rw [Finset.mem_sdiff, Finset.mem_singleton]
        split
        · rename_i same
          simp [same]
        · rename_i differs
          simp [differs]
      · have stepped : step s (.replayRestore i) = some _ :=
          (if_pos known).trans (if_pos ⟨published, already⟩)
        refine ⟨_, _, exec_singleton stepped, follows.flag known found rfl fun j _ => ?_⟩
        split
        · rename_i same
          simp [same, already]
        · rfl

theorem publishStep_answered {event : PublishEvent I} (invariant : PublishInvariant world)
    (admits : line.Admits world event) (follows : Follows line world s)
    (stepped : publishStep world event = some next) : Answered line s next := by
  cases publishStep_some stepped with
  | refused | admitted | crashed | claimed | indexed => exact follows.beside fun _ => rfl
  | advanced attempt answer publish point _ running moved =>
      obtain ⟨middle, phase, effect, rfl, -, -⟩ := invariant.stepsTo running moved
      rcases effect.rows with ⟨⟨-, versions⟩, -⟩ | ⟨package, rfl, rfl⟩
      · exact follows.beside fun version => congrFun versions (line.package, version)
      · have inserts := (invariant.running running).2.2.2
        exact follows.land inserts (inserts.unauthored invariant.tables).1
          (admits publish package running)
  | yanked key flag row free found =>
      by_cases mine : key.1 = line.package
      · obtain ⟨i, known, spelled⟩ := follows.only key.2 row (mine ▸ found)
        obtain rfl : key = (line.package, line.spell i) := Prod.ext mine spelled
        exact follows.yank flag known found
      · refine follows.beside fun version => ?_
        rw [RowTable.committed_autocommit, if_neg]
        exact fun same => mine (congrArg Prod.fst same).symm

theorem simulates (line : Line le) : Simulates publishStep step (line.Admits (I := I))
    PublishInvariant (Follows line) where
  preserved _ _ _ invariant stepped := (publishStep_preserves invariant stepped).1
  matched _ _ _ _ invariant admits follows stepped :=
    publishStep_answered invariant admits follows stepped

end Steps

/-! ## Every run -/

/-- What the endpoints compute from the rows is what the model advertises. -/
theorem Follows.latest {line : Line le} {world : PublishWorld I} {s : State}
    (sorts : SortsDescending le I.sortVersionsDesc) (invariant : PublishInvariant world)
    (follows : Follows line world s) (safe : SelectionSafety s) {rows : List (Version I)}
    (returns : ReturnsVersions world line.package rows) :
    latestVisibleVersion I rows = line.latest s.advertisedLatest := by
  have shown_iff : ∀ i ∈ versions,
      Visible world line.package (line.spell i) ↔ i ∈ s.published ∧ i ∉ s.yanked := by
    intro i known
    rw [follows.published i known, follows.yanked i known]
    constructor
    · rintro ⟨row, found, shown⟩
      refine ⟨?_, ?_⟩
      · rw [Line.row, found]
        rfl
      · rintro ⟨other, found', hidden⟩
        rw [Line.row, found] at found'
        rw [Option.some.inj found', hidden] at shown
        contradiction
    · rintro ⟨present, shown⟩
      obtain ⟨row, found⟩ := Option.isSome_iff_exists.mp present
      exact ⟨row, found, Bool.eq_false_iff.mpr fun hidden => shown ⟨row, found, hidden⟩⟩
  have greatest := (visibleVersionsDesc_lists sorts invariant returns).head_greatest sorts.refl
  rw [latestVisibleVersion]
  rcases safe.identitiesAreBounded.2.2 with none' | known
  · rw [none', Line.latest, if_pos rfl]
    cases reported : (visibleVersionsDesc I rows).head? with
    | none => rfl
    | some version =>
        rw [reported] at greatest
        obtain ⟨row, found, shown⟩ := greatest.1
        obtain ⟨i, known, rfl⟩ := follows.only version row found
        have visible := (shown_iff i known).mp ⟨row, found, shown⟩
        have hidden := safe.noLatestIffNoVisibleVersion.resolve_left (fun differs => differs none')
        exact absurd (hidden i visible.1) visible.2
  · have some' : s.advertisedLatest ≠ noVersion := by
      intro none'
      rw [none'] at known
      exact absurd known (by decide)
    have visible := (shown_iff _ known).mpr (safe.latestIsVisible.resolve_left some')
    rw [Line.latest, if_neg some']
    cases reported : (visibleVersionsDesc I rows).head? with
    | none =>
        rw [reported] at greatest
        exact absurd visible (greatest _)
    | some version =>
        rw [reported] at greatest
        obtain ⟨row, found, shown⟩ := greatest.1
        obtain ⟨i, other, rfl⟩ := follows.only version row found
        have above := (line.le_iff _ known i other).mp (greatest.2 _ visible)
        have below := le_expectedLatest other ((shown_iff i other).mp greatest.1)
        rw [← safe.latestIsDeterministic] at below
        rw [show i = s.advertisedLatest by omega]

theorem initial_follows (line : Line le) (backend : Backend) (registryWrite : Bool) :
    Follows line (PublishWorld.initial I backend registryWrite) initial where
  published i _ := ⟨fun member => absurd member (Finset.notMem_empty i), fun found => by
    contradiction⟩
  yanked i _ := ⟨fun member => absurd member (Finset.notMem_empty i), fun found => by
    obtain ⟨row, found, -⟩ := found
    contradiction⟩
  only version row found := by contradiction

/-- The latest version of a package with three versions at most, in every run of
publishes and yanks, is what a run of the selection model advertises. -/
theorem registry_refines_selection_model (sorts : SortsDescending le I.sortVersionsDesc)
    (line : Line le) {backend : Backend} {registryWrite : Bool} {events : List (PublishEvent I)}
    {final : PublishWorld I}
    (run : exec publishStep (PublishWorld.initial I backend registryWrite) events = some final)
    (allowed : Allowed publishStep line.Admits (PublishWorld.initial I backend registryWrite)
      events) :
    ∃ actions s, exec step initial actions = some s ∧ Follows line final s ∧
      SelectionSafety s ∧ ∀ rows, ReturnsVersions final line.package rows →
        latestVisibleVersion I rows = line.latest s.advertisedLatest := by
  have start := initial_invariant (I := I) backend registryWrite
  obtain ⟨actions, s, shadowed, follows, safe⟩ := (simulates line).transfers step_safe start
    (initial_follows line backend registryWrite) initial_safe allowed run
  exact ⟨actions, s, shadowed, follows, safe, fun rows returns =>
    follows.latest sorts (exec_invariant_publish start run) safe returns⟩

/-! ## A sample package -/

/-- Every publish that runs is of this version. -/
def OnlyVersion (version : String) (world : PublishWorld I) : Prop :=
  ∀ attempt publish point, world.phases attempt = some (.running publish point) →
    publish.ver = version

theorem OnlyVersion.goto {version : String} {world next : PublishWorld I} {attempt : Nat}
    {phase : PublishPhase I} (holds : OnlyVersion version world)
    (phases : next.phases = Function.update world.phases attempt (some phase))
    (own : ∀ publish point, phase = .running publish point → publish.ver = version) :
    OnlyVersion version next := by
  intro other publish point running
  rw [phases] at running
  by_cases mine : other = attempt
  · rw [mine, Function.update_self] at running
    exact own publish point (Option.some.inj running)
  · rw [Function.update_of_ne mine] at running
    exact holds other publish point running

theorem OnlyVersion.step {version : String} {world next : PublishWorld I}
    {event : PublishEvent I}
    (arrives : ∀ attempt answers request, event = .arrive attempt answers request →
      request.ver = version)
    (invariant : PublishInvariant world) (holds : OnlyVersion version world)
    (stepped : publishStep world event = some next) : OnlyVersion version next := by
  cases publishStep_some stepped with
  | refused attempt answers request error unused =>
      exact holds.goto rfl fun _ _ same => by contradiction
  | admitted attempt answers request publish unused accepted =>
      refine holds.goto rfl fun other point same => ?_
      obtain ⟨rfl, -⟩ := PublishPhase.running.inj same
      exact (admitPublish_ok I accepted).2.2.2.trans (arrives attempt answers request rfl)
  | advanced attempt answer publish point _ running moved =>
      obtain ⟨middle, phase, effect, rfl, same, -⟩ := invariant.stepsTo running moved
      refine holds.goto (by rw [← effect.phases]; rfl) ?_
      rintro other later rfl
      obtain rfl : other = publish := same
      exact holds attempt other point running
  | crashed attempt publish point running =>
      exact holds.goto rfl fun _ _ same => by contradiction
  | claimed | yanked | indexed => exact holds

namespace Sample

/-- The numbers stand for `1.0.0`, `1.1.0` and `1.2.0`. -/
def line : Line (fun left right : String => left ≤ right) where
  package := ⟨"p0"⟩
  spell i := if i = 1 then "1.0.0" else if i = 2 then "1.1.0" else "1.2.0"
  le_iff := by
    intro i known j other
    rcases versions_cases known with rfl | rfl | rfl <;>
      rcases versions_cases other with rfl | rfl | rfl <;> decide

end Sample

/-- `1.2.0` is published, yanked and restored. -/
theorem registry_refines_selection_model_sample :
    ∃ (final : PublishWorld PublishSample.interfaces) (actions : List Action) (s : State),
      exec publishStep PublishSample.start PackageViews.Sample.restored = some final ∧
      exec step initial actions = some s ∧ Follows Sample.line final s ∧ SelectionSafety s ∧
      ∀ rows, ReturnsVersions final Sample.line.package rows →
        latestVisibleVersion PublishSample.interfaces rows =
          Sample.line.latest s.advertisedLatest := by
  have runs : (exec publishStep PublishSample.start
      PackageViews.Sample.restored).isSome = true := by
    decide +kernel
  obtain ⟨final, run⟩ := Option.isSome_iff_exists.mp runs
  have allowed : Allowed publishStep Sample.line.Admits PublishSample.start
      PackageViews.Sample.restored := by
    refine @allowed_of_invariant _ _ _ _
      (fun world => PublishInvariant world ∧ OnlyVersion "1.2.0" world) _ ?_ ?_ _
      ⟨initial_invariant _ _, fun attempt publish point running => by contradiction⟩
    · intro event member world next holds stepped
      refine ⟨(publishStep_preserves holds.1 stepped).1, holds.2.step ?_ holds.1 stepped⟩
      rintro attempt answers request rfl
      simp [PackageViews.Sample.restored, PublishSample.firstRelease, PublishSample.advances,
        PublishSample.arrive] at member
      rw [member.2.2]
      rfl
    · rintro event - world ⟨-, only⟩
      cases event with
      | advance attempt answer =>
          exact fun publish package running _ =>
            ⟨3, by decide, only attempt publish _ running⟩
      | _ => trivial
  obtain ⟨actions, s, rest⟩ :=
    registry_refines_selection_model PackageViews.Sample.sorts Sample.line run allowed
  exact ⟨final, actions, s, run, rest⟩

end ZedRegistry.LatestSelection
