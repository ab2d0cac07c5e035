import ZedRegistry.LocalPut

/-!
# Promotion in the local store

The outline of `put_local`: a staging file is its writer's alone until the hard
link, and what the key names is never written again.
-/

set_option autoImplicit false

namespace ZedRegistry.LocalPut

open RelyGuarantee Execution

variable {sha256 : Bytes → String} {path : LocalPath} {attempt : Nat}
  {disk next : LocalDisk sha256} {put : VerifiedPut sha256}

/-! ## Staging names -/

theorem temporary_injective {first second : Uuid}
    (same : path.temporary first = path.temporary second) : first = second := by
  have names := congrArg (fun target => target.fileName.toList) same
  simp only [LocalPath.temporary, String.toList_append, List.append_assoc,
    List.append_cancel_left_eq, List.append_cancel_right_eq] at names
  cases first
  cases second
  rw [Uuid.mk.injEq]
  exact String.toList_injective names

theorem temporary_ne (path : LocalPath) (uuid : Uuid) : path ≠ path.temporary uuid := by
  intro same
  have lengths := congrArg (fun target => target.fileName.length) same
  simp only [LocalPath.temporary, String.length_append] at lengths
  have dot : ".".length = 1 := rfl
  omega

/-! ## The outline -/

/-- The inode has the staging name of one of the attempt's UUIDs, and no other. -/
structure Staged (path : LocalPath) (attempt : Nat) (disk : LocalDisk sha256) (uuid : Uuid)
    (inode : Nat) : Prop where
  drawn : disk.drawn uuid = some attempt
  named : disk.files.nodes (path.temporary uuid) = some (.file inode)
  only : ∀ other, disk.files.nodes other = some (.file inode) → other = path.temporary uuid

def KeyMatches (path : LocalPath) (disk : LocalDisk sha256) (put : VerifiedPut sha256) : Prop :=
  ∃ content, disk.files.content path = some content ∧
    content.length = put.expected.len ∧ sha256 content = put.expected.sha256

def ComparisonHolds (attempt : Nat) (disk : LocalDisk sha256) : Comparison → Prop
  | .preflight => True
  | .race uuid _ => disk.drawn uuid = some attempt

def PointHolds (path : LocalPath) (attempt : Nat) (disk : LocalDisk sha256)
    (put : VerifiedPut sha256) : LocalPoint → Prop
  | .stat comparison | .openFile comparison => ComparisonHolds attempt disk comparison
  | .hash comparison inode progress =>
    ComparisonHolds attempt disk comparison ∧ disk.files.nodes path = some (.file inode) ∧
      ∃ content, disk.files.inodes inode = some content ∧ progress.Tracks content
  | .createParent => True
  | .createStaging uuid => disk.drawn uuid = some attempt
  | .write uuid inode rest =>
    Staged path attempt disk uuid inode ∧
      ∃ written, disk.files.inodes inode = some written ∧ written ++ rest = put.bytes
  | .flush uuid inode | .sync uuid inode =>
    Staged path attempt disk uuid inode ∧ disk.files.inodes inode = some put.bytes
  | .link uuid =>
    ∃ inode, Staged path attempt disk uuid inode ∧ disk.files.inodes inode = some put.bytes
  | .cleanup uuid result =>
    disk.drawn uuid = some attempt ∧ (result = .ok () → KeyMatches path disk put)
  | .openDirectory | .syncDirectory => KeyMatches path disk put

def PhaseHolds (path : LocalPath) (attempt : Nat) (disk : LocalDisk sha256) :
    LocalPhase sha256 → Prop
  | .idle => disk.started attempt = none
  | .running put point => disk.started attempt = some put ∧ PointHolds path attempt disk put point
  | .finished put result => result = .ok () → KeyMatches path disk put
  | .crashed => True

/-- What a move of `attempt` leaves to the others. -/
structure Keeps (path : LocalPath) (attempt : Nat) (disk next : LocalDisk sha256) : Prop where
  drawn : ∀ uuid owner, disk.drawn uuid = some owner → next.drawn uuid = some owner
  started : ∀ other, other ≠ attempt → next.started other = disk.started other
  key : ∀ node, disk.files.nodes path = some node → next.files.nodes path = some node
  contents : ∀ inode content, disk.files.inodes inode = some content →
    next.files.inodes inode = some content ∨ ∃ uuid, Staged path attempt disk uuid inode
  staging : ∀ uuid owner, disk.drawn uuid = some owner → owner ≠ attempt →
    next.files.nodes (path.temporary uuid) = disk.files.nodes (path.temporary uuid)
  names : ∀ other inode, next.files.nodes other = some (.file inode) →
    disk.files.nodes other = some (.file inode) ∨ disk.files.inodes inode = none ∨
      ∃ uuid, Staged path attempt disk uuid inode

/-- The key as it was, or the bytes of the one put that was promoted. -/
def Origin (path : LocalPath) (start : Option Node) (disk : LocalDisk sha256) : Prop :=
  (disk.promotions = [] ∧ disk.files.nodes path = start) ∨
    ∃ winner put, start = none ∧ disk.promotions = [winner] ∧
      disk.started winner = some put ∧ disk.files.content path = some put.bytes

/-! ## Stability -/

theorem Keeps.refl (path : LocalPath) (attempt : Nat) (disk : LocalDisk sha256) :
    Keeps path attempt disk disk where
  drawn _ _ drawn := drawn
  started _ _ := rfl
  key _ found := found
  contents _ _ found := Or.inl found
  staging _ _ _ _ := rfl
  names _ _ found := Or.inl found

theorem Keeps.keyInode (keeps : Keeps path attempt disk next) {inode : Nat} {content : Bytes}
    (named : disk.files.nodes path = some (.file inode))
    (found : disk.files.inodes inode = some content) :
    next.files.inodes inode = some content := by
  rcases keeps.contents inode content found with kept | ⟨uuid, staged⟩
  · exact kept
  · exact absurd (staged.only path named) (temporary_ne path uuid)

theorem content_some {files : FileSystem} {content : Bytes}
    (found : files.content path = some content) :
    ∃ inode, files.nodes path = some (.file inode) ∧ files.inodes inode = some content := by
  unfold FileSystem.content at found
  obtain ⟨node, named, found⟩ := Option.bind_eq_some_iff.mp found
  cases node with
  | file inode => exact ⟨inode, named, found⟩
  | directory => contradiction

theorem content_of_inode {files : FileSystem} {inode : Nat} {content : Bytes}
    (named : files.nodes path = some (.file inode)) (found : files.inodes inode = some content) :
    files.content path = some content := by
  simp [FileSystem.content, named, FileSystem.nodeContent, found]

/-- What the key holds, it holds after any move. -/
theorem Keeps.content (keeps : Keeps path attempt disk next) {content : Bytes}
    (found : disk.files.content path = some content) :
    next.files.content path = some content := by
  obtain ⟨inode, named, found⟩ := content_some found
  exact content_of_inode (keeps.key _ named) (keeps.keyInode named found)

theorem Keeps.keyMatches (keeps : Keeps path attempt disk next)
    (holds : KeyMatches path disk put) : KeyMatches path next put := by
  obtain ⟨content, found, same⟩ := holds
  exact ⟨content, keeps.content found, same⟩

variable {other : Nat}

theorem Staged.owner {uuid uuid' : Uuid} {inode : Nat}
    (mine : Staged path attempt disk uuid inode) (theirs : Staged path other disk uuid' inode) :
    attempt = other := by
  have same := temporary_injective (theirs.only _ mine.named)
  have drawn := mine.drawn
  rw [same, theirs.drawn] at drawn
  exact (Option.some.inj drawn).symm

theorem Staged.stable {uuid : Uuid} {inode : Nat} (differ : attempt ≠ other)
    (keeps : Keeps path other disk next) (staged : Staged path attempt disk uuid inode) :
    Staged path attempt next uuid inode where
  drawn := keeps.drawn uuid attempt staged.drawn
  named := by rw [keeps.staging uuid attempt staged.drawn differ, staged.named]
  only := by
    intro target found
    rcases keeps.names target inode found with before | absent | ⟨uuid', theirs⟩
    · exact staged.only target before
    · have backed := disk.files.backed _ inode staged.named
      rw [absent] at backed
      contradiction
    · exact absurd (staged.owner theirs) differ

theorem Staged.content_stable {uuid : Uuid} {inode : Nat} {content : Bytes}
    (differ : attempt ≠ other) (keeps : Keeps path other disk next)
    (staged : Staged path attempt disk uuid inode)
    (found : disk.files.inodes inode = some content) :
    next.files.inodes inode = some content := by
  rcases keeps.contents inode content found with kept | ⟨uuid', theirs⟩
  · exact kept
  · exact absurd (staged.owner theirs) differ

theorem comparisonHolds_stable (keeps : Keeps path other disk next) {comparison : Comparison}
    (holds : ComparisonHolds attempt disk comparison) :
    ComparisonHolds attempt next comparison := by
  cases comparison with
  | preflight => trivial
  | race uuid error => exact keeps.drawn uuid attempt holds

theorem pointHolds_stable (differ : attempt ≠ other) (keeps : Keeps path other disk next)
    {point : LocalPoint} (holds : PointHolds path attempt disk put point) :
    PointHolds path attempt next put point := by
  cases point with
  | stat comparison => exact comparisonHolds_stable keeps holds
  | openFile comparison => exact comparisonHolds_stable keeps holds
  | hash comparison inode progress =>
      obtain ⟨compares, named, content, found, tracks⟩ := holds
      exact ⟨comparisonHolds_stable keeps compares, keeps.key _ named, content,
        keeps.keyInode named found, tracks⟩
  | createParent => trivial
  | createStaging uuid => exact keeps.drawn uuid attempt holds
  | write uuid inode rest =>
      obtain ⟨staged, written, found, whole⟩ := holds
      exact ⟨staged.stable differ keeps, written, staged.content_stable differ keeps found, whole⟩
  | flush uuid inode =>
      exact ⟨holds.1.stable differ keeps, holds.1.content_stable differ keeps holds.2⟩
  | sync uuid inode =>
      exact ⟨holds.1.stable differ keeps, holds.1.content_stable differ keeps holds.2⟩
  | link uuid =>
      obtain ⟨inode, staged, found⟩ := holds
      exact ⟨inode, staged.stable differ keeps, staged.content_stable differ keeps found⟩
  | cleanup uuid result =>
      exact ⟨keeps.drawn uuid attempt holds.1, fun success => keeps.keyMatches (holds.2 success)⟩
  | openDirectory => exact keeps.keyMatches holds
  | syncDirectory => exact keeps.keyMatches holds

theorem phaseHolds_stable (differ : attempt ≠ other) (keeps : Keeps path other disk next)
    {phase : LocalPhase sha256} (holds : PhaseHolds path attempt disk phase) :
    PhaseHolds path attempt next phase := by
  cases phase with
  | idle => exact (keeps.started attempt differ).trans holds
  | running put point =>
      exact ⟨(keeps.started attempt differ).trans holds.1,
        pointHolds_stable differ keeps holds.2⟩
  | finished put result => exact fun success => keeps.keyMatches (holds success)
  | crashed => trivial

/-! ## What each change of the disk keeps -/

theorem temporary_of_other (path : LocalPath) {uuid uuid' : Uuid}
    (drawn : disk.drawn uuid = some attempt)
    (theirs : disk.drawn uuid' = some other) (differ : other ≠ attempt) :
    path.temporary uuid' ≠ path.temporary uuid := by
  intro same
  have sameUuid := temporary_injective same
  rw [sameUuid, drawn] at theirs
  exact differ (Option.some.inj theirs).symm

theorem keeps_draw (path : LocalPath) (attempt : Nat) {uuid : Uuid}
    (fresh : (disk.drawn uuid).isSome = false) :
    Keeps path attempt disk
      { disk with drawn := Function.update disk.drawn uuid (some attempt) } where
  drawn uuid' owner drawn := by
    have differs : uuid' ≠ uuid := by
      rintro rfl
      rw [drawn] at fresh
      contradiction
    simp only [Function.update_of_ne differs, drawn]
  started _ _ := rfl
  key _ found := found
  contents _ _ found := Or.inl found
  staging _ _ _ _ := rfl
  names _ _ found := Or.inl found

theorem keeps_create (path : LocalPath) {uuid : Uuid} {inode : Nat}
    (drawn : disk.drawn uuid = some attempt) (fresh : disk.files.inodes inode = none) :
    Keeps path attempt disk
      { disk with files := disk.files.create (path.temporary uuid) inode } where
  drawn _ _ drawn := drawn
  started _ _ := rfl
  key node found := by
    simp only [FileSystem.create, Function.update_of_ne (temporary_ne path uuid)]
    exact found
  contents inode' content found := by
    have differs : inode' ≠ inode := by
      rintro rfl
      rw [fresh] at found
      contradiction
    refine Or.inl ?_
    simp only [FileSystem.create, Function.update_of_ne differs]
    exact found
  staging uuid' owner theirs differ := by
    simp only [FileSystem.create,
      Function.update_of_ne (temporary_of_other path drawn theirs differ)]
  names target inode' found := by
    by_cases same : target = path.temporary uuid
    · simp only [FileSystem.create, same, Function.update_self, Option.some.injEq,
        Node.file.injEq] at found
      exact Or.inr (Or.inl (found ▸ fresh))
    · simp only [FileSystem.create, Function.update_of_ne same] at found
      exact Or.inl found

theorem keeps_append {uuid : Uuid} {inode : Nat} (staged : Staged path attempt disk uuid inode)
    (chunk : Bytes) :
    Keeps path attempt disk { disk with files := disk.files.append inode chunk } where
  drawn _ _ drawn := drawn
  started _ _ := rfl
  key _ found := found
  contents inode' content found := by
    by_cases same : inode' = inode
    · exact Or.inr ⟨uuid, same ▸ staged⟩
    · refine Or.inl ?_
      simp only [FileSystem.append, Function.update_of_ne same]
      exact found
  staging _ _ _ _ := rfl
  names _ _ found := Or.inl found

theorem keeps_link {uuid : Uuid} {inode : Nat} (staged : Staged path attempt disk uuid inode)
    (absent : disk.files.nodes path = none) (promotions : List Nat) :
    Keeps path attempt disk
      { disk with files := disk.files.link (path.temporary uuid) path, promotions } where
  drawn _ _ drawn := drawn
  started _ _ := rfl
  key node found := by
    rw [absent] at found
    contradiction
  contents _ _ found := Or.inl found
  staging uuid' _ _ _ := by
    simp only [FileSystem.link, Function.update_of_ne (temporary_ne path uuid').symm]
  names target inode' found := by
    by_cases same : target = path
    · simp only [FileSystem.link, same, Function.update_self, staged.named, Option.some.injEq,
        Node.file.injEq] at found
      exact Or.inr (Or.inr ⟨uuid, found ▸ staged⟩)
    · simp only [FileSystem.link, Function.update_of_ne same] at found
      exact Or.inl found

theorem keeps_remove (path : LocalPath) {uuid : Uuid} (drawn : disk.drawn uuid = some attempt) :
    Keeps path attempt disk
      { disk with files := disk.files.remove (path.temporary uuid) } where
  drawn _ _ drawn := drawn
  started _ _ := rfl
  key node found := by
    simp only [FileSystem.remove, Function.update_of_ne (temporary_ne path uuid)]
    exact found
  contents _ _ found := Or.inl found
  staging uuid' owner theirs differ := by
    simp only [FileSystem.remove,
      Function.update_of_ne (temporary_of_other path drawn theirs differ)]
  names target inode found := by
    by_cases same : target = path.temporary uuid
    · simp only [FileSystem.remove, same, Function.update_self] at found
      contradiction
    · simp only [FileSystem.remove, Function.update_of_ne same] at found
      exact Or.inl found

/-! ## Moves -/

/-- What is proved of every move. -/
structure Moved (path : LocalPath) (start : Option Node) (attempt : Nat)
    (disk next : LocalDisk sha256) (phase : LocalPhase sha256) : Prop where
  origin : Origin path start next
  phase : PhaseHolds path attempt next phase
  keeps : Keeps path attempt disk next

variable {start : Option Node} {phase : LocalPhase sha256}

theorem moved_same (origin : Origin path start disk) (holds : PhaseHolds path attempt disk phase) :
    Moved path start attempt disk disk phase :=
  ⟨origin, holds, Keeps.refl path attempt disk⟩

theorem Origin.kept (origin : Origin path start disk) (keeps : Keeps path attempt disk next)
    (promotions : next.promotions = disk.promotions)
    (sameKey : next.files.nodes path = disk.files.nodes path)
    (started : ∀ winner put, disk.started winner = some put → next.started winner = some put) :
    Origin path start next := by
  rcases origin with ⟨nobody, key⟩ | ⟨winner, put, absent, once, began, found⟩
  · exact Or.inl ⟨promotions.trans nobody, sameKey.trans key⟩
  · exact Or.inr ⟨winner, put, absent, promotions.trans once, started winner put began,
      keeps.content found⟩

theorem compared_holds {comparison : Comparison} {outcome : Except Anyhow (Option Bool)}
    (began : disk.started attempt = some put) (holds : ComparisonHolds attempt disk comparison)
    (equal : outcome = .ok (some true) → KeyMatches path disk put) :
    PhaseHolds path attempt disk (compared path put outcome comparison) := by
  cases outcome with
  | error error =>
      cases comparison with
      | preflight => exact fun success => by cases success
      | race uuid link => exact ⟨began, holds, fun success => by cases success⟩
  | ok answer =>
      cases answer with
      | none =>
          cases comparison with
          | preflight => exact ⟨began, trivial⟩
          | race uuid link => exact ⟨began, holds, fun success => by cases success⟩
      | some same =>
          cases same with
          | false =>
              cases comparison with
              | preflight => exact fun success => by cases success
              | race uuid link => exact ⟨began, holds, fun success => by cases success⟩
          | true =>
              cases comparison with
              | preflight => exact fun _ => equal rfl
              | race uuid link => exact ⟨began, holds, fun _ => equal rfl⟩

theorem statStep_holds {answer : IoAnswer} {comparison : Comparison}
    (began : disk.started attempt = some put) (holds : ComparisonHolds attempt disk comparison) :
    PhaseHolds path attempt disk (statStep path disk put answer comparison) := by
  unfold statStep
  split
  · split
    · exact compared_holds began holds (by simp)
    · exact compared_holds began holds (by simp)
  · split
    · exact compared_holds began holds (by simp)
    · split
      · exact ⟨began, holds⟩
      · exact compared_holds began holds (by simp)

theorem openStep_holds {answer : IoAnswer} {comparison : Comparison}
    (began : disk.started attempt = some put) (holds : ComparisonHolds attempt disk comparison) :
    PhaseHolds path attempt disk (openStep path disk put answer comparison) := by
  unfold openStep
  split
  · exact compared_holds began holds (by simp)
  · split
    · exact compared_holds began holds (by simp)
    · exact compared_holds began holds (by simp)
    · rename_i inode named
      obtain ⟨content, found⟩ := Option.isSome_iff_exists.mp (disk.files.backed path inode named)
      exact ⟨began, holds, named, content, found, tracks_start content⟩

theorem hashStep_holds {answer : IoAnswer} {comparison : Comparison} {inode : Nat}
    {progress : HashProgress} (began : disk.started attempt = some put)
    (holds : PointHolds path attempt disk put (.hash comparison inode progress)) :
    PhaseHolds path attempt disk
      (hashStep path disk put answer comparison inode progress) := by
  obtain ⟨compares, named, content, found, tracks⟩ := holds
  unfold hashStep
  split
  · exact compared_holds began compares (by simp)
  · rw [found, Option.getD_some]
    split
    · rename_i later hashes
      exact ⟨began, compares, named, content, found, hashChunk_more tracks hashes⟩
    · rename_i len digest hashes
      refine compared_holds began compares ?_
      intro equal
      simp only [Except.ok.injEq, Option.some.injEq, Bool.and_eq_true, decide_eq_true_eq] at equal
      exact ⟨content, content_of_inode named found, hashChunk_done tracks hashes equal⟩
    · exact compared_holds began compares (by simp)

theorem stagingFailed_holds {uuid : Uuid} {doing : String} {error : IoError}
    (began : disk.started attempt = some put) (drawn : disk.drawn uuid = some attempt) :
    PhaseHolds path attempt disk (stagingFailed path put uuid doing error) :=
  ⟨began, drawn, fun success => by cases success⟩

theorem linkFailed_holds {uuid : Uuid} (error : IoError)
    (began : disk.started attempt = some put) (drawn : disk.drawn uuid = some attempt) :
    PhaseHolds path attempt disk (linkFailed path put uuid error) := by
  unfold linkFailed
  split
  · exact ⟨began, drawn⟩
  · exact ⟨began, drawn, fun success => by cases success⟩

theorem cleaned_holds {result : Except Anyhow Unit} (began : disk.started attempt = some put)
    (holds : result = .ok () → KeyMatches path disk put) :
    PhaseHolds path attempt disk (cleaned put result) := by
  cases result with
  | error error => exact fun success => by cases success
  | ok done => exact ⟨began, holds rfl⟩

theorem plainStep_moved {answer : IoAnswer} {failed : Except Anyhow Unit → LocalPhase sha256}
    (origin : Origin path start disk)
    (failure : ∀ error, PhaseHolds path attempt disk (failed (.error error)))
    (success : PhaseHolds path attempt disk phase) :
    Moved path start attempt disk disk (plainStep answer failed phase) := by
  unfold plainStep
  split
  · exact moved_same origin (failure _)
  · exact moved_same origin success

section Steps

variable {answer : IoAnswer} (origin : Origin path start disk)
  (began : disk.started attempt = some put)

include origin began

theorem createParentStep_moved
    (moved : createParentStep attempt disk put answer = some (next, phase)) :
    Moved path start attempt disk next phase := by
  unfold createParentStep at moved
  split at moved
  · cases moved
    exact moved_same origin fun success => by cases success
  · split at moved
    · contradiction
    · rename_i fresh
      cases moved
      have keeps := keeps_draw path attempt (by simpa using fresh)
      refine ⟨origin.kept keeps rfl rfl fun _ _ found => found, ⟨began, ?_⟩, keeps⟩
      exact Function.update_self _ _ _

theorem createStagingStep_moved {uuid : Uuid} (drawn : disk.drawn uuid = some attempt)
    (moved : createStagingStep path disk put answer uuid = some (next, phase)) :
    Moved path start attempt disk next phase := by
  unfold createStagingStep at moved
  split at moved
  · cases moved
    exact moved_same origin (stagingFailed_holds began drawn)
  · split at moved
    · cases moved
      exact moved_same origin (stagingFailed_holds began drawn)
    · split at moved
      · contradiction
      · rename_i fresh
        cases moved
        have absent : disk.files.inodes answer.inode = none := by simpa using fresh
        have keeps := keeps_create path drawn absent
        refine ⟨origin.kept keeps rfl ?_ fun _ _ found => found, ⟨began, ?_, [], ?_, rfl⟩, keeps⟩
        · exact Function.update_of_ne (temporary_ne path uuid) _ _
        · refine ⟨drawn, Function.update_self _ _ _, ?_⟩
          intro other named
          by_contra differs
          simp only [FileSystem.create, Function.update_of_ne differs] at named
          have backed := disk.files.backed _ _ named
          rw [absent] at backed
          contradiction
        · exact Function.update_self _ _ _

theorem writeStep_moved {uuid : Uuid} {inode : Nat} {rest : Bytes}
    (holds : PointHolds path attempt disk put (.write uuid inode rest))
    (moved : writeStep path disk put answer uuid inode rest = (next, phase)) :
    Moved path start attempt disk next phase := by
  obtain ⟨staged, written, found, whole⟩ := holds
  unfold writeStep at moved
  split at moved
  · rename_i nothing
    cases moved
    rw [nothing, List.append_nil] at whole
    exact moved_same origin ⟨began, staged, whole ▸ found⟩
  · split at moved
    · cases moved
      exact moved_same origin (stagingFailed_holds began staged.drawn)
    · cases moved
      have keeps := keeps_append staged (rest.take (max 1 answer.count))
      refine ⟨origin.kept keeps rfl rfl fun _ _ found => found, ⟨began, ?_⟩, keeps⟩
      refine ⟨⟨staged.drawn, staged.named, staged.only⟩,
        written ++ rest.take (max 1 answer.count), ?_, ?_⟩
      · simp only [FileSystem.append, Function.update_self, found, Option.map_some]
      · rw [List.append_assoc, List.take_append_drop, whole]

theorem linkStep_moved {uuid : Uuid} (holds : PointHolds path attempt disk put (.link uuid))
    (moved : linkStep path attempt disk put answer uuid = (next, phase)) :
    Moved path start attempt disk next phase := by
  obtain ⟨inode, staged, found⟩ := holds
  have failed := fun error => moved_same origin
    (linkFailed_holds error began staged.drawn)
  unfold linkStep at moved
  split at moved
  · cases moved
    exact failed _
  · rw [staged.named] at moved
    simp only at moved
    split at moved
    · cases moved
      exact failed _
    · rename_i absent
      cases moved
      have noKey : disk.files.nodes path = none := by simpa using absent
      have keeps := keeps_link staged noKey (attempt :: disk.promotions)
      have named : (disk.files.link (path.temporary uuid) path).nodes path =
          some (.file inode) := by
        simp only [FileSystem.link, Function.update_self, staged.named]
      have content := content_of_inode named found
      have holds : KeyMatches path { disk with
          files := disk.files.link (path.temporary uuid) path
          promotions := attempt :: disk.promotions } put :=
        ⟨put.bytes, content, rfl, put.recomputed.symm⟩
      refine ⟨?_, ⟨began, staged.drawn, fun _ => holds⟩, keeps⟩
      rcases origin with ⟨nobody, key⟩ | ⟨winner, other, -, -, -, taken⟩
      · exact Or.inr ⟨attempt, put, key ▸ noKey, by rw [nobody], began, content⟩
      · obtain ⟨target, before, -⟩ := content_some taken
        rw [noKey] at before
        contradiction

theorem cleanupStep_moved {uuid : Uuid} {result : Except Anyhow Unit}
    (holds : PointHolds path attempt disk put (.cleanup uuid result))
    (moved : cleanupStep path disk put answer uuid result = (next, phase)) :
    Moved path start attempt disk next phase := by
  obtain ⟨drawn, promoted⟩ := holds
  unfold cleanupStep at moved
  split at moved
  · split at moved
    · cases moved
      exact moved_same origin fun success => by cases success
    · cases moved
      exact moved_same origin (cleaned_holds began promoted)
  · cases moved
    have keeps := keeps_remove path drawn
    have origin' := origin.kept keeps rfl (Function.update_of_ne (temporary_ne path uuid) _ _)
      fun _ _ found => found
    exact ⟨origin', cleaned_holds began fun success => keeps.keyMatches (promoted success),
      keeps⟩

theorem advanceLocal_moved {point : LocalPoint} (holds : PointHolds path attempt disk put point)
    (moved : advanceLocal path attempt disk put answer point = some (next, phase)) :
    Moved path start attempt disk next phase := by
  cases point with
  | stat comparison =>
      cases moved
      exact moved_same origin (statStep_holds began holds)
  | openFile comparison =>
      cases moved
      exact moved_same origin (openStep_holds began holds)
  | hash comparison inode progress =>
      cases moved
      exact moved_same origin (hashStep_holds began holds)
  | createParent => exact createParentStep_moved origin began moved
  | createStaging uuid => exact createStagingStep_moved origin began holds moved
  | write uuid inode rest => exact writeStep_moved origin began holds (Option.some.inj moved)
  | flush uuid inode =>
      cases moved
      refine plainStep_moved origin ?_ ⟨began, holds⟩
      exact fun error => ⟨began, holds.1.drawn, fun success => by cases success⟩
  | sync uuid inode =>
      cases moved
      unfold syncStep
      split
      · exact moved_same origin (stagingFailed_holds began holds.1.drawn)
      · exact moved_same origin ⟨began, inode, holds⟩
  | link uuid => exact linkStep_moved origin began holds (Option.some.inj moved)
  | cleanup uuid result => exact cleanupStep_moved origin began holds (Option.some.inj moved)
  | openDirectory =>
      cases moved
      exact plainStep_moved origin (fun error success => by cases success) ⟨began, holds⟩
  | syncDirectory =>
      cases moved
      exact plainStep_moved origin (fun error success => by cases success) fun _ => holds

end Steps

theorem start_moved (origin : Origin path start disk) (idle : disk.started attempt = none)
    (put : VerifiedPut sha256) :
    Moved path start attempt disk
      { disk with started := Function.update disk.started attempt (some put) }
      (.running put (.stat .preflight)) := by
  have keeps : Keeps path attempt disk
      { disk with started := Function.update disk.started attempt (some put) } :=
    { Keeps.refl path attempt disk with
      started := fun other differ => Function.update_of_ne differ _ _ }
  refine ⟨origin.kept keeps rfl rfl ?_, ⟨Function.update_self _ _ _, trivial⟩, keeps⟩
  intro winner other found
  have differs : winner ≠ attempt := by
    rintro rfl
    rw [idle] at found
    contradiction
  exact (Function.update_of_ne differs _ _).trans found

theorem localMove_moved {action : LocalAction sha256} {before : LocalPhase sha256}
    (origin : Origin path start disk) (holds : PhaseHolds path attempt disk before)
    (moved : localMove path attempt disk before action = some (next, phase)) :
    Moved path start attempt disk next phase := by
  unfold localMove at moved
  split at moved
  · cases moved
    exact start_moved origin holds _
  · exact advanceLocal_moved origin holds.1 holds.2 moved
  · cases moved
    exact moved_same origin trivial
  · contradiction

/-- The proof outline of `put_local` on a key that `start` says what it names. -/
def outline (sha256 : Bytes → String) (path : LocalPath) (start : Option Node) :
    Outline (@localMove sha256 path) where
  invariant := Origin path start
  assertion := PhaseHolds path
  guarantee := Keeps path
  permits _ _ := True
  sequential := by
    intro agent disk next before phase action _ origin holds moved
    obtain ⟨origin', holds', keeps⟩ := localMove_moved origin holds moved
    exact ⟨origin', holds', keeps⟩
  stable differ holds keeps := phaseHolds_stable differ keeps holds

theorem outline_initial (files : FileSystem) :
    (outline sha256 path (files.nodes path)).Holds
      (Config.initial (LocalDisk.initial files) .idle) :=
  ⟨Or.inl ⟨rfl, rfl⟩, fun _ => rfl⟩

theorem content_kept {config final : Config (LocalDisk sha256) (LocalPhase sha256)}
    {events : List (Nat × LocalAction sha256)} (holds : (outline sha256 path start).Holds config)
    (run : exec (step (localMove path)) config events = some final) {content : Bytes}
    (found : config.shared.files.content path = some content) :
    final.shared.files.content path = some content :=
  (outline sha256 path start).relates_run
    (fun before after => ∀ content, before.files.content path = some content →
      after.files.content path = some content)
    (fun _ _ found => found) (fun _ _ _ first second content found =>
      second content (first content found))
    (fun _ _ _ keeps _ found => keeps.content found) (fun _ _ => trivial) holds run content found

/-! ## Any number of concurrent puts -/

/-- What a run of puts on one key does to it. -/
structure WriteOnce (sha256 : Bytes → String) (path : LocalPath) (files : FileSystem)
    (events : List (Nat × LocalAction sha256))
    (final : Config (LocalDisk sha256) (LocalPhase sha256)) : Prop where
  /-- The key is absent, or has all the bytes of the only put that was promoted. -/
  complete : files.nodes path = none →
    (final.shared.promotions = [] ∧ final.shared.files.nodes path = none) ∨
      ∃ winner put, final.shared.promotions = [winner] ∧
        final.shared.started winner = some put ∧
        final.shared.files.content path = some put.bytes
  unchanged : ∀ early late before content, events = early ++ late →
    exec (step (localMove path)) (Config.initial (LocalDisk.initial files) .idle) early =
      some before →
    before.shared.files.content path = some content →
      final.shared.files.content path = some content
  answered : ∀ attempt put, final.phases attempt = .finished put (.ok ()) →
    ∃ content, final.shared.files.content path = some content ∧
      content.length = put.bytes.length ∧ sha256 content = put.digest

theorem local_promotion_write_once {files : FileSystem}
    {events : List (Nat × LocalAction sha256)}
    {final : Config (LocalDisk sha256) (LocalPhase sha256)}
    (run : exec (step (localMove path)) (Config.initial (LocalDisk.initial files) .idle) events =
      some final) : WriteOnce sha256 path files events final := by
  have initial := @outline_initial sha256 path files
  obtain ⟨origin, phases⟩ :=
    (outline sha256 path (files.nodes path)).holds_run (fun _ _ => trivial) initial run
  constructor
  · intro absent
    rcases origin with ⟨nobody, key⟩ | ⟨winner, put, -, promoted⟩
    · exact Or.inl ⟨nobody, key.trans absent⟩
    · exact Or.inr ⟨winner, put, promoted⟩
  · rintro early late before content rfl reached found
    obtain ⟨middle, reached', rest⟩ := (exec_append_some (step (localMove path))).mp run
    rw [reached] at reached'
    obtain rfl := Option.some.inj reached'
    have here :=
      (outline sha256 path (files.nodes path)).holds_run (fun _ _ => trivial) initial reached
    exact content_kept here rest found
  · intro attempt put ended
    have holds := phases attempt
    rw [ended] at holds
    exact holds rfl

namespace Sample

def key : LocalPath := ⟨"store/artifacts", "atomic.zip"⟩

def emptyDisk : FileSystem where
  nodes _ := none
  inodes _ := none
  backed _ _ found := absurd found.symm (Option.some_ne_none _)

def call (attempt : Nat) (uuid : String) :
    Nat × LocalAction (tabulated VerifiedPut.sampleDigests) :=
  (attempt, .call ⟨none, 8, attempt, ⟨uuid⟩⟩)

/-- Two puts take their calls in turn; the second loses the link and compares. -/
def race : List (Nat × LocalAction (tabulated VerifiedPut.sampleDigests)) :=
  [(0, .start (.sample "alpha")), (1, .start (.sample "bravo"))] ++
    (List.replicate 11 [call 0 "u0", call 1 "u1"]).flatten ++ [call 1 "u1", call 1 "u1"]

end Sample

theorem local_promotion_write_once_sample :
    ∃ final, exec (step (localMove Sample.key))
        (Config.initial (LocalDisk.initial Sample.emptyDisk) .idle) Sample.race = some final ∧
      final.shared.files.content Sample.key = some (asBytes "alpha") ∧
      WriteOnce (tabulated VerifiedPut.sampleDigests) Sample.key Sample.emptyDisk Sample.race
        final := by
  have seen : ((exec (step (localMove Sample.key))
      (Config.initial (LocalDisk.initial Sample.emptyDisk) .idle) Sample.race).bind fun final =>
        final.shared.files.content Sample.key) = some (asBytes "alpha") := by
    decide +kernel
  obtain ⟨final, run, content⟩ := Option.bind_eq_some_iff.mp seen
  exact ⟨final, run, content, local_promotion_write_once run⟩

end ZedRegistry.LocalPut
