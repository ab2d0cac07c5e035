import Mathlib.Logic.Function.Basic
import ZedRegistry.Lib.RelyGuarantee
import ZedRegistry.StreamedHash

/-!
# The local put, one system call at a time

`put_local` as concurrent writers of one key take it.  The file system keeps
inodes apart from the names that lead to them, so that a hard link gives the
staged bytes a second name.  Every call may fail, and a writer may stop between
any two.
-/

set_option autoImplicit false

namespace ZedRegistry

/-! ## The file system -/

/-- `dir.join(key)` for a server-made key, which has both parts. -/
structure LocalPath where
  parent : String
  fileName : String
  deriving DecidableEq

def LocalPath.display (path : LocalPath) : String := path.parent ++ "/" ++ path.fileName

def LocalPath.temporary (path : LocalPath) (uuid : Uuid) : LocalPath where
  parent := path.parent
  fileName := "." ++ path.fileName ++ ".upload-" ++ uuid.hyphenated ++ ".tmp"

inductive Node where
  | file (inode : Nat)
  | directory
  deriving DecidableEq

/-- A name leads to an inode that has content. -/
structure FileSystem where
  nodes : LocalPath → Option Node
  inodes : Nat → Option Bytes
  backed : ∀ path inode, nodes path = some (.file inode) → (inodes inode).isSome

namespace FileSystem

def nodeContent (files : FileSystem) : Node → Option Bytes
  | .file inode => files.inodes inode
  | .directory => none

def content (files : FileSystem) (path : LocalPath) : Option Bytes :=
  (files.nodes path).bind files.nodeContent

def create (files : FileSystem) (path : LocalPath) (inode : Nat) : FileSystem where
  nodes := Function.update files.nodes path (some (.file inode))
  inodes := Function.update files.inodes inode (some [])
  backed := by
    intro other target found
    by_cases same : target = inode
    · simp [same]
    · by_cases samePath : other = path
      · simp only [samePath, Function.update_self, Option.some.injEq, Node.file.injEq] at found
        exact absurd found.symm same
      · rw [Function.update_of_ne samePath] at found
        rw [Function.update_of_ne same]
        exact files.backed other target found

def append (files : FileSystem) (inode : Nat) (chunk : Bytes) : FileSystem where
  nodes := files.nodes
  inodes := Function.update files.inodes inode ((files.inodes inode).map (· ++ chunk))
  backed := by
    intro other target found
    have before := files.backed other target found
    by_cases same : target = inode
    · subst same
      rw [Function.update_self, Option.isSome_map]
      exact before
    · rw [Function.update_of_ne same]
      exact before

def link (files : FileSystem) (source target : LocalPath) : FileSystem where
  nodes := Function.update files.nodes target (files.nodes source)
  inodes := files.inodes
  backed := by
    intro other inode found
    by_cases same : other = target
    · rw [same, Function.update_self] at found
      exact files.backed source inode found
    · rw [Function.update_of_ne same] at found
      exact files.backed other inode found

def remove (files : FileSystem) (path : LocalPath) : FileSystem where
  nodes := Function.update files.nodes path none
  inodes := files.inodes
  backed := by
    intro other inode found
    by_cases same : other = path
    · rw [same, Function.update_self] at found
      contradiction
    · rw [Function.update_of_ne same] at found
      exact files.backed other inode found

end FileSystem

inductive ErrorKind where
  | alreadyExists
  | notFound
  | other
  deriving DecidableEq

structure IoError where
  kind : ErrorKind
  message : String
  deriving DecidableEq

namespace IoError

def fileExists : IoError := ⟨.alreadyExists, "File exists (os error 17)"⟩

def noSuchFile : IoError := ⟨.notFound, "No such file or directory (os error 2)"⟩

def isADirectory : IoError := ⟨.other, "Is a directory (os error 21)"⟩

def notPermitted : IoError := ⟨.other, "Operation not permitted (os error 1)"⟩

end IoError

/-! ## Where a put is -/

/-- The two calls of `local_object_matches`; the second keeps the link's error. -/
inductive Comparison where
  | preflight
  | race (uuid : Uuid) (error : IoError)

inductive LocalPoint where
  | stat (comparison : Comparison)
  | openFile (comparison : Comparison)
  | hash (comparison : Comparison) (inode : Nat) (progress : HashProgress)
  | createParent
  | createStaging (uuid : Uuid)
  | write (uuid : Uuid) (inode : Nat) (rest : Bytes)
  | flush (uuid : Uuid) (inode : Nat)
  | sync (uuid : Uuid) (inode : Nat)
  | link (uuid : Uuid)
  | cleanup (uuid : Uuid) (result : Except Anyhow Unit)
  | openDirectory
  | syncDirectory

variable (sha256 : Bytes → String)

inductive LocalPhase where
  | idle
  | running (put : VerifiedPut sha256) (point : LocalPoint)
  | finished (put : VerifiedPut sha256) (result : Except Anyhow Unit)
  | crashed

/-- `started` and `drawn` say whose put and whose UUID it is, and `promotions`
lists the attempts whose hard link gave the key its name. -/
structure LocalDisk where
  files : FileSystem
  drawn : Uuid → Option Nat
  started : Nat → Option (VerifiedPut sha256)
  promotions : List Nat

/-- What the system answers to a call: an error, or how many bytes it moves, and
which inode and which UUID are new. -/
structure IoAnswer where
  failure : Option IoError
  count : Nat
  inode : Nat
  uuid : Uuid

inductive LocalAction where
  | start (put : VerifiedPut sha256)
  | call (answer : IoAnswer)
  | crash

variable {sha256}

/-! ## Steps -/

section Steps

variable (path : LocalPath) (attempt : Nat) (disk : LocalDisk sha256) (put : VerifiedPut sha256)

/-- What follows an answer of `local_object_matches`. -/
def compared (outcome : Except Anyhow (Option Bool)) : Comparison → LocalPhase sha256
  | .preflight =>
    match outcome with
    | .error error => .finished put (.error error)
    | .ok none => .running put .createParent
    | .ok (some true) => .finished put (.ok ())
    | .ok (some false) => .finished put (.error ["local artifact " ++ path.display ++
        " already exists with different immutable content"])
  | .race uuid error =>
    match outcome with
    | .error failure => .running put (.cleanup uuid (.error failure))
    | .ok none => .running put (.cleanup uuid (.error
        ["promoting local artifact " ++ path.display, error.message]))
    | .ok (some true) => .running put (.cleanup uuid (.ok ()))
    | .ok (some false) => .running put (.cleanup uuid (.error ["local artifact " ++ path.display ++
        " won a race with different immutable content"]))

def statStep (answer : IoAnswer) (comparison : Comparison) : LocalPhase sha256 :=
  match answer.failure with
  | some error =>
    if error.kind = .notFound then compared path put (.ok none) comparison
    else compared path put (.error [error.message]) comparison
  | none =>
    match disk.files.nodes path with
    | none => compared path put (.ok none) comparison
    | some node =>
      if (disk.files.nodeContent node).map List.length = some put.expected.len then
        .running put (.openFile comparison)
      else compared path put (.ok (some false)) comparison

def openStep (answer : IoAnswer) (comparison : Comparison) : LocalPhase sha256 :=
  match answer.failure with
  | some error => compared path put (.error [error.message]) comparison
  | none =>
    match disk.files.nodes path with
    | none => compared path put (.error [IoError.noSuchFile.message]) comparison
    | some .directory => compared path put (.error [IoError.isADirectory.message]) comparison
    | some (.file inode) => .running put (.hash comparison inode ⟨0, []⟩)

def hashStep (answer : IoAnswer) (comparison : Comparison) (inode : Nat)
    (progress : HashProgress) : LocalPhase sha256 :=
  match answer.failure with
  | some error => compared path put (.error [error.message]) comparison
  | none =>
    match hashChunk sha256 put.expected.len progress
        (readChunk ((disk.files.inodes inode).getD []) progress.len answer.count) with
    | .more next => .running put (.hash comparison inode next)
    | .done len digest => compared path put
        (.ok (some (len = put.expected.len && digest = put.expected.sha256))) comparison
    | .overflowed => compared path put
        (.error ["artifact length overflowed u64 while hashing"]) comparison

/-- A failed call on the staging file: the staging file is removed next. -/
def stagingFailed (uuid : Uuid) (doing : String) (error : IoError) : LocalPhase sha256 :=
  .running put (.cleanup uuid (.error
    [doing ++ " local artifact staging file " ++ (path.temporary uuid).display, error.message]))

def linkFailed (uuid : Uuid) (error : IoError) : LocalPhase sha256 :=
  if error.kind = .alreadyExists then .running put (.stat (.race uuid error))
  else .running put (.cleanup uuid (.error
    ["promoting local artifact " ++ path.display, error.message]))

def createParentStep (answer : IoAnswer) : Option (LocalDisk sha256 × LocalPhase sha256) :=
  match answer.failure with
  | some error => some (disk, .finished put (.error [error.message]))
  | none =>
    if (disk.drawn answer.uuid).isSome then none
    else some ({ disk with drawn := Function.update disk.drawn answer.uuid (some attempt) },
      .running put (.createStaging answer.uuid))

def createStagingStep (answer : IoAnswer) (uuid : Uuid) :
    Option (LocalDisk sha256 × LocalPhase sha256) :=
  match answer.failure with
  | some error => some (disk, stagingFailed path put uuid "creating" error)
  | none =>
    if (disk.files.nodes (path.temporary uuid)).isSome then
      some (disk, stagingFailed path put uuid "creating" .fileExists)
    else if (disk.files.inodes answer.inode).isSome then none
    else some ({ disk with files := disk.files.create (path.temporary uuid) answer.inode },
      .running put (.write uuid answer.inode put.bytes))

def writeStep (answer : IoAnswer) (uuid : Uuid) (inode : Nat) (rest : Bytes) :
    LocalDisk sha256 × LocalPhase sha256 :=
  if rest = [] then (disk, .running put (.flush uuid inode))
  else
    match answer.failure with
    | some error => (disk, stagingFailed path put uuid "writing" error)
    | none =>
      let written := max 1 answer.count
      ({ disk with files := disk.files.append inode (rest.take written) },
        .running put (.write uuid inode (rest.drop written)))

def linkStep (answer : IoAnswer) (uuid : Uuid) : LocalDisk sha256 × LocalPhase sha256 :=
  match answer.failure with
  | some error => (disk, linkFailed path put uuid error)
  | none =>
    match disk.files.nodes (path.temporary uuid) with
    | none => (disk, linkFailed path put uuid .noSuchFile)
    | some .directory => (disk, linkFailed path put uuid .notPermitted)
    | some (.file _) =>
      if (disk.files.nodes path).isSome then (disk, linkFailed path put uuid .fileExists)
      else
        ({ disk with
            files := disk.files.link (path.temporary uuid) path
            promotions := attempt :: disk.promotions },
          .running put (.cleanup uuid (.ok ())))

/-- After the removal of the staging file. -/
def cleaned (result : Except Anyhow Unit) : LocalPhase sha256 :=
  match result with
  | .ok () => .running put .openDirectory
  | .error error => .finished put (.error error)

def cleanupStep (answer : IoAnswer) (uuid : Uuid) (result : Except Anyhow Unit) :
    LocalDisk sha256 × LocalPhase sha256 :=
  match answer.failure with
  | some error =>
    if error.kind ≠ .notFound ∧ result.isOk = true then
      (disk, .finished put (.error ["removing local artifact staging file " ++
        (path.temporary uuid).display, error.message]))
    else (disk, cleaned put result)
  | none => ({ disk with files := disk.files.remove (path.temporary uuid) }, cleaned put result)

/-- A call with nothing to say about its failure but the error itself. -/
def plainStep (answer : IoAnswer) (failed : Except Anyhow Unit → LocalPhase sha256)
    (next : LocalPhase sha256) : LocalPhase sha256 :=
  match answer.failure with
  | some error => failed (.error [error.message])
  | none => next

def syncStep (answer : IoAnswer) (uuid : Uuid) : LocalPhase sha256 :=
  match answer.failure with
  | some error => stagingFailed path put uuid "syncing" error
  | none => .running put (.link uuid)

def advanceLocal (answer : IoAnswer) : LocalPoint → Option (LocalDisk sha256 × LocalPhase sha256)
  | .stat comparison => some (disk, statStep path disk put answer comparison)
  | .openFile comparison => some (disk, openStep path disk put answer comparison)
  | .hash comparison inode progress =>
    some (disk, hashStep path disk put answer comparison inode progress)
  | .createParent => createParentStep attempt disk put answer
  | .createStaging uuid => createStagingStep path disk put answer uuid
  | .write uuid inode rest => some (writeStep path disk put answer uuid inode rest)
  | .flush uuid inode => some (disk, plainStep answer
      (fun failed => .running put (.cleanup uuid failed)) (.running put (.sync uuid inode)))
  | .sync uuid _ => some (disk, syncStep path put answer uuid)
  | .link uuid => some (linkStep path attempt disk put answer uuid)
  | .cleanup uuid result => some (cleanupStep path disk put answer uuid result)
  | .openDirectory => some (disk, plainStep answer (.finished put) (.running put .syncDirectory))
  | .syncDirectory => some (disk, plainStep answer (.finished put) (.finished put (.ok ())))

end Steps

def localMove (path : LocalPath) :
    RelyGuarantee.Move (LocalDisk sha256) (LocalPhase sha256) (LocalAction sha256)
  | attempt, disk, .idle, .start put =>
    some ({ disk with started := Function.update disk.started attempt (some put) },
      .running put (.stat .preflight))
  | attempt, disk, .running put point, .call answer =>
    advanceLocal path attempt disk put answer point
  | _, disk, .running _ _, .crash => some (disk, .crashed)
  | _, _, _, _ => none

/-- Any file system, and no put yet. -/
def LocalDisk.initial (files : FileSystem) : LocalDisk sha256 where
  files := files
  drawn _ := none
  started _ := none
  promotions := []

end ZedRegistry
