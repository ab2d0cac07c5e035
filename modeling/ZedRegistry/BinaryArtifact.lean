import Mathlib.Data.List.Sort
import ZedRegistry.CentralDirectory
import ZedRegistry.PublishRequest

/-!
# Verification of a binary ZIP

`verify_binary_zip` of `binary_artifact.rs`: one pass over the entries of the
archive, the checks of the descriptor against the manifest, the metadata and the
inventory, and a second pass that hashes every listed payload.
-/

set_option autoImplicit false

namespace ZedRegistry

/-! ## Limits -/

/-- `str::parse::<u64>`. -/
def parseU64 (text : String) : Option Nat :=
  let digits :=
    match text.toList with
    | '+' :: rest => rest
    | chars => chars
  if digits ≠ [] ∧ digits.all Char.isDigit = true ∧ Nat.ofDigitChars 10 digits 0 < 2 ^ 64 then
    some (Nat.ofDigitChars 10 digits 0)
  else none

def boundedU64Override (value : Option String) (ceiling : Nat) : Nat :=
  ((value.bind parseU64).filter fun value => 0 < value).elim ceiling fun value => min value ceiling

theorem boundedU64Override_le (value : Option String) (ceiling : Nat) :
    boundedU64Override value ceiling ≤ ceiling := by
  unfold boundedU64Override
  cases (value.bind parseU64).filter fun value => 0 < value with
  | none => exact Nat.le_refl _
  | some value => exact Nat.min_le_right _ _

theorem boundedU64Override_pos (value : Option String) {ceiling : Nat} (positive : 0 < ceiling) :
    0 < boundedU64Override value ceiling := by
  unfold boundedU64Override
  cases kept : (value.bind parseU64).filter fun value => 0 < value with
  | none => exact positive
  | some lowered =>
      have above : 0 < lowered := by simpa using (Option.filter_eq_some_iff.mp kept).2
      exact Nat.lt_min.mpr ⟨above, positive⟩

section Limits

variable {Extra : Type} (B : BinaryInterfaces Extra)

def maxBinaryArchiveBytes : Nat :=
  boundedU64Override (B.flags "ZED_MAX_BINARY_ARCHIVE_BYTES") (1024 * 1024 * 1024)

def maxBinaryExpandedBytes : Nat :=
  boundedU64Override (B.flags "ZED_MAX_BINARY_EXPANDED_BYTES") (2 * 1024 * 1024 * 1024)

def maxBinaryEntries : Nat := boundedU64Override (B.flags "ZED_MAX_BINARY_ENTRIES") 200000

def maxBinaryCompressionRatio : Nat :=
  boundedU64Override (B.flags "ZED_MAX_BINARY_COMPRESSION_RATIO") 1000

end Limits

def maxDescriptorBytes : Nat := 4 * 1024 * 1024

def maxPackageManifestBytes : Nat := 4 * 1024 * 1024

/-- `saturating_add` of `u64`. -/
def saturatingAdd (left right : Nat) : Nat := min (left + right) (2 ^ 64 - 1)

/-! ## Reading an entry -/

/-- The content that a sequence of reads delivers. -/
def inflated : List (Except String Bytes) → Except String Bytes
  | [] => .ok []
  | .error error :: _ => .error error
  | .ok chunk :: rest => if chunk = [] then .ok [] else (inflated rest).map (chunk ++ ·)

/-- `reader.take(room).read_to_end(..)`. -/
def takeToEnd (room : Nat) : List (Except String Bytes) → Except String Bytes
  | [] => .ok []
  | .error error :: _ => if room = 0 then .ok [] else .error error
  | .ok chunk :: rest =>
    if room = 0 ∨ chunk = [] then .ok []
    else (takeToEnd (room - chunk.length) rest).map (chunk.take room ++ ·)

def readSmallEntry (reads : List (Except String Bytes)) (limit : Nat) (name : String) :
    Except String Bytes := do
  let bytes ← (takeToEnd (saturatingAdd limit 1) reads).mapError fun error =>
    "reading `" ++ name ++ "` failed: " ++ error
  ensure (bytes.length ≤ limit)
    ("ZIP entry `" ++ name ++ "` exceeds the " ++ toString limit ++ "-byte limit")
  pure bytes

/-- The loop of `hash_zip_entry`; `hashed` is what went into the digest so far. -/
def hashZipEntry (sha256 : Bytes → String) (expectedSize : Nat) (hashed : Bytes) (size : Nat) :
    List (Except String Bytes) → Except String String
  | [] => finish hashed size
  | .error error :: _ => .error ("reading ZIP payload failed: " ++ error)
  | .ok chunk :: rest =>
    if chunk = [] then finish hashed size
    else
      match checkedAdd size chunk.length with
      | none => .error "ZIP payload size overflows u64"
      | some size =>
        if expectedSize < size then .error "ZIP payload exceeds its descriptor-declared size"
        else hashZipEntry sha256 expectedSize (hashed ++ chunk) size rest
where
  finish (hashed : Bytes) (size : Nat) : Except String String :=
    if size ≠ expectedSize then
      .error ("ZIP payload size mismatch: expected " ++ toString expectedSize ++ ", got " ++
        toString size)
    else .ok (sha256 hashed)

/-! ## Checks of one entry -/

def requireCanonicalZipMagic (archive : Bytes) : Except String Unit :=
  ensure (slice archive 0 4 = some [0x50, 0x4b, 0x03, 0x04])
    ("binary artifact is not a canonical ZIP; " ++ "self-extracting prefixes are forbidden")

def CompressionMethod.debug : CompressionMethod → String
  | .stored => "Stored"
  | .deflated => "Deflated"
  | .other debug => debug

/-- The checks of an entry that do not look at its path. -/
def checkEntryKind (rawName : String) (entry : ZipEntry) : Except String Unit := do
  ensure (entry.encrypted = false) ("ZIP entry `" ++ rawName ++ "` is encrypted")
  ensure (entry.compression = .stored ∨ entry.compression = .deflated)
    ("ZIP entry `" ++ rawName ++ "` uses unsupported compression " ++ entry.compression.debug)
  ensure (entry.isSymlink = false) ("ZIP entry `" ++ rawName ++ "` is a symlink")
  ensure (entry.isFile = true ∨ entry.isDir = true)
    ("ZIP entry `" ++ rawName ++ "` is neither a regular file nor a directory")
  ensure (entry.isDir = false ∨ entry.size = 0)
    ("ZIP directory entry `" ++ rawName ++ "` carries " ++ toString entry.size ++
      " bytes of data")
  match entry.unixMode with
  | none => pure ()
  | some mode =>
    let kind := mode &&& 0o170000
    ensure (kind = 0 ∨ (entry.isFile = true ∧ kind = 0o100000) ∨
        (entry.isDir = true ∧ kind = 0o040000))
      ("ZIP entry `" ++ rawName ++ "` carries unsupported Unix file type " ++
        String.ofList (Nat.toDigits 8 kind))

def trimSlashes (text : List Char) : List Char := text.rdropWhile fun char => char = '/'

/-- `strip_prefix`. -/
def stripFront (front text : List Char) : Option (List Char) :=
  if front <+: text then some (text.drop front.length) else none

variable (I : Interfaces) (B : BinaryInterfaces I.Extra)

/-- The path of an entry below `pkg/`; `none` is the directory `pkg/` itself. -/
def entryRelative (rawName : String) (entry : ZipEntry) : Except String (Option String) := do
  let enclosed ← okOrElse entry.enclosedName
    ("ZIP entry `" ++ rawName ++ "` escapes the archive root")
  let normalized := replaceBackslash enclosed.toList
  if entry.isDir = true ∧ trimSlashes normalized = binaryArchiveRoot.toList then do
    ensure (rawName = binaryArchiveRoot ++ "/")
      ("ZIP root directory `" ++ rawName ++ "` is not canonically encoded")
    pure none
  else do
    let below ← okOrElse (stripFront (binaryArchiveRoot ++ "/").toList normalized)
      ("ZIP entry `" ++ rawName ++ "` is not beneath `" ++ binaryArchiveRoot ++ "/`")
    let relative := String.ofList (trimSlashes below)
    B.validateSafeRelativePath "ZIP entry path" relative
    let canonicalName := binaryArchiveRoot ++ "/" ++ relative ++ (if entry.isDir then "/" else "")
    ensure (rawName = canonicalName)
      ("ZIP entry `" ++ rawName ++ "` is not canonically encoded as `" ++ canonicalName ++ "`")
    pure (some relative)

def enforceCompressionRatio (name : String) (expanded compressed : Nat) : Except String Unit :=
  if expanded = 0 then .ok ()
  else if compressed = 0 then .error ("ZIP entry `" ++ name ++ "` has zero compressed bytes")
  else
    let ratio := saturatingAdd expanded (compressed - 1) / compressed
    ensure (ratio ≤ maxBinaryCompressionRatio B)
      ("ZIP entry `" ++ name ++ "` has compression ratio " ++ toString ratio ++ ":1, above the " ++
        toString (maxBinaryCompressionRatio B) ++ ":1 limit")

/-! ## Path conflicts -/

def portablePathKey (path : String) : String :=
  B.toLowercase (String.ofList (replaceBackslash path.toList))

/-- What stands before each `/`, the shortest first. -/
def ancestors : List Char → List (List Char)
  | [] => []
  | char :: rest =>
    let below := (ancestors rest).map (char :: ·)
    if char = '/' then [] :: below else below

/-- `paths.range(start..).next()` of a `BTreeMap`. -/
def firstFrom (start : String) : List (String × String) → Option (String × String)
  | [] => none
  | path :: rest =>
    match firstFrom start rest with
    | none => if start ≤ path.1 then some path else none
    | some best => if start ≤ path.1 ∧ path.1 < best.1 then some path else some best

/-- The maps of the loop over the entries. -/
structure BinaryScan where
  regularFiles : List String
  portablePaths : List (String × String)
  portableRegularFiles : List String
  descriptorBytes : Option Bytes
  packageManifestBytes : Option Bytes
  expandedTotal : Nat

def BinaryScan.start : BinaryScan := ⟨[], [], [], none, none, 0⟩

def checkConflicts (scan : BinaryScan) (isFile : Bool) (relative portable : String) :
    Except String Unit := do
  match scan.portablePaths.lookup portable with
  | some existing => .error ("ZIP entries `" ++ existing ++ "` and `" ++ relative ++
      "` collide under portable path rules")
  | none =>
    checkEach (fun ancestor =>
        ensure (String.ofList ancestor ∉ scan.portableRegularFiles)
          ("ZIP file `" ++ String.ofList ancestor ++ "` is an ancestor of `" ++ relative ++ "`"))
      (ancestors portable.toList)
    if isFile then
      match firstFrom (portable ++ "/") scan.portablePaths with
      | none => .ok ()
      | some (path, existing) =>
        ensure (¬ (portable ++ "/").toList <+: path.toList)
          ("ZIP file `" ++ relative ++ "` is an ancestor of `" ++ existing ++ "`")
    else .ok ()

/-! ## The loop over the entries -/

/-- The reads of the descriptor and the manifest. -/
def keepContract (scan : BinaryScan) (relative : String) (entry : ZipEntry) :
    Except String BinaryScan :=
  if relative = binaryDescriptorPath then
    if scan.descriptorBytes.isSome then .error "binary ZIP has multiple descriptors"
    else do
      let bytes ← readSmallEntry entry.reads maxDescriptorBytes binaryDescriptorPath
      pure { scan with descriptorBytes := some bytes }
  else if relative = binaryPackageManifestPath then
    if scan.packageManifestBytes.isSome then .error "binary ZIP has multiple package manifests"
    else do
      let bytes ← readSmallEntry entry.reads maxPackageManifestBytes binaryPackageManifestPath
      pure { scan with packageManifestBytes := some bytes }
  else .ok scan

/-- A regular file whose path conflicts with nothing before it. -/
def scanFile (scan : BinaryScan) (rawName relative portable : String) (entry : ZipEntry) :
    Except String BinaryScan := do
  ensure (relative ∉ scan.regularFiles)
    ("binary ZIP contains duplicate file `" ++ relative ++ "`")
  enforceCompressionRatio I B rawName entry.size entry.compressedSize
  let expandedTotal ← okOrElse (checkedAdd scan.expandedTotal entry.size)
    "binary ZIP expanded size overflows u64"
  ensure (expandedTotal ≤ maxBinaryExpandedBytes B)
    ("binary ZIP expands past the " ++ toString (maxBinaryExpandedBytes B) ++ "-byte limit")
  keepContract { scan with
      regularFiles := relative :: scan.regularFiles
      portablePaths := (portable, relative) :: scan.portablePaths
      portableRegularFiles := portable :: scan.portableRegularFiles
      expandedTotal := expandedTotal } relative entry

def scanEntry (index : Nat) (scan : BinaryScan) (entry : ZipEntry) :
    Except String BinaryScan := do
  let rawName ← okOrElse (decodeUtf8 entry.nameRaw)
    ("ZIP entry " ++ toString index ++ " name is not UTF-8")
  checkEntryKind rawName entry
  match ← entryRelative I B rawName entry with
  | none => pure scan
  | some relative =>
    let portable := portablePathKey I B relative
    checkConflicts scan entry.isFile relative portable
    if entry.isDir then
      pure { scan with portablePaths := (portable, relative) :: scan.portablePaths }
    else scanFile I B scan rawName relative portable entry

def scanEntries (index : Nat) (scan : BinaryScan) :
    List (Except String ZipEntry) → Except String BinaryScan
  | [] => .ok scan
  | .error error :: _ =>
    .error ("opening ZIP entry " ++ toString index ++ " failed: " ++ error)
  | .ok entry :: rest => do
    let next ← scanEntry I B index scan entry
    scanEntries (index + 1) next rest

/-! ## The descriptor -/

variable [DecidableEq I.Extra]

/-- The descriptor of the archive, checked against the embedded manifest. -/
def readDescriptor (published : PublishMeta I.Extra I.Mirror) (scan : BinaryScan) :
    Except String (BinaryArtifactManifest B.Rest) := do
  let descriptorBytes ← okOrElse scan.descriptorBytes
    ("binary ZIP is missing `" ++ binaryDescriptorArchivePath ++ "`")
  let descriptor ← (B.parseDescriptor descriptorBytes).mapError fun error =>
    "parsing `" ++ binaryDescriptorArchivePath ++ "` failed: " ++ error
  let packageManifestBytes ← okOrElse scan.packageManifestBytes
    ("binary ZIP is missing `pkg/" ++ binaryPackageManifestPath ++ "`")
  let packageManifestText ← okOrElse (decodeUtf8 packageManifestBytes)
    "embedded `.zpkg.toml` is not UTF-8"
  let embeddedManifest ← (B.parseManifest packageManifestText).mapError fun error =>
    "parsing embedded `.zpkg.toml` failed: " ++ error
  B.validateAgainstManifest descriptor embeddedManifest
  let canonicalDescriptor ← B.canonicalJsonBytes descriptor
  ensure (descriptorBytes = canonicalDescriptor)
    ("`" ++ binaryDescriptorArchivePath ++ "` is not canonical JSON")
  ensure (embeddedManifest = published.manifest)
    "embedded `.zpkg.toml` does not exactly match publish metadata"
  pure descriptor

omit [DecidableEq I.Extra] in
def ensureDescriptorMatchesPublish (descriptor : BinaryArtifactManifest B.Rest)
    (published : PublishMeta I.Extra I.Mirror) : Except String Unit := do
  let source ← okOrElse descriptor.source
    "binary publication requires source provenance in `.zpkg-binary.json`"
  ensure (source.repository = published.manifest.package.repository.url)
    "binary descriptor source repository does not match publish metadata"
  ensure (source.vcsTag = published.vcsTag)
    "binary descriptor source tag does not match publish metadata"
  ensure (source.vcsCommit = published.vcsCommit)
    "binary descriptor source commit does not match publish metadata"

/-- A `BTreeSet` is iterated in the order of its elements. -/
def checkInventory (regularFiles : List String) (files : List BinaryFile) : Except String Unit := do
  checkEach (fun archiveFile =>
      ensure (archiveFile = binaryDescriptorPath ∨ archiveFile ∈ files.map BinaryFile.path)
        ("binary ZIP contains unlisted payload file `" ++ archiveFile ++ "`"))
    (regularFiles.insertionSort (· ≤ ·))
  checkEach (fun (descriptorFile : BinaryFile) =>
      ensure (descriptorFile.path ∈ regularFiles)
        ("binary descriptor lists missing payload file `" ++ descriptorFile.path ++ "`"))
    files
  ensure (saturatingAdd files.length 1 = regularFiles.length)
    "binary descriptor and archive payload counts differ"

def checkExecutable (expected : BinaryFile) : Option Nat → Except String Unit
  | none => .ok ()
  | some mode =>
    ensure (decide (mode &&& 0o111 ≠ 0) = expected.executable)
      ("payload `" ++ expected.path ++ "` executable mode disagrees with `" ++
        binaryDescriptorArchivePath ++ "`")

omit [DecidableEq I.Extra] in
/-- One payload of the second pass. -/
def checkPayload (reopened : ZipArchive) (expected : BinaryFile) : Except String Unit := do
  let archiveName := binaryArchiveRoot ++ "/" ++ expected.path
  let entry ← (reopened.byName archiveName).mapError fun error =>
    "opening `" ++ archiveName ++ "` for integrity verification failed: " ++ error
  checkExecutable expected entry.unixMode
  let actual ← hashZipEntry I.sha256 expected.size [] 0 entry.reads
  ensure (actual = expected.sha256)
    ("payload digest mismatch for `" ++ expected.path ++ "`: expected " ++ expected.sha256 ++
      ", got " ++ actual)

/-! ## The whole verification -/

def verifyBinaryZip (published : PublishMeta I.Extra I.Mirror) (archive : Bytes) :
    Except String (BinaryArtifactManifest B.Rest) := do
  ensure (archive.length ≤ maxBinaryArchiveBytes B)
    ("binary ZIP is " ++ toString archive.length ++ " bytes, above the " ++
      toString (maxBinaryArchiveBytes B) ++ "-byte limit")
  requireCanonicalZipMagic archive
  let opened ← (B.openZip archive).mapError fun error => "invalid binary ZIP: " ++ error
  let overlapping ← opened.hasOverlappingFiles.mapError fun error =>
    "checking overlapping ZIP entries failed: " ++ error
  ensure (overlapping = false) "binary ZIP contains overlapping file ranges; refusing"
  ensure (opened.entries.length ≤ maxBinaryEntries B)
    ("binary ZIP has " ++ toString opened.entries.length ++ " entries, above the " ++
      toString (maxBinaryEntries B) ++ "-entry limit")
  let scan ← scanEntries I B 0 .start opened.entries
  let descriptor ← readDescriptor I B published scan
  ensureDescriptorMatchesPublish I B descriptor published
  checkInventory scan.regularFiles descriptor.files
  let reopened ← (B.openZip archive).mapError fun error => "reopening binary ZIP failed: " ++ error
  checkEach (checkPayload I reopened) descriptor.files
  pure descriptor

namespace BinaryArtifact

/-- `binary_artifact::verify_publish` with the descriptor it returns. -/
def verifyPublish (published : PublishMeta I.Extra I.Mirror) (archive : Bytes) :
    Except String (Option (BinaryArtifactManifest B.Rest)) :=
  if published.format ≠ .zip then .ok none
  else if archive.length ≠ published.size then
    .error ("publish metadata declares " ++ toString published.size ++
      " bytes, but the upload contains " ++ toString archive.length)
  else do
    match ← descriptorPresence B archive with
    | .absent => pure none
    | .present => (verifyBinaryZip I B published archive).map some

/-- The three ways to be accepted. -/
theorem verifyPublish_ok {published : PublishMeta I.Extra I.Mirror} {archive : Bytes}
    {result : Option (BinaryArtifactManifest B.Rest)}
    (accepted : verifyPublish I B published archive = .ok result) :
    (published.format ≠ .zip ∧ result = none) ∨
      (descriptorPresence B archive = .ok .absent ∧ result = none) ∨
      ∃ descriptor, descriptorPresence B archive = .ok .present ∧
        verifyBinaryZip I B published archive = .ok descriptor ∧ result = some descriptor := by
  unfold verifyPublish at accepted
  split at accepted
  · rename_i other
    exact Or.inl ⟨other, (Except.ok.inj accepted).symm⟩
  · split at accepted
    · contradiction
    · obtain ⟨presence, found, verdict⟩ := bind_ok.mp accepted
      cases presence with
      | absent => exact Or.inr (Or.inl ⟨found, (Except.ok.inj verdict).symm⟩)
      | present =>
          cases outcome : verifyBinaryZip I B published archive with
          | error error =>
              rw [outcome] at verdict
              contradiction
          | ok descriptor =>
              rw [outcome] at verdict
              exact Or.inr (Or.inr ⟨descriptor, found, rfl, (Except.ok.inj verdict).symm⟩)

/-- The interfaces with this module in the place of the two functions left open. -/
def installed : Interfaces :=
  { I with
    descriptorPresence := fun archive =>
      (descriptorPresence B archive).map fun presence => decide (presence = .present)
    verifyBinaryZip := fun published archive =>
      (verifyBinaryZip I B published archive).map fun _ => () }

/-- What admission reads of this module is whether a descriptor was verified. -/
theorem verifyPublish_installed (published : PublishMeta I.Extra I.Mirror) (archive : Bytes) :
    ZedRegistry.verifyPublish (installed I B) published archive =
      (verifyPublish I B published archive).map Option.isSome := by
  unfold ZedRegistry.verifyPublish verifyPublish
  by_cases zip : published.format ≠ .zip
  · rw [if_pos zip, if_pos zip]
    rfl
  · rw [if_neg zip, if_neg zip]
    by_cases sized : archive.length ≠ published.size
    · rw [if_pos sized, if_pos sized]
      rfl
    · rw [if_neg sized, if_neg sized]
      simp only [installed]
      cases descriptorPresence B archive with
      | error error => rfl
      | ok presence =>
          cases presence with
          | absent => rfl
          | present =>
              cases verifyBinaryZip I B published archive with
              | error error => rfl
              | ok descriptor => rfl

end BinaryArtifact

/-! ## A concrete instance

Archives of stored files, as a writer without extra fields emits them.  The
reader's answers, descriptors and manifests come from tables. -/

def le16 (value : Nat) : Bytes := [UInt8.ofNat value, UInt8.ofNat (value / 256)]

def le32 (value : Nat) : Bytes := le16 value ++ le16 (value / 65536)

structure StoredFile where
  name : Bytes
  crc32 : Nat
  content : Bytes

namespace StoredFile

/-- From the version needed to the length of the extra field. -/
def fields (file : StoredFile) : Bytes :=
  le16 20 ++ le16 0 ++ le16 0 ++ le16 0 ++ le16 33 ++ le32 file.crc32 ++
    le32 file.content.length ++ le32 file.content.length ++ le16 file.name.length ++ le16 0

def localEntry (file : StoredFile) : Bytes :=
  [0x50, 0x4b, 0x03, 0x04] ++ file.fields ++ file.name ++ file.content

def centralEntry (localHeaderOffset : Nat) (file : StoredFile) : Bytes :=
  centralSignature ++ le16 (3 * 256 + 20) ++ file.fields ++ le16 0 ++ le16 0 ++ le16 0 ++ le32 0 ++
    le32 localHeaderOffset ++ file.name

def centralEntries (offset : Nat) : List StoredFile → Bytes
  | [] => []
  | file :: rest =>
    centralEntry offset file ++ centralEntries (offset + file.localEntry.length) rest

end StoredFile

def storedZip (files : List StoredFile) : Bytes :=
  let body := files.flatMap StoredFile.localEntry
  let directory := StoredFile.centralEntries 0 files
  body ++ directory ++ [0x50, 0x4b, 0x05, 0x06] ++ le16 0 ++ le16 0 ++ le16 files.length ++
    le16 files.length ++ le32 directory.length ++ le32 body.length ++ le16 0

/-- The entry the reader presents for a stored file. -/
def StoredFile.entry (file : StoredFile) (unixMode : Option Nat) (enclosedName : Option String) :
    ZipEntry where
  nameRaw := file.name
  encrypted := false
  compression := .stored
  isDir := file.name.getLast? = some '/'.toUInt8
  isSymlink := false
  size := file.content.length
  compressedSize := file.content.length
  unixMode := unixMode
  enclosedName := enclosedName
  reads := [.ok file.content]

/-- An archive of stored files as the reader opens it. -/
def ZipArchive.ofFiles (files : List StoredFile) (entries : List ZipEntry) : ZipArchive where
  centralDirectoryStart := (files.flatMap StoredFile.localEntry).length
  entries := entries.map Except.ok
  hasOverlappingFiles := .ok false
  byName name := okOrElse (entries.find? fun entry => entry.nameRaw = asBytes name)
    "specified file not found in archive"

def BinaryInterfaces.sample (archives : List (Bytes × ZipArchive))
    (descriptors : List (Bytes × BinaryArtifactManifest Unit))
    (manifests : List (String × Manifest (List String))) : BinaryInterfaces (List String) where
  Rest := Unit
  flags _ := none
  openZip archive := okOrElse (archives.lookup archive)
    "invalid Zip archive: Could not find central directory end"
  toLowercase := asciiLowercase
  validateSafeRelativePath field path :=
    ensure ((path.toList.splitOn '/').all (fun part =>
        decide (part ≠ [] ∧ part ≠ ['.'] ∧ part ≠ ['.', '.'])) = true)
      ("invalid value for " ++ field)
  parseDescriptor bytes := okOrElse (descriptors.lookup bytes)
    "expected value at line 1 column 1"
  parseManifest text := okOrElse (manifests.lookup text) "TOML parse error at line 1, column 1"
  validateAgainstManifest _ _ := .ok ()
  canonicalJsonBytes descriptor :=
    match descriptors.find? fun entry => entry.2 = descriptor with
    | some entry => .ok entry.1
    | none => .error "value is not serializable"

def toolManifest : Manifest (List String) where
  package := ⟨"acme", "tool", "1.0.0", some "a tool", "semver", [],
    ⟨"git", "https://git.example/tool"⟩⟩
  extra := ["MIT", "tool=bin/tool"]

/-- The metadata of an upload of `acme/tool`. -/
def toolMeta (archive : Bytes) : PublishMeta (List String) String where
  manifest := toolManifest
  sha256 := "9d1c"
  size := archive.length
  format := .zip
  vcsTag := "v1.0.0"
  vcsCommit := none
  publishedAt := none
  mirrors := []
  signatures := []

instance (digests : List (Bytes × String))
    (metas : List (String × PublishMeta (List String) String)) :
    DecidableEq (Interfaces.sample digests metas).Extra :=
  inferInstanceAs (DecidableEq (List String))

end ZedRegistry
