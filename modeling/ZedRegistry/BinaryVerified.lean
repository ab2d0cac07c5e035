import ZedRegistry.BinaryArtifact

/-!
# An accepted binary ZIP is what its descriptor says

The pass over the entries keeps the regular files it has seen, all different, and
the size they expand to.  Set inclusions both ways and the count make the listed
paths a permutation of them, and the second pass binds each to its content.
-/

set_option autoImplicit false

namespace ZedRegistry

/-- The name of an archive entry below `pkg/`. -/
def payloadName (relative : String) : Bytes := asBytes (binaryArchiveRoot ++ "/" ++ relative)

theorem payloadName_injective : Function.Injective payloadName := by
  intro left right same
  have texts := congrArg String.toList (asBytes_injective same)
  simp only [String.toList_append] at texts
  exact String.toList_inj.mp (List.append_cancel_left texts)

theorem payloadName_descriptor :
    payloadName binaryDescriptorPath = asBytes binaryDescriptorArchivePath := by decide

namespace ZipArchive

/-- The entries of an archive that open. -/
def listed (archive : ZipArchive) : List ZipEntry := archive.entries.filterMap Except.toOption

theorem mem_listed {archive : ZipArchive} {entry : ZipEntry} :
    entry ∈ archive.listed ↔ .ok entry ∈ archive.entries := by
  unfold listed
  rw [List.mem_filterMap]
  constructor
  · rintro ⟨item, member, opened⟩
    cases item with
    | error error => contradiction
    | ok found => exact Option.some.inj opened ▸ member
  · intro member
    exact ⟨.ok entry, member, rfl⟩

/-- `by_name` finds the entry of that name. -/
def NamesEntries (archive : ZipArchive) : Prop :=
  ∀ name entry found, .ok entry ∈ archive.entries → entry.nameRaw = asBytes name →
    archive.byName name = .ok found → found = entry

end ZipArchive

def regularFiles (entries : List ZipEntry) : List ZipEntry :=
  entries.filter fun entry => entry.isFile

/-- The regular files other than the descriptor. -/
def payloads (entries : List ZipEntry) : List ZipEntry :=
  (regularFiles entries).filter fun entry =>
    decide (entry.nameRaw ≠ asBytes binaryDescriptorArchivePath)

/-! ## Reading -/

theorem takeToEnd_inflated {room : Nat} {reads : List (Except String Bytes)} {bytes : Bytes}
    (taken : takeToEnd room reads = .ok bytes) (short : bytes.length < room) :
    inflated reads = .ok bytes := by
  induction reads generalizing room bytes with
  | nil => exact taken
  | cons read rest ih =>
      have some : ¬ room = 0 := by omega
      cases read with
      | error error => simp [takeToEnd, some] at taken
      | ok chunk =>
          by_cases ends : chunk = []
          · simpa [takeToEnd, inflated, ends] using taken
          · simp only [takeToEnd, some, ends, or_self, if_false] at taken
            simp only [inflated, if_neg ends]
            cases later : takeToEnd (room - chunk.length) rest with
            | error error =>
                rw [later] at taken
                contradiction
            | ok tail =>
                rw [later] at taken
                obtain rfl := Except.ok.inj taken
                rw [List.length_append, List.length_take] at short
                have whole : chunk.take room = chunk := List.take_of_length_le (by omega)
                rw [ih later (by omega), whole]
                rfl

theorem readSmallEntry_ok {reads : List (Except String Bytes)} {limit : Nat} {name : String}
    {bytes : Bytes} (fits : limit < 2 ^ 64 - 1)
    (read : readSmallEntry reads limit name = .ok bytes) : inflated reads = .ok bytes := by
  simp only [readSmallEntry, bind_ok, mapError_ok, ensure_ok] at read
  obtain ⟨taken, delivered, _, short, same⟩ := read
  obtain rfl := Except.ok.inj same
  refine takeToEnd_inflated delivered ?_
  unfold saturatingAdd
  omega

/-- The digest of a payload is the digest of all it delivers, of the expected size. -/
theorem hashZipEntry_ok {sha256 : Bytes → String} {expectedSize size : Nat} {hashed : Bytes}
    {reads : List (Except String Bytes)} {digest : String} (counted : size = hashed.length)
    (accepted : hashZipEntry sha256 expectedSize hashed size reads = .ok digest) :
    ∃ content, inflated reads = .ok content ∧ (hashed ++ content).length = expectedSize ∧
      digest = sha256 (hashed ++ content) := by
  have finished : ∀ {hashed : Bytes} {size : Nat}, size = hashed.length →
      hashZipEntry.finish sha256 expectedSize hashed size = .ok digest →
      (hashed ++ []).length = expectedSize ∧ digest = sha256 (hashed ++ []) := by
    intro hashed size counted accepted
    unfold hashZipEntry.finish at accepted
    split at accepted
    · contradiction
    · rename_i exact
      rw [List.append_nil]
      exact ⟨by omega, (Except.ok.inj accepted).symm⟩
  induction reads generalizing hashed size with
  | nil => exact ⟨[], rfl, finished counted accepted⟩
  | cons read rest ih =>
      cases read with
      | error error => contradiction
      | ok chunk =>
          unfold hashZipEntry at accepted
          unfold inflated
          by_cases ends : chunk = []
          · rw [if_pos ends] at accepted ⊢
            exact ⟨[], rfl, finished counted accepted⟩
          · rw [if_neg ends] at accepted ⊢
            cases added : checkedAdd size chunk.length with
            | none => simp [added] at accepted
            | some total =>
                simp only [added] at accepted
                split at accepted
                · contradiction
                · have sum := checkedAdd_some added
                  obtain ⟨content, delivered, sized, digested⟩ :=
                    ih (by rw [List.length_append]; omega) accepted
                  rw [List.append_assoc] at sized digested
                  exact ⟨chunk ++ content, by rw [delivered]; rfl, sized, digested⟩

/-! ## One entry -/

variable (I : Interfaces) (B : BinaryInterfaces I.Extra)

/-- The spelling the archive must use for the path below `pkg/` that the reader reports. -/
def CanonicallyNamed (entry : ZipEntry) (relative : String) : Prop :=
  (∃ enclosed below, entry.enclosedName = some enclosed ∧
      stripFront (binaryArchiveRoot ++ "/").toList (replaceBackslash enclosed.toList) = some below ∧
      relative = String.ofList (trimSlashes below)) ∧
    B.validateSafeRelativePath "ZIP entry path" relative = .ok () ∧
    entry.nameRaw = payloadName (relative ++ if entry.isDir then "/" else "")

def EntryPlaced (entry : ZipEntry) : Prop :=
  (entry.isDir = true ∧ entry.nameRaw = asBytes "pkg/") ∨
    ∃ relative, CanonicallyNamed I B entry relative

theorem checkEntryKind_ok {rawName : String} {entry : ZipEntry} {result : Unit}
    (accepted : checkEntryKind rawName entry = .ok result) :
    entry.encrypted = false ∧ entry.isSymlink = false := by
  simp only [checkEntryKind, bind_ok, ensure_ok] at accepted
  obtain ⟨_, plain, _, _, _, direct, _⟩ := accepted
  exact ⟨plain, direct⟩

theorem entryRelative_ok {rawName : String} {entry : ZipEntry} {relative : Option String}
    (named : entry.nameRaw = asBytes rawName)
    (accepted : entryRelative I B rawName entry = .ok relative) :
    (relative = none ∧ entry.isDir = true ∧ entry.nameRaw = asBytes "pkg/") ∨
      ∃ path, relative = some path ∧ CanonicallyNamed I B entry path := by
  simp only [entryRelative, bind_ok, okOrElse_ok] at accepted
  obtain ⟨enclosed, reported, placed⟩ := accepted
  split at placed
  · rename_i root
    simp only [bind_ok, ensure_ok] at placed
    obtain ⟨_, canonical, built⟩ := placed
    refine Or.inl ⟨(Except.ok.inj built).symm, root.1, ?_⟩
    rw [named, canonical]
    rfl
  · simp only [bind_ok, ensure_ok, okOrElse_ok] at placed
    obtain ⟨below, stripped, _, safe, _, canonical, built⟩ := placed
    refine Or.inr ⟨_, (Except.ok.inj built).symm, ⟨enclosed, below, reported, stripped, rfl⟩,
      safe, ?_⟩
    rw [named, canonical, payloadName, String.append_assoc]

/-- The addition saturates only where a file is smaller than what it is compressed to. -/
theorem enforceCompressionRatio_ok {name : String} {expanded compressed : Nat} {result : Unit}
    (accepted : enforceCompressionRatio I B name expanded compressed = .ok result)
    (small : expanded < 2 ^ 63) :
    expanded ≤ maxBinaryCompressionRatio B * compressed := by
  have positive : 0 < maxBinaryCompressionRatio B := boundedU64Override_pos _ (by decide)
  by_cases shrinks : compressed < expanded
  · unfold enforceCompressionRatio at accepted
    rw [if_neg (by omega)] at accepted
    split at accepted
    · contradiction
    · have bounded := ensure_ok.mp accepted
      have exact : saturatingAdd expanded (compressed - 1) = expanded + (compressed - 1) := by
        unfold saturatingAdd
        omega
      rw [exact] at bounded
      have below := (Nat.div_le_iff_le_mul (by omega)).mp bounded
      omega
  · calc expanded ≤ 1 * compressed := by omega
      _ ≤ maxBinaryCompressionRatio B * compressed := Nat.mul_le_mul_right _ positive

/-- What the reads of the descriptor and the manifest leave as it was, and what they fill. -/
theorem keepContract_ok {scan next : BinaryScan} {relative : String} {entry : ZipEntry}
    (accepted : keepContract scan relative entry = .ok next) :
    next.regularFiles = scan.regularFiles ∧ next.expandedTotal = scan.expandedTotal ∧
      (∀ bytes, next.descriptorBytes = some bytes → scan.descriptorBytes = some bytes ∨
        (relative = binaryDescriptorPath ∧ inflated entry.reads = .ok bytes)) ∧
      (∀ bytes, next.packageManifestBytes = some bytes → scan.packageManifestBytes = some bytes ∨
        (relative = binaryPackageManifestPath ∧ inflated entry.reads = .ok bytes)) := by
  unfold keepContract at accepted
  split at accepted
  · rename_i descriptor
    split at accepted
    · contradiction
    · simp only [bind_ok] at accepted
      obtain ⟨content, read, built⟩ := accepted
      obtain rfl := Except.ok.inj built
      refine ⟨rfl, rfl, ?_, fun bytes kept => Or.inl kept⟩
      intro bytes filled
      rw [← Option.some.inj filled]
      exact Or.inr ⟨descriptor, readSmallEntry_ok (by decide) read⟩
  · split at accepted
    · rename_i manifest
      split at accepted
      · contradiction
      · simp only [bind_ok] at accepted
        obtain ⟨content, read, built⟩ := accepted
        obtain rfl := Except.ok.inj built
        refine ⟨rfl, rfl, fun bytes kept => Or.inl kept, ?_⟩
        intro bytes filled
        rw [← Option.some.inj filled]
        exact Or.inr ⟨manifest, readSmallEntry_ok (by decide) read⟩
    · obtain rfl := Except.ok.inj accepted
      exact ⟨rfl, rfl, fun bytes kept => Or.inl kept, fun bytes kept => Or.inl kept⟩

/-! ## The pass over the entries -/

/-- What is kept of a path was read from a regular file of that name. -/
def KeptFrom (seen : List ZipEntry) (path : String) (kept : Option Bytes) : Prop :=
  ∀ bytes, kept = some bytes → ∃ entry ∈ regularFiles seen,
    entry.nameRaw = payloadName path ∧ inflated entry.reads = .ok bytes

/-- What the pass has established of the entries it has seen. -/
structure Scanned (seen : List ZipEntry) (scan : BinaryScan) : Prop where
  plain : ∀ entry ∈ seen, entry.encrypted = false ∧ entry.isSymlink = false
  placed : ∀ entry ∈ seen, EntryPlaced I B entry
  named : (regularFiles seen).map ZipEntry.nameRaw = (scan.regularFiles.map payloadName).reverse
  distinct : scan.regularFiles.Nodup
  ratio : ∀ entry ∈ regularFiles seen,
    entry.size ≤ maxBinaryCompressionRatio B * entry.compressedSize
  total : ((regularFiles seen).map ZipEntry.size).sum = scan.expandedTotal
  limited : scan.expandedTotal ≤ maxBinaryExpandedBytes B
  descriptor : KeptFrom seen binaryDescriptorPath scan.descriptorBytes
  manifest : KeptFrom seen binaryPackageManifestPath scan.packageManifestBytes

theorem scanned_start : Scanned I B [] .start where
  plain := by simp
  placed := by simp
  named := rfl
  distinct := List.nodup_nil
  ratio := by simp [regularFiles]
  total := rfl
  limited := Nat.zero_le _
  descriptor := by simp [KeptFrom, BinaryScan.start]
  manifest := by simp [KeptFrom, BinaryScan.start]

theorem regularFiles_append_dir {seen : List ZipEntry} {entry : ZipEntry}
    (directory : entry.isDir = true) : regularFiles (seen ++ [entry]) = regularFiles seen := by
  simp [regularFiles, ZipEntry.isFile, directory]

theorem regularFiles_append_file {seen : List ZipEntry} {entry : ZipEntry}
    (file : entry.isFile = true) :
    regularFiles (seen ++ [entry]) = regularFiles seen ++ [entry] := by
  simp [regularFiles, file]

theorem KeptFrom.append_file {seen : List ZipEntry} {entry : ZipEntry} {path relative : String}
    {old new : Option Bytes} (before : KeptFrom seen path old) (isFile : entry.isFile = true)
    (named : entry.nameRaw = payloadName relative)
    (filled : ∀ bytes, new = some bytes →
      old = some bytes ∨ (relative = path ∧ inflated entry.reads = .ok bytes)) :
    KeptFrom (seen ++ [entry]) path new := by
  intro bytes kept
  rw [regularFiles_append_file isFile]
  rcases filled bytes kept with earlier | ⟨here, content⟩
  · obtain ⟨other, member, facts⟩ := before bytes earlier
    exact ⟨other, List.mem_append_left _ member, facts⟩
  · exact ⟨entry, List.mem_append_right _ (List.mem_singleton_self entry), here ▸ named, content⟩

/-- A directory adds nothing to the regular files. -/
theorem Scanned.directory {seen : List ZipEntry} {scan next : BinaryScan} {entry : ZipEntry}
    (before : Scanned I B seen scan)
    (plain : entry.encrypted = false ∧ entry.isSymlink = false)
    (placed : EntryPlaced I B entry) (isDir : entry.isDir = true)
    (same : next.regularFiles = scan.regularFiles ∧ next.expandedTotal = scan.expandedTotal ∧
      next.descriptorBytes = scan.descriptorBytes ∧
      next.packageManifestBytes = scan.packageManifestBytes) :
    Scanned I B (seen ++ [entry]) next := by
  obtain ⟨files, total, descriptor, manifest⟩ := same
  refine ⟨?_, ?_, ?_, ?_, ?_, ?_, ?_, ?_, ?_⟩
  · exact List.forall_mem_append.mpr ⟨before.plain, List.forall_mem_singleton.mpr plain⟩
  · exact List.forall_mem_append.mpr ⟨before.placed, List.forall_mem_singleton.mpr placed⟩
  · rw [regularFiles_append_dir isDir, files]
    exact before.named
  · rw [files]
    exact before.distinct
  · rw [regularFiles_append_dir isDir]
    exact before.ratio
  · rw [regularFiles_append_dir isDir, total]
    exact before.total
  · rw [total]
    exact before.limited
  · rw [KeptFrom, regularFiles_append_dir isDir, descriptor]
    exact before.descriptor
  · rw [KeptFrom, regularFiles_append_dir isDir, manifest]
    exact before.manifest

/-- A file is new, within the limits, and kept when it is part of the contract. -/
theorem Scanned.file {seen : List ZipEntry} {scan next : BinaryScan} {entry : ZipEntry}
    {rawName relative portable : String} (before : Scanned I B seen scan)
    (plain : entry.encrypted = false ∧ entry.isSymlink = false)
    (canonical : CanonicallyNamed I B entry relative) (isDir : entry.isDir = false)
    (accepted : scanFile I B scan rawName relative portable entry = .ok next) :
    Scanned I B (seen ++ [entry]) next := by
  simp only [scanFile, bind_ok, ensure_ok, okOrElse_ok] at accepted
  obtain ⟨_, fresh, _, ratio, total, added, _, limited, kept⟩ := accepted
  obtain ⟨files, expanded, descriptor, manifest⟩ := keepContract_ok kept
  have sum := checkedAdd_some added
  have ceiling : maxBinaryExpandedBytes B ≤ 2 * 1024 * 1024 * 1024 := boundedU64Override_le _ _
  have isFile : entry.isFile = true := by simp [ZipEntry.isFile, isDir, plain.2]
  have named : entry.nameRaw = payloadName relative := by
    rw [canonical.2.2, isDir, if_neg Bool.false_ne_true, String.append_empty]
  have grown : regularFiles (seen ++ [entry]) = regularFiles seen ++ [entry] :=
    regularFiles_append_file isFile
  refine ⟨?_, ?_, ?_, ?_, ?_, ?_, ?_, ?_, ?_⟩
  · exact List.forall_mem_append.mpr ⟨before.plain, List.forall_mem_singleton.mpr plain⟩
  · exact List.forall_mem_append.mpr
      ⟨before.placed, List.forall_mem_singleton.mpr (Or.inr ⟨relative, canonical⟩)⟩
  · rw [grown, List.map_append, before.named, files]
    simp [named]
  · rw [files]
    exact List.nodup_cons.mpr ⟨fresh, before.distinct⟩
  · rw [grown]
    refine List.forall_mem_append.mpr ⟨before.ratio, List.forall_mem_singleton.mpr ?_⟩
    exact enforceCompressionRatio_ok I B ratio (by omega)
  · rw [grown, List.map_append, List.sum_append, before.total, expanded]
    simp [sum]
  · rw [expanded]
    exact limited
  · exact before.descriptor.append_file isFile named descriptor
  · exact before.manifest.append_file isFile named manifest

theorem scanEntry_scanned {seen : List ZipEntry} {scan next : BinaryScan} {index : Nat}
    {entry : ZipEntry} (before : Scanned I B seen scan)
    (accepted : scanEntry I B index scan entry = .ok next) :
    Scanned I B (seen ++ [entry]) next := by
  simp only [scanEntry, bind_ok, okOrElse_ok] at accepted
  obtain ⟨rawName, decoded, _, kind, found, relates, step⟩ := accepted
  have plain := checkEntryKind_ok kind
  rcases entryRelative_ok I B (decodeUtf8_some.mp decoded) relates with
    ⟨rfl, isDir, root⟩ | ⟨relative, rfl, canonical⟩
  · obtain rfl := Except.ok.inj step
    exact before.directory I B plain (Or.inl ⟨isDir, root⟩) isDir ⟨rfl, rfl, rfl, rfl⟩
  · simp only [bind_ok] at step
    obtain ⟨_, _, step⟩ := step
    by_cases isDir : entry.isDir = true
    · rw [if_pos isDir] at step
      obtain rfl := Except.ok.inj step
      exact before.directory I B plain (Or.inr ⟨relative, canonical⟩) isDir ⟨rfl, rfl, rfl, rfl⟩
    · rw [if_neg isDir] at step
      exact before.file I B plain canonical (Bool.eq_false_iff.mpr isDir) step

theorem scanEntries_scanned {seen : List ZipEntry} {scan final : BinaryScan} {index : Nat}
    {entries : List (Except String ZipEntry)} (before : Scanned I B seen scan)
    (accepted : scanEntries I B index scan entries = .ok final) :
    (∀ item ∈ entries, ∃ entry, item = .ok entry) ∧
      Scanned I B (seen ++ entries.filterMap Except.toOption) final := by
  induction entries generalizing seen scan index with
  | nil =>
      obtain rfl := Except.ok.inj accepted
      exact ⟨by simp, by simpa using before⟩
  | cons item rest ih =>
      cases item with
      | error error => contradiction
      | ok entry =>
          simp only [scanEntries, bind_ok] at accepted
          obtain ⟨next, step, later⟩ := accepted
          obtain ⟨opens, scanned⟩ := ih (scanEntry_scanned I B before step) later
          refine ⟨List.forall_mem_cons.mpr ⟨⟨entry, rfl⟩, opens⟩, ?_⟩
          rw [List.append_assoc] at scanned
          exact scanned

/-! ## The inventory -/

/-- Inclusions both ways, the count and distinct archive files make the listed paths
a permutation of the archive files without the descriptor. -/
theorem checkInventory_ok {archiveFiles : List String} {files : List BinaryFile} {result : Unit}
    (accepted : checkInventory archiveFiles files = .ok result) (distinct : archiveFiles.Nodup)
    (few : archiveFiles.length < 2 ^ 64 - 1) (described : binaryDescriptorPath ∈ archiveFiles) :
    (archiveFiles.erase binaryDescriptorPath).Perm (files.map BinaryFile.path) := by
  simp only [checkInventory, bind_ok, checkEach_ok, ensure_ok, List.mem_insertionSort] at accepted
  obtain ⟨_, unlisted, _, _, counted⟩ := accepted
  have included : archiveFiles.erase binaryDescriptorPath ⊆ files.map BinaryFile.path := by
    intro path member
    obtain ⟨other, inArchive⟩ := (distinct.mem_erase_iff).mp member
    rcases unlisted path inArchive with same | listed
    · exact absurd same other
    · exact listed
  apply ((distinct.erase binaryDescriptorPath).subperm included).perm_of_length_le
  rw [List.length_map, List.length_erase_of_mem described]
  unfold saturatingAdd at counted
  omega

/-! ## The accepted archive -/

variable [DecidableEq I.Extra]

theorem readDescriptor_ok {published : PublishMeta I.Extra I.Mirror} {scan : BinaryScan}
    {descriptor : BinaryArtifactManifest B.Rest}
    (accepted : readDescriptor I B published scan = .ok descriptor) :
    (∃ bytes, scan.descriptorBytes = some bytes ∧ B.parseDescriptor bytes = .ok descriptor ∧
        B.canonicalJsonBytes descriptor = .ok bytes) ∧
      ∃ text, scan.packageManifestBytes = some (asBytes text) ∧
        B.parseManifest text = .ok published.manifest := by
  simp only [readDescriptor, bind_ok, okOrElse_ok, mapError_ok, ensure_ok] at accepted
  obtain ⟨bytes, kept, parsed, parses, manifestBytes, keptManifest, text, decoded, embedded,
    parsesManifest, _, _, _, canonical, _, same, _, agrees, built⟩ := accepted
  obtain rfl := Except.ok.inj built
  refine ⟨⟨bytes, kept, parses, same ▸ canonical⟩, text, ?_, agrees ▸ parsesManifest⟩
  rw [keptManifest, decodeUtf8_some.mp decoded]

omit [DecidableEq I.Extra] in
theorem ensureDescriptorMatchesPublish_ok {published : PublishMeta I.Extra I.Mirror}
    {descriptor : BinaryArtifactManifest B.Rest} {result : Unit}
    (accepted : ensureDescriptorMatchesPublish I B descriptor published = .ok result) :
    descriptor.source = some
      ⟨published.manifest.package.repository.url, published.vcsTag, published.vcsCommit⟩ := by
  simp only [ensureDescriptorMatchesPublish, bind_ok, okOrElse_ok, ensure_ok] at accepted
  obtain ⟨⟨repository, vcsTag, vcsCommit⟩, provided, _, rfl, _, rfl, rfl⟩ := accepted
  exact provided

/-- A payload of the descriptor: its content, and its executable bits where it has a mode. -/
structure PayloadVerified (entry : ZipEntry) (file : BinaryFile) : Prop where
  content : ∃ content, inflated entry.reads = .ok content ∧ content.length = file.size ∧
    I.sha256 content = file.sha256
  executable : ∀ mode, entry.unixMode = some mode →
    (mode &&& 0o111 ≠ 0 ↔ file.executable = true)

omit [DecidableEq I.Extra] in
theorem checkPayload_ok {reopened : ZipArchive} {file : BinaryFile} {result : Unit}
    (accepted : checkPayload I reopened file = .ok result) :
    ∃ entry, reopened.byName (binaryArchiveRoot ++ "/" ++ file.path) = .ok entry ∧
      PayloadVerified I entry file := by
  simp only [checkPayload, bind_ok, mapError_ok, ensure_ok] at accepted
  obtain ⟨entry, found, _, executable, digest, hashed, agrees⟩ := accepted
  obtain ⟨content, delivered, sized, digested⟩ := hashZipEntry_ok rfl hashed
  refine ⟨entry, found, ⟨content, delivered, sized, digested ▸ agrees⟩, ?_⟩
  intro mode given
  rw [given] at executable
  have same := ensure_ok.mp executable
  rw [← same, decide_eq_true_iff]

/-- The archive is exactly what the descriptor says. -/
structure DescribedExactly (published : PublishMeta I.Extra I.Mirror) (opened : ZipArchive)
    (descriptor : BinaryArtifactManifest B.Rest) : Prop where
  opens : ∀ item ∈ opened.entries, ∃ entry, item = .ok entry
  distinct : ((regularFiles opened.listed).map ZipEntry.nameRaw).Nodup
  inventory : ((payloads opened.listed).map ZipEntry.nameRaw).Perm
    (descriptor.files.map fun file => payloadName file.path)
  payload : ∀ entry ∈ payloads opened.listed, ∀ file ∈ descriptor.files,
    entry.nameRaw = payloadName file.path → PayloadVerified I entry file
  placed : ∀ entry ∈ opened.listed, EntryPlaced I B entry
  plain : ∀ entry ∈ opened.listed, entry.encrypted = false ∧ entry.isSymlink = false
  canonical : ∃ entry ∈ regularFiles opened.listed, ∃ bytes,
    entry.nameRaw = asBytes binaryDescriptorArchivePath ∧ inflated entry.reads = .ok bytes ∧
      B.parseDescriptor bytes = .ok descriptor ∧ B.canonicalJsonBytes descriptor = .ok bytes
  manifest : ∃ entry ∈ regularFiles opened.listed, ∃ text,
    entry.nameRaw = payloadName binaryPackageManifestPath ∧
      inflated entry.reads = .ok (asBytes text) ∧ B.parseManifest text = .ok published.manifest
  source : descriptor.source = some
    ⟨published.manifest.package.repository.url, published.vcsTag, published.vcsCommit⟩
  ratio : ∀ entry ∈ regularFiles opened.listed,
    entry.size ≤ maxBinaryCompressionRatio B * entry.compressedSize
  total : ((regularFiles opened.listed).map ZipEntry.size).sum ≤ maxBinaryExpandedBytes B

omit [DecidableEq I.Extra] in
theorem Scanned.mem_regularFiles {seen : List ZipEntry} {scan : BinaryScan} {entry : ZipEntry}
    {path : String} (scanned : Scanned I B seen scan) (member : entry ∈ regularFiles seen)
    (named : entry.nameRaw = payloadName path) : path ∈ scan.regularFiles := by
  have listed : entry.nameRaw ∈ (regularFiles seen).map ZipEntry.nameRaw :=
    List.mem_map_of_mem member
  rw [scanned.named, List.mem_reverse, named, List.mem_map] at listed
  obtain ⟨other, kept, same⟩ := listed
  exact payloadName_injective same ▸ kept

omit [DecidableEq I.Extra] in
theorem Scanned.length_regularFiles {seen : List ZipEntry} {scan : BinaryScan}
    (scanned : Scanned I B seen scan) : scan.regularFiles.length ≤ seen.length := by
  have lengths := congrArg List.length scanned.named
  simp only [List.length_map, List.length_reverse] at lengths
  rw [← lengths]
  exact List.length_filter_le _ _

omit [DecidableEq I.Extra] in
/-- The names of the payloads are those of the kept files without the descriptor. -/
theorem Scanned.payloadNames {seen : List ZipEntry} {scan : BinaryScan}
    (scanned : Scanned I B seen scan) :
    ((payloads seen).map ZipEntry.nameRaw).Perm
      ((scan.regularFiles.erase binaryDescriptorPath).map payloadName) := by
  have filtered : (payloads seen).map ZipEntry.nameRaw =
      ((regularFiles seen).map ZipEntry.nameRaw).filter
        fun name => decide (name ≠ asBytes binaryDescriptorArchivePath) := by
    rw [List.filter_map]
    rfl
  have kept : ((scan.regularFiles.map payloadName).filter
      fun name => decide (name ≠ asBytes binaryDescriptorArchivePath)) =
        (scan.regularFiles.erase binaryDescriptorPath).map payloadName := by
    rw [List.filter_map, scanned.distinct.erase_eq_filter]
    congr 1
    apply List.filter_congr
    intro path _
    rw [Function.comp_apply, ← payloadName_descriptor, Bool.eq_iff_iff, decide_eq_true_iff,
      bne_iff_ne, Ne, payloadName_injective.eq_iff]
  rw [filtered, scanned.named, ← kept]
  exact (List.reverse_perm _).filter _

/-- What `verify_publish` accepts as a binary is exactly what its descriptor says, by
path, content and mode, and it stays within the limits of the profile. -/
theorem verified_binary_described_exactly {published : PublishMeta I.Extra I.Mirror}
    {archive : Bytes} {opened : ZipArchive} {descriptor : BinaryArtifactManifest B.Rest}
    (accepted : BinaryArtifact.verifyPublish I B published archive = .ok (some descriptor))
    (opens : B.openZip archive = .ok opened) (names : opened.NamesEntries) :
    DescribedExactly I B published opened descriptor := by
  have verified : verifyBinaryZip I B published archive = .ok descriptor := by
    rcases BinaryArtifact.verifyPublish_ok I B accepted with ⟨_, absent⟩ | ⟨_, absent⟩ | present
    · contradiction
    · contradiction
    · obtain ⟨other, _, verified, same⟩ := present
      rwa [Option.some.inj same]
  simp only [verifyBinaryZip, bind_ok, ensure_ok, mapError_ok, checkEach_ok] at verified
  obtain ⟨_, _, _, _, first, opensFirst, _, _, _, _, _, few, scan, scans, read, reads, _,
    provenance, _, inventory, second, opensAgain, _, hashes, built⟩ := verified
  obtain rfl := Except.ok.inj (opensFirst.symm.trans opens)
  obtain rfl := Except.ok.inj (opensAgain.symm.trans opens)
  obtain rfl := Except.ok.inj built
  obtain ⟨allOpen, scanned⟩ := scanEntries_scanned I B (scanned_start I B) scans
  rw [List.nil_append] at scanned
  change Scanned I B second.listed scan at scanned
  obtain ⟨⟨bytes, kept, parses, canonical⟩, text, keptText, parsesManifest⟩ :=
    readDescriptor_ok I B reads
  obtain ⟨contract, contractListed, contractNamed, contractRead⟩ := scanned.descriptor bytes kept
  obtain ⟨toml, tomlListed, tomlNamed, tomlRead⟩ := scanned.manifest _ keptText
  have listedFew : second.listed.length ≤ second.entries.length := List.length_filterMap_le _ _
  have keptFew := scanned.length_regularFiles I B
  have ceiling : maxBinaryEntries B ≤ 200000 := boundedU64Override_le _ _
  have permuted := checkInventory_ok inventory scanned.distinct (by omega)
    (scanned.mem_regularFiles I B contractListed contractNamed)
  refine ⟨allOpen, ?_, ?_, ?_, scanned.placed, scanned.plain, ?_, ?_,
    ensureDescriptorMatchesPublish_ok I B provenance, scanned.ratio, ?_⟩
  · rw [scanned.named, List.nodup_reverse]
    exact scanned.distinct.map payloadName_injective
  · have mapped := permuted.map payloadName
    rw [List.map_map] at mapped
    exact (scanned.payloadNames I B).trans mapped
  · intro entry member file listed named
    obtain ⟨answer, found, verified⟩ := checkPayload_ok I (hashes file listed)
    have inArchive : entry ∈ second.listed :=
      List.mem_of_mem_filter (List.mem_of_mem_filter member)
    have same : answer = entry :=
      names _ entry answer (ZipArchive.mem_listed.mp inArchive) named found
    exact same ▸ verified
  · exact ⟨contract, contractListed, bytes, payloadName_descriptor ▸ contractNamed, contractRead,
      parses, canonical⟩
  · exact ⟨toml, tomlListed, text, tomlNamed, tomlRead, parsesManifest⟩
  · rw [scanned.total]
    exact scanned.limited

/-! ## An archive of one tool -/

def tomlDigest : String := "4528302ebb2ee0045d5d798dca099b3893ed654574128cbc132bf9cb96b56848"

def toolDigest : String := "bf664cf84f00f6ed76164c8457fdeaf8e4dee547226e9ffcf8274e2d2246fed9"

def toolToml : String :=
  "[package]\norg = \"acme\"\nname = \"tool\"\nversion = \"1.0.0\"\n" ++
    "description = \"a tool\"\nlicense = \"MIT\"\n\n" ++
    "[package.repository]\nvcs = \"git\"\nurl = \"https://git.example/tool\"\n\n" ++
    "[bin]\ntool = \"bin/tool\"\n"

def toolProgram : String := "#!/bin/sh\necho tool\n"

def toolDescriptor : BinaryArtifactManifest Unit where
  files := [⟨".zpkg.toml", tomlDigest, 186, false⟩, ⟨"bin/tool", toolDigest, 20, true⟩]
  source := some ⟨"https://git.example/tool", "v1.0.0", none⟩
  rest := ()

def toolDescriptorJson : String :=
  "\x7b\"schema\":\"zpkg.binary-artifact/v1\"," ++
    "\"package\":\x7b\"org\":\"acme\",\"name\":\"tool\",\"version\":\"1.0.0\"\x7d," ++
    "\"platform\":\x7b\"target\":\"x86_64-unknown-linux-gnu\",\"os\":\"linux\"," ++
    "\"arch\":\"x86_64\",\"libc\":\"gnu\"\x7d,\"format\":\"zip\"," ++
    "\"package_manifest\":\".zpkg.toml\",\"expanded_size\":206," ++
    "\"files\":[\x7b\"path\":\".zpkg.toml\",\"sha256\":\"" ++ tomlDigest ++
    "\",\"size\":186,\"executable\":false\x7d," ++
    "\x7b\"path\":\"bin/tool\",\"sha256\":\"" ++ toolDigest ++
    "\",\"size\":20,\"executable\":true\x7d]," ++
    "\"entrypoints\":\x7b\"tool\":\"bin/tool\"\x7d,\"source\":\x7b" ++
    "\"repository\":\"https://git.example/tool\",\"vcs_tag\":\"v1.0.0\"\x7d\x7d"

def toolRoot : StoredFile := ⟨asBytes "pkg/", 0, []⟩

def toolDescriptorFile : StoredFile :=
  ⟨asBytes "pkg/.zpkg-binary.json", 590825417, asBytes toolDescriptorJson⟩

def toolTomlFile : StoredFile := ⟨asBytes "pkg/.zpkg.toml", 1365686047, asBytes toolToml⟩

def toolProgramFile : StoredFile := ⟨asBytes "pkg/bin/tool", 1916009435, asBytes toolProgram⟩

def toolFiles : List StoredFile := [toolRoot, toolDescriptorFile, toolTomlFile, toolProgramFile]

def toolArchive : ZipArchive :=
  .ofFiles toolFiles [toolRoot.entry (some 0o040755) (some "pkg"),
    toolDescriptorFile.entry (some 0o100644) (some "pkg/.zpkg-binary.json"),
    toolTomlFile.entry (some 0o100644) (some "pkg/.zpkg.toml"),
    toolProgramFile.entry (some 0o100755) (some "pkg/bin/tool")]

def toolInterfaces : BinaryInterfaces (List String) :=
  .sample [(storedZip toolFiles, toolArchive)] [(asBytes toolDescriptorJson, toolDescriptor)]
    [(toolToml, toolManifest)]

def toolRegistry : Interfaces :=
  .sample [(asBytes toolToml, tomlDigest), (asBytes toolProgram, toolDigest)] []

instance : DecidableEq toolRegistry.Extra := inferInstanceAs (DecidableEq (List String))

instance : DecidableEq toolInterfaces.Rest := inferInstanceAs (DecidableEq Unit)

theorem ofFiles_namesEntries {files : List StoredFile} {entries : List ZipEntry}
    (distinct : (entries.map ZipEntry.nameRaw).Nodup) :
    (ZipArchive.ofFiles files entries).NamesEntries := by
  intro name entry found member named answered
  have answer := okOrElse_ok.mp answered
  have foundNamed : found.nameRaw = asBytes name := by simpa using List.find?_some answer
  obtain ⟨other, listed, same⟩ := List.mem_map.mp member
  obtain rfl := Except.ok.inj same
  exact List.inj_on_of_nodup_map distinct (List.mem_of_find?_eq_some answer) listed
    (foundNamed.trans named.symm)

theorem verified_binary_sample :
    DescribedExactly toolRegistry toolInterfaces (toolMeta (storedZip toolFiles)) toolArchive
      toolDescriptor := by
  have accepted : BinaryArtifact.verifyPublish toolRegistry toolInterfaces
      (toolMeta (storedZip toolFiles)) (storedZip toolFiles) = .ok (some toolDescriptor) := by
    decide +kernel
  have opens : toolInterfaces.openZip (storedZip toolFiles) = .ok toolArchive := by
    simp [toolInterfaces, BinaryInterfaces.sample, okOrElse]
  have names : toolArchive.NamesEntries := ofFiles_namesEntries (by decide +kernel)
  exact verified_binary_described_exactly toolRegistry toolInterfaces accepted opens names

end ZedRegistry
