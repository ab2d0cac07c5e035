import ZedRegistry.BinaryArtifact
import ZedRegistry.Utf8

/-!
# Spellings of the reserved descriptor path

`hostResolution` is what a tolerant extractor makes of a raw entry name: it works
on bytes, and a `..` at the root stays there.  The check of the central directory
agrees with it on every name that it normalizes; the names it passes over are the
ones left open.
-/

set_option autoImplicit false

namespace ZedRegistry

open PathResolution

/-! ## The reference -/

def slashed (raw : Bytes) : Bytes :=
  raw.map fun byte => if byte = '\\'.toUInt8 then '/'.toUInt8 else byte

def trimDotAndSpaceBytes (component : Bytes) : Bytes :=
  component.rdropWhile fun byte => byte = '.'.toUInt8 || byte = ' '.toUInt8

def hostPart (component : Bytes) : PathPart Bytes :=
  if component = [] ∨ component = ['.'.toUInt8] then .skip
  else if component = ['.'.toUInt8, '.'.toUInt8] then .up
  else if trimDotAndSpaceBytes component = [] then .skip
  else .name (trimDotAndSpaceBytes component)

/-- The path of a raw name on a host that ignores case; `none` when what remains
of it is not text. -/
def hostResolution (toLowercase : String → String) (raw : Bytes) : Option String :=
  ((clamped [] (((slashed raw).splitOn '/'.toUInt8).map hostPart)).mapM decodeUtf8).map
    fun components => "/".intercalate (components.map toLowercase)

def ResolvesToDescriptor (toLowercase : String → String) (raw : Bytes) : Prop :=
  hostResolution toLowercase raw = some binaryDescriptorArchivePath

instance (toLowercase : String → String) (raw : Bytes) :
    Decidable (ResolvesToDescriptor toLowercase raw) := inferInstanceAs (Decidable (_ = _))

/-! ## Marks of a path in UTF-8 -/

theorem slashed_asBytes (text : String) :
    slashed (asBytes text) = (replaceBackslash text.toList).flatMap String.utf8EncodeChar := by
  unfold slashed replaceBackslash
  rw [asBytes_eq_flatMap, List.map_flatMap, List.flatMap_map]
  congr 1
  funext char
  by_cases backslash : char = '\\'
  · subst backslash
    decide
  · rw [if_neg backslash]
    apply (List.map_congr_left ?_).trans (List.map_id _)
    intro byte member
    exact if_neg fun same => backslash ((mark_agrees (by decide) char byte member).mp same)

theorem trimDotAndSpaceBytes_encoded (component : List Char) :
    trimDotAndSpaceBytes (component.flatMap String.utf8EncodeChar) =
      (trimDotsAndSpaces component).flatMap String.utf8EncodeChar := by
  apply rdropWhile_flatMap
  · intro char byte member
    rw [Bool.eq_iff_iff, Bool.or_eq_true, Bool.or_eq_true, decide_eq_true_iff, decide_eq_true_iff,
      decide_eq_true_iff, decide_eq_true_iff, mark_agrees (by decide) char byte member,
      mark_agrees (by decide) char byte member]
  · intro char
    exact String.utf8EncodeChar_ne_nil

/-- Components are told apart alike before and after encoding. -/
theorem hostPart_encoded (component : List Char) :
    hostPart (component.flatMap String.utf8EncodeChar) = (archivePart component).map asBytes := by
  have spelled : ∀ chars : List Char, component.flatMap String.utf8EncodeChar =
      chars.flatMap String.utf8EncodeChar ↔ component = chars := by
    intro chars
    rw [← asBytes_ofList, ← asBytes_ofList, asBytes_injective.eq_iff, String.ofList_inj]
  have trimmed : (trimDotsAndSpaces component).flatMap String.utf8EncodeChar = [] ↔
      trimDotsAndSpaces component = [] := by
    constructor
    · intro empty
      cases kept : trimDotsAndSpaces component with
      | nil => rfl
      | cons char rest =>
          rw [kept, List.flatMap_cons] at empty
          exact absurd (List.append_eq_nil_iff.mp empty).1 String.utf8EncodeChar_ne_nil
    · intro empty
      rw [empty]
      rfl
  unfold hostPart archivePart
  rw [trimDotAndSpaceBytes_encoded]
  have empty : component.flatMap String.utf8EncodeChar = [] ↔ component = [] := spelled []
  have dot : component.flatMap String.utf8EncodeChar = ['.'.toUInt8] ↔ component = ['.'] :=
    spelled ['.']
  have dots : component.flatMap String.utf8EncodeChar = ['.'.toUInt8, '.'.toUInt8] ↔
      component = ['.', '.'] := spelled ['.', '.']
  simp only [empty, dot, dots, trimmed]
  split
  · rfl
  · split
    · rfl
    · split
      · rfl
      · rw [PathPart.map, asBytes_ofList]

/-- The parts that the check tells apart in a name. -/
def archiveParts (name : String) : List (PathPart String) :=
  ((replaceBackslash name.toList).splitOn '/').map archivePart

theorem hostParts_asBytes (name : String) :
    ((slashed (asBytes name)).splitOn '/'.toUInt8).map hostPart =
      (archiveParts name).map (PathPart.map asBytes) := by
  have split : (slashed (asBytes name)).splitOn '/'.toUInt8 =
      ((replaceBackslash name.toList).splitOn '/').map fun part =>
        part.flatMap String.utf8EncodeChar := by
    rw [slashed_asBytes]
    apply splitOnP_flatMap
    · intro char byte member
      rw [Bool.eq_iff_iff, beq_iff_eq, beq_iff_eq, mark_agrees (by decide) char byte member]
    · intro char marked
      have slash : String.utf8EncodeChar '/' = ['/'.toUInt8] := utf8EncodeChar_mark (by decide)
      exact ⟨'/'.toUInt8, beq_iff_eq.mp marked ▸ slash⟩
  rw [split, archiveParts, List.map_map, List.map_map]
  exact List.map_congr_left fun part _ => hostPart_encoded part

theorem mapM_decodeUtf8 (names : List String) :
    (names.map asBytes).mapM decodeUtf8 = some names := by
  rw [List.mapM_map, Function.comp_def]
  simp only [decodeUtf8_asBytes]
  exact (List.mapM_pure (f := id)).trans (congrArg some (List.map_id _))

/-- On a name that the check normalizes, the host comes to the same path. -/
theorem hostResolution_normalized {toLowercase : String → String} {name path : String}
    (normalized : normalizedArchivePath toLowercase name = some path) :
    hostResolution toLowercase (asBytes name) = some path := by
  obtain ⟨components, resolved, rfl⟩ := Option.map_eq_some_iff.mp normalized
  have names : components = (clamped [] (archiveParts name)).map toLowercase := by
    have lowered := clamped_map toLowercase [] (archiveParts name)
    rw [archiveParts, List.map_map] at lowered
    exact (clamped_of_strict resolved).symm.trans lowered
  have kept := clamped_map asBytes [] (archiveParts name)
  unfold hostResolution
  rw [hostParts_asBytes, ← List.map_nil (f := asBytes), kept, mapM_decodeUtf8, names]
  rfl

/-! ## What the check passes over -/

/-- The two kinds of name that the check takes for no alias whatever they resolve to:
bytes that are not UTF-8, and a `..` met at the root. -/
def PassedOver (toLowercase : String → String) (raw : Bytes) : Prop :=
  ∀ name, decodeUtf8 raw = some name → normalizedArchivePath toLowercase name = none

instance (toLowercase : String → String) (raw : Bytes) :
    Decidable (PassedOver toLowercase raw) :=
  decidable_of_iff ((decodeUtf8 raw).all fun name =>
      decide (normalizedArchivePath toLowercase name = none)) (by
    unfold PassedOver
    cases decodeUtf8 raw with
    | none => simp
    | some name => simp)

/-- A name that is neither passed over nor refused resolves elsewhere. -/
theorem not_resolves_of_unreserved {toLowercase : String → String} {raw : Bytes}
    (unreserved : Unreserved toLowercase raw) (seen : ¬ PassedOver toLowercase raw) :
    ¬ ResolvesToDescriptor toLowercase raw := by
  intro resolves
  unfold PassedOver at seen
  push Not at seen
  obtain ⟨name, decoded, normalizes⟩ := seen
  obtain ⟨path, normalized⟩ := Option.ne_none_iff_exists'.mp normalizes
  have host := hostResolution_normalized normalized
  rw [← decodeUtf8_some.mp decoded] at host
  have reserved : path = binaryDescriptorArchivePath :=
    Option.some.inj (host.symm.trans resolves)
  exact unreserved.2 name decoded (reserved ▸ normalized)

namespace BinaryArtifact

variable (I : Interfaces) (B : BinaryInterfaces I.Extra) [DecidableEq I.Extra]

theorem verifyPublish_none {published : PublishMeta I.Extra I.Mirror} {archive : Bytes}
    (zip : published.format = .zip) (accepted : verifyPublish I B published archive = .ok none) :
    descriptorPresence B archive = .ok .absent := by
  rcases verifyPublish_ok I B accepted with ⟨other, _⟩ | ⟨absent, _⟩ | ⟨_, _, _, given⟩
  · contradiction
  · exact absent
  · contradiction

/-- A ZIP published without a descriptor hides none, exactly when no name that the
check passes over is a spelling of the reserved path. -/
theorem source_archive_hides_no_descriptor_iff {published : PublishMeta I.Extra I.Mirror}
    {archive : Bytes} {opened : ZipArchive} (zip : published.format = .zip)
    (accepted : verifyPublish I B published archive = .ok none)
    (opens : B.openZip archive = .ok opened) :
    (∀ raw ∈ centralNames archive opened.centralDirectoryStart,
        ¬ ResolvesToDescriptor B.toLowercase raw) ↔
      ∀ raw ∈ centralNames archive opened.centralDirectoryStart,
        PassedOver B.toLowercase raw → ¬ ResolvesToDescriptor B.toLowercase raw := by
  have unreserved := descriptorPresence_absent B (verifyPublish_none I B zip accepted) opens
  constructor
  · intro hidden raw member _
    exact hidden raw member
  · intro condition raw member
    by_cases passed : PassedOver B.toLowercase raw
    · exact condition raw member passed
    · exact not_resolves_of_unreserved (unreserved raw member) passed

/-! ## Two uploads -/

def sourceListing (files : List StoredFile) : ZipArchive :=
  .ofFiles files (files.map fun file => file.entry none none)

def sourceInterfaces (files : List StoredFile) : BinaryInterfaces (List String) :=
  .sample [(storedZip files, sourceListing files)] [] []

instance (files : List StoredFile) : DecidableEq (sourceInterfaces files).Rest :=
  inferInstanceAs (DecidableEq Unit)

theorem sourceInterfaces_opens (files : List StoredFile) :
    (sourceInterfaces files).openZip (storedZip files) = .ok (sourceListing files) := by
  simp [sourceInterfaces, BinaryInterfaces.sample, okOrElse]

def sourceFiles : List StoredFile := [⟨asBytes "pkg/../pkg/source.txt", 0, []⟩]

theorem source_archive_hides_no_descriptor_sample :
    (sourceInterfaces sourceFiles).openZip (storedZip sourceFiles) =
        .ok (sourceListing sourceFiles) ∧
      ∀ raw ∈ centralNames (storedZip sourceFiles)
          (sourceListing sourceFiles).centralDirectoryStart,
        ¬ ResolvesToDescriptor asciiLowercase raw := by
  have accepted : verifyPublish (Interfaces.sample [] []) (sourceInterfaces sourceFiles)
      (toolMeta (storedZip sourceFiles)) (storedZip sourceFiles) = .ok none := by
    decide +kernel
  refine ⟨sourceInterfaces_opens sourceFiles, ?_⟩
  apply (source_archive_hides_no_descriptor_iff (Interfaces.sample [] [])
    (sourceInterfaces sourceFiles) rfl accepted (sourceInterfaces_opens sourceFiles)).mpr
  decide +kernel

/-- Two empty files: a `..` at the root, and a component that is not UTF-8. -/
def hidingFiles : List StoredFile :=
  [⟨asBytes "../pkg/.zpkg-binary.json", 0, []⟩,
    ⟨0xff :: asBytes "/../pkg/.zpkg-binary.json", 0, []⟩]

theorem hidden_descriptor_passes :
    (sourceInterfaces hidingFiles).openZip (storedZip hidingFiles) =
        .ok (sourceListing hidingFiles) ∧
      verifyPublish (Interfaces.sample [] []) (sourceInterfaces hidingFiles)
        (toolMeta (storedZip hidingFiles)) (storedZip hidingFiles) = .ok none ∧
      centralNames (storedZip hidingFiles) (sourceListing hidingFiles).centralDirectoryStart =
        hidingFiles.map StoredFile.name ∧
      ∀ raw ∈ centralNames (storedZip hidingFiles)
          (sourceListing hidingFiles).centralDirectoryStart,
        ResolvesToDescriptor asciiLowercase raw := by
  refine ⟨sourceInterfaces_opens hidingFiles, ?_, ?_, ?_⟩
  · decide +kernel
  · decide +kernel
  · decide +kernel

end BinaryArtifact

end ZedRegistry
