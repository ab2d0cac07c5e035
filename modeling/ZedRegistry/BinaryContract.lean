import ZedRegistry.Interfaces

/-!
# Contract of binary archives

What `binary_artifact.rs` takes from other crates: the entries the ZIP reader
presents, the descriptor with its parser and checks, and Unicode lower case.
-/

set_option autoImplicit false

namespace ZedRegistry

/-- `str::from_utf8`. -/
def decodeUtf8 (bytes : Bytes) : Option String := String.fromUTF8? ⟨bytes.toArray⟩

theorem decodeUtf8_some {bytes : Bytes} {text : String} :
    decodeUtf8 bytes = some text ↔ bytes = asBytes text := by
  unfold decodeUtf8 String.fromUTF8?
  constructor
  · intro decoded
    split at decoded
    · rw [← Option.some.inj decoded]
      rfl
    · contradiction
  · intro encoded
    have whole : (⟨bytes.toArray⟩ : ByteArray) = text.toByteArray := by
      rw [encoded]
      exact ByteArray.ext rfl
    rw [dif_pos (whole ▸ text.isValidUTF8)]
    exact congrArg some (String.toByteArray_inj.mp whole)

@[simp] theorem decodeUtf8_asBytes (text : String) : decodeUtf8 (asBytes text) = some text :=
  decodeUtf8_some.mpr rfl

inductive CompressionMethod where
  | stored
  | deflated
  | other (debug : String)
  deriving DecidableEq

/-- An entry as the ZIP reader presents it.  `enclosedName` is its lossy text, and
`reads` are the answers of successive calls of `read`, which inflate the content;
after the last one the content is at its end. -/
structure ZipEntry where
  nameRaw : Bytes
  encrypted : Bool
  compression : CompressionMethod
  isDir : Bool
  isSymlink : Bool
  size : Nat
  compressedSize : Nat
  unixMode : Option Nat
  enclosedName : Option String
  reads : List (Except String Bytes)

def ZipEntry.isFile (entry : ZipEntry) : Bool := !entry.isDir && !entry.isSymlink

structure ZipArchive where
  centralDirectoryStart : Nat
  entries : List (Except String ZipEntry)
  hasOverlappingFiles : Except String Bool
  byName : String → Except String ZipEntry

/-- `BinaryFileV1`. -/
structure BinaryFile where
  path : String
  sha256 : String
  size : Nat
  executable : Bool
  deriving DecidableEq

/-- `BinarySourceProvenanceV1`. -/
structure BinarySourceProvenance where
  repository : String
  vcsTag : String
  vcsCommit : Option String
  deriving DecidableEq

/-- `BinaryArtifactManifestV1`; `rest` is what only the contract crate reads. -/
structure BinaryArtifactManifest (Rest : Type) where
  files : List BinaryFile
  source : Option BinarySourceProvenance
  rest : Rest
  deriving DecidableEq

/-- `flags` is `flags::var(..).ok()`. -/
structure BinaryInterfaces (Extra : Type) where
  Rest : Type
  flags : String → Option String
  openZip : Bytes → Except String ZipArchive
  toLowercase : String → String
  validateSafeRelativePath : String → String → Except String Unit
  parseDescriptor : Bytes → Except String (BinaryArtifactManifest Rest)
  parseManifest : String → Except String (Manifest Extra)
  validateAgainstManifest : BinaryArtifactManifest Rest → Manifest Extra → Except String Unit
  canonicalJsonBytes : BinaryArtifactManifest Rest → Except String Bytes

def binaryArchiveRoot : String := "pkg"

def binaryDescriptorPath : String := ".zpkg-binary.json"

def binaryPackageManifestPath : String := ".zpkg.toml"

def binaryDescriptorArchivePath : String := "pkg/.zpkg-binary.json"

end ZedRegistry
