import Mathlib.Algebra.Order.Ring.Int
import Mathlib.Data.List.SplitBy
import ZedRegistry.Interfaces

/-!
# Files out of stored archives

`files.rs`: one entry of an archive under its size caps, and the headers that
user content is served under.  The archive readers are a parameter.
-/

set_option autoImplicit false

namespace ZedRegistry

def archiveRoot : String := "pkg"

def maxServedFileBytes : Nat := 25 * 1024 * 1024

def defaultMaxInflatedBytes : Nat := 512 * 1024 * 1024

/-- An error of an archive reader: its text and the texts of its causes. -/
structure ReadError where
  text : String
  causes : List String
  deriving DecidableEq

/-- `read limit` is what reading at most `limit` bytes of the entry returns. -/
structure ArchiveEntry where
  path : Except ReadError String
  size : Nat
  read : Nat → Except ReadError Bytes

/-- The tar, gzip and zip readers.  A tar is read through a budget of inflated
bytes; `zipByName` opens the archive and looks the name up. -/
structure Archives where
  tarEntries : Nat → Bytes → Except ReadError (List (Except ReadError ArchiveEntry))
  zipByName : Bytes → String → Except ReadError (Option ArchiveEntry)

inductive ExtractError where
  | tooLarge
  | inflationBudgetExceeded
  | archive (error : ReadError)
  deriving DecidableEq

def inflationBudgetMsg : String := "zed: archive exceeded the decompression budget"

/-- `map_tar_err`: the budget stop is told from a damaged archive by its text. -/
def mapTarErr (error : ReadError) : ExtractError :=
  if (error.text :: error.causes).any fun text => containsText text inflationBudgetMsg then
    .inflationBudgetExceeded
  else .archive error

def readCapped (entry : ArchiveEntry) : Except ExtractError Bytes := do
  let bytes ← (entry.read (maxServedFileBytes + 1)).mapError mapTarErr
  ensure (bytes.length ≤ maxServedFileBytes) .tooLarge
  pure bytes

def readEntry (entry : ArchiveEntry) : Except ExtractError (Option Bytes) := do
  ensure (entry.size ≤ maxServedFileBytes) .tooLarge
  some <$> readCapped entry

/-- The scan of a tar: the first entry at the wanted path, or the first error. -/
def scanTar (want : String) : List (Except ReadError ArchiveEntry) →
    Except ExtractError (Option Bytes)
  | [] => .ok none
  | next :: rest => do
    let entry ← next.mapError mapTarErr
    let path ← entry.path.mapError mapTarErr
    if path = want then readEntry entry else scanTar want rest

/-- `maxInflated` is `max_inflated_bytes`, the configured budget. -/
def extractFile (archives : Archives) (maxInflated : Nat) (archive : Bytes)
    (format : ArtifactFormat) (relPath : String) : Except ExtractError (Option Bytes) :=
  let want := archiveRoot ++ "/" ++ relPath
  match format with
  | .tarGz => do
    let budget := min (maxInflated + 1) (2 ^ 64 - 1)
    scanTar want (← (archives.tarEntries budget archive).mapError mapTarErr)
  | .zip => do
    match ← (archives.zipByName archive want).mapError .archive with
    | none => pure none
    | some entry => readEntry entry

def ExtractError.toApiErr (maxInflated : Nat) : ExtractError → ApiErr
  | .tooLarge => ⟨413, "file_too_large", "files larger than " ++ toString maxServedFileBytes ++
      " bytes are not served individually; download the artifact instead"⟩
  | .inflationBudgetExceeded => ⟨413, "archive_too_large", "this artifact inflates past the " ++
      toString maxInflated ++
      " byte decompression budget; download the artifact instead of requesting files from it"⟩
  | .archive _ => .internal

/-- A file that is served is within the cap, whatever the archive declares. -/
theorem readEntry_length {entry : ArchiveEntry} {bytes : Bytes}
    (served : readEntry entry = .ok (some bytes)) : bytes.length ≤ maxServedFileBytes := by
  unfold readEntry readCapped at served
  simp only [bind_ok, ensure_ok, map_eq_pure_bind] at served
  obtain ⟨_, _, read, ⟨content, _, _, within, same⟩, built⟩ := served
  obtain rfl := Except.ok.inj same
  obtain rfl := Option.some.inj (Except.ok.inj built)
  exact within

theorem scanTar_length {want : String} {entries : List (Except ReadError ArchiveEntry)}
    {bytes : Bytes} (served : scanTar want entries = .ok (some bytes)) :
    bytes.length ≤ maxServedFileBytes := by
  induction entries with
  | nil => simp [scanTar] at served
  | cons next rest ih =>
      simp only [scanTar, bind_ok] at served
      obtain ⟨entry, _, path, _, served⟩ := served
      split at served
      · exact readEntry_length served
      · exact ih served

theorem extractFile_length {archives : Archives} {maxInflated : Nat} {archive bytes : Bytes}
    {format : ArtifactFormat} {relPath : String}
    (served : extractFile archives maxInflated archive format relPath = .ok (some bytes)) :
    bytes.length ≤ maxServedFileBytes := by
  cases format with
  | tarGz =>
      simp only [extractFile, bind_ok] at served
      obtain ⟨entries, _, served⟩ := served
      exact scanTar_length served
  | zip =>
      simp only [extractFile, bind_ok] at served
      obtain ⟨found, _, served⟩ := served
      cases found with
      | none => simp [pure, Except.pure] at served
      | some entry => exact readEntry_length served

/-! ## Archives that answer -/

/-- Documented behaviour of the readers: an archive without entries opens and
has none, and some bytes are no archive at all. -/
structure Archives.Lawful (archives : Archives) : Prop where
  emptyTar : ∃ bytes : Bytes, bytes.length ≤ maxServedFileBytes ∧
    ∀ budget, 0 < budget → archives.tarEntries budget bytes = .ok []
  emptyZip : ∃ bytes : Bytes, bytes.length ≤ maxServedFileBytes ∧
    ∀ name, archives.zipByName bytes name = .ok none
  brokenTar : ∃ bytes : Bytes, bytes.length ≤ maxServedFileBytes ∧
    ∀ budget, 0 < budget → ∃ error, archives.tarEntries budget bytes = .error error
  brokenZip : ∃ bytes : Bytes, bytes.length ≤ maxServedFileBytes ∧
    ∀ name, ∃ error, archives.zipByName bytes name = .error error

theorem budget_pos (maxInflated : Nat) : 0 < min (maxInflated + 1) (2 ^ 64 - 1) := by
  omega

/-- For each format and path some archive has no such file. -/
theorem Archives.Lawful.absent {archives : Archives} (lawful : archives.Lawful)
    (maxInflated : Nat) (format : ArtifactFormat) (relPath : String) :
    ∃ bytes : Bytes, bytes.length ≤ maxServedFileBytes ∧
      extractFile archives maxInflated bytes format relPath = .ok none := by
  cases format with
  | tarGz =>
      obtain ⟨bytes, small, empty⟩ := lawful.emptyTar
      refine ⟨bytes, small, ?_⟩
      simp only [extractFile, empty _ (budget_pos maxInflated)]
      rfl
  | zip =>
      obtain ⟨bytes, small, empty⟩ := lawful.emptyZip
      refine ⟨bytes, small, ?_⟩
      simp only [extractFile, empty]
      rfl

/-- For each format and path some bytes are refused. -/
theorem Archives.Lawful.refused {archives : Archives} (lawful : archives.Lawful)
    (maxInflated : Nat) (format : ArtifactFormat) (relPath : String) :
    ∃ bytes : Bytes, bytes.length ≤ maxServedFileBytes ∧
      ∃ error, extractFile archives maxInflated bytes format relPath = .error error := by
  cases format with
  | tarGz =>
      obtain ⟨bytes, small, broken⟩ := lawful.brokenTar
      obtain ⟨error, broken⟩ := broken _ (budget_pos maxInflated)
      refine ⟨bytes, small, mapTarErr error, ?_⟩
      simp only [extractFile, broken]
      rfl
  | zip =>
      obtain ⟨bytes, small, broken⟩ := lawful.brokenZip
      obtain ⟨error, broken⟩ := broken (archiveRoot ++ "/" ++ relPath)
      refine ⟨bytes, small, .archive error, ?_⟩
      simp only [extractFile, broken]
      rfl

/-! ## Content types -/

/-- The text after the last dot, or the whole path. -/
def fileExtension (path : String) : String :=
  String.ofList (path.toList.reverse.takeWhile fun char => char ≠ '.').reverse

def mimeFor (path : String) : String :=
  match fileExtension path with
  | "css" => "text/css; charset=utf-8"
  | "js" | "mjs" | "cjs" => "text/javascript; charset=utf-8"
  | "json" | "map" => "application/json"
  | "html" | "htm" => "text/html; charset=utf-8"
  | "svg" => "image/svg+xml"
  | "png" => "image/png"
  | "jpg" | "jpeg" => "image/jpeg"
  | "gif" => "image/gif"
  | "wasm" => "application/wasm"
  | "toml" => "application/toml"
  | "md" | "txt" => "text/plain; charset=utf-8"
  | "woff2" => "font/woff2"
  | _ => "application/octet-stream"

/-- Content types that a browser executes in the page's origin. -/
def isActiveContent (mime : String) : Bool :=
  let base := String.ofList (trimText (mime.toList.takeWhile fun char => char ≠ ';'))
  base = "text/html" || base = "image/svg+xml" || base = "application/xhtml+xml" ||
    containsText base "javascript"

def servedMime (path : String) : String :=
  let guessed := mimeFor path
  if isActiveContent guessed then "text/plain; charset=utf-8" else guessed

def servedFileHeaders (path : String) : List (String × String) :=
  [("content-type", servedMime path),
    ("cache-control", "public, max-age=31536000, immutable"),
    ("content-disposition", "inline"),
    ("content-security-policy", "sandbox")]

/-- No file is served under a type that a browser executes. -/
theorem servedMime_inert (path : String) : isActiveContent (servedMime path) = false := by
  unfold servedMime
  simp only
  split
  · decide +kernel
  · rename_i inert
    simpa using inert

end ZedRegistry
