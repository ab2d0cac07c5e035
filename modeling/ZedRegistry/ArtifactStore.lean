import Mathlib.Algebra.Order.Ring.Int
import Mathlib.Data.List.Lookmap
import Mathlib.Data.List.SplitBy
import ZedRegistry.Interfaces

/-!
# The artifact store

`storage.rs`: the three backends, the write-once put, the buffered and streamed
reads, and the guessable alias keys with the repository URL parser they use.
-/

set_option autoImplicit false

namespace ZedRegistry

/-! ## Keys -/

def artifactKey (sha256 extension : String) : String :=
  "artifacts/" ++ sha256 ++ "." ++ extension

def validRepoSegment (segment : List Char) : Bool :=
  segment ≠ [] &&
    segment.all (fun char => char.isAlphanum || char = '.' || char = '_' || char = '-') &&
    segment.any (fun char => char ≠ '.')

/-- `trim_end_matches(".git")` on the reversed text: every repetition goes. -/
def dropGit : List Char → List Char
  | 't' :: 'i' :: 'g' :: '.' :: rest => dropGit rest
  | text => text

def stripScheme (url : List Char) : Option (List Char) :=
  url.dropPrefix? "https://github.com/".toList <|>
    url.dropPrefix? "http://github.com/".toList <|>
    url.dropPrefix? "git@github.com:".toList

/-- `https://github.com/{owner}/{repo}[.git]` to owner and repo. -/
def parseGithub (repoUrl : String) : Option (String × String) := do
  let rest ← stripScheme repoUrl.toList
  let rest := (dropGit (rest.reverse.dropWhile fun char => char = '/')).reverse
  let owner := rest.takeWhile fun char => char ≠ '/'
  match rest.dropWhile fun char => char ≠ '/' with
  | '/' :: repo =>
    if '/' ∉ repo ∧ validRepoSegment owner = true ∧ validRepoSegment repo = true then
      some (String.ofList owner, String.ofList repo)
    else none
  | _ => none

def safeR2Segments (parts : List String) : Bool :=
  parts.all fun part =>
    part ≠ "" && !part.toList.contains '\x00' && !part.toList.contains '\\' &&
      (part.toList.splitOn '/').all fun segment =>
        segment ≠ [] && segment ≠ ['.'] && segment ≠ ['.', '.']

def githubAliasKey (owner repo vcsTag name version extension : String) : String :=
  "github/" ++ owner ++ "/" ++ repo ++ "/" ++ vcsTag ++ "/" ++ name ++ "-" ++ version ++ "." ++
    extension

def packagesAliasKey (org name version extension : String) : String :=
  "packages/" ++ org ++ "/" ++ name ++ "/" ++ version ++ "/" ++ name ++ "-" ++ version ++ "." ++
    extension

def guessableAliasKeys (org name version vcsTag extension repoUrl : String) : List String :=
  let (owner, repo) := (parseGithub repoUrl).getD (org, name)
  (if safeR2Segments [owner, repo, vcsTag, name, version, extension] then
      [githubAliasKey owner repo vcsTag name version extension] else []) ++
    (if safeR2Segments [org, name, version, extension] then
      [packagesAliasKey org name version extension] else [])

/-! ## Objects -/

def immutableCacheControl : String := "public, max-age=31536000, immutable"

def maxBufferedArtifactBytes : Nat := 100 * 1024 * 1024

/-- The metadata fields are what the S3 backend stores beside the bytes. -/
structure StoredObject where
  bytes : Bytes
  contentType : String
  cacheControl : String
  sha256Metadata : String
  deriving DecidableEq

inductive Backend where
  | memory (maxBytes : Nat)
  | localDir
  | s3
  deriving DecidableEq

structure ArtifactStore where
  backend : Backend
  objects : List (String × StoredObject)

def ArtifactStore.get (store : ArtifactStore) (key : String) : Option StoredObject :=
  store.objects.lookup key

def ArtifactStore.insert (store : ArtifactStore) (key : String) (object : StoredObject) :
    ArtifactStore :=
  { store with objects := (key, object) :: store.objects }

@[simp] theorem get_insert (store : ArtifactStore) (key other : String)
    (object : StoredObject) :
    (store.insert key object).get other = if other = key then some object else store.get other := by
  by_cases same : other = key
  · simp [ArtifactStore.get, ArtifactStore.insert, same]
  · have differs : (other == key) = false := by simpa using same
    simp [ArtifactStore.get, ArtifactStore.insert, List.lookup_cons, differs, same]

/-! ## Writing -/

def isSha256Hex (sha256 : String) : Bool :=
  sha256.toList.length = 64 &&
    sha256.toList.all fun char => char.isDigit || ('a' ≤ char && char ≤ 'f')

/-- What the environment lets happen to a put: whether the write lands, whether
its success is reported, and whether an existing object can be read back. -/
structure PutAnswer where
  landed : Bool
  reported : Bool
  checked : Bool
  deriving DecidableEq

/-- `local_object_matches`. -/
def localObjectMatches (sha256 : Bytes → String) (object : StoredObject) (len : Nat)
    (expected : String) : Bool :=
  object.bytes.length = len && sha256 object.bytes = expected

/-- `s3_object_matches`: the metadata first, then the body. -/
def s3ObjectMatches (sha256 : Bytes → String) (object : StoredObject) (len : Nat)
    (expected contentType : String) : Bool :=
  object.contentType = contentType && object.cacheControl = immutableCacheControl &&
    object.sha256Metadata = expected && localObjectMatches sha256 object len expected

def retainedBytes (store : ArtifactStore) : Nat :=
  (store.objects.map fun entry => entry.2.bytes.length).sum

/-- How a backend treats one put: which existing object it accepts, whether a
write to an absent key lands, and whether its success is reported. -/
structure PutRule where
  accepts : StoredObject → Bool
  lands : Bool
  reports : Bool

/-- Capacity and comparison under the write lock; nothing else can fail. -/
def memoryPut (store : ArtifactStore) (maxBytes : Nat) (bytes : Bytes) : PutRule where
  accepts existing := existing.bytes = bytes
  lands := retainedBytes store + bytes.length ≤ maxBytes
  reports := true

/-- `put_local`: a hard link that never replaces, then cleanup and directory sync. -/
def localPut (sha256 : Bytes → String) (answer : PutAnswer) (bytes : Bytes)
    (expected : String) : PutRule where
  accepts existing := answer.checked && localObjectMatches sha256 existing bytes.length expected
  lands := answer.landed
  reports := answer.reported

/-- A PUT with `If-None-Match: *`; every error takes the verified recovery. -/
def s3Put (sha256 : Bytes → String) (answer : PutAnswer) (object : StoredObject)
    (expected : String) : PutRule :=
  let recovers (existing : StoredObject) := answer.checked &&
    s3ObjectMatches sha256 existing object.bytes.length expected object.contentType
  { accepts := recovers
    lands := answer.landed
    reports := answer.reported || recovers object }

def putRule (sha256 : Bytes → String) (store : ArtifactStore) (answer : PutAnswer)
    (object : StoredObject) (expected : String) : PutRule :=
  match store.backend with
  | .memory maxBytes => memoryPut store maxBytes object.bytes
  | .localDir => localPut sha256 answer object.bytes expected
  | .s3 => s3Put sha256 answer object expected

/-- `put_verified`, taken at the moment its write lands or its comparison reads
the existing object. -/
def putVerified (sha256 : Bytes → String) (store : ArtifactStore) (answer : PutAnswer)
    (key : String) (bytes : Bytes) (contentType expected : String) :
    ApiResult Unit × ArtifactStore :=
  let object : StoredObject := ⟨bytes, contentType, immutableCacheControl, expected⟩
  let rule := putRule sha256 store answer object expected
  if isSha256Hex expected = false then (.error .internal, store)
  else
    match store.get key with
    | some existing => (ensure (rule.accepts existing = true) .internal, store)
    | none =>
      if rule.lands then (ensure (rule.reports = true) .internal, store.insert key object)
      else (.error .internal, store)

/-- One store holds what another holds, and what it holds besides was written by
a put of `bytes` under `key`. -/
structure PutExtends (store next : ArtifactStore) (key : String) (bytes : Bytes) : Prop where
  backend : next.backend = store.backend
  kept : ∀ other object, store.get other = some object → next.get other = some object
  created : ∀ other object, next.get other = some object →
    store.get other = some object ∨ other = key ∧ store.get key = none ∧ object.bytes = bytes

theorem PutExtends.refl (store : ArtifactStore) (key : String) (bytes : Bytes) :
    PutExtends store store key bytes :=
  ⟨rfl, fun _ _ found => found, fun _ _ found => Or.inl found⟩

theorem putExtends_insert {store : ArtifactStore} {key : String} (absent : store.get key = none)
    (object : StoredObject) : PutExtends store (store.insert key object) key object.bytes where
  backend := rfl
  kept other found before := by
    have differs : other ≠ key := by
      rintro rfl
      rw [absent] at before
      contradiction
    rw [get_insert, if_neg differs, before]
  created other found after := by
    rw [get_insert] at after
    split at after
    · rename_i same
      exact Or.inr ⟨same, absent, by rw [Option.some.inj after]⟩
    · exact Or.inl after

theorem putVerified_extends (sha256 : Bytes → String) (store : ArtifactStore)
    (answer : PutAnswer) (key : String) (bytes : Bytes) (contentType expected : String) :
    PutExtends store (putVerified sha256 store answer key bytes contentType expected).2 key
      bytes := by
  unfold putVerified
  simp only
  split
  · exact PutExtends.refl store key bytes
  · split
    · exact PutExtends.refl store key bytes
    · rename_i absent
      split
      · exact putExtends_insert absent _
      · exact PutExtends.refl store key bytes

/-- An existing object is accepted only with the right length and digest. -/
theorem putRule_accepts {sha256 : Bytes → String} {store : ArtifactStore} {answer : PutAnswer}
    {object existing : StoredObject} {expected : String} (digest : sha256 object.bytes = expected)
    (accepted : (putRule sha256 store answer object expected).accepts existing = true) :
    existing.bytes.length = object.bytes.length ∧ sha256 existing.bytes = expected := by
  unfold putRule at accepted
  split at accepted
  · simp only [memoryPut, decide_eq_true_eq] at accepted
    rw [accepted]
    exact ⟨rfl, digest⟩
  · simp only [localPut, localObjectMatches, Bool.and_eq_true, decide_eq_true_eq] at accepted
    exact accepted.2
  · simp only [s3Put, s3ObjectMatches, localObjectMatches, Bool.and_eq_true,
      decide_eq_true_eq] at accepted
    exact accepted.2.2

/-- A successful put leaves an object of the right length and digest at its key. -/
theorem putVerified_ok {sha256 : Bytes → String} {store : ArtifactStore} {answer : PutAnswer}
    {key : String} {bytes : Bytes} {contentType expected : String}
    (digest : sha256 bytes = expected)
    (success : (putVerified sha256 store answer key bytes contentType expected).1 = .ok ()) :
    ∃ object, (putVerified sha256 store answer key bytes contentType expected).2.get key =
        some object ∧
      object.bytes.length = bytes.length ∧ sha256 object.bytes = expected := by
  unfold putVerified at success ⊢
  simp only at success ⊢
  split at success
  · contradiction
  · rename_i wellFormed
    rw [if_neg wellFormed]
    split at success
    · rename_i existing found
      exact ⟨existing, found, putRule_accepts digest (ensure_ok.mp success)⟩
    · split at success
      · rename_i lands
        simp only [if_pos lands]
        exact ⟨_, by rw [get_insert, if_pos rfl], rfl, digest⟩
      · contradiction

/-! ## Reading -/

inductive Download where
  | redirect (url : String)
  | bytes (bytes : Bytes)
  | file (bytes : Bytes)

/-- `presign` is the S3 client's; it does not look at the object. -/
def ArtifactStore.download (store : ArtifactStore) (presign : String → ApiResult String)
    (key : String) : ApiResult Download :=
  match store.backend with
  | .memory _ => (okOrElse (store.get key) .internal).map fun object => .bytes object.bytes
  | .localDir => (okOrElse (store.get key) .internal).map fun object => .file object.bytes
  | .s3 => (presign key).map .redirect

def guardBuffered (bytes : Bytes) : ApiResult Unit :=
  ensure (bytes.length ≤ maxBufferedArtifactBytes) .internal

/-- `get_bytes`: refuses what is too large to buffer. -/
def ArtifactStore.getBytes (store : ArtifactStore) (key : String) : ApiResult Bytes := do
  let object ← okOrElse (store.get key) .internal
  guardBuffered object.bytes
  pure object.bytes

/-! ## Distinct keys -/

/-- Texts with different first characters differ. -/
theorem append_ne_of_head {left right : String} {first second : Char} {rest rest' : List Char}
    (leftChars : left.toList = first :: rest) (rightChars : right.toList = second :: rest')
    (differ : first ≠ second) : left ≠ right := by
  rintro rfl
  rw [leftChars] at rightChars
  exact differ (List.cons.inj rightChars).1

/-- The key of an artifact tells its digest, in whichever format it is kept. -/
theorem artifactKey_digest {sha256 other : String} {format format' : ArtifactFormat}
    (same : artifactKey sha256 format.extension = artifactKey other format'.extension) :
    sha256 = other := by
  have chars := congrArg String.toList same
  simp only [artifactKey, String.toList_append, List.append_assoc] at chars
  have tails := List.append_cancel_left chars
  have sameFormat : format = format' := by
    have last := congrArg List.getLast? tails
    cases format with
    | tarGz =>
        cases format' with
        | tarGz => rfl
        | zip => simp [ArtifactFormat.extension, List.getLast?_append] at last
    | zip =>
        cases format' with
        | tarGz => simp [ArtifactFormat.extension, List.getLast?_append] at last
        | zip => rfl
  subst sameFormat
  exact String.toList_injective (List.append_cancel_right tails)

theorem packagesAliasKey_toList (org name version extension : String) :
    ∃ rest, (packagesAliasKey org name version extension).toList = 'p' :: rest := by
  unfold packagesAliasKey
  simp only [String.toList_append]
  exact ⟨_, rfl⟩

theorem artifactKey_ne_packagesAliasKey (sha256 extension org name version other : String) :
    artifactKey sha256 extension ≠ packagesAliasKey org name version other := by
  obtain ⟨rest, chars⟩ := packagesAliasKey_toList org name version other
  have artifact : ∃ rest, (artifactKey sha256 extension).toList = 'a' :: rest := by
    unfold artifactKey
    simp only [String.toList_append]
    exact ⟨_, rfl⟩
  obtain ⟨rest', chars'⟩ := artifact
  exact append_ne_of_head chars' chars (by decide)

theorem githubAliasKey_ne_packagesAliasKey
    (owner repo vcsTag name version extension org name' version' other : String) :
    githubAliasKey owner repo vcsTag name version extension ≠
      packagesAliasKey org name' version' other := by
  obtain ⟨rest, chars⟩ := packagesAliasKey_toList org name' version' other
  have github : ∃ rest, (githubAliasKey owner repo vcsTag name version extension).toList =
      'g' :: rest := by
    unfold githubAliasKey
    simp only [String.toList_append]
    exact ⟨_, rfl⟩
  obtain ⟨rest', chars'⟩ := github
  exact append_ne_of_head chars' chars (by decide)

theorem mem_guessableAliasKeys {org name version vcsTag extension repoUrl key : String}
    (member : key ∈ guessableAliasKeys org name version vcsTag extension repoUrl) :
    (∃ owner repo, key = githubAliasKey owner repo vcsTag name version extension) ∨
      key = packagesAliasKey org name version extension := by
  unfold guessableAliasKeys at member
  simp only [List.mem_append] at member
  rcases member with github | packages
  · split at github
    · exact Or.inl ⟨_, _, List.mem_singleton.mp github⟩
    · contradiction
  · split at packages
    · exact Or.inr (List.mem_singleton.mp packages)
    · contradiction

end ZedRegistry
