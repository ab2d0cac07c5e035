import ZedRegistry.ArtifactStore

/-!
# Hashing a stored object as it is read

`hash_async_reader` and the `ExpectedArtifact` it is compared with.  A read
returns any nonempty piece of what is left, at most a buffer of it, and nothing
only where nothing is left.
-/

set_option autoImplicit false

namespace ZedRegistry

/-- Bytes whose digest the caller has recomputed. -/
structure VerifiedPut (sha256 : Bytes → String) where
  bytes : Bytes
  contentType : String
  digest : String
  recomputed : digest = sha256 bytes

structure ExpectedArtifact where
  len : Nat
  sha256 : String
  contentType : String
  deriving DecidableEq

def VerifiedPut.expected {sha256 : Bytes → String} (put : VerifiedPut sha256) : ExpectedArtifact :=
  ⟨put.bytes.length, put.digest, put.contentType⟩

/-- An `anyhow` error: its contexts, outermost first, and its cause. -/
abbrev Anyhow := List String

def copyBufferBytes : Nat := 64 * 1024

/-- What one `read` at `offset` returns, where the reader has `count` bytes ready. -/
def readChunk (content : Bytes) (offset count : Nat) : Bytes :=
  (content.drop offset).take (max 1 (min count copyBufferBytes))

structure HashProgress where
  len : Nat
  hashed : Bytes

inductive HashStep where
  | more (progress : HashProgress)
  | done (len : Nat) (sha256 : String)
  | overflowed

/-- One turn of the loop of `hash_async_reader`. -/
def hashChunk (sha256 : Bytes → String) (expectedLen : Nat) (progress : HashProgress)
    (chunk : Bytes) : HashStep :=
  if chunk = [] then .done progress.len (sha256 progress.hashed)
  else
    match checkedAdd progress.len chunk.length with
    | none => .overflowed
    | some len =>
      if expectedLen < len then .done len "" else .more ⟨len, progress.hashed ++ chunk⟩

/-! ## What has been hashed -/

/-- The progress is that of a reader of `content`. -/
structure HashProgress.Tracks (progress : HashProgress) (content : Bytes) : Prop where
  counted : progress.len = progress.hashed.length
  hashed : progress.hashed <+: content

theorem tracks_start (content : Bytes) : (⟨0, []⟩ : HashProgress).Tracks content :=
  ⟨rfl, List.nil_prefix⟩

theorem HashProgress.Tracks.rest {progress : HashProgress} {content : Bytes}
    (tracks : progress.Tracks content) :
    progress.hashed ++ content.drop progress.len = content := by
  rw [tracks.counted]
  exact List.prefix_iff_eq_append.mp tracks.hashed

theorem readChunk_eq_nil {content : Bytes} {offset count : Nat}
    (nothing : readChunk content offset count = []) : content.drop offset = [] := by
  unfold readChunk at nothing
  rw [List.take_eq_nil_iff] at nothing
  exact nothing.resolve_left (by omega)

theorem hashChunk_more {sha256 : Bytes → String} {expectedLen : Nat}
    {progress next : HashProgress} {content : Bytes} {count : Nat}
    (tracks : progress.Tracks content)
    (hashes : hashChunk sha256 expectedLen progress (readChunk content progress.len count) =
      .more next) : next.Tracks content := by
  unfold hashChunk at hashes
  split at hashes
  · contradiction
  · split at hashes
    · contradiction
    · rename_i len added
      split at hashes
      · contradiction
      · obtain rfl := HashStep.more.inj hashes
        constructor
        · rw [checkedAdd_some added, tracks.counted, List.length_append]
        · nth_rewrite 2 [← tracks.rest]
          rw [List.prefix_append_right_inj]
          exact List.take_prefix _ _

/-- A comparison that succeeds has hashed the whole content. -/
theorem hashChunk_done {sha256 : Bytes → String} {expected : ExpectedArtifact}
    {progress : HashProgress} {content : Bytes} {count len : Nat} {digest : String}
    (tracks : progress.Tracks content)
    (hashes : hashChunk sha256 expected.len progress (readChunk content progress.len count) =
      .done len digest)
    (same : len = expected.len ∧ digest = expected.sha256) :
    content.length = expected.len ∧ sha256 content = expected.sha256 := by
  obtain ⟨sameLen, sameDigest⟩ := same
  unfold hashChunk at hashes
  split at hashes
  · rename_i nothing
    obtain ⟨rfl, rfl⟩ := HashStep.done.inj hashes
    have rest := readChunk_eq_nil nothing
    have whole : progress.hashed = content := by
      rw [← List.append_nil progress.hashed, ← rest, tracks.rest]
    rw [whole] at sameDigest
    exact ⟨by rw [← sameLen, tracks.counted, whole], sameDigest⟩
  · split at hashes
    · contradiction
    · split at hashes
      · rename_i tooLong
        obtain ⟨rfl, -⟩ := HashStep.done.inj hashes
        omega
      · contradiction

/-! ## Two sample puts -/

namespace VerifiedPut

def sampleDigests : List (Bytes × String) :=
  [(asBytes "alpha", "8ed3f6ad685b959ead7022518e1af76cd816f8e8ec7ccdda1ed4018e8f2223f8"),
    (asBytes "bravo", "f144a6907dc4284d1f9fe6a7d9b9ff53c02c1d07ba68f24d413d7ff7f757a782")]

def sample (text : String) : VerifiedPut (tabulated sampleDigests) :=
  ⟨asBytes text, "application/zip", tabulated sampleDigests (asBytes text), rfl⟩

theorem sampleDigests_collisionFree : CollisionFree (tabulated sampleDigests) :=
  tabulated_collisionFree (by decide) (by decide)

end VerifiedPut

end ZedRegistry
