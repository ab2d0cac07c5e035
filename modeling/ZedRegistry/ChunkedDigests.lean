import ZedRegistry.BinaryArtifact
import ZedRegistry.Lib.ChunkedReading
import ZedRegistry.LocalPut
import ZedRegistry.ObjectPut

/-!
# Digests that do not depend on the reads

`hash_zip_entry` and `hash_async_reader` as loops over whatever pieces a reader returns,
and the two comparisons of the store that rest on the second.  What they tell of a stream
depends on its length and its bytes, not on how it was read.
-/

set_option autoImplicit false

namespace ZedRegistry.ChunkedDigests

open ChunkedReading

/-! ## The loop of the store -/

/-- `hash_async_reader`; a reader without further answers is at its end. -/
def hashAsyncReader (sha256 : Bytes → String) (expectedLen : Nat) (progress : HashProgress) :
    List (Except String Bytes) → Except Anyhow (Nat × String)
  | [] => .ok (progress.len, sha256 progress.hashed)
  | .error error :: _ => .error [error]
  | .ok chunk :: rest =>
    match hashChunk sha256 expectedLen progress chunk with
    | .more next => hashAsyncReader sha256 expectedLen next rest
    | .done len digest => .ok (len, digest)
    | .overflowed => .error ["artifact length overflowed u64 while hashing"]

structure FileMetadata where
  isFile : Bool
  len : Nat

/-- `metadata` and `file` are what the file system answers to the stat and to the open. -/
def localObjectMatches (sha256 : Bytes → String) (metadata : Except IoError FileMetadata)
    (file : Except IoError (List (Except String Bytes))) (expected : ExpectedArtifact) :
    Except Anyhow (Option Bool) :=
  match metadata with
  | .error error => if error.kind = .notFound then .ok none else .error [error.message]
  | .ok metadata =>
    if metadata.isFile = false ∨ metadata.len ≠ expected.len then .ok (some false)
    else do
      let reads ← file.mapError fun error => [error.message]
      let (len, digest) ← hashAsyncReader sha256 expected.len ⟨0, []⟩ reads
      pure (some (len = expected.len && digest = expected.sha256))

/-- `answer` is what the store answers to the GET, with the reads of its body. -/
def s3ObjectMatches (sha256 : Bytes → String)
    (answer : Except String (GetObjectOutput × List (Except String Bytes)))
    (expected : ExpectedArtifact) : Except Anyhow Bool := do
  let (output, reads) ← answer.mapError fun error => ["s3 recovery get_object failed", error]
  if objectMetadataMatches output expected = false then pure false
  else
    let (len, digest) ← hashAsyncReader sha256 expected.len ⟨0, []⟩ reads
    pure (len = expected.len && digest = expected.sha256)

/-! ## Both loops take the pieces in one way -/

/-- Reads that all succeed. -/
def reads (chunks : List Bytes) : List (Except String Bytes) := chunks.map .ok

theorem checkedAdd_taken {taken chunk : Bytes} :
    checkedAdd taken.length chunk.length =
      if 2 ^ 64 ≤ (taken ++ chunk).length then none else some (taken ++ chunk).length := by
  rw [checkedAdd, List.length_append]
  by_cases full : 2 ^ 64 ≤ taken.length + chunk.length
  · rw [if_pos full, if_neg (Nat.not_lt.mpr full)]
  · rw [if_neg full, if_pos (Nat.lt_of_not_le full)]

section Loops

variable (sha256 : Bytes → String) (expectedLen : Nat) {chunks : List Bytes}

theorem hashAsyncReader_eq (nonempty : ∀ chunk ∈ chunks, chunk ≠ []) (taken : Bytes) :
    hashAsyncReader sha256 expectedLen ⟨taken.length, taken⟩ (reads chunks) =
      match takeChunks expectedLen (2 ^ 64) taken chunks with
      | .whole stream => .ok (stream.length, sha256 stream)
      | .excess len => .ok (len, "")
      | .overflow => .error ["artifact length overflowed u64 while hashing"] := by
  induction chunks generalizing taken with
  | nil => rfl
  | cons chunk rest inductionHypothesis =>
      obtain ⟨here, later⟩ := List.forall_mem_cons.mp nonempty
      rw [takeChunks, reads, List.map_cons, hashAsyncReader, hashChunk, if_neg here,
        checkedAdd_taken]
      by_cases full : 2 ^ 64 ≤ (taken ++ chunk).length
      · rw [if_pos full, if_pos full]
      · rw [if_neg full, if_neg full]
        by_cases exceeds : expectedLen < (taken ++ chunk).length
        · simp only [if_pos exceeds]
        · simp only [if_neg exceeds]
          exact inductionHypothesis later (taken ++ chunk)

theorem hashZipEntry_eq (nonempty : ∀ chunk ∈ chunks, chunk ≠ []) (taken : Bytes) :
    hashZipEntry sha256 expectedLen taken taken.length (reads chunks) =
      match takeChunks expectedLen (2 ^ 64) taken chunks with
      | .whole stream => hashZipEntry.finish sha256 expectedLen stream stream.length
      | .excess _ => .error "ZIP payload exceeds its descriptor-declared size"
      | .overflow => .error "ZIP payload size overflows u64" := by
  induction chunks generalizing taken with
  | nil => rfl
  | cons chunk rest inductionHypothesis =>
      obtain ⟨here, later⟩ := List.forall_mem_cons.mp nonempty
      rw [takeChunks, reads, List.map_cons, hashZipEntry, if_neg here, checkedAdd_taken]
      by_cases full : 2 ^ 64 ≤ (taken ++ chunk).length
      · rw [if_pos full, if_pos full]
      · rw [if_neg full, if_neg full]
        by_cases exceeds : expectedLen < (taken ++ chunk).length
        · simp only [if_pos exceeds]
        · simp only [if_neg exceeds]
          exact inductionHypothesis later (taken ++ chunk)

/-- A stream of the expected length is taken whole. -/
theorem hashAsyncReader_exact (nonempty : ∀ chunk ∈ chunks, chunk ≠ [])
    (u64 : expectedLen < 2 ^ 64) (exact : chunks.flatten.length = expectedLen) :
    hashAsyncReader sha256 expectedLen ⟨0, []⟩ (reads chunks) =
      .ok (expectedLen, sha256 chunks.flatten) := by
  have loop := hashAsyncReader_eq sha256 expectedLen nonempty []
  rw [takeChunks_whole u64 (Nat.le_of_eq exact)] at loop
  refine loop.trans ?_
  simp only [exact]

/-- A stream of another length never leads to the expected length. -/
theorem hashAsyncReader_other (nonempty : ∀ chunk ∈ chunks, chunk ≠ [])
    (u64 : expectedLen < 2 ^ 64) (other : chunks.flatten.length ≠ expectedLen)
    (counted : ¬ Crosses expectedLen (2 ^ 64) chunks) :
    ∃ pair, hashAsyncReader sha256 expectedLen ⟨0, []⟩ (reads chunks) = .ok pair ∧
      pair.1 ≠ expectedLen := by
  have loop := hashAsyncReader_eq sha256 expectedLen nonempty []
  by_cases within : chunks.flatten.length ≤ expectedLen
  · rw [takeChunks_whole u64 within] at loop
    exact ⟨_, loop, other⟩
  · obtain ⟨len, excess, exceeds⟩ := takeChunks_excess (Nat.lt_of_not_le within) counted
    rw [excess] at loop
    exact ⟨_, loop, Nat.ne_of_gt exceeds⟩

theorem hashAsyncReader_crosses (nonempty : ∀ chunk ∈ chunks, chunk ≠ [])
    (crosses : Crosses expectedLen (2 ^ 64) chunks) :
    hashAsyncReader sha256 expectedLen ⟨0, []⟩ (reads chunks) =
      .error ["artifact length overflowed u64 while hashing"] := by
  have loop := hashAsyncReader_eq sha256 expectedLen nonempty []
  rw [takeChunks_crosses.mpr crosses] at loop
  exact loop

theorem hashZipEntry_iff (nonempty : ∀ chunk ∈ chunks, chunk ≠ []) (u64 : expectedLen < 2 ^ 64)
    (digest : String) :
    hashZipEntry sha256 expectedLen [] 0 (reads chunks) = .ok digest ↔
      chunks.flatten.length = expectedLen ∧ digest = sha256 chunks.flatten := by
  have loop := hashZipEntry_eq sha256 expectedLen nonempty []
  rw [List.length_nil] at loop
  rw [loop]
  by_cases within : chunks.flatten.length ≤ expectedLen
  · rw [takeChunks_whole u64 within]
    simp only [hashZipEntry.finish]
    by_cases exact : chunks.flatten.length = expectedLen
    · rw [if_neg (not_not_intro exact), Except.ok.injEq]
      constructor
      · intro same
        exact ⟨exact, same.symm⟩
      · intro same
        exact same.2.symm
    · rw [if_pos exact]
      constructor
      · intro accepted
        cases accepted
      · intro same
        exact absurd same.1 exact
  · have refused : ∀ message : String, (Except.error message : Except String String) = .ok digest ↔
        chunks.flatten.length = expectedLen ∧ digest = sha256 chunks.flatten := by
      intro message
      constructor
      · intro accepted
        cases accepted
      · intro same
        exact absurd (Nat.le_of_eq same.1) within
    by_cases crosses : Crosses expectedLen (2 ^ 64) chunks
    · rw [takeChunks_crosses.mpr crosses]
      exact refused _
    · obtain ⟨len, excess, -⟩ := takeChunks_excess (Nat.lt_of_not_le within) crosses
      rw [excess]
      exact refused _

end Loops

/-! ## What the comparisons make of it -/

section Comparisons

variable (sha256 : Bytes → String) (expectedLen : Nat) (chunks : List Bytes)

/-- Both comparisons turn the object down, whatever else they are told about it. -/
structure Rejected : Prop where
  localObject : ∀ metadata expected, expected.len = expectedLen →
    localObjectMatches sha256 (.ok metadata) (.ok (reads chunks)) expected = .ok (some false)
  s3Object : ∀ output expected, expected.len = expectedLen →
    s3ObjectMatches sha256 (.ok (output, reads chunks)) expected = .ok false

/-- Neither comparison takes the object for the expected one. -/
structure NeverAccepted : Prop where
  localObject : ∀ metadata expected, expected.len = expectedLen →
    localObjectMatches sha256 metadata (.ok (reads chunks)) expected ≠ .ok (some true)
  s3Object : ∀ output expected, expected.len = expectedLen →
    s3ObjectMatches sha256 (.ok (output, reads chunks)) expected ≠ .ok true

variable {sha256 expectedLen chunks}

theorem rejected_of_len {pair : Nat × String}
    (told : hashAsyncReader sha256 expectedLen ⟨0, []⟩ (reads chunks) = .ok pair)
    (differs : pair.1 ≠ expectedLen) : Rejected sha256 expectedLen chunks where
  localObject := by
    intro metadata expected len
    subst len
    simp only [localObjectMatches]
    split_ifs
    · rfl
    · simp [Except.mapError, told, bind, Except.bind, differs, pure, Except.pure]
  s3Object := by
    intro output expected len
    subst len
    simp only [s3ObjectMatches, Except.mapError, bind, Except.bind]
    split_ifs
    · rfl
    · simp [told, differs, pure, Except.pure]

theorem neverAccepted_of_error {error : Anyhow}
    (failed : hashAsyncReader sha256 expectedLen ⟨0, []⟩ (reads chunks) = .error error) :
    NeverAccepted sha256 expectedLen chunks where
  localObject := by
    intro metadata expected len
    subst len
    simp only [localObjectMatches]
    cases metadata with
    | error stat =>
        simp only
        split_ifs <;> simp
    | ok metadata =>
        simp only
        split_ifs
        · simp
        · simp [Except.mapError, failed, bind, Except.bind]
  s3Object := by
    intro output expected len
    subst len
    simp only [s3ObjectMatches, Except.mapError, bind, Except.bind]
    split_ifs
    · simp [pure, Except.pure]
    · simp [failed]

end Comparisons

/-! ## Whole objects -/

/-- What a GET of the object returns beside the body. -/
def objectOutput (object : StoredObject) : GetObjectOutput where
  contentLength := some object.bytes.length
  contentType := some object.contentType
  cacheControl := some object.cacheControl
  metadata := some [(artifactSha256MetadataKey, object.sha256Metadata)]

theorem objectMetadataMatches_output (object : StoredObject) (expected : ExpectedArtifact) :
    objectMetadataMatches (objectOutput object) expected = true ↔
      object.bytes.length = expected.len ∧ object.contentType = expected.contentType ∧
        object.cacheControl = immutableCacheControl ∧ object.sha256Metadata = expected.sha256 := by
  simp [objectMetadataMatches, objectOutput, u64TryFrom, and_assoc]

section Objects

variable (sha256 : Bytes → String) {object : StoredObject} {chunks : List Bytes}
variable {expected : ExpectedArtifact}

/-- Read piece by piece, a file is compared as the object it holds is compared whole. -/
theorem localObjectMatches_object (splits : Splits copyBufferBytes object.bytes chunks)
    (u64 : expected.len < 2 ^ 64) :
    localObjectMatches sha256 (.ok ⟨true, object.bytes.length⟩) (.ok (reads chunks)) expected =
      .ok (some (ZedRegistry.localObjectMatches sha256 object expected.len expected.sha256)) := by
  simp only [localObjectMatches, ZedRegistry.localObjectMatches]
  by_cases exact : object.bytes.length = expected.len
  · have told := hashAsyncReader_exact sha256 expected.len splits.nonempty u64
      (by rw [splits.whole, exact])
    rw [splits.whole] at told
    simp [exact, Except.mapError, told, bind, Except.bind, pure, Except.pure]
  · simp [exact]

theorem s3ObjectMatches_object (splits : Splits copyBufferBytes object.bytes chunks)
    (u64 : expected.len < 2 ^ 64) :
    s3ObjectMatches sha256 (.ok (objectOutput object, reads chunks)) expected =
      .ok (ZedRegistry.s3ObjectMatches sha256 object expected.len expected.sha256
        expected.contentType) := by
  have attributes := objectMetadataMatches_output object expected
  simp only [s3ObjectMatches, ZedRegistry.s3ObjectMatches, ZedRegistry.localObjectMatches,
    Except.mapError, bind, Except.bind]
  by_cases same : objectMetadataMatches (objectOutput object) expected = true
  · obtain ⟨exact, contentType, cacheControl, metadata⟩ := attributes.mp same
    have told := hashAsyncReader_exact sha256 expected.len splits.nonempty u64
      (by rw [splits.whole, exact])
    rw [splits.whole] at told
    simp [same, told, exact, contentType, cacheControl, metadata, pure, Except.pure]
  · rw [if_pos (Bool.eq_false_iff.mpr same)]
    refine congrArg Except.ok (Bool.eq_false_iff.mpr ?_).symm
    intro accepted
    simp only [Bool.and_eq_true, decide_eq_true_eq] at accepted
    obtain ⟨⟨⟨contentType, cacheControl⟩, metadata⟩, exact, -⟩ := accepted
    exact same (attributes.mpr ⟨exact, contentType, cacheControl, metadata⟩)

end Objects

/-! ## Every way to read a stream -/

section Streams

variable (sha256 : Bytes → String) {stream : Bytes} {chunks : List Bytes} {expectedLen : Nat}

/-- The exception is a read that takes the counter from within the expected length beyond
`u64`, which only a stream of at least `2 ^ 64` bytes can bring about. -/
theorem streaming_digests_agree (splits : Splits copyBufferBytes stream chunks)
    (u64 : expectedLen < 2 ^ 64) :
    (∀ digest, hashZipEntry sha256 expectedLen [] 0 (reads chunks) = .ok digest ↔
        stream.length = expectedLen ∧ digest = sha256 stream) ∧
      (stream.length = expectedLen →
        hashAsyncReader sha256 expectedLen ⟨0, []⟩ (reads chunks) =
          .ok (expectedLen, sha256 stream)) ∧
      (stream.length ≠ expectedLen → ¬ Crosses expectedLen (2 ^ 64) chunks →
        ∃ pair, hashAsyncReader sha256 expectedLen ⟨0, []⟩ (reads chunks) = .ok pair ∧
          pair.1 ≠ expectedLen ∧ Rejected sha256 expectedLen chunks) ∧
      (Crosses expectedLen (2 ^ 64) chunks →
        2 ^ 64 ≤ stream.length ∧ 2 ^ 64 ≤ expectedLen + copyBufferBytes ∧
          hashAsyncReader sha256 expectedLen ⟨0, []⟩ (reads chunks) =
            .error ["artifact length overflowed u64 while hashing"] ∧
          NeverAccepted sha256 expectedLen chunks) := by
  have long : Crosses expectedLen (2 ^ 64) chunks →
      2 ^ 64 ≤ stream.length ∧ 2 ^ 64 ≤ expectedLen + copyBufferBytes := splits.crosses_length
  obtain ⟨rfl, nonempty, -⟩ := splits
  refine ⟨hashZipEntry_iff sha256 expectedLen nonempty u64,
    hashAsyncReader_exact sha256 expectedLen nonempty u64, ?_, ?_⟩
  · intro other counted
    obtain ⟨pair, told, differs⟩ :=
      hashAsyncReader_other sha256 expectedLen nonempty u64 other counted
    exact ⟨pair, told, differs, rejected_of_len told differs⟩
  · intro crosses
    have failed := hashAsyncReader_crosses sha256 expectedLen nonempty crosses
    exact ⟨(long crosses).1, (long crosses).2, failed, neverAccepted_of_error failed⟩

end Streams

def samplePieces : List Bytes := [asBytes "al", asBytes "pha"]

theorem samplePieces_split : Splits copyBufferBytes (asBytes "alpha") samplePieces where
  whole := by decide
  nonempty := by decide
  fits := by decide

theorem streaming_digests_agree_sample :
    (∀ digest,
        hashZipEntry (tabulated VerifiedPut.sampleDigests) 5 [] 0 (reads samplePieces) =
            .ok digest ↔
          (asBytes "alpha").length = 5 ∧
            digest = tabulated VerifiedPut.sampleDigests (asBytes "alpha")) ∧
      (∃ pair, hashAsyncReader (tabulated VerifiedPut.sampleDigests) 4 ⟨0, []⟩
          (reads samplePieces) = .ok pair ∧
        pair.1 ≠ 4 ∧ Rejected (tabulated VerifiedPut.sampleDigests) 4 samplePieces) := by
  have short : ¬ Crosses 4 (2 ^ 64) samplePieces := by
    intro crosses
    exact absurd (samplePieces_split.crosses_length crosses).1 (by decide)
  exact ⟨(streaming_digests_agree _ samplePieces_split (by decide)).1,
    (streaming_digests_agree _ samplePieces_split (by decide)).2.2.1 (by decide) short⟩

/-- A stream of `2 ^ 64` bytes, one more than expected, that fills the buffer at each read. -/
def longStream : List Bytes := List.replicate (2 ^ 48) (List.replicate copyBufferBytes 0)

theorem longStream_split :
    Splits copyBufferBytes (List.replicate (2 ^ 48 * copyBufferBytes) 0) longStream :=
  splits_replicate (by decide) le_rfl (2 ^ 48) 0

theorem longStream_yields_no_pair :
    Splits copyBufferBytes (List.replicate (2 ^ 48 * copyBufferBytes) 0) longStream ∧
      2 ^ 64 - 1 < 2 ^ 64 ∧
      (List.replicate (2 ^ 48 * copyBufferBytes) (0 : UInt8)).length ≠ 2 ^ 64 - 1 ∧
      ¬ ∃ pair, hashAsyncReader (tabulated VerifiedPut.sampleDigests) (2 ^ 64 - 1) ⟨0, []⟩
          (reads longStream) = .ok pair := by
  have size : 2 ^ 48 * copyBufferBytes = 2 ^ 64 := rfl
  have within : (2 ^ 48 - 1) * copyBufferBytes ≤ 2 ^ 64 - 1 := by
    rw [Nat.sub_mul, size]
    decide
  have crosses : Crosses (2 ^ 64 - 1) (2 ^ 64) longStream :=
    crosses_replicate (2 ^ 48) copyBufferBytes 0 (Nat.two_pow_pos 48) within
      (Nat.le_of_eq size.symm)
  have failed := hashAsyncReader_crosses (tabulated VerifiedPut.sampleDigests) (2 ^ 64 - 1)
    longStream_split.nonempty crosses
  refine ⟨longStream_split, by decide, ?_, ?_⟩
  · rw [List.length_replicate, size]
    decide
  · rintro ⟨pair, told⟩
    rw [failed] at told
    cases told

end ZedRegistry.ChunkedDigests
