import Mathlib.Logic.Function.Basic
import ZedRegistry.Lib.RelyGuarantee
import ZedRegistry.StreamedHash

/-!
# The object-store put and its recovery

The S3 branch of `put_verified`.  A conditional PUT is a request in flight: it may
reach the store at any time, also after the caller was told of an error or has
crashed, and may reach it again when it is retried; it takes effect only where the
key is absent.
-/

set_option autoImplicit false

namespace ZedRegistry

open RelyGuarantee Execution

/-! ## Objects -/

def artifactSha256MetadataKey : String := "zpkg-sha256"

/-- An object of the store, whoever wrote it. -/
structure S3Object where
  body : Bytes
  contentType : Option String
  cacheControl : Option String
  metadata : List (String × String)
  deriving DecidableEq

/-- What a GET returns beside the body. -/
structure GetObjectOutput where
  contentLength : Option Int
  contentType : Option String
  cacheControl : Option String
  metadata : Option (List (String × String))

def S3Object.output (object : S3Object) : GetObjectOutput where
  contentLength := some object.body.length
  contentType := object.contentType
  cacheControl := object.cacheControl
  metadata := some object.metadata

/-- `u64::try_from` of an `i64`. -/
def u64TryFrom (value : Int) : Option Nat := if 0 ≤ value then some value.toNat else none

def objectMetadataMatches (output : GetObjectOutput) (expected : ExpectedArtifact) : Bool :=
  output.contentLength.bind u64TryFrom = some expected.len &&
    output.contentType = some expected.contentType &&
    output.cacheControl = some immutableCacheControl &&
    output.metadata.bind (fun values => values.lookup artifactSha256MetadataKey) =
      some expected.sha256

variable {sha256 : Bytes → String}

/-- The object a PUT writes. -/
def VerifiedPut.object (put : VerifiedPut sha256) : S3Object where
  body := put.bytes
  contentType := some put.contentType
  cacheControl := some immutableCacheControl
  metadata := [(artifactSha256MetadataKey, put.digest)]

/-! ## Where a put is -/

inductive S3Point where
  | put
  | get (putError : String)
  | stream (putError : String) (object : S3Object) (progress : HashProgress)

variable (sha256)

inductive S3Phase where
  | idle
  | running (key : String) (put : VerifiedPut sha256) (point : S3Point)
  | finished (key : String) (put : VerifiedPut sha256) (result : Except Anyhow Unit)
  | crashed

/-- `sent` keeps every request that may still reach the store, and `landed` which
of them took effect. -/
structure S3Store where
  objects : String → Option S3Object
  sent : Nat → Option (String × VerifiedPut sha256)
  landed : Nat → Bool

inductive S3Action where
  | start (key : String) (put : VerifiedPut sha256)
  | deliver
  | answered (result : Except String Unit)
  | got (failure : Option String)
  | read (failure : Option String) (count : Nat)
  | crash

variable {sha256}

/-! ## Steps -/

section Steps

variable (attempt : Nat) (store : S3Store sha256) (key : String) (put : VerifiedPut sha256)

def startPut : S3Store sha256 × S3Phase sha256 :=
  if isSha256Hex put.digest = false then
    (store, .finished key put
      (.error ["artifact sha256 must be 64 lowercase hexadecimal characters"]))
  else
    ({ store with sent := Function.update store.sent attempt (some (key, put)) },
      .running key put .put)

/-- The request reaches the store: `If-None-Match: *`. -/
def deliverPut : S3Store sha256 :=
  if (store.objects key).isSome then store
  else
    { store with
      objects := Function.update store.objects key (some put.object)
      landed := Function.update store.landed attempt true }

/-- What follows an answer of `s3_object_matches`. -/
def recovered (putError : String) (outcome : Except Anyhow Bool) : S3Phase sha256 :=
  match outcome with
  | .ok true => .finished key put (.ok ())
  | .ok false => .finished key put (.error
      ["s3 put_object failed and the existing object did not match the expected immutable artifact",
        putError])
  | .error verifyError => .finished key put (.error
      ["s3 put_object failed and recovery verification failed: " ++ ": ".intercalate verifyError,
        putError])

def getStep (putError : String) (failure : Option String) : S3Phase sha256 :=
  match failure, store.objects key with
  | some error, _ => recovered key put putError (.error ["s3 recovery get_object failed", error])
  | none, none => recovered key put putError (.error ["s3 recovery get_object failed", "NoSuchKey"])
  | none, some object =>
    if objectMetadataMatches object.output put.expected = false then
      recovered key put putError (.ok false)
    else .running key put (.stream putError object ⟨0, []⟩)

def streamStep (putError : String) (object : S3Object) (progress : HashProgress)
    (failure : Option String) (count : Nat) : S3Phase sha256 :=
  match failure with
  | some error => recovered key put putError (.error [error])
  | none =>
    match hashChunk sha256 put.expected.len progress
        (readChunk object.body progress.len count) with
    | .more next => .running key put (.stream putError object next)
    | .done len digest => recovered key put putError
        (.ok (len = put.expected.len && digest = put.expected.sha256))
    | .overflowed => recovered key put putError
        (.error ["artifact length overflowed u64 while hashing"])

end Steps

def s3Move : Move (S3Store sha256) (S3Phase sha256) (S3Action sha256)
  | attempt, store, .idle, .start key put => some (startPut attempt store key put)
  | attempt, store, phase, .deliver =>
    (store.sent attempt).map fun (key, put) => (deliverPut attempt store key put, phase)
  | attempt, store, .running key put .put, .answered result =>
    match result with
    | .ok () =>
      if store.landed attempt then some (store, .finished key put (.ok ())) else none
    | .error error => some (store, .running key put (.get error))
  | _, store, .running key put (.get putError), .got failure =>
    some (store, getStep store key put putError failure)
  | _, store, .running key put (.stream putError object progress), .read failure count =>
    some (store, streamStep key put putError object progress failure count)
  | _, store, .running _ _ _, .crash => some (store, .crashed)
  | _, _, _, _ => none

/-- A store that holds anything, and no put yet. -/
def S3Store.initial (objects : String → Option S3Object) : S3Store sha256 where
  objects := objects
  sent _ := none
  landed _ := false

namespace ObjectPut

/-! ## The outline -/

/-- The bytes, and the attributes a put gives its object. -/
structure Exact (object : S3Object) (put : VerifiedPut sha256) : Prop where
  body : object.body = put.bytes
  contentType : object.contentType = some put.contentType
  cacheControl : object.cacheControl = some immutableCacheControl
  metadata : object.metadata.lookup artifactSha256MetadataKey = some put.digest

def KeyExact (store : S3Store sha256) (key : String) (put : VerifiedPut sha256) : Prop :=
  ∃ object, store.objects key = some object ∧ Exact object put

def PhaseHolds (attempt : Nat) (store : S3Store sha256) : S3Phase sha256 → Prop
  | .idle => store.sent attempt = none
  | .crashed => True
  | .running key put .put => store.sent attempt = some (key, put)
  | .running _ _ (.get _) => True
  | .running key put (.stream _ object progress) =>
    store.objects key = some object ∧
      objectMetadataMatches object.output put.expected = true ∧ progress.Tracks object.body
  | .finished key put result => result = .ok () → KeyExact store key put

/-- A request that took effect left its object. -/
def Landed (store : S3Store sha256) : Prop :=
  ∀ attempt, store.landed attempt = true →
    ∃ key put, store.sent attempt = some (key, put) ∧ store.objects key = some put.object

structure Keeps (attempt : Nat) (store next : S3Store sha256) : Prop where
  objects : ∀ key object, store.objects key = some object → next.objects key = some object
  sent : ∀ other, other ≠ attempt → next.sent other = store.sent other

variable {attempt : Nat} {store next : S3Store sha256} {key : String} {put : VerifiedPut sha256}

theorem Keeps.refl (attempt : Nat) (store : S3Store sha256) : Keeps attempt store store :=
  ⟨fun _ _ found => found, fun _ _ => rfl⟩

theorem Keeps.keyExact (keeps : Keeps attempt store next) (exact : KeyExact store key put) :
    KeyExact next key put := by
  obtain ⟨object, found, same⟩ := exact
  exact ⟨object, keeps.objects key object found, same⟩

theorem exact_object (put : VerifiedPut sha256) : Exact put.object put where
  body := rfl
  contentType := rfl
  cacheControl := rfl
  metadata := by simp [VerifiedPut.object]

/-- The five comparisons and the digest leave only the object a put would write. -/
theorem exact_of_matches (collisionFree : CollisionFree sha256) {object : S3Object}
    (attributes : objectMetadataMatches object.output put.expected = true)
    (digest : sha256 object.body = put.expected.sha256) : Exact object put := by
  simp only [objectMetadataMatches, Bool.and_eq_true, decide_eq_true_eq] at attributes
  obtain ⟨⟨⟨-, contentType⟩, cacheControl⟩, metadata⟩ := attributes
  refine ⟨collisionFree.injective ?_, contentType, cacheControl, metadata⟩
  rw [digest, ← put.recomputed]
  rfl

theorem phaseHolds_keeps {other : Nat} {phase : S3Phase sha256}
    (keeps : Keeps other store next) (sent : next.sent attempt = store.sent attempt)
    (holds : PhaseHolds attempt store phase) : PhaseHolds attempt next phase := by
  cases phase with
  | idle => exact sent.trans holds
  | crashed => trivial
  | running key put point =>
      cases point with
      | put => exact sent.trans holds
      | get putError => trivial
      | stream putError object progress =>
          exact ⟨keeps.objects key object holds.1, holds.2⟩
  | finished key put result => exact fun success => keeps.keyExact (holds success)

/-! ## Moves -/

theorem recovered_holds {putError : String} {outcome : Except Anyhow Bool}
    (equal : outcome = .ok true → KeyExact store key put) :
    PhaseHolds attempt store (recovered key put putError outcome) := by
  cases outcome with
  | error error => exact fun success => by cases success
  | ok same =>
      cases same with
      | false => exact fun success => by cases success
      | true => exact fun _ => equal rfl

theorem getStep_holds {putError : String} {failure : Option String} :
    PhaseHolds attempt store (getStep store key put putError failure) := by
  unfold getStep
  split
  · exact recovered_holds (by simp)
  · exact recovered_holds (by simp)
  · rename_i object found
    split
    · exact recovered_holds (by simp)
    · rename_i same
      exact ⟨found, by simpa using same, tracks_start object.body⟩

theorem streamStep_holds (collisionFree : CollisionFree sha256) {putError : String}
    {object : S3Object} {progress : HashProgress} {failure : Option String} {count : Nat}
    (holds : PhaseHolds attempt store (.running key put (.stream putError object progress))) :
    PhaseHolds attempt store
      (streamStep key put putError object progress failure count) := by
  obtain ⟨found, attributes, tracks⟩ := holds
  unfold streamStep
  split
  · exact recovered_holds (by simp)
  · split
    · rename_i later hashes
      exact ⟨found, attributes, hashChunk_more tracks hashes⟩
    · rename_i len digest hashes
      refine recovered_holds ?_
      intro equal
      simp only [Except.ok.injEq, Bool.and_eq_true, decide_eq_true_eq] at equal
      obtain ⟨-, same⟩ := hashChunk_done tracks hashes equal
      exact ⟨object, found, exact_of_matches collisionFree attributes same⟩
    · exact recovered_holds (by simp)

theorem deliverPut_keeps (attempt : Nat) (store : S3Store sha256) (key : String)
    (put : VerifiedPut sha256) : Keeps attempt store (deliverPut attempt store key put) := by
  unfold deliverPut
  split
  · exact Keeps.refl attempt store
  · rename_i absent
    refine ⟨?_, fun _ _ => rfl⟩
    intro other object found
    have differs : other ≠ key := by
      rintro rfl
      simp [found] at absent
    exact (Function.update_of_ne differs _ _).trans found

theorem deliverPut_sent (attempt : Nat) (store : S3Store sha256) (key : String)
    (put : VerifiedPut sha256) : (deliverPut attempt store key put).sent = store.sent := by
  unfold deliverPut
  split <;> rfl

theorem deliverPut_landed (landed : Landed store) (sent : store.sent attempt = some (key, put)) :
    Landed (deliverPut attempt store key put) := by
  have keeps := deliverPut_keeps attempt store key put
  have sameSent := deliverPut_sent attempt store key put
  intro other took
  by_cases before : store.landed other = true
  · obtain ⟨key', put', sent', found⟩ := landed other before
    exact ⟨key', put', by rw [sameSent, sent'], keeps.objects _ _ found⟩
  · unfold deliverPut at took ⊢
    split at took
    · exact absurd took before
    · rename_i absent
      simp only at took
      have same : other = attempt := by
        by_contra differs
        rw [Function.update_of_ne differs] at took
        exact before took
      rw [if_neg absent, same]
      exact ⟨key, put, sent, Function.update_self _ _ _⟩

/-- What is proved of every move. -/
structure Moved (attempt : Nat) (store next : S3Store sha256) (phase : S3Phase sha256) :
    Prop where
  landed : Landed next
  phase : PhaseHolds attempt next phase
  keeps : Keeps attempt store next

theorem moved_same {phase : S3Phase sha256} (landed : Landed store)
    (holds : PhaseHolds attempt store phase) : Moved attempt store store phase :=
  ⟨landed, holds, Keeps.refl attempt store⟩

theorem startPut_moved (landed : Landed store) (idle : store.sent attempt = none)
    (key : String) (put : VerifiedPut sha256) :
    Moved attempt store (startPut attempt store key put).1 (startPut attempt store key put).2 := by
  unfold startPut
  split
  · exact moved_same landed fun success => by cases success
  · refine ⟨?_, Function.update_self _ _ _, fun _ _ found => found,
      fun _ differs => Function.update_of_ne differs _ _⟩
    intro other took
    obtain ⟨key', put', sent, found⟩ := landed other took
    have differs : other ≠ attempt := by
      rintro rfl
      rw [idle] at sent
      contradiction
    exact ⟨key', put', (Function.update_of_ne differs _ _).trans sent, found⟩

theorem s3Move_moved (collisionFree : CollisionFree sha256) {action : S3Action sha256}
    {before phase : S3Phase sha256} (landed : Landed store)
    (holds : PhaseHolds attempt store before)
    (moved : s3Move attempt store before action = some (next, phase)) :
    Moved attempt store next phase := by
  unfold s3Move at moved
  split at moved
  · rename_i key put
    have started := startPut_moved landed holds key put
    rw [Option.some.inj moved] at started
    exact started
  · obtain ⟨⟨key, put⟩, sent, delivered⟩ := Option.map_eq_some_iff.mp moved
    cases delivered
    have keeps := deliverPut_keeps attempt store key put
    exact ⟨deliverPut_landed landed sent,
      phaseHolds_keeps keeps (by rw [deliverPut_sent]) holds, keeps⟩
  · split at moved
    · split at moved
      · rename_i took
        cases moved
        obtain ⟨key', put', sent, found⟩ := landed attempt took
        have same := Option.some.inj (holds.symm.trans sent)
        cases same
        exact moved_same landed fun _ => ⟨_, found, exact_object _⟩
      · contradiction
    · cases moved
      exact moved_same landed trivial
  · cases moved
    exact moved_same landed getStep_holds
  · cases moved
    exact moved_same landed (streamStep_holds collisionFree holds)
  · cases moved
    exact moved_same landed trivial
  · contradiction

/-- The proof outline of the S3 branch. -/
def outline (collisionFree : CollisionFree sha256) : Outline (@s3Move sha256) where
  invariant := Landed
  assertion := PhaseHolds
  guarantee := Keeps
  permits _ _ := True
  sequential := by
    intro agent store next before phase action _ landed holds moved
    obtain ⟨landed', holds', keeps⟩ := s3Move_moved collisionFree landed holds moved
    exact ⟨landed', holds', keeps⟩
  stable differ holds keeps := phaseHolds_keeps keeps (keeps.sent _ differ) holds

theorem outline_initial (collisionFree : CollisionFree sha256)
    (objects : String → Option S3Object) :
    (outline collisionFree).Holds (Config.initial (S3Store.initial objects) .idle) :=
  ⟨fun _ took => absurd took Bool.false_ne_true, fun _ => rfl⟩

/-! ## Any number of concurrent puts -/

/-- What a run of puts on any keys does to the store. -/
structure ExactPuts (objects : String → Option S3Object)
    (events : List (Nat × S3Action sha256)) (final : Config (S3Store sha256) (S3Phase sha256)) :
    Prop where
  unchanged : ∀ early late before key object, events = early ++ late →
    exec (step s3Move) (Config.initial (S3Store.initial objects) .idle) early = some before →
    before.shared.objects key = some object → final.shared.objects key = some object
  answered : ∀ attempt key put, final.phases attempt = .finished key put (.ok ()) →
    ∃ object, final.shared.objects key = some object ∧ Exact object put

theorem s3_put_exact (collisionFree : CollisionFree sha256)
    {objects : String → Option S3Object} {events : List (Nat × S3Action sha256)}
    {final : Config (S3Store sha256) (S3Phase sha256)}
    (run : exec (step s3Move) (Config.initial (S3Store.initial objects) .idle) events =
      some final) : ExactPuts objects events final := by
  have initial := outline_initial collisionFree objects
  have phases := ((outline collisionFree).holds_run (fun _ _ => trivial) initial run).2
  constructor
  · rintro early late before key object rfl reached found
    obtain ⟨middle, reached', rest⟩ := (exec_append_some (step s3Move)).mp run
    rw [reached] at reached'
    obtain rfl := Option.some.inj reached'
    have here := (outline collisionFree).holds_run (fun _ _ => trivial) initial reached
    exact (outline collisionFree).relates_run
      (fun before after => ∀ key object, before.objects key = some object →
        after.objects key = some object)
      (fun _ _ _ found => found)
      (fun _ _ _ first second key object found => second key object (first key object found))
      (fun _ _ _ keeps => keeps.objects) (fun _ _ => trivial) here rest key object found
  · intro attempt key put ended
    have holds := phases attempt
    rw [ended] at holds
    exact holds rfl

namespace Sample

/-- The first put lands but its answer is lost; it and its competitor recover. -/
def lostAnswer : List (Nat × S3Action (tabulated VerifiedPut.sampleDigests)) :=
  [(0, .start "artifacts/a.zip" (.sample "alpha")), (1, .start "artifacts/a.zip" (.sample "bravo")),
    (0, .deliver), (1, .deliver), (0, .answered (.error "timeout")),
    (1, .answered (.error "PreconditionFailed")), (0, .got none), (1, .got none),
    (0, .read none 8), (0, .read none 8)]

end Sample

theorem s3_put_exact_sample :
    ∃ final, exec (step s3Move) (Config.initial (S3Store.initial fun _ => none) .idle)
        Sample.lostAnswer = some final ∧
      (final.shared.objects "artifacts/a.zip").map S3Object.body = some (asBytes "alpha") ∧
      ExactPuts (fun _ => none) Sample.lostAnswer final := by
  have seen : ((exec (step s3Move) (Config.initial (S3Store.initial fun _ => none) .idle)
      Sample.lostAnswer).map fun final =>
        (final.shared.objects "artifacts/a.zip").map S3Object.body) =
          some (some (asBytes "alpha")) := by
    decide +kernel
  obtain ⟨final, run, content⟩ := Option.map_eq_some_iff.mp seen
  exact ⟨final, run, content, s3_put_exact VerifiedPut.sampleDigests_collisionFree run⟩

end ObjectPut

end ZedRegistry
