import Mathlib.Data.Finset.Insert
import ZedRegistry.Lib.Execution

/-!
# The publication model

`formal/package_publication.qnt`: two authorized requests race to publish one
version.  The second has the digest of the first or another one, blobs are
uploaded before the metadata transaction, and either request may fail after its
upload.
-/

set_option autoImplicit false

namespace ZedRegistry.PackagePublication

open Execution

/-! ## States and actions -/

inductive AttemptPhase where
  | idle
  | uploaded
  | finished
  deriving DecidableEq

/-- The two requests. -/
inductive Requester where
  | a
  | b
  deriving DecidableEq

/-- `NONE`. -/
def noDigest : Int := 0

def digestA : Int := 1

def digests : Finset Int := {1, 2}

structure State where
  attemptA : AttemptPhase
  attemptB : AttemptPhase
  digestB : Int
  blobs : Finset Int
  committedDigest : Int
  advertisedDigest : Int
  metadataDigest : Int
  commitCount : Int
  unauthorizedEffects : Int
  sawCrashAfterUpload : Bool
  sawConflict : Bool
  sawAbortAfterUpload : Bool
  sawUnauthorizedRejection : Bool
  deriving DecidableEq

/-- `init`; the second request's digest is one of `DIGESTS`. -/
def initial (digest : Int) : State where
  attemptA := .idle
  attemptB := .idle
  digestB := digest
  blobs := ∅
  committedDigest := noDigest
  advertisedDigest := noDigest
  metadataDigest := noDigest
  commitCount := 0
  unauthorizedEffects := 0
  sawCrashAfterUpload := false
  sawConflict := false
  sawAbortAfterUpload := false
  sawUnauthorizedRejection := false

namespace State

def attempt (s : State) : Requester → AttemptPhase
  | .a => s.attemptA
  | .b => s.attemptB

def digest (s : State) : Requester → Int
  | .a => digestA
  | .b => s.digestB

def enter (s : State) (phase : AttemptPhase) : Requester → State
  | .a => { s with attemptA := phase }
  | .b => { s with attemptB := phase }

end State

def upload (who : Requester) (s : State) : Option State :=
  if s.attempt who = .idle then
    some { s.enter .uploaded who with blobs := insert (s.digest who) s.blobs }
  else none

def uploadA : State → Option State := upload .a

def uploadB : State → Option State := upload .b

/-- The unique row and its metadata become visible in one transaction. -/
def finalize (who : Requester) (s : State) : Option State :=
  if s.attempt who = .uploaded ∧ s.committedDigest = noDigest ∧ s.digest who ∈ s.blobs then
    some { s.enter .finished who with
      committedDigest := s.digest who
      advertisedDigest := s.digest who
      metadataDigest := s.digest who
      commitCount := s.commitCount + 1 }
  else none

def finalizeA : State → Option State := finalize .a

def finalizeB : State → Option State := finalize .b

/-- A finalizer that comes second loses the race for the unique row. -/
def conflict (who : Requester) (s : State) : Option State :=
  if s.attempt who = .uploaded ∧ s.committedDigest ≠ noDigest then
    some { s.enter .finished who with sawConflict := true }
  else none

def conflictA : State → Option State := conflict .a

def conflictB : State → Option State := conflict .b

def crashA (s : State) : Option State :=
  if s.attemptA = .uploaded then
    some { s with attemptA := .finished, sawCrashAfterUpload := true }
  else none

def abortB (s : State) : Option State :=
  if s.attemptB = .uploaded then
    some { s with attemptB := .finished, sawAbortAfterUpload := true }
  else none

def rejectUnauthorized (s : State) : Option State :=
  some { s with sawUnauthorizedRejection := true }

def idle (s : State) : Option State := some s

inductive Action where
  | uploadA
  | uploadB
  | finalizeA
  | finalizeB
  | conflictA
  | conflictB
  | crashA
  | abortB
  | rejectUnauthorized
  | idle
  deriving DecidableEq

def step (s : State) : Action → Option State
  | .uploadA => uploadA s
  | .uploadB => uploadB s
  | .finalizeA => finalizeA s
  | .finalizeB => finalizeB s
  | .conflictA => conflictA s
  | .conflictB => conflictB s
  | .crashA => crashA s
  | .abortB => abortB s
  | .rejectUnauthorized => rejectUnauthorized s
  | .idle => idle s

/-! ## The actions of either request -/

namespace State

theorem digest_congr {s later : State} (same : later.digestB = s.digestB) (who : Requester) :
    later.digest who = s.digest who := by
  cases who with
  | a => rfl
  | b => exact same

section Enter

variable (s : State) (phase : AttemptPhase) (who : Requester)

@[simp] theorem attempt_enter : (s.enter phase who).attempt who = phase := by
  cases who <;> rfl

theorem attempt_enter_of_ne {requester : Requester} (differs : requester ≠ who) :
    (s.enter phase who).attempt requester = s.attempt requester := by
  cases who with
  | a =>
      cases requester with
      | a => exact absurd rfl differs
      | b => rfl
  | b =>
      cases requester with
      | a => rfl
      | b => exact absurd rfl differs

@[simp] theorem enter_digestB : (s.enter phase who).digestB = s.digestB := by
  cases who <;> rfl

@[simp] theorem enter_blobs : (s.enter phase who).blobs = s.blobs := by
  cases who <;> rfl

@[simp] theorem enter_committedDigest :
    (s.enter phase who).committedDigest = s.committedDigest := by
  cases who <;> rfl

@[simp] theorem enter_advertisedDigest :
    (s.enter phase who).advertisedDigest = s.advertisedDigest := by
  cases who <;> rfl

@[simp] theorem enter_metadataDigest :
    (s.enter phase who).metadataDigest = s.metadataDigest := by
  cases who <;> rfl

@[simp] theorem enter_commitCount : (s.enter phase who).commitCount = s.commitCount := by
  cases who <;> rfl

@[simp] theorem enter_unauthorizedEffects :
    (s.enter phase who).unauthorizedEffects = s.unauthorizedEffects := by
  cases who <;> rfl

end Enter

end State

namespace Action

def upload : Requester → Action
  | .a => .uploadA
  | .b => .uploadB

def finalize : Requester → Action
  | .a => .finalizeA
  | .b => .finalizeB

def conflict : Requester → Action
  | .a => .conflictA
  | .b => .conflictB

/-- The first request crashes after its upload, the second aborts. -/
def fail : Requester → Action
  | .a => .crashA
  | .b => .abortB

end Action

/-- The request is over, and nothing else that the safety property speaks of changed. -/
structure Settles (who : Requester) (s next : State) : Prop where
  own : next.attempt who = .finished
  other : ∀ requester, requester ≠ who → next.attempt requester = s.attempt requester
  digestB : next.digestB = s.digestB
  blobs : next.blobs = s.blobs
  committedDigest : next.committedDigest = s.committedDigest
  commitCount : next.commitCount = s.commitCount

section Enabled

variable {s : State} {who : Requester}

theorem step_upload (here : s.attempt who = .idle) : step s (.upload who) =
    some { s.enter .uploaded who with blobs := insert (s.digest who) s.blobs } := by
  cases who with
  | a => exact if_pos here
  | b => exact if_pos here

theorem step_finalize (here : s.attempt who = .uploaded) (free : s.committedDigest = noDigest)
    (stored : s.digest who ∈ s.blobs) : step s (.finalize who) =
      some { s.enter .finished who with
        committedDigest := s.digest who
        advertisedDigest := s.digest who
        metadataDigest := s.digest who
        commitCount := s.commitCount + 1 } := by
  cases who with
  | a => exact if_pos ⟨here, free, stored⟩
  | b => exact if_pos ⟨here, free, stored⟩

theorem step_conflict (here : s.attempt who = .uploaded)
    (taken : s.committedDigest ≠ noDigest) :
    ∃ next, step s (.conflict who) = some next ∧ Settles who s next := by
  have others := fun requester => @State.attempt_enter_of_ne s .finished who requester
  cases who with
  | a => exact ⟨_, if_pos ⟨here, taken⟩, rfl, others, rfl, rfl, rfl, rfl⟩
  | b => exact ⟨_, if_pos ⟨here, taken⟩, rfl, others, rfl, rfl, rfl, rfl⟩

theorem step_fail (here : s.attempt who = .uploaded) :
    ∃ next, step s (.fail who) = some next ∧ Settles who s next := by
  have others := fun requester => @State.attempt_enter_of_ne s .finished who requester
  cases who with
  | a => exact ⟨_, if_pos here, rfl, others, rfl, rfl, rfl, rfl⟩
  | b => exact ⟨_, if_pos here, rfl, others, rfl, rfl, rfl, rfl⟩

end Enabled

/-! ## The safety property -/

def DigestBounds (s : State) : Prop :=
  s.digestB ∈ digests ∧ (s.committedDigest = noDigest ∨ s.committedDigest ∈ digests) ∧
    ∀ digest ∈ s.blobs, digest ∈ digests

def SingleWinner (s : State) : Prop :=
  (s.commitCount = 0 ∧ s.committedDigest = noDigest) ∨
    (s.commitCount = 1 ∧ s.committedDigest ∈ digests)

def NoPartialAdvertisement (s : State) : Prop := s.advertisedDigest = s.committedDigest

def MetadataMatchesImmutableVersion (s : State) : Prop := s.metadataDigest = s.committedDigest

def CommittedArtifactIsAvailable (s : State) : Prop :=
  s.committedDigest = noDigest ∨ s.committedDigest ∈ s.blobs

def AuthorizationFailsClosed (s : State) : Prop := s.unauthorizedEffects = 0

structure PublicationSafety (s : State) : Prop where
  digestBounds : DigestBounds s
  singleWinner : SingleWinner s
  noPartialAdvertisement : NoPartialAdvertisement s
  metadataMatchesImmutableVersion : MetadataMatchesImmutableVersion s
  committedArtifactIsAvailable : CommittedArtifactIsAvailable s
  authorizationFailsClosed : AuthorizationFailsClosed s

theorem initial_safe {digest : Int} (known : digest ∈ digests) :
    PublicationSafety (initial digest) where
  digestBounds := ⟨known, .inl rfl, fun _ member => absurd member (Finset.notMem_empty _)⟩
  singleWinner := .inl ⟨rfl, rfl⟩
  noPartialAdvertisement := rfl
  metadataMatchesImmutableVersion := rfl
  committedArtifactIsAvailable := .inl rfl
  authorizationFailsClosed := rfl

/-! ## What a step can do -/

/-- The actions of one request, by what they do. -/
inductive Stepped (s : State) : State → Prop
  | uploads (who : Requester) (here : s.attempt who = .idle) :
      Stepped s { s.enter .uploaded who with blobs := insert (s.digest who) s.blobs }
  | finalizes (who : Requester) (here : s.attempt who = .uploaded)
      (free : s.committedDigest = noDigest) (stored : s.digest who ∈ s.blobs) :
      Stepped s { s.enter .finished who with
        committedDigest := s.digest who
        advertisedDigest := s.digest who
        metadataDigest := s.digest who
        commitCount := s.commitCount + 1 }
  | notes (who : Requester) (phase : AttemptPhase) (crash lost abort refused : Bool) :
      Stepped s { s.enter phase who with
        sawCrashAfterUpload := crash
        sawConflict := lost
        sawAbortAfterUpload := abort
        sawUnauthorizedRejection := refused }

theorem upload_stepped {who : Requester} {s next : State} (stepped : upload who s = some next) :
    Stepped s next := by
  unfold upload at stepped
  split at stepped
  · rename_i here
    obtain rfl := Option.some.inj stepped
    exact .uploads who here
  · contradiction

theorem finalize_stepped {who : Requester} {s next : State}
    (stepped : finalize who s = some next) : Stepped s next := by
  unfold finalize at stepped
  split at stepped
  · rename_i enabled
    obtain rfl := Option.some.inj stepped
    exact .finalizes who enabled.1 enabled.2.1 enabled.2.2
  · contradiction

theorem conflict_stepped {who : Requester} {s next : State}
    (stepped : conflict who s = some next) : Stepped s next := by
  unfold conflict at stepped
  split at stepped
  · obtain rfl := Option.some.inj stepped
    cases who with
    | a =>
        exact .notes .a .finished s.sawCrashAfterUpload true s.sawAbortAfterUpload
          s.sawUnauthorizedRejection
    | b =>
        exact .notes .b .finished s.sawCrashAfterUpload true s.sawAbortAfterUpload
          s.sawUnauthorizedRejection
  · contradiction

theorem step_some {s next : State} {action : Action} (stepped : step s action = some next) :
    Stepped s next := by
  cases action with
  | uploadA => exact upload_stepped stepped
  | uploadB => exact upload_stepped stepped
  | finalizeA => exact finalize_stepped stepped
  | finalizeB => exact finalize_stepped stepped
  | conflictA => exact conflict_stepped stepped
  | conflictB => exact conflict_stepped stepped
  | crashA =>
      simp only [step, crashA] at stepped
      split at stepped
      · obtain rfl := Option.some.inj stepped
        exact .notes .a .finished true s.sawConflict s.sawAbortAfterUpload
          s.sawUnauthorizedRejection
      · contradiction
  | abortB =>
      simp only [step, abortB] at stepped
      split at stepped
      · obtain rfl := Option.some.inj stepped
        exact .notes .b .finished s.sawCrashAfterUpload s.sawConflict true
          s.sawUnauthorizedRejection
      · contradiction
  | rejectUnauthorized =>
      obtain rfl := Option.some.inj stepped
      exact .notes .a s.attemptA s.sawCrashAfterUpload s.sawConflict s.sawAbortAfterUpload true
  | idle =>
      obtain rfl := Option.some.inj stepped
      exact .notes .a s.attemptA s.sawCrashAfterUpload s.sawConflict s.sawAbortAfterUpload
        s.sawUnauthorizedRejection

/-- The digest of either request is one of the two. -/
theorem PublicationSafety.digest_mem {s : State} (safe : PublicationSafety s) (who : Requester) :
    s.digest who ∈ digests := by
  cases who with
  | a => exact Finset.mem_insert_self 1 {2}
  | b => exact safe.digestBounds.1

theorem noDigest_not_mem : noDigest ∉ digests := by decide

/-! ## Every run -/

/-- What is committed and stored stays so. -/
structure Keeps (s later : State) : Prop where
  committed : s.committedDigest ≠ noDigest → later.committedDigest = s.committedDigest
  blobs : s.blobs ⊆ later.blobs

theorem Stepped.preserves {s next : State} (stepped : Stepped s next)
    (safe : PublicationSafety s) : PublicationSafety next ∧ Keeps s next := by
  obtain ⟨⟨second, committed, stored⟩, winner, advertised, metadata, available, closed⟩ := safe
  have mine := PublicationSafety.digest_mem
    ⟨⟨second, committed, stored⟩, winner, advertised, metadata, available, closed⟩
  cases stepped with
  | uploads who here =>
      have grows := Finset.subset_insert (s.digest who) s.blobs
      refine ⟨⟨⟨?_, ?_, ?_⟩, ?_, ?_, ?_, ?_, ?_⟩, ?_, grows⟩
      · simpa using second
      · simpa using committed
      · intro digest member
        rcases Finset.mem_insert.mp member with rfl | older
        · exact mine who
        · exact stored digest older
      · simpa [SingleWinner] using winner
      · simpa [NoPartialAdvertisement] using advertised
      · simpa [MetadataMatchesImmutableVersion] using metadata
      · simp only [CommittedArtifactIsAvailable, State.enter_committedDigest]
        exact available.imp_right fun member => grows member
      · simpa [AuthorizationFailsClosed] using closed
      · exact fun _ => State.enter_committedDigest s _ who
  | finalizes who here free held =>
      have first : s.commitCount = 0 := by
        rcases winner with ⟨none', -⟩ | ⟨-, taken⟩
        · exact none'
        · exact absurd (free ▸ taken) noDigest_not_mem
      refine ⟨⟨⟨?_, ?_, ?_⟩, ?_, rfl, rfl, ?_, ?_⟩, ?_, ?_⟩
      · simpa using second
      · exact .inr (mine who)
      · simpa using stored
      · exact .inr ⟨by simp [first], mine who⟩
      · exact .inr (by simpa using held)
      · simpa [AuthorizationFailsClosed] using closed
      · exact fun taken => absurd free taken
      · simp
  | notes who phase crash lost abort refused =>
      refine ⟨⟨⟨?_, ?_, ?_⟩, ?_, ?_, ?_, ?_, ?_⟩, ?_, ?_⟩
      · simpa using second
      · simpa using committed
      · simpa using stored
      · simpa [SingleWinner] using winner
      · simpa [NoPartialAdvertisement] using advertised
      · simpa [MetadataMatchesImmutableVersion] using metadata
      · simpa [CommittedArtifactIsAvailable] using available
      · simpa [AuthorizationFailsClosed] using closed
      · exact fun _ => State.enter_committedDigest s _ who
      · simp

theorem step_preserves {s next : State} {action : Action} (safe : PublicationSafety s)
    (stepped : step s action = some next) : PublicationSafety next ∧ Keeps s next :=
  (step_some stepped).preserves safe

theorem step_safe (s : State) (action : Action) (next : State) (safe : PublicationSafety s)
    (stepped : step s action = some next) : PublicationSafety next :=
  (step_preserves safe stepped).1

theorem Keeps.refl (s : State) : Keeps s s := ⟨fun _ => rfl, Finset.Subset.refl _⟩

theorem Keeps.trans {first second third : State} (early : Keeps first second)
    (late : Keeps second third) : Keeps first third where
  committed taken := by
    have same := early.committed taken
    exact (late.committed (same ▸ taken)).trans same
  blobs := early.blobs.trans late.blobs

/-- `publication_safety` holds in every reachable state, a committed digest is
never replaced and no blob is removed. -/
theorem publication_safety {digest : Int} (known : digest ∈ digests) {early late : List Action}
    {middle final : State} (before : exec step (initial digest) early = some middle)
    (after : exec step middle late = some final) :
    PublicationSafety middle ∧ PublicationSafety final ∧ Keeps middle final := by
  have safe := exec_invariant step step_safe (initial_safe known) before
  exact ⟨safe, exec_invariant step step_safe safe after,
    exec_monotone step Keeps.refl (fun _ _ _ => Keeps.trans)
      (fun _ _ _ safe stepped => step_preserves safe stepped) safe after⟩

/-- Two requests with different digests: the second loses. -/
theorem publication_safety_conflict : ∃ middle final,
    exec step (initial 2) [.uploadA, .uploadB, .finalizeB] = some middle ∧
      exec step middle [.conflictA] = some final ∧ final.committedDigest = 2 ∧
      PublicationSafety middle ∧ PublicationSafety final ∧ Keeps middle final := by
  obtain ⟨middle, before⟩ : ∃ middle,
      exec step (initial 2) [.uploadA, .uploadB, .finalizeB] = some middle := ⟨_, rfl⟩
  obtain ⟨final, after⟩ : ∃ final, exec step middle [.conflictA] = some final := by
    obtain rfl := Option.some.inj before
    exact ⟨_, rfl⟩
  refine ⟨middle, final, before, after, ?_, publication_safety (by decide) before after⟩
  obtain rfl := Option.some.inj before
  obtain rfl := Option.some.inj after
  rfl

end ZedRegistry.PackagePublication
