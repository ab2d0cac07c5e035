import Mathlib.Data.List.Perm.Subperm
import ZedRegistry.SigningKeys

/-!
# The size of a key set

A set of at most `MAX_KEYS_PER_ORG` keys can be resubmitted whole; a larger one cannot be
submitted at all.  Where no request commits over keys that it does not name, no set grows
larger.
-/

set_option autoImplicit false

namespace ZedRegistry

open Execution

variable {I : Interfaces}

/-! ## Resubmitting a set -/

/-- The request has an owner's token for the org, and each of its keys is valid. -/
structure MayManage (I : Interfaces) (answers : KeysAnswers) (request : KeysRequest)
    (orgId : Uuid) : Prop where
  token : ∃ token, requireToken I.sha256 answers.tokens answers.now request.authorization =
    .ok token ∧ authorizeManage token.orgId (Role.parse token.role) orgId = .ok ()
  org : ∃ org, answers.org = .ok (some org) ∧ org.id = orgId
  valid : ∀ key ∈ request.keys, I.validateKey key = .ok ()

/-- Each enrolled key once, in any order and with its material; a revoked one stays revoked. -/
structure Resubmits (enrolled submitted : List PublisherKey) : Prop where
  length : submitted.length = enrolled.length
  once : (submitted.map (·.keyId)).Nodup
  entry : ∀ previous ∈ enrolled, ∃ entry ∈ submitted, entry.keyId = previous.keyId ∧
    entry.publicKeyMultibase = previous.publicKeyMultibase ∧
    (previous.state = .revoked → entry.state = .revoked)

/-- The org's owner can submit the current set whole. -/
def Manageable (I : Interfaces) (world : KeysWorld) (orgId : Uuid) : Prop :=
  ∀ answers request, MayManage I answers request orgId →
    Resubmits (loadKeys I world orgId) request.keys →
    checkKeys I answers (loadKeys I world) request = .ok orgId

theorem firstNamed_once {keys : List PublisherKey} (once : (keys.map (·.keyId)).Nodup)
    {entry : PublisherKey} (member : entry ∈ keys) :
    firstNamed keys entry.keyId = some entry := by
  induction keys with
  | nil => exact absurd member List.not_mem_nil
  | cons first rest ih =>
      obtain ⟨absent, once⟩ := List.nodup_cons.mp once
      rcases List.mem_cons.mp member with rfl | further
      · simp [firstNamed]
      · have differs : first.keyId ≠ entry.keyId := by
          intro same
          exact absent (List.mem_map.mpr ⟨entry, further, same.symm⟩)
        simpa [firstNamed, differs] using ih once further

theorem checkKeys_resubmitted {answers : KeysAnswers} {request : KeysRequest} {orgId : Uuid}
    {enrolled : Uuid → List PublisherKey} (may : MayManage I answers request orgId)
    (resubmits : Resubmits (enrolled orgId) request.keys)
    (few : (enrolled orgId).length ≤ maxKeysPerOrg) :
    checkKeys I answers enrolled request = .ok orgId := by
  obtain ⟨token, admitted, manages⟩ := may.token
  obtain ⟨org, found, rfl⟩ := may.org
  have previous : checkEach (checkPrevious request.keys) (enrolled org.id) = .ok () :=
    checkEach_ok.mpr fun previous member => by
      obtain ⟨entry, listed, named, kept⟩ := resubmits.entry previous member
      exact checkPrevious_ok.mpr ⟨entry, named ▸ firstNamed_once resubmits.once listed, kept⟩
  have valid : checkEach (fun key => (I.validateKey key).mapError fun error =>
      ApiErr.badRequest "invalid_key" ("invalid signing key: " ++ error)) request.keys =
        .ok () :=
    checkEach_ok.mpr fun key member => mapError_ok.mpr (may.valid key member)
  simp only [checkKeys, bind_ok, okOrElse_ok, ensure_ok]
  exact ⟨token, admitted, some org, found, org, rfl, (), manages, (), resubmits.length.trans_le few,
    (), valid, (), previous, rfl⟩

/-! ## How many keys a request can cover -/

theorem length_le_of_ids {keys : List PublisherKey} {ids : List String}
    (distinct : (keys.map (·.keyId)).Nodup) (listed : ∀ key ∈ keys, key.keyId ∈ ids) :
    keys.length ≤ ids.length := by
  have within : keys.map (·.keyId) ⊆ ids := by
    intro id member
    obtain ⟨key, enrolled, rfl⟩ := List.mem_map.mp member
    exact listed key enrolled
  simpa using (List.subperm_of_subset distinct within).length_le

theorem firstNamed_mem {keys : List PublisherKey} {keyId : String} {entry : PublisherKey}
    (found : firstNamed keys keyId = some entry) : keyId ∈ keys.map (·.keyId) := by
  have named : entry.keyId = keyId := by simpa using List.find?_some found
  exact named ▸ List.mem_map_of_mem (List.mem_of_find?_eq_some found)

theorem checkKeys_few {answers : KeysAnswers} {enrolled : Uuid → List PublisherKey}
    {request : KeysRequest} {orgId : Uuid}
    (accepted : checkKeys I answers enrolled request = .ok orgId) :
    request.keys.length ≤ maxKeysPerOrg := by
  simp only [checkKeys, bind_ok, okOrElse_ok, ensure_ok] at accepted
  obtain ⟨_, _, _, _, _, _, _, _, _, few, _⟩ := accepted
  exact few

/-- Whatever is submitted for an org with more keys is refused. -/
theorem checkKeys_enrolled_few {answers : KeysAnswers} {enrolled : Uuid → List PublisherKey}
    {request : KeysRequest} {orgId : Uuid} (distinct : ((enrolled orgId).map (·.keyId)).Nodup)
    (accepted : checkKeys I answers enrolled request = .ok orgId) :
    (enrolled orgId).length ≤ maxKeysPerOrg := by
  have named := checkKeys_ok I accepted
  have covered := length_le_of_ids distinct fun previous member => by
    obtain ⟨entry, found, -⟩ := named previous member
    exact firstNamed_mem found
  rw [List.length_map] at covered
  exact covered.trans (checkKeys_few accepted)

/-! ## Over whole runs -/

/-- The enrolled keys of an org have distinct ids. -/
theorem loadKeys_distinct {world : KeysWorld} (holds : KeysInvariant world)
    (once : world.enrolled.Nodup) (orgId : Uuid) :
    ((loadKeys I world orgId).map (·.keyId)).Nodup := by
  have sorted : ((loadKeys I world orgId).map (·.keyId)).Perm
      (((world.enrolled.filter fun key => key.1 = orgId).filterMap world.keys.committed).map
        KeyRow.keyId) := by
    rw [loadKeys, List.map_map]
    exact (List.perm_insertionSort _ _).map _
  rw [sorted.nodup_iff, List.map_filterMap, List.filterMap_filter]
  refine List.Nodup.filterMap ?_ once
  -- within one org, a key is given by its id
  have named : ∀ key : KeyId, ∀ id ∈ (if decide (key.1 = orgId) = true then
      Option.map KeyRow.keyId (world.keys.committed key) else none), key = (orgId, id) := by
    intro key id found
    split at found
    · rename_i own
      obtain ⟨row, committed, rfl⟩ := Option.map_eq_some_iff.mp found
      exact Prod.ext (of_decide_eq_true own) (holds.keyed key row committed).symm
    · contradiction
  intro key key' id found found'
  rw [named key id found, named key' id found']

/-- The check of a commit's request still holds: it names every key that is enrolled by now. -/
def namesEnrolled (I : Interfaces) (world : KeysWorld) : KeysEvent → Bool
  | .commit slot =>
    (world.requests slot).all fun txn =>
      (loadKeys I world txn.orgId).all fun previous =>
        (firstNamed txn.submitted previous.keyId).isSome
  | _ => true

structure SizesHold (I : Interfaces) (orgId : Uuid) (world : KeysWorld) : Prop where
  invariant : KeysInvariant world
  once : world.enrolled.Nodup
  few : (loadKeys I world orgId).length ≤ maxKeysPerOrg
  requests : ∀ slot txn, world.requests slot = some txn →
    txn.submitted.length ≤ maxKeysPerOrg

variable (I) in
/-- Keys that have ids from a list are not more than the list is long. -/
theorem loadKeys_length_le {world : KeysWorld} (holds : KeysInvariant world)
    (once : world.enrolled.Nodup) {orgId : Uuid} {ids : List String}
    (listed : ∀ id row, world.keys.committed (orgId, id) = some row → id ∈ ids) :
    (loadKeys I world orgId).length ≤ ids.length := by
  refine length_le_of_ids (loadKeys_distinct holds once orgId) fun key member => ?_
  obtain ⟨index, row, -, rfl, found, rfl⟩ := mem_loadKeys.mp member
  have keyed : (rowToKey I row).keyId = index.2 := holds.keyed index row found
  exact keyed ▸ listed index.2 row found

/-- A step that commits nothing keeps the sets; what it leaves open is no longer than before. -/
theorem SizesHold.of_requests {orgId : Uuid} {world next : KeysWorld}
    (sizes : SizesHold I orgId world) (invariant : KeysInvariant next)
    (committed : next.keys.committed = world.keys.committed)
    (enrolled : next.enrolled = world.enrolled)
    (requests : ∀ slot txn, next.requests slot = some txn →
      txn.submitted.length ≤ maxKeysPerOrg) : SizesHold I orgId next where
  invariant := invariant
  once := enrolled ▸ sizes.once
  few := by
    have same : loadKeys I next orgId = loadKeys I world orgId := by
      rw [loadKeys, loadKeys, committed, enrolled]
    exact same ▸ sizes.few
  requests := requests

theorem update_requests_few {requests : Nat → Option KeyTxn}
    (few : ∀ slot txn, requests slot = some txn → txn.submitted.length ≤ maxKeysPerOrg)
    {slot : Nat} {replaced : Option KeyTxn}
    (own : ∀ txn, replaced = some txn → txn.submitted.length ≤ maxKeysPerOrg) (other : Nat)
    (txn : KeyTxn) (found : Function.update requests slot replaced other = some txn) :
    txn.submitted.length ≤ maxKeysPerOrg := by
  rw [Function.update_apply] at found
  split at found
  · exact own txn found
  · exact few other txn found

/-- What a commit leaves committed for an org: what was, and what the request applied. -/
theorem committed_after {world : KeysWorld} (holds : KeysInvariant world) {slot : Nat}
    {txn : KeyTxn} (request : world.requests slot = some txn) {key : KeyId} {row : KeyRow}
    (found : (world.keys.commit slot).committed key = some row) :
    (∃ old, world.keys.committed key = some old) ∨
      key.1 = txn.orgId ∧ key.2 ∈ txn.applied.map (·.keyId) := by
  rcases RowTable.view_some found with held | ⟨old, -⟩
  · obtain ⟨entry, org, last, -⟩ := holds.held_entry request held
    obtain ⟨member, named⟩ := lastNamed_some last
    exact .inr ⟨org.symm, named ▸ List.mem_map_of_mem member⟩
  · exact .inl ⟨row, old⟩

/-- A committed key is among the loaded ones, under its own id. -/
theorem loaded_of_committed {world : KeysWorld} (holds : KeysInvariant world) {orgId : Uuid}
    {id : String} {row : KeyRow} (found : world.keys.committed (orgId, id) = some row) :
    rowToKey I row ∈ loadKeys I world orgId ∧ (rowToKey I row).keyId = id :=
  ⟨mem_loadKeys.mpr ⟨(orgId, id), row, holds.listed _ row found, rfl, found, rfl⟩,
    holds.keyed _ row found⟩

/-- A commit adds no key that the request does not name, and the request names few. -/
theorem committedKeys_few {orgId : Uuid} {world : KeysWorld} (sizes : SizesHold I orgId world)
    {slot : Nat} {txn : KeyTxn} (request : world.requests slot = some txn)
    (names : ∀ previous ∈ loadKeys I world txn.orgId,
      (firstNamed txn.submitted previous.keyId).isSome = true) :
    (loadKeys I (committedKeys world slot txn) orgId).length ≤ maxKeysPerOrg := by
  have invariant := committedKeys_preserves sizes.invariant request
  by_cases own : orgId = txn.orgId
  · have covered : ∀ id row, (world.keys.commit slot).committed (orgId, id) = some row →
        id ∈ txn.submitted.map (·.keyId) := by
      intro id row found
      rcases committed_after sizes.invariant request found with ⟨old, before⟩ | ⟨-, applied⟩
      · obtain ⟨loaded, named⟩ := @loaded_of_committed I _ sizes.invariant _ _ _ before
        obtain ⟨entry, first⟩ := Option.isSome_iff_exists.mp (names _ (own ▸ loaded))
        exact named ▸ firstNamed_mem first
      · rw [KeyTxn.submitted, List.map_append]
        exact List.mem_append_left _ applied
    have few := loadKeys_length_le I invariant (List.nodup_dedup _) covered
    rw [List.length_map] at few
    exact few.trans (sizes.requests slot txn request)
  · have covered : ∀ id row, (world.keys.commit slot).committed (orgId, id) = some row →
        id ∈ (loadKeys I world orgId).map (·.keyId) := by
      intro id row found
      rcases committed_after sizes.invariant request found with ⟨old, before⟩ | ⟨other, -⟩
      · obtain ⟨loaded, named⟩ := @loaded_of_committed I _ sizes.invariant _ _ _ before
        exact named ▸ List.mem_map_of_mem loaded
      · exact absurd other own
    have few := loadKeys_length_le I invariant (List.nodup_dedup _) covered
    rw [List.length_map] at few
    exact few.trans sizes.few

theorem keysStep_sizes {orgId : Uuid} (world : KeysWorld) (event : KeysEvent) (next : KeysWorld)
    (sizes : SizesHold I orgId world) (names : namesEnrolled I world event = true)
    (stepped : keysStep I world event = some next) : SizesHold I orgId next := by
  have invariant := (keysStep_preserves world event next sizes.invariant stepped).1
  have none_few : ∀ txn : KeyTxn, (none : Option KeyTxn) = some txn →
      txn.submitted.length ≤ maxKeysPerOrg := fun txn found => by contradiction
  cases event with
  | check slot request answers =>
      rcases checkKeysStep_some stepped with rfl | ⟨owner, accepted, _, rfl⟩
      · exact sizes
      · refine sizes.of_requests invariant rfl rfl (update_requests_few sizes.requests ?_)
        rintro txn ⟨⟩
        exact checkKeys_few accepted
  | find slot =>
      obtain ⟨txn, answer, request, rfl⟩ := findKeyStep_some stepped
      refine sizes.of_requests invariant rfl rfl (update_requests_few sizes.requests ?_)
      rintro later ⟨⟩
      exact sizes.requests slot txn request
  | write slot id now =>
      rcases writeKeyStep_some stepped with
        rfl | ⟨txn, entry, rest, request, remaining, -, written⟩
      · exact sizes.of_requests invariant rfl rfl (update_requests_few sizes.requests none_few)
      · have few : ∀ later : KeyTxn,
            some ⟨txn.orgId, txn.existing, txn.applied ++ [entry], rest, none⟩ = some later →
              later.submitted.length ≤ maxKeysPerOrg := by
          rintro later ⟨⟩
          have before := sizes.requests slot txn request
          rw [KeyTxn.submitted, remaining] at before
          simpa [KeyTxn.submitted] using before
        rcases written with ⟨row, -, rfl⟩ | ⟨-, rfl⟩
        · exact sizes.of_requests invariant rfl rfl (update_requests_few sizes.requests few)
        · exact sizes.of_requests invariant rfl rfl (update_requests_few sizes.requests few)
  | commit slot =>
      obtain ⟨txn, request, remaining, rfl⟩ := commitKeysStep_some stepped
      simp only [namesEnrolled, request, Option.all_some, List.all_eq_true] at names
      exact ⟨invariant, List.nodup_dedup _, committedKeys_few sizes request names,
        update_requests_few sizes.requests none_few⟩
  | fail slot =>
      obtain ⟨txn, request, rfl⟩ := Option.map_eq_some_iff.mp stepped
      exact sizes.of_requests invariant rfl rfl (update_requests_few sizes.requests none_few)

/-- In a run whose commits all name the keys that are enrolled by then, an org's set stays
within the cap and can be resubmitted whole. -/
theorem key_set_manageable {start final : KeysWorld} {events : List KeysEvent}
    (fresh : start.Fresh) (once : start.enrolled.Nodup) {orgId : Uuid}
    (few : (loadKeys I start orgId).length ≤ maxKeysPerOrg)
    (allowed : Allowed (keysStep I) (fun world event => namesEnrolled I world event = true)
      start events)
    (run : exec (keysStep I) start events = some final) :
    (loadKeys I final orgId).length ≤ maxKeysPerOrg ∧ Manageable I final orgId := by
  have begins : SizesHold I orgId start :=
    ⟨fresh.invariant, once, few, fun slot txn request => by simp [fresh.idle slot] at request⟩
  have sizes := exec_invariant_of_allowed (keysStep I) keysStep_sizes begins allowed run
  exact ⟨sizes.few, fun answers request may resubmits =>
    checkKeys_resubmitted may resubmits sizes.few⟩

/-! ## Two requests at once -/

def namedKeys (ids : List String) : List PublisherKey :=
  ids.map fun keyId => { Interfaces.sampleKey with keyId }

def submitKeys (ids : List String) : KeysRequest := ⟨some "Bearer zpkg_ci", namedKeys ids⟩

def ownerAnswers : KeysAnswers := ⟨fun _ => .ok (some sampleToken), sampleTime, .ok (some acme)⟩

/-- Every entry is looked up and written, and the transaction commits. -/
def applyKeys (slot : Nat) (ids : List String) : List KeysEvent :=
  ids.flatMap (fun _ => [.find slot, .write slot ⟨"6be1"⟩ sampleTime]) ++ [.commit slot]

def eightIds : List String := ["k1", "k2", "k3", "k4", "k5", "k6", "k7", "k8"]

theorem key_set_manageable_sample :
    ∃ final, exec (keysStep (Interfaces.sample [] [])) sampleKeysWorld
        (.check 0 (submitKeys eightIds) ownerAnswers :: applyKeys 0 eightIds) = some final ∧
      (loadKeys (Interfaces.sample [] []) final sampleOrg).length ≤ maxKeysPerOrg ∧
      Manageable (Interfaces.sample [] []) final sampleOrg := by
  obtain ⟨final, run⟩ := Option.isSome_iff_exists.mp (by decide +kernel :
    (exec (keysStep (Interfaces.sample [] [])) sampleKeysWorld
      (.check 0 (submitKeys eightIds) ownerAnswers :: applyKeys 0 eightIds)).isSome = true)
  exact ⟨final, run, key_set_manageable sampleKeysWorld_fresh List.nodup_nil (by decide +kernel)
    (by decide +kernel) run⟩

/-- Eight keys and a ninth, both checked against the empty set: nine are enrolled, and no
request for the org is accepted again. -/
theorem overlapping_requests_exceed_cap :
    ∃ final, exec (keysStep (Interfaces.sample [] [])) sampleKeysWorld
        (.check 0 (submitKeys eightIds) ownerAnswers :: .check 1 (submitKeys ["k9"]) ownerAnswers ::
          applyKeys 0 eightIds ++ applyKeys 1 ["k9"]) = some final ∧
      (loadKeys (Interfaces.sample [] []) final sampleOrg).length = 9 ∧
      ∀ answers request, checkKeys (Interfaces.sample [] []) answers
        (loadKeys (Interfaces.sample [] []) final) request ≠ .ok sampleOrg := by
  have seen : ((exec (keysStep (Interfaces.sample [] [])) sampleKeysWorld
      (.check 0 (submitKeys eightIds) ownerAnswers :: .check 1 (submitKeys ["k9"]) ownerAnswers ::
        applyKeys 0 eightIds ++ applyKeys 1 ["k9"])).map fun final =>
          ((loadKeys (Interfaces.sample [] []) final sampleOrg).length,
            decide final.enrolled.Nodup)) = some (9, true) := by
    decide +kernel
  obtain ⟨final, run, same⟩ := Option.map_eq_some_iff.mp seen
  obtain ⟨nine, once⟩ := Prod.mk.inj same
  refine ⟨final, run, nine, fun answers request accepted => ?_⟩
  have holds := (exec_keeps sampleKeysWorld_fresh.invariant run).1
  have few := checkKeys_enrolled_few
    (loadKeys_distinct holds (of_decide_eq_true once) sampleOrg) accepted
  rw [nine] at few
  exact absurd few (by decide)

end ZedRegistry
