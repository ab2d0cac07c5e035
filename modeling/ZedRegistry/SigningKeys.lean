import Mathlib.Algebra.Order.Ring.Int
import Mathlib.Data.List.Dedup
import Mathlib.Data.List.Sort
import ZedRegistry.Catalog
import ZedRegistry.Lib.Execution
import ZedRegistry.Lib.RowTable

/-!
# Publisher signing keys

`routes/keys.rs`: an owner submits the whole key set, the set is checked against
the enrolled keys as read before the transaction, and the transaction then
applies every submitted entry in order.
-/

set_option autoImplicit false

namespace ZedRegistry

open Execution

/-- The unique index of the key table: org id and key id. -/
abbrev KeyId := Uuid × String

/-- `entities::publisher_key::Model`. -/
structure KeyRow where
  id : Uuid
  orgId : Uuid
  keyId : String
  algorithm : String
  publicKeyMultibase : String
  state : String
  revokedReason : Option String
  enrolledAt : DateTimeUtc

def maxKeysPerOrg : Nat := 8

def publisherKeyStateStr : PublisherKeyState → String
  | .active => "active"
  | .retired => "retired"
  | .revoked => "revoked"

/-- An unrecognized state is read as revoked. -/
def readKeyState (state : String) : PublisherKeyState :=
  if state = "active" then .active
  else if state = "retired" then .retired
  else .revoked

@[simp] theorem readKeyState_publisherKeyStateStr (state : PublisherKeyState) :
    readKeyState (publisherKeyStateStr state) = state := by
  cases state with
  | active => decide
  | retired => decide
  | revoked => decide

variable (I : Interfaces)

def rowToKey (row : KeyRow) : PublisherKey where
  keyId := row.keyId
  algorithm := row.algorithm
  publicKeyMultibase := row.publicKeyMultibase
  state := readKeyState row.state
  enrolledAt := some (I.timestamps.toRfc3339 row.enrolledAt)
  revokedReason := row.revokedReason

/-! ## The check -/

structure KeysRequest where
  authorization : Option String
  keys : List PublisherKey

structure KeysAnswers where
  tokens : String → ApiResult (Option Token)
  now : DateTimeUtc
  org : ApiResult (Option Org)

/-- The first entry a request lists for a key id, which is the one checked. -/
def firstNamed (keys : List PublisherKey) (keyId : String) : Option PublisherKey :=
  keys.find? fun candidate => candidate.keyId = keyId

/-- The last entry a request lists for a key id, which is the one that stays. -/
def lastNamed (keys : List PublisherKey) (keyId : String) : Option PublisherKey :=
  firstNamed keys.reverse keyId

/-- The three refused transitions of one enrolled key. -/
def checkPrevious (submitted : List PublisherKey) (previous : PublisherKey) :
    ApiResult Unit := do
  let entry ← okOrElse (firstNamed submitted previous.keyId) (.badRequest "key_removed"
    ("key `" ++ previous.keyId ++ "` cannot be removed; set its state to `retired` or " ++
      "`revoked` so consumers that pinned it learn why"))
  ensure (entry.publicKeyMultibase = previous.publicKeyMultibase) (.conflict "key_rebind"
    ("key `" ++ previous.keyId ++ "` is already enrolled with different key material; " ++
      "enroll a new key id instead of rebinding this one"))
  ensure (previous.state = .revoked → entry.state = .revoked) (.conflict "key_unrevoke"
    ("key `" ++ previous.keyId ++ "` is revoked and cannot be reinstated"))

/-- Everything `put_keys` does before its transaction: the org it may write. -/
def checkKeys (answers : KeysAnswers) (enrolled : Uuid → List PublisherKey)
    (request : KeysRequest) : ApiResult Uuid := do
  let token ← requireToken I.sha256 answers.tokens answers.now request.authorization
  let org ← okOrElse (← answers.org) (.notFound "org")
  authorizeManage token.orgId (Role.parse token.role) org.id
  ensure (request.keys.length ≤ maxKeysPerOrg) (.badRequest "too_many_keys"
    ("at most " ++ toString maxKeysPerOrg ++ " signing keys per org"))
  checkEach (fun key => (I.validateKey key).mapError fun error =>
    ApiErr.badRequest "invalid_key" ("invalid signing key: " ++ error)) request.keys
  checkEach (checkPrevious request.keys) (enrolled org.id)
  pure org.id

/-- What an accepted request owes each enrolled key: its first entry. -/
theorem checkPrevious_ok {submitted : List PublisherKey} {previous : PublisherKey}
    {result : Unit} :
    checkPrevious submitted previous = .ok result ↔
      ∃ entry, firstNamed submitted previous.keyId = some entry ∧
        entry.publicKeyMultibase = previous.publicKeyMultibase ∧
        (previous.state = .revoked → entry.state = .revoked) := by
  simp only [checkPrevious, bind_ok, okOrElse_ok, ensure_ok, exists_const]

theorem checkKeys_ok {answers : KeysAnswers} {enrolled : Uuid → List PublisherKey}
    {request : KeysRequest} {orgId : Uuid}
    (accepted : checkKeys I answers enrolled request = .ok orgId) :
    ∀ previous ∈ enrolled orgId, ∃ entry,
      firstNamed request.keys previous.keyId = some entry ∧
        entry.publicKeyMultibase = previous.publicKeyMultibase ∧
        (previous.state = .revoked → entry.state = .revoked) := by
  simp only [checkKeys, bind_ok, okOrElse_ok, ensure_ok, checkEach_ok] at accepted
  obtain ⟨_, _, _, _, org, _, _, _, _, _, _, _, _, kept, result⟩ := accepted
  obtain rfl := Except.ok.inj result
  intro previous member
  exact checkPrevious_ok.mp (kept previous member)

/-! ## The transaction -/

/-- A request past its check.  `existing` is the set it was checked against,
`applied` and `remaining` split the submitted entries, and `found` is the answer
of the lookup for the next entry, when it was made. -/
structure KeyTxn where
  orgId : Uuid
  existing : List PublisherKey
  applied : List PublisherKey
  remaining : List PublisherKey
  found : Option Bool

def KeyTxn.submitted (txn : KeyTxn) : List PublisherKey := txn.applied ++ txn.remaining

/-- `enrolled` lists the keys that have a committed row. -/
structure KeysWorld where
  keys : RowTable KeyId KeyRow Nat
  enrolled : List KeyId
  requests : Nat → Option KeyTxn

/-- `load_keys`: every committed key of an org, oldest first. -/
def loadKeys (world : KeysWorld) (orgId : Uuid) : List PublisherKey :=
  (((world.enrolled.filter fun key => key.1 = orgId).filterMap
    world.keys.committed).insertionSort fun left right =>
      left.enrolledAt.ordinal ≤ right.enrolledAt.ordinal).map (rowToKey I)

inductive KeysEvent where
  | check (slot : Nat) (request : KeysRequest) (answers : KeysAnswers)
  | find (slot : Nat)
  | write (slot : Nat) (id : Uuid) (now : DateTimeUtc)
  | commit (slot : Nat)
  | fail (slot : Nat)

def insertedKey (id orgId : Uuid) (entry : PublisherKey) (now : DateTimeUtc) : KeyRow where
  id := id
  orgId := orgId
  keyId := entry.keyId
  algorithm := entry.algorithm
  publicKeyMultibase := entry.publicKeyMultibase
  state := publisherKeyStateStr entry.state
  revokedReason := entry.revokedReason
  enrolledAt := I.timestamps.stored now

/-- The update sets two columns. -/
def updatedKey (row : KeyRow) (entry : PublisherKey) : KeyRow :=
  { row with state := publisherKeyStateStr entry.state, revokedReason := entry.revokedReason }

def checkKeysStep (world : KeysWorld) (slot : Nat) (request : KeysRequest)
    (answers : KeysAnswers) : Option KeysWorld :=
  if (world.requests slot).isSome then none
  else
    match checkKeys I answers (loadKeys I world) request with
    | .ok orgId =>
      some { world with
        requests := Function.update world.requests slot
          (some ⟨orgId, loadKeys I world orgId, [], request.keys, none⟩) }
    | .error _ => some world

/-- The lookup of the next entry, inside the transaction. -/
def findKeyStep (world : KeysWorld) (slot : Nat) : Option KeysWorld :=
  match world.requests slot with
  | some ⟨orgId, existing, applied, entry :: rest, none⟩ =>
    let found := (world.keys.view slot (orgId, entry.keyId)).isSome
    some { world with
      requests := Function.update world.requests slot
        (some ⟨orgId, existing, applied, entry :: rest, some found⟩) }
  | _ => none

/-- The request ends without effect. -/
def failKeys (world : KeysWorld) (slot : Nat) : KeysWorld :=
  { world with
    keys := world.keys.rollback slot
    requests := Function.update world.requests slot none }

/-- The update or insert of the next entry; it waits while another transaction
holds the row.  An insert that meets a row committed since the lookup violates
the unique index and ends the request. -/
def writeKeyStep (world : KeysWorld) (slot : Nat) (id : Uuid) (now : DateTimeUtc) :
    Option KeysWorld :=
  match world.requests slot with
  | some ⟨orgId, existing, applied, entry :: rest, some found⟩ =>
    let key := (orgId, entry.keyId)
    let next : KeyTxn := ⟨orgId, existing, applied ++ [entry], rest, none⟩
    let written (row : KeyRow) : KeysWorld :=
      { world with
        keys := world.keys.write slot key row
        requests := Function.update world.requests slot (some next) }
    if world.keys.blocked slot key then none
    else
      match found, world.keys.view slot key with
      | true, some row => some (written (updatedKey row entry))
      | false, none => some (written (insertedKey I id orgId entry now))
      | false, some _ => some (failKeys world slot)
      | true, none => none
  | _ => none

def commitKeysStep (world : KeysWorld) (slot : Nat) : Option KeysWorld :=
  match world.requests slot with
  | some ⟨orgId, _, applied, [], _⟩ =>
    some
      { keys := world.keys.commit slot
        enrolled := (world.enrolled ++ applied.map fun entry => (orgId, entry.keyId)).dedup
        requests := Function.update world.requests slot none }
  | _ => none

def keysStep (world : KeysWorld) : KeysEvent → Option KeysWorld
  | .check slot request answers => checkKeysStep I world slot request answers
  | .find slot => findKeyStep world slot
  | .write slot id now => writeKeyStep I world slot id now
  | .commit slot => commitKeysStep world slot
  | .fail slot => (world.requests slot).map fun _ => failKeys world slot

/-! ## What one step does -/

variable {I}

theorem lastNamed_concat (applied : List PublisherKey) (entry : PublisherKey) (keyId : String) :
    lastNamed (applied ++ [entry]) keyId =
      if entry.keyId = keyId then some entry else lastNamed applied keyId := by
  simp only [lastNamed, firstNamed, List.reverse_append, List.reverse_cons, List.reverse_nil,
    List.nil_append, List.singleton_append, List.find?_cons]
  split
  · rename_i same
    simp only [decide_eq_true_eq] at same
    rw [if_pos same]
  · rename_i differs
    simp only [decide_eq_false_iff_not] at differs
    rw [if_neg differs]

theorem lastNamed_some {keys : List PublisherKey} {keyId : String} {entry : PublisherKey}
    (found : lastNamed keys keyId = some entry) : entry ∈ keys ∧ entry.keyId = keyId := by
  have member := List.mem_of_find?_eq_some found
  have named := List.find?_some found
  exact ⟨List.mem_reverse.mp member, by simpa using named⟩

theorem mem_loadKeys {world : KeysWorld} {orgId : Uuid} {key : PublisherKey} :
    key ∈ loadKeys I world orgId ↔
      ∃ index row, index ∈ world.enrolled ∧ index.1 = orgId ∧
        world.keys.committed index = some row ∧ rowToKey I row = key := by
  simp only [loadKeys, List.mem_map, List.mem_insertionSort, List.mem_filterMap,
    List.mem_filter, decide_eq_true_eq]
  constructor
  · rintro ⟨row, ⟨index, ⟨listed, own⟩, found⟩, same⟩
    exact ⟨index, row, listed, own, found, same⟩
  · rintro ⟨index, row, listed, own, found, same⟩
    exact ⟨row, ⟨index, ⟨listed, own⟩, found⟩, same⟩

/-- The world after the next entry was written as `row`. -/
def writtenKey (world : KeysWorld) (slot : Nat) (txn : KeyTxn) (entry : PublisherKey)
    (rest : List PublisherKey) (row : KeyRow) : KeysWorld :=
  { world with
    keys := world.keys.write slot (txn.orgId, entry.keyId) row
    requests := Function.update world.requests slot
      (some ⟨txn.orgId, txn.existing, txn.applied ++ [entry], rest, none⟩) }

/-- A write updates the row it sees, inserts a missing one, or ends the request. -/
theorem writeKeyStep_some {world next : KeysWorld} {slot : Nat} {id : Uuid} {now : DateTimeUtc}
    (stepped : writeKeyStep I world slot id now = some next) :
    next = failKeys world slot ∨
      ∃ txn entry rest, world.requests slot = some txn ∧ txn.remaining = entry :: rest ∧
        world.keys.blocked slot (txn.orgId, entry.keyId) = false ∧
        ((∃ row, world.keys.view slot (txn.orgId, entry.keyId) = some row ∧
            next = writtenKey world slot txn entry rest (updatedKey row entry)) ∨
          (world.keys.view slot (txn.orgId, entry.keyId) = none ∧
            next = writtenKey world slot txn entry rest
              (insertedKey I id txn.orgId entry now))) := by
  unfold writeKeyStep at stepped
  split at stepped
  · rename_i orgId existing applied entry rest found request
    simp only at stepped
    split at stepped
    · contradiction
    · rename_i free
      have free : world.keys.blocked slot (orgId, entry.keyId) = false := by
        simpa using free
      split at stepped
      · rename_i row seen
        exact Or.inr ⟨_, entry, rest, request, rfl, free,
          Or.inl ⟨row, seen, (Option.some.inj stepped).symm⟩⟩
      · rename_i unseen
        exact Or.inr ⟨_, entry, rest, request, rfl, free,
          Or.inr ⟨unseen, (Option.some.inj stepped).symm⟩⟩
      · exact Or.inl (Option.some.inj stepped).symm
      · contradiction
  · contradiction

theorem findKeyStep_some {world next : KeysWorld} {slot : Nat}
    (stepped : findKeyStep world slot = some next) :
    ∃ txn found, world.requests slot = some txn ∧
      next = { world with
        requests := Function.update world.requests slot (some { txn with found := found }) } := by
  unfold findKeyStep at stepped
  split at stepped
  · rename_i orgId existing applied entry rest request
    exact ⟨_, _, request, (Option.some.inj stepped).symm⟩
  · contradiction

/-- The world after a request that applied all its entries was committed. -/
def committedKeys (world : KeysWorld) (slot : Nat) (txn : KeyTxn) : KeysWorld where
  keys := world.keys.commit slot
  enrolled := (world.enrolled ++ txn.applied.map fun entry => (txn.orgId, entry.keyId)).dedup
  requests := Function.update world.requests slot none

theorem commitKeysStep_some {world next : KeysWorld} {slot : Nat}
    (stepped : commitKeysStep world slot = some next) :
    ∃ txn, world.requests slot = some txn ∧ txn.remaining = [] ∧
      next = committedKeys world slot txn := by
  unfold commitKeysStep at stepped
  split at stepped
  · rename_i orgId existing applied found request
    exact ⟨_, request, rfl, (Option.some.inj stepped).symm⟩
  · contradiction

theorem checkKeysStep_some {world next : KeysWorld} {slot : Nat} {request : KeysRequest}
    {answers : KeysAnswers} (stepped : checkKeysStep I world slot request answers = some next) :
    next = world ∨
      ∃ orgId, checkKeys I answers (loadKeys I world) request = .ok orgId ∧
        world.requests slot = none ∧
        next = { world with
          requests := Function.update world.requests slot
            (some ⟨orgId, loadKeys I world orgId, [], request.keys, none⟩) } := by
  unfold checkKeysStep at stepped
  split at stepped
  · contradiction
  · rename_i free
    have free : world.requests slot = none := by simpa using free
    split at stepped
    · rename_i orgId accepted
      exact Or.inr ⟨orgId, accepted, free, (Option.some.inj stepped).symm⟩
    · exact Or.inl (Option.some.inj stepped).symm

/-! ## The history of the stored keys -/

/-- No request is open, and every row sits under its own key. -/
structure KeysWorld.Fresh (world : KeysWorld) : Prop where
  unlocked : ∀ key, world.keys.pending key = none
  idle : ∀ slot, world.requests slot = none
  keyed : ∀ key row, world.keys.committed key = some row → row.keyId = key.2
  listed : ∀ key row, world.keys.committed key = some row → key ∈ world.enrolled

/-- An uncommitted version carries the state of the last applied entry for its
key and the material of the committed row. -/
structure PendingKey (world : KeysWorld) (key : KeyId) (slot : Nat) (row : KeyRow) : Prop where
  keyed : row.keyId = key.2
  applied : ∃ txn entry, world.requests slot = some txn ∧ txn.orgId = key.1 ∧
    lastNamed txn.applied key.2 = some entry ∧ row.state = publisherKeyStateStr entry.state
  material : ∀ old, world.keys.committed key = some old →
    row.publicKeyMultibase = old.publicKeyMultibase

structure KeysInvariant (world : KeysWorld) : Prop where
  keyed : ∀ key row, world.keys.committed key = some row → row.keyId = key.2
  listed : ∀ key row, world.keys.committed key = some row → key ∈ world.enrolled
  pending : ∀ key slot row, world.keys.pending key = some (slot, row) →
    PendingKey world key slot row

/-- The last applied entry of the request that holds a row is what the row was written from. -/
theorem KeysInvariant.held_entry {world : KeysWorld} (holds : KeysInvariant world) {slot : Nat}
    {txn : KeyTxn} (request : world.requests slot = some txn) {key : KeyId} {row : KeyRow}
    (held : world.keys.pending key = some (slot, row)) :
    ∃ entry, txn.orgId = key.1 ∧ lastNamed txn.applied key.2 = some entry ∧
      row.state = publisherKeyStateStr entry.state := by
  obtain ⟨other, entry, same, written⟩ := (holds.pending key slot row held).applied
  rw [request] at same
  obtain rfl := Option.some.inj same
  exact ⟨entry, written⟩

theorem KeysWorld.Fresh.invariant {world : KeysWorld} (fresh : world.Fresh) :
    KeysInvariant world where
  keyed := fresh.keyed
  listed := fresh.listed
  pending key slot row held := by simp [fresh.unlocked key] at held

/-- Stored keys stay, with the same material. -/
def KeepsMaterial (world next : KeysWorld) : Prop :=
  ∀ key row, world.keys.committed key = some row →
    ∃ later, next.keys.committed key = some later ∧
      later.publicKeyMultibase = row.publicKeyMultibase

/-- Stored keys that read as revoked still do. -/
def KeepsRevoked (world next : KeysWorld) : Prop :=
  ∀ key row later, world.keys.committed key = some row →
    next.keys.committed key = some later → readKeyState row.state = .revoked →
      readKeyState later.state = .revoked

/-- A step that leaves the key table alone and the applied entries of every open
request. -/
theorem KeysInvariant.of_requests {world : KeysWorld} (holds : KeysInvariant world)
    (requests : Nat → Option KeyTxn)
    (same : ∀ slot txn, world.requests slot = some txn →
      ∃ txn', requests slot = some txn' ∧ txn'.orgId = txn.orgId ∧ txn'.applied = txn.applied) :
    KeysInvariant { world with requests := requests } where
  keyed := holds.keyed
  listed := holds.listed
  pending key slot row held := by
    obtain ⟨keyed, ⟨txn, entry, request, org, last, state⟩, material⟩ :=
      holds.pending key slot row held
    obtain ⟨txn', request', sameOrg, sameApplied⟩ := same slot txn request
    exact ⟨keyed, ⟨txn', entry, request', sameOrg.trans org, by rw [sameApplied, last], state⟩,
      material⟩

theorem failKeys_preserves {world : KeysWorld} (holds : KeysInvariant world) (slot : Nat) :
    KeysInvariant (failKeys world slot) where
  keyed := holds.keyed
  listed := holds.listed
  pending key owner row held := by
    obtain ⟨held, other⟩ := (RowTable.pending_rollback_some _ _ _ _ _).mp held
    obtain ⟨keyed, ⟨txn, entry, request, rest⟩, material⟩ := holds.pending key owner row held
    refine ⟨keyed, ⟨txn, entry, ?_, rest⟩, material⟩
    simp only [failKeys, Function.update_apply, if_neg other, request]

theorem writtenKey_preserves {world : KeysWorld} (holds : KeysInvariant world) {slot : Nat}
    {txn : KeyTxn} {entry : PublisherKey} {rest : List PublisherKey} {row : KeyRow}
    (request : world.requests slot = some txn) (keyed : row.keyId = entry.keyId)
    (state : row.state = publisherKeyStateStr entry.state)
    (material : ∀ old, world.keys.committed (txn.orgId, entry.keyId) = some old →
      row.publicKeyMultibase = old.publicKeyMultibase) :
    KeysInvariant (writtenKey world slot txn entry rest row) where
  keyed := holds.keyed
  listed := holds.listed
  pending key owner version held := by
    rcases RowTable.pending_write_cases held with ⟨rfl, rfl, rfl⟩ | ⟨differs, before⟩
    · refine ⟨keyed, ⟨_, entry, Function.update_self _ _ _, rfl, ?_, state⟩, material⟩
      rw [lastNamed_concat, if_pos rfl]
    · obtain ⟨versionKeyed, ⟨other, last, otherRequest, org, named, versionState⟩,
        versionMaterial⟩ :=
        holds.pending key owner version before
      by_cases own : owner = slot
      · subst own
        rw [request] at otherRequest
        obtain rfl := Option.some.inj otherRequest
        refine ⟨versionKeyed, ⟨_, last, Function.update_self _ _ _, org, ?_, versionState⟩,
          versionMaterial⟩
        rw [lastNamed_concat, if_neg, named]
        intro sameId
        exact differs (Prod.ext org.symm sameId.symm)
      · refine ⟨versionKeyed, ⟨other, last, ?_, org, named, versionState⟩, versionMaterial⟩
        simp only [writtenKey, Function.update_apply, if_neg own, otherRequest]

/-- Both kinds of write meet what `writtenKey_preserves` asks of the row. -/
theorem KeysInvariant.updated {world : KeysWorld} (holds : KeysInvariant world) {slot : Nat}
    {orgId : Uuid} {entry : PublisherKey} {row : KeyRow}
    (seen : world.keys.view slot (orgId, entry.keyId) = some row) :
    (updatedKey row entry).keyId = entry.keyId ∧
      ∀ old, world.keys.committed (orgId, entry.keyId) = some old →
        (updatedKey row entry).publicKeyMultibase = old.publicKeyMultibase := by
  rcases RowTable.view_some seen with held | ⟨found, _⟩
  · have version := holds.pending _ _ _ held
    exact ⟨version.keyed, version.material⟩
  · refine ⟨holds.keyed _ row found, fun old committed => ?_⟩
    rw [found] at committed
    rw [← Option.some.inj committed]
    rfl

theorem committedKeys_preserves {world : KeysWorld} (holds : KeysInvariant world) {slot : Nat}
    {txn : KeyTxn} (request : world.requests slot = some txn) :
    KeysInvariant (committedKeys world slot txn) where
  keyed key row found := by
    rcases RowTable.view_some found with held | ⟨found, _⟩
    · exact (holds.pending key slot row held).keyed
    · exact holds.keyed key row found
  listed key row found := by
    rw [committedKeys, List.mem_dedup, List.mem_append, List.mem_map]
    rcases RowTable.view_some found with held | ⟨found, _⟩
    · obtain ⟨entry, org, last, _⟩ := holds.held_entry request held
      obtain ⟨member, named⟩ := lastNamed_some last
      exact Or.inr ⟨entry, member, Prod.ext org named⟩
    · exact Or.inl (holds.listed key row found)
  pending key owner row held := by
    obtain ⟨held, other⟩ := (RowTable.pending_commit_some _ _ _ _ _).mp held
    obtain ⟨keyed, ⟨txn', entry, request', rest⟩, material⟩ := holds.pending key owner row held
    refine ⟨keyed, ⟨txn', entry, ?_, rest⟩, fun old committed => material old ?_⟩
    · exact (Function.update_of_ne other _ _).trans request'
    · rw [committedKeys, RowTable.committed_commit, RowTable.view_of_held_by_other held other]
        at committed
      exact committed

theorem committedKeys_keepsMaterial {world : KeysWorld} (holds : KeysInvariant world)
    (slot : Nat) (txn : KeyTxn) : KeepsMaterial world (committedKeys world slot txn) := by
  intro key old committed
  obtain ⟨row, seen⟩ := RowTable.view_of_committed slot committed
  refine ⟨row, seen, ?_⟩
  rcases RowTable.view_some seen with held | ⟨found, _⟩
  · exact (holds.pending key slot row held).material old committed
  · rw [found] at committed
    rw [Option.some.inj committed]

theorem keysStep_preserves (world : KeysWorld) (event : KeysEvent) (next : KeysWorld)
    (holds : KeysInvariant world) (stepped : keysStep I world event = some next) :
    KeysInvariant next ∧ KeepsMaterial world next := by
  have unchanged : KeepsMaterial world world := fun _ row found => ⟨row, found, rfl⟩
  cases event with
  | check slot request answers =>
      rcases checkKeysStep_some stepped with rfl | ⟨orgId, _, free, rfl⟩
      · exact ⟨holds, unchanged⟩
      · refine ⟨holds.of_requests _ fun other txn found => ⟨txn, ?_, rfl, rfl⟩, unchanged⟩
        have differs : other ≠ slot := by
          rintro rfl
          rw [free] at found
          contradiction
        rw [Function.update_of_ne differs, found]
  | find slot =>
      obtain ⟨txn, answer, request, rfl⟩ := findKeyStep_some stepped
      refine ⟨holds.of_requests _ fun other txn' found => ?_, unchanged⟩
      by_cases same : other = slot
      · subst same
        rw [request] at found
        obtain rfl := Option.some.inj found
        exact ⟨_, Function.update_self _ _ _, rfl, rfl⟩
      · exact ⟨txn', by rw [Function.update_of_ne same, found], rfl, rfl⟩
  | write slot id now =>
      rcases writeKeyStep_some stepped with rfl | ⟨txn, entry, rest, request, _, _, written⟩
      · exact ⟨failKeys_preserves holds slot, unchanged⟩
      · rcases written with ⟨row, seen, rfl⟩ | ⟨unseen, rfl⟩
        · obtain ⟨keyed, material⟩ := holds.updated seen
          exact ⟨writtenKey_preserves holds request keyed rfl material, unchanged⟩
        · refine ⟨writtenKey_preserves holds request rfl rfl ?_, unchanged⟩
          intro old committed
          obtain ⟨row, seen⟩ := RowTable.view_of_committed slot committed
          rw [unseen] at seen
          contradiction
  | commit slot =>
      obtain ⟨txn, request, _, rfl⟩ := commitKeysStep_some stepped
      exact ⟨committedKeys_preserves holds request, committedKeys_keepsMaterial holds slot txn⟩
  | fail slot =>
      obtain ⟨_, _, rfl⟩ := Option.map_eq_some_iff.mp stepped
      exact ⟨failKeys_preserves holds slot, unchanged⟩

/-! ## Revoked keys -/

def lastState (keys : List PublisherKey) (keyId : String) : Option PublisherKeyState :=
  (lastNamed keys keyId).map PublisherKey.state

variable (I) in
/-- An accepted request does not list a revoked key again in another state than
its first entry, and an update of a revoked row was checked against that
revocation or ends in it. -/
def respectsRevocation (world : KeysWorld) : KeysEvent → Bool
  | .check _ request answers =>
    match checkKeys I answers (loadKeys I world) request with
    | .ok orgId =>
      (loadKeys I world orgId).all fun previous =>
        previous.state ≠ .revoked ∨
          lastState request.keys previous.keyId =
            (firstNamed request.keys previous.keyId).map PublisherKey.state
    | .error _ => true
  | .write slot _ _ =>
    (world.requests slot).all fun txn => txn.remaining.head?.all fun entry =>
      (world.keys.committed (txn.orgId, entry.keyId)).all fun old =>
        readKeyState old.state ≠ .revoked ∨
          (∃ previous ∈ txn.existing,
            previous.keyId = entry.keyId ∧ previous.state = .revoked) ∨
          lastState txn.submitted entry.keyId = some .revoked
  | _ => true

/-- Open requests end in `Revoked` for every key they were checked against as
revoked, and for every revoked row they have written to. -/
structure EndsRevoked (world : KeysWorld) : Prop where
  checked : ∀ slot txn, world.requests slot = some txn →
    ∀ previous ∈ txn.existing, previous.state = .revoked →
      lastState txn.submitted previous.keyId = some .revoked
  pending : ∀ key slot row, world.keys.pending key = some (slot, row) →
    ∀ txn old, world.requests slot = some txn → world.keys.committed key = some old →
      readKeyState old.state = .revoked → lastState txn.submitted key.2 = some .revoked

theorem KeysWorld.Fresh.endsRevoked {world : KeysWorld} (fresh : world.Fresh) :
    EndsRevoked world where
  checked slot txn request := by simp [fresh.idle slot] at request
  pending key slot row held := by simp [fresh.unlocked key] at held

/-- Requests that keep what they submitted and what they were checked against. -/
theorem EndsRevoked.of_requests {world : KeysWorld} (ends : EndsRevoked world)
    (requests : Nat → Option KeyTxn)
    (same : ∀ slot txn', requests slot = some txn' →
      ∃ txn, world.requests slot = some txn ∧ txn.submitted = txn'.submitted ∧
        txn.existing = txn'.existing) :
    EndsRevoked { world with requests := requests } where
  checked slot txn' request previous member revoked := by
    obtain ⟨txn, before, sameSubmitted, sameExisting⟩ := same slot txn' request
    rw [← sameSubmitted]
    exact ends.checked slot txn before previous (sameExisting ▸ member) revoked
  pending key slot row held txn' old request committed revoked := by
    obtain ⟨txn, before, sameSubmitted, _⟩ := same slot txn' request
    rw [← sameSubmitted]
    exact ends.pending key slot row held txn old before committed revoked

theorem failKeys_endsRevoked {world : KeysWorld} (ends : EndsRevoked world) (slot : Nat) :
    EndsRevoked (failKeys world slot) where
  checked other txn request previous member revoked := by
    simp only [failKeys, Function.update_apply] at request
    split at request
    · contradiction
    · exact ends.checked other txn request previous member revoked
  pending key owner row held txn old request committed revoked := by
    obtain ⟨held, other⟩ := (RowTable.pending_rollback_some _ _ _ _ _).mp held
    simp only [failKeys, Function.update_apply, if_neg other] at request
    exact ends.pending key owner row held txn old request committed revoked

theorem writtenKey_endsRevoked {world : KeysWorld} (ends : EndsRevoked world) {slot : Nat}
    {txn : KeyTxn} {entry : PublisherKey} {rest : List PublisherKey} (row : KeyRow)
    (request : world.requests slot = some txn) (remaining : txn.remaining = entry :: rest)
    (last : ∀ old, world.keys.committed (txn.orgId, entry.keyId) = some old →
      readKeyState old.state = .revoked → lastState txn.submitted entry.keyId = some .revoked) :
    EndsRevoked (writtenKey world slot txn entry rest row) := by
  have submitted : (txn.applied ++ [entry]) ++ rest = txn.submitted := by
    rw [KeyTxn.submitted, remaining, List.append_assoc, List.singleton_append]
  have requests : EndsRevoked { world with
      requests := Function.update world.requests slot
        (some ⟨txn.orgId, txn.existing, txn.applied ++ [entry], rest, none⟩) } := by
    apply ends.of_requests
    intro other txn' found
    by_cases same : other = slot
    · subst same
      rw [Function.update_self] at found
      obtain rfl := Option.some.inj found
      exact ⟨txn, request, submitted.symm, rfl⟩
    · rw [Function.update_of_ne same] at found
      exact ⟨txn', found, rfl, rfl⟩
  refine ⟨requests.checked, ?_⟩
  intro key owner version held txn' old found committed revoked
  rcases RowTable.pending_write_cases held with ⟨rfl, rfl, rfl⟩ | ⟨_, before⟩
  · simp only [writtenKey, Function.update_self] at found
    obtain rfl := Option.some.inj found
    rw [KeyTxn.submitted, submitted]
    exact last old committed revoked
  · exact requests.pending key owner version before txn' old found committed revoked

theorem committedKeys_endsRevoked {world : KeysWorld} (ends : EndsRevoked world) (slot : Nat)
    (txn : KeyTxn) : EndsRevoked (committedKeys world slot txn) where
  checked other txn' found previous member revoked := by
    simp only [committedKeys, Function.update_apply] at found
    split at found
    · contradiction
    · exact ends.checked other txn' found previous member revoked
  pending key owner row held txn' old found committed revoked := by
    obtain ⟨held, other⟩ := (RowTable.pending_commit_some _ _ _ _ _).mp held
    rw [committedKeys, RowTable.committed_commit, RowTable.view_of_held_by_other held other]
      at committed
    simp only [committedKeys, Function.update_of_ne other] at found
    exact ends.pending key owner row held txn' old found committed revoked

theorem committedKeys_keepsRevoked {world : KeysWorld} (holds : KeysInvariant world)
    (ends : EndsRevoked world) {slot : Nat} {txn : KeyTxn}
    (request : world.requests slot = some txn) (remaining : txn.remaining = []) :
    KeepsRevoked world (committedKeys world slot txn) := by
  intro key old later before after revoked
  rcases RowTable.view_some after with held | ⟨found, _⟩
  · obtain ⟨entry, _, last, state⟩ := holds.held_entry request held
    have ended := ends.pending key slot later held txn old request before revoked
    rw [lastState, KeyTxn.submitted, remaining, List.append_nil, last, Option.map_some] at ended
    rw [state, readKeyState_publisherKeyStateStr, Option.some.inj ended]
  · rw [before] at found
    rwa [← Option.some.inj found]

theorem keysStep_endsRevoked (world : KeysWorld) (event : KeysEvent) (next : KeysWorld)
    (holds : KeysInvariant world) (ends : EndsRevoked world)
    (respects : respectsRevocation I world event = true)
    (stepped : keysStep I world event = some next) :
    EndsRevoked next ∧ KeepsRevoked world next := by
  have unchanged : ∀ {requests : Nat → Option KeyTxn},
      KeepsRevoked world { world with requests := requests } := by
    intro requests key row later before after revoked
    rw [before] at after
    rwa [← Option.some.inj after]
  cases event with
  | check slot request answers =>
      rcases checkKeysStep_some stepped with rfl | ⟨orgId, accepted, free, rfl⟩
      · exact ⟨ends, unchanged⟩
      · refine ⟨⟨?_, ?_⟩, unchanged⟩
        · intro other txn found previous member revoked
          simp only [Function.update_apply] at found
          split at found
          · obtain rfl := Option.some.inj found
            obtain ⟨entry, first, _, kept⟩ := checkKeys_ok I accepted previous member
            simp only [respectsRevocation, accepted, List.all_eq_true, decide_eq_true_eq]
              at respects
            have agree := (respects previous member).resolve_left (fun active => active revoked)
            rw [first, Option.map_some, kept revoked] at agree
            exact agree
          · exact ends.checked other txn found previous member revoked
        · intro key owner row held txn old found committed revoked
          have other : owner ≠ slot := by
            rintro rfl
            obtain ⟨txn', entry, request', _⟩ := (holds.pending key owner row held).applied
            rw [free] at request'
            contradiction
          simp only [Function.update_of_ne other] at found
          exact ends.pending key owner row held txn old found committed revoked
  | find slot =>
      obtain ⟨txn, answer, request, rfl⟩ := findKeyStep_some stepped
      refine ⟨ends.of_requests _ fun other txn' found => ?_, unchanged⟩
      by_cases same : other = slot
      · subst same
        rw [Function.update_self] at found
        obtain rfl := Option.some.inj found
        exact ⟨txn, request, rfl, rfl⟩
      · rw [Function.update_of_ne same] at found
        exact ⟨txn', found, rfl, rfl⟩
  | write slot id now =>
      rcases writeKeyStep_some stepped with
        rfl | ⟨txn, entry, rest, request, remaining, _, written⟩
      · exact ⟨failKeys_endsRevoked ends slot, unchanged⟩
      · have last : ∀ old, world.keys.committed (txn.orgId, entry.keyId) = some old →
            readKeyState old.state = .revoked →
              lastState txn.submitted entry.keyId = some .revoked := by
          intro old committed revoked
          simp only [respectsRevocation, request, remaining, List.head?_cons, committed,
            Option.all_some, decide_eq_true_eq] at respects
          rcases respects with active | ⟨previous, member, named, wasRevoked⟩ | ended
          · exact absurd revoked active
          · rw [← named]
            exact ends.checked slot txn request previous member wasRevoked
          · exact ended
        rcases written with ⟨row, _, rfl⟩ | ⟨_, rfl⟩
        · exact ⟨writtenKey_endsRevoked ends _ request remaining last, unchanged⟩
        · exact ⟨writtenKey_endsRevoked ends _ request remaining last, unchanged⟩
  | commit slot =>
      obtain ⟨txn, request, remaining, rfl⟩ := commitKeysStep_some stepped
      exact ⟨committedKeys_endsRevoked ends slot txn,
        committedKeys_keepsRevoked holds ends request remaining⟩
  | fail slot =>
      obtain ⟨_, _, rfl⟩ := Option.map_eq_some_iff.mp stepped
      exact ⟨failKeys_endsRevoked ends slot, unchanged⟩

/-! ## Append-only over whole runs -/

theorem KeepsMaterial.trans {first second third : KeysWorld} (early : KeepsMaterial first second)
    (late : KeepsMaterial second third) : KeepsMaterial first third := by
  intro key row found
  obtain ⟨middle, found, before⟩ := early key row found
  obtain ⟨last, found, after⟩ := late key middle found
  exact ⟨last, found, after.trans before⟩

/-- Revocations carry over a run whose keys stay. -/
theorem KeepsRevoked.trans {first second third : KeysWorld} (kept : KeepsMaterial first second)
    (early : KeepsRevoked first second) (late : KeepsRevoked second third) :
    KeepsRevoked first third := by
  intro key row last before after revoked
  obtain ⟨middle, found, _⟩ := kept key row before
  exact late key middle last found after (early key row middle before found revoked)

theorem exec_keeps {start final : KeysWorld} {events : List KeysEvent}
    (holds : KeysInvariant start) (run : exec (keysStep I) start events = some final) :
    KeysInvariant final ∧ KeepsMaterial start final := by
  have final := exec_invariant (keysStep I)
    (fun world event next holds stepped => (keysStep_preserves world event next holds stepped).1)
    holds run
  refine ⟨final, ?_⟩
  exact exec_monotone (keysStep I) (fun _ _ row found => ⟨row, found, rfl⟩)
    (fun _ _ _ before after => before.trans after) keysStep_preserves holds run

theorem exec_keepsRevoked {start final : KeysWorld} {events : List KeysEvent}
    (holds : KeysInvariant start) (ends : EndsRevoked start)
    (allowed : Allowed (keysStep I) (fun world event => respectsRevocation I world event = true)
      start events)
    (run : exec (keysStep I) start events = some final) :
    EndsRevoked final ∧ KeepsRevoked start final := by
  have both : ∀ world event next, KeysInvariant world ∧ EndsRevoked world →
      respectsRevocation I world event = true → keysStep I world event = some next →
      (KeysInvariant next ∧ EndsRevoked next) ∧
        (KeepsMaterial world next ∧ KeepsRevoked world next) := by
    intro world event next holds respects stepped
    obtain ⟨invariant, material⟩ := keysStep_preserves world event next holds.1 stepped
    obtain ⟨ended, revoked⟩ :=
      keysStep_endsRevoked world event next holds.1 holds.2 respects stepped
    exact ⟨⟨invariant, ended⟩, material, revoked⟩
  have invariant := exec_invariant_of_allowed (keysStep I)
    (fun world event next holds respects stepped =>
      (both world event next holds respects stepped).1) ⟨holds, ends⟩ allowed run
  have relation : KeepsMaterial start final ∧ KeepsRevoked start final := by
    apply exec_monotone_of_allowed (keysStep I) _ _ both ⟨holds, ends⟩ allowed run
    · intro world
      refine ⟨fun key row found => ⟨row, found, rfl⟩, ?_⟩
      intro key row later before after revoked
      rw [before] at after
      rwa [← Option.some.inj after]
    · intro first second third early late
      exact ⟨early.1.trans late.1, KeepsRevoked.trans early.1 early.2 late.2⟩
  exact ⟨invariant.2, relation.2⟩

/-- A stored key stays enrolled with its material; a revoked one stays revoked
when every step of the run respects revocations. -/
theorem key_history_append_only {start middle final : KeysWorld} {early late : List KeysEvent}
    (fresh : start.Fresh) (reached : exec (keysStep I) start early = some middle)
    (run : exec (keysStep I) middle late = some final) {orgId : Uuid}
    {previous : PublisherKey} (member : previous ∈ loadKeys I middle orgId) :
    (∃ later ∈ loadKeys I final orgId, later.keyId = previous.keyId) ∧
      ∀ later ∈ loadKeys I final orgId, later.keyId = previous.keyId →
        later.publicKeyMultibase = previous.publicKeyMultibase ∧
          (Allowed (keysStep I) (fun world event => respectsRevocation I world event = true)
              start (early ++ late) →
            previous.state = .revoked → later.state = .revoked) := by
  obtain ⟨holds, _⟩ := exec_keeps fresh.invariant reached
  obtain ⟨holdsFinal, keeps⟩ := exec_keeps holds run
  obtain ⟨index, row, listed, own, found, rfl⟩ := mem_loadKeys.mp member
  obtain ⟨last, foundLast, material⟩ := keeps index row found
  have rowKeyed := holds.keyed index row found
  constructor
  · refine ⟨rowToKey I last, mem_loadKeys.mpr ⟨index, last, ?_, own, foundLast, rfl⟩, ?_⟩
    · exact holdsFinal.listed index last foundLast
    · exact (holdsFinal.keyed index last foundLast).trans rowKeyed.symm
  · intro later laterMember named
    obtain ⟨index', row', _, own', found', rfl⟩ := mem_loadKeys.mp laterMember
    have sameId : index'.2 = index.2 :=
      (holdsFinal.keyed index' row' found').symm.trans (named.trans rowKeyed)
    obtain rfl : index' = index := Prod.ext (own'.trans own.symm) sameId
    rw [foundLast] at found'
    obtain rfl := Option.some.inj found'
    refine ⟨material, fun allowed revoked => ?_⟩
    obtain ⟨allowedEarly, allowedLate⟩ := (allowed_append (keysStep I) reached).mp allowed
    obtain ⟨ends, _⟩ :=
      exec_keepsRevoked fresh.invariant fresh.endsRevoked allowedEarly reached
    obtain ⟨_, keepsRevoked⟩ := exec_keepsRevoked holds ends allowedLate run
    exact keepsRevoked _ row last found foundLast revoked

/-! ## A sample key set -/

def sampleKeysWorld : KeysWorld := ⟨RowTable.empty, [], fun _ => none⟩

theorem sampleKeysWorld_fresh : sampleKeysWorld.Fresh where
  unlocked _ := rfl
  idle _ := rfl
  keyed _ _ found := by contradiction
  listed _ _ found := by contradiction

/-- One request that submits the sample key in each of these states in turn. -/
def submitStates (slot : Nat) (states : List PublisherKeyState) : List KeysEvent :=
  let keys := states.map fun state => { Interfaces.sampleKey with state := state }
  let answers := ⟨fun _ => .ok (some sampleToken), sampleTime, .ok (some acme)⟩
  .check slot ⟨some "Bearer zpkg_ci", keys⟩ answers ::
    states.flatMap (fun _ => [.find slot, .write slot ⟨"6be1"⟩ sampleTime]) ++ [.commit slot]

def sampleKeyStates (events : List KeysEvent) : Option (List PublisherKeyState) :=
  (exec (keysStep (Interfaces.sample [] [])) sampleKeysWorld events).map fun world =>
    (loadKeys (Interfaces.sample [] []) world sampleOrg).map PublisherKey.state

theorem key_history_append_only_sample :
    ∃ final, exec (keysStep (Interfaces.sample [] [])) sampleKeysWorld
        ((submitStates 0 [.active] ++ submitStates 1 [.revoked]) ++
          submitStates 2 [.revoked, .revoked]) = some final ∧
      ∃ later ∈ loadKeys (Interfaces.sample [] []) final sampleOrg,
        later.publicKeyMultibase = "zKey" ∧ later.state = .revoked := by
  have early : (exec (keysStep (Interfaces.sample [] [])) sampleKeysWorld
      (submitStates 0 [.active] ++ submitStates 1 [.revoked])).map (fun world =>
        loadKeys (Interfaces.sample [] []) world sampleOrg) =
      some [⟨"main", "ed25519", "zKey", .revoked, some "2026-07-26T12:30:15.250+00:00", none⟩] := by
    decide +kernel
  obtain ⟨final, run⟩ := Option.isSome_iff_exists.mp (by decide +kernel :
    (exec (keysStep (Interfaces.sample [] [])) sampleKeysWorld
      ((submitStates 0 [.active] ++ submitStates 1 [.revoked]) ++
        submitStates 2 [.revoked, .revoked])).isSome = true)
  obtain ⟨middle, reached, rest⟩ := (exec_append_some _).mp run
  rw [reached, Option.map_some, Option.some.injEq] at early
  have enrolled : _ ∈ loadKeys (Interfaces.sample [] []) middle sampleOrg :=
    early ▸ List.mem_singleton_self _
  obtain ⟨⟨later, member, named⟩, same⟩ := key_history_append_only sampleKeysWorld_fresh
    reached rest enrolled
  obtain ⟨material, revoked⟩ := same later member named
  exact ⟨final, run, later, member, material, revoked (by decide +kernel) rfl⟩

/-- The first entry for a revoked key passes the check and the second one is
applied: the key reads as active again. -/
theorem revoked_key_reinstated :
    sampleKeyStates (submitStates 0 [.active] ++ submitStates 1 [.revoked]) =
        some [.revoked] ∧
      sampleKeyStates ((submitStates 0 [.active] ++ submitStates 1 [.revoked]) ++
        submitStates 2 [.revoked, .active]) = some [.active] := by
  decide +kernel

end ZedRegistry
