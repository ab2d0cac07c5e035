import ZedRegistry.ArtifactStore
import ZedRegistry.Lib.AssocTable

/-!
# The memory backend

`storage.rs`, `Self::Memory`: a map from keys to immutable bytes under one
lock.  Each operation holds the lock from its first look at the map to its last,
so concurrent callers are a list of operations in the order of their locks.
-/

set_option autoImplicit false

namespace ZedRegistry

structure MemoryStore where
  objects : AssocTable String Bytes
  maxBytes : UInt64

def MemoryStore.fromConfig (maxBytes : UInt64) : MemoryStore := ⟨∅, maxBytes⟩

def MemoryStore.get (store : MemoryStore) (key : String) : Option Bytes := store.objects.lookup key

def MemoryStore.totalBytes (store : MemoryStore) : Nat := store.objects.total List.length

/-! ## Operations -/

inductive PutError where
  | malformedDigest
  | differentContent (key : String)
  | accountingOverflow
  | capacityExceeded (nextBytes maxBytes : Nat)
  deriving DecidableEq

def PutError.message : PutError → String
  | .malformedDigest => "artifact sha256 must be 64 lowercase hexadecimal characters"
  | .differentContent key =>
    "in-memory artifact `" ++ key ++ "` already exists with different immutable content"
  | .accountingOverflow => "in-memory artifact byte accounting overflowed"
  | .capacityExceeded nextBytes maxBytes =>
    "in-memory artifact store capacity exceeded: write would use " ++ toString nextBytes ++
      " bytes, limit is " ++ toString maxBytes ++ " bytes"

/-- `objects.values().try_fold(0, …)`; the map's order does not matter to it. -/
def checkedTotal (entries : List (Sigma fun _ : String => Bytes)) (start : Nat) : Option Nat :=
  entries.foldlM (fun total entry => checkedAdd total entry.2.length) start

def MemoryStore.putVerified (store : MemoryStore) (key : String) (bytes : Bytes)
    (sha256 : String) : Except PutError Unit × MemoryStore :=
  if isSha256Hex sha256 = false then (.error .malformedDigest, store)
  else
    match store.get key with
    | some existing =>
      if existing = bytes then (.ok (), store) else (.error (.differentContent key), store)
    | none =>
      match checkedTotal store.objects.entries 0 with
      | none => (.error .accountingOverflow, store)
      | some retainedBytes =>
        match checkedAdd retainedBytes bytes.length with
        | none => (.error .accountingOverflow, store)
        | some nextBytes =>
          if store.maxBytes.toNat < nextBytes then
            (.error (.capacityExceeded nextBytes store.maxBytes.toNat), store)
          else (.ok (), { store with objects := store.objects.insert key bytes })

inductive FetchError where
  | notFound (key : String)
  | tooLarge (key : String) (len : Nat)
  deriving DecidableEq

def FetchError.message : FetchError → String
  | .notFound key => "in-memory artifact " ++ key ++ " not found"
  | .tooLarge key len =>
    "artifact " ++ key ++ " is " ++ toString len ++ " bytes, over the " ++
      toString maxBufferedArtifactBytes ++ "-byte in-memory ceiling; refusing to buffer it"

def MemoryStore.download (store : MemoryStore) (key : String) : Except FetchError Bytes :=
  okOrElse (store.get key) (.notFound key)

def MemoryStore.getBytes (store : MemoryStore) (key : String) : Except FetchError Bytes := do
  let bytes ← okOrElse (store.get key) (.notFound key)
  ensure (bytes.length ≤ maxBufferedArtifactBytes) (.tooLarge key bytes.length)
  pure bytes

structure ObjectHead where
  size : Option Nat := none
  sha256 : Option String := none
  contentType : Option String := none
  cacheControl : Option String := none
  lastModified : Option String := none
  deriving DecidableEq

def MemoryStore.head (store : MemoryStore) (key : String) : Option ObjectHead :=
  (store.get key).map fun bytes => { size := some bytes.length }

inductive StoreOp where
  | putVerified (key : String) (bytes : Bytes) (sha256 : String)
  | download (key : String)
  | getBytes (key : String)
  | head (key : String)

inductive StoreAnswer where
  | put (result : Except PutError Unit)
  | downloaded (result : Except FetchError Bytes)
  | buffered (result : Except FetchError Bytes)
  | described (result : Option ObjectHead)

def MemoryStore.perform (store : MemoryStore) : StoreOp → StoreAnswer × MemoryStore
  | .putVerified key bytes sha256 =>
    let (result, next) := store.putVerified key bytes sha256
    (.put result, next)
  | .download key => (.downloaded (store.download key), store)
  | .getBytes key => (.buffered (store.getBytes key), store)
  | .head key => (.described (store.head key), store)

def MemoryStore.after (store : MemoryStore) (operations : List StoreOp) : MemoryStore :=
  operations.foldl (fun state operation => (state.perform operation).2) store

/-! ## One put -/

theorem checkedTotal_some {entries : List (Sigma fun _ : String => Bytes)} {start sum : Nat}
    (counted : checkedTotal entries start = some sum) :
    sum = start + (entries.map fun entry => entry.2.length).sum := by
  induction entries generalizing start with
  | nil => simpa using (Option.some.inj counted).symm
  | cons entry rest ih =>
      obtain ⟨next, added, counted⟩ := Option.bind_eq_some_iff.mp counted
      have here := checkedAdd_some added
      have there := ih counted
      rw [List.map_cons, List.sum_cons]
      omega

/-- Below the range of `u64` the accounting cannot overflow. -/
theorem checkedTotal_of_small {entries : List (Sigma fun _ : String => Bytes)} {start : Nat}
    (small : start + (entries.map fun entry => entry.2.length).sum < 2 ^ 64) :
    checkedTotal entries start =
      some (start + (entries.map fun entry => entry.2.length).sum) := by
  induction entries generalizing start with
  | nil => simp [checkedTotal]
  | cons entry rest ih =>
      rw [List.map_cons, List.sum_cons] at small ⊢
      have fits : start + entry.2.length < 2 ^ 64 := by omega
      have there := @ih (start + entry.2.length) (by omega)
      simp only [checkedTotal, List.foldlM_cons, checkedAdd, if_pos fits, Option.bind_eq_bind,
        Option.bind_some] at there ⊢
      rw [there, Nat.add_assoc]

/-- Everything one put can do: it fails and changes nothing, it finds its own
bytes, or it stores them within the capacity. -/
inductive PutOutcome (store : MemoryStore) (key : String) (bytes : Bytes) (sha256 : String) :
    Except PutError Unit × MemoryStore → Prop where
  | refused (error : PutError) : PutOutcome store key bytes sha256 (.error error, store)
  | repeated (wellFormed : isSha256Hex sha256 = true) (held : store.get key = some bytes) :
      PutOutcome store key bytes sha256 (.ok (), store)
  | stored (wellFormed : isSha256Hex sha256 = true) (absent : store.get key = none)
      (room : store.totalBytes + bytes.length ≤ store.maxBytes.toNat) :
      PutOutcome store key bytes sha256
        (.ok (), { store with objects := store.objects.insert key bytes })

theorem MemoryStore.putVerified_outcome (store : MemoryStore) (key : String) (bytes : Bytes)
    (sha256 : String) :
    PutOutcome store key bytes sha256 (store.putVerified key bytes sha256) := by
  unfold putVerified
  by_cases malformed : isSha256Hex sha256 = false
  · rw [if_pos malformed]
    exact .refused _
  · rw [if_neg malformed]
    have wellFormed : isSha256Hex sha256 = true := by simpa using malformed
    cases found : store.get key with
    | some existing =>
        by_cases same : existing = bytes
        · subst same
          simp only [if_pos]
          exact .repeated wellFormed found
        · simp only [if_neg same]
          exact .refused _
    | none =>
        cases counted : checkedTotal store.objects.entries 0 with
        | none => exact .refused _
        | some retainedBytes =>
            cases added : checkedAdd retainedBytes bytes.length with
            | none =>
                simp only [added]
                exact .refused _
            | some nextBytes =>
                simp only [added]
                split
                · exact .refused _
                · rename_i room
                  apply PutOutcome.stored wellFormed found
                  have total : retainedBytes = 0 + store.totalBytes := checkedTotal_some counted
                  have sum := checkedAdd_some added
                  omega

theorem MemoryStore.putVerified_held {store : MemoryStore} {key : String} {bytes : Bytes}
    {sha256 : String} (wellFormed : isSha256Hex sha256 = true)
    (held : store.get key = some bytes) :
    store.putVerified key bytes sha256 = (.ok (), store) := by
  simp [putVerified, wellFormed, held]

theorem MemoryStore.get_stored (store : MemoryStore) (key other : String) (bytes : Bytes) :
    MemoryStore.get { store with objects := store.objects.insert key bytes } other =
      if other = key then some bytes else store.get other := by
  by_cases same : other = key
  · subst same
    rw [if_pos rfl]
    exact AList.lookup_insert _
  · rw [if_neg same]
    exact AList.lookup_insert_ne same

/-! ## One operation -/

/-- What an operation keeps of the store before it. -/
structure StoreExtends (store next : MemoryStore) : Prop where
  maxBytes : next.maxBytes = store.maxBytes
  kept : ∀ key bytes, store.get key = some bytes → next.get key = some bytes

theorem StoreExtends.refl (store : MemoryStore) : StoreExtends store store :=
  ⟨rfl, fun _ _ held => held⟩

theorem StoreExtends.trans {first second third : MemoryStore}
    (early : StoreExtends first second) (late : StoreExtends second third) :
    StoreExtends first third where
  maxBytes := late.maxBytes.trans early.maxBytes
  kept key bytes held := late.kept key bytes (early.kept key bytes held)

def MemoryStore.Bounded (store : MemoryStore) : Prop :=
  store.totalBytes ≤ store.maxBytes.toNat

theorem PutOutcome.extends {store : MemoryStore} {key : String} {bytes : Bytes}
    {sha256 : String} {result : Except PutError Unit × MemoryStore}
    (outcome : PutOutcome store key bytes sha256 result) : StoreExtends store result.2 := by
  cases outcome with
  | refused => exact StoreExtends.refl store
  | repeated => exact StoreExtends.refl store
  | stored wellFormed absent room =>
      constructor
      · rfl
      · intro other content held
        have differs : other ≠ key := by
          intro same
          rw [same, absent] at held
          contradiction
        rw [MemoryStore.get_stored, if_neg differs, held]

theorem PutOutcome.bounded {store : MemoryStore} {key : String} {bytes : Bytes}
    {sha256 : String} {result : Except PutError Unit × MemoryStore}
    (outcome : PutOutcome store key bytes sha256 result) (bounded : store.Bounded) :
    result.2.Bounded := by
  cases outcome with
  | refused => exact bounded
  | repeated => exact bounded
  | stored wellFormed absent room =>
      have fresh : key ∉ store.objects := AList.lookup_eq_none.mp absent
      have grown := AssocTable.total_insert_of_absent List.length fresh bytes
      calc AssocTable.total List.length (store.objects.insert key bytes)
          = bytes.length + store.totalBytes := grown
        _ = store.totalBytes + bytes.length := Nat.add_comm _ _
        _ ≤ store.maxBytes.toNat := room

theorem MemoryStore.perform_extends (store : MemoryStore) (operation : StoreOp) :
    StoreExtends store (store.perform operation).2 := by
  cases operation with
  | putVerified key bytes sha256 => exact (store.putVerified_outcome key bytes sha256).extends
  | download key => exact StoreExtends.refl store
  | getBytes key => exact StoreExtends.refl store
  | head key => exact StoreExtends.refl store

theorem MemoryStore.perform_bounded {store : MemoryStore} (bounded : store.Bounded)
    (operation : StoreOp) : (store.perform operation).2.Bounded := by
  cases operation with
  | putVerified key bytes sha256 =>
      exact (store.putVerified_outcome key bytes sha256).bounded bounded
  | download key => exact bounded
  | getBytes key => exact bounded
  | head key => exact bounded

/-! ## Whole runs -/

theorem MemoryStore.after_extends (store : MemoryStore) (operations : List StoreOp) :
    StoreExtends store (store.after operations) := by
  induction operations generalizing store with
  | nil => exact StoreExtends.refl store
  | cons operation rest ih => exact (store.perform_extends operation).trans (ih _)

theorem MemoryStore.after_bounded {store : MemoryStore} (bounded : store.Bounded)
    (operations : List StoreOp) : (store.after operations).Bounded := by
  induction operations generalizing store with
  | nil => exact bounded
  | cons operation rest ih => exact ih (perform_bounded bounded operation)

/-- A successful put leaves its bytes under its key. -/
theorem MemoryStore.putVerified_ok {store : MemoryStore} {key : String} {bytes : Bytes}
    {sha256 : String} (success : (store.putVerified key bytes sha256).1 = .ok ()) :
    isSha256Hex sha256 = true ∧ (store.putVerified key bytes sha256).2.get key = some bytes := by
  have outcome := store.putVerified_outcome key bytes sha256
  generalize store.putVerified key bytes sha256 = result at success outcome
  cases outcome with
  | refused error => contradiction
  | repeated wellFormed held => exact ⟨wellFormed, held⟩
  | stored wellFormed absent room =>
      exact ⟨wellFormed, by rw [get_stored, if_pos rfl]⟩

theorem MemoryStore.putVerified_error {store : MemoryStore} {key : String} {bytes : Bytes}
    {sha256 : String} {error : PutError}
    (failure : (store.putVerified key bytes sha256).1 = .error error) :
    (store.putVerified key bytes sha256).2 = store := by
  have outcome := store.putVerified_outcome key bytes sha256
  generalize store.putVerified key bytes sha256 = result at failure outcome ⊢
  cases outcome with
  | refused => rfl
  | repeated wellFormed held => contradiction
  | stored wellFormed absent room => contradiction

/-- What the readers of `key` get once `bytes` are stored under it. -/
structure Serves (store : MemoryStore) (key : String) (bytes : Bytes) : Prop where
  download : store.download key = .ok bytes
  head : store.head key = some { size := some bytes.length }
  buffered : store.getBytes key = if bytes.length ≤ maxBufferedArtifactBytes then .ok bytes
    else .error (.tooLarge key bytes.length)

theorem MemoryStore.serves {store : MemoryStore} {key : String} {bytes : Bytes}
    (held : store.get key = some bytes) : Serves store key bytes where
  download := by simp [download, held, okOrElse]
  head := by simp [head, held]
  buffered := by
    by_cases small : bytes.length ≤ maxBufferedArtifactBytes
    · simp [getBytes, held, okOrElse, ensure, small, bind, Except.bind, pure, Except.pure]
    · simp [getBytes, held, okOrElse, ensure, small, bind, Except.bind]

/-- The promises of the store at one moment, to everything that happens later. -/
structure StorePromises (store : MemoryStore) : Prop where
  capacity : store.totalBytes ≤ store.maxBytes.toNat
  immutable : ∀ key bytes later, store.get key = some bytes →
    (store.after later).get key = some bytes
  failure : ∀ key bytes sha256 error, (store.putVerified key bytes sha256).1 = .error error →
    (store.putVerified key bytes sha256).2 = store
  success : ∀ key bytes sha256 later, (store.putVerified key bytes sha256).1 = .ok () →
    Serves ((store.putVerified key bytes sha256).2.after later) key bytes
  retry : ∀ key bytes sha256 later, (store.putVerified key bytes sha256).1 = .ok () →
    ((store.putVerified key bytes sha256).2.after later).putVerified key bytes sha256 =
      (.ok (), (store.putVerified key bytes sha256).2.after later)

theorem memory_store_promises (maxBytes : UInt64) (operations : List StoreOp) :
    ((MemoryStore.fromConfig maxBytes).after operations).maxBytes = maxBytes ∧
      StorePromises ((MemoryStore.fromConfig maxBytes).after operations) := by
  constructor
  · exact (MemoryStore.after_extends _ operations).maxBytes
  · constructor
    · apply MemoryStore.after_bounded
      exact Nat.zero_le _
    · intro key bytes later held
      exact (MemoryStore.after_extends _ later).kept key bytes held
    · intro key bytes sha256 error failure
      exact MemoryStore.putVerified_error failure
    · intro key bytes sha256 later success
      have held := (MemoryStore.putVerified_ok success).2
      exact MemoryStore.serves ((MemoryStore.after_extends _ later).kept key bytes held)
    · intro key bytes sha256 later success
      obtain ⟨wellFormed, held⟩ := MemoryStore.putVerified_ok success
      apply MemoryStore.putVerified_held wellFormed
      exact (MemoryStore.after_extends _ later).kept key bytes held

/-! ## The backend of the registry model -/

/-- The artifact store of the registry model, on its memory backend, holds the
bytes of `memory`; it reports every failure of a put as one internal error. -/
structure Represents (memory : MemoryStore) (store : ArtifactStore) : Prop where
  backend : store.backend = .memory memory.maxBytes.toNat
  objects : ∀ key, (store.get key).map StoredObject.bytes = memory.get key
  total : retainedBytes store = memory.totalBytes

theorem Represents.stored {memory : MemoryStore} {store : ArtifactStore}
    (represents : Represents memory store) {key : String} (absent : memory.get key = none)
    (object : StoredObject) :
    Represents { memory with objects := memory.objects.insert key object.bytes }
      (store.insert key object) where
  backend := represents.backend
  objects other := by
    rw [get_insert, MemoryStore.get_stored]
    split
    · rfl
    · exact represents.objects other
  total := by
    have fresh : key ∉ memory.objects := AList.lookup_eq_none.mp absent
    calc retainedBytes (store.insert key object)
        = object.bytes.length + retainedBytes store := by
          simp [retainedBytes, ArtifactStore.insert]
      _ = object.bytes.length + memory.totalBytes := by rw [represents.total]
      _ = _ := (AssocTable.total_insert_of_absent List.length fresh object.bytes).symm

/-- A put on the memory backend of the registry model is a put on the map. -/
theorem Represents.putVerified {memory : MemoryStore} {store : ArtifactStore}
    (represents : Represents memory store) (bounded : memory.Bounded)
    (sha256 : Bytes → String) (answer : PutAnswer) (key : String) (bytes : Bytes)
    (contentType expected : String) :
    (putVerified sha256 store answer key bytes contentType expected).1 =
        (memory.putVerified key bytes expected).1.mapError (fun _ => ApiErr.internal) ∧
      Represents (memory.putVerified key bytes expected).2
        (putVerified sha256 store answer key bytes contentType expected).2 := by
  have sameBytes := represents.objects key
  have counted : checkedTotal memory.objects.entries 0 = some (0 + memory.totalBytes) := by
    apply checkedTotal_of_small
    have limit := memory.maxBytes.toNat_lt
    have total : (memory.objects.entries.map fun entry => entry.2.length).sum ≤
      memory.maxBytes.toNat := bounded
    omega
  unfold ZedRegistry.putVerified MemoryStore.putVerified
  simp only [putRule, represents.backend, memoryPut, represents.total]
  by_cases malformed : isSha256Hex expected = false
  · rw [if_pos malformed, if_pos malformed]
    exact ⟨rfl, represents⟩
  · rw [if_neg malformed, if_neg malformed]
    cases found : store.get key with
    | some existing =>
        rw [found] at sameBytes
        rw [← sameBytes]
        by_cases same : existing.bytes = bytes
        · simp only [Option.map_some, ensure, decide_eq_true_eq, if_pos same]
          exact ⟨rfl, represents⟩
        · simp only [Option.map_some, ensure, decide_eq_true_eq, if_neg same]
          exact ⟨rfl, represents⟩
    | none =>
        rw [found] at sameBytes
        rw [← sameBytes]
        have limit := memory.maxBytes.toNat_lt
        simp only [Option.map_none, counted, Nat.zero_add, checkedAdd, decide_eq_true_eq]
        by_cases room : memory.totalBytes + bytes.length ≤ memory.maxBytes.toNat
        · have fits : memory.totalBytes + bytes.length < 2 ^ 64 := by omega
          rw [if_pos room, if_pos fits]
          simp only [if_neg (Nat.not_lt.mpr room)]
          exact ⟨rfl, represents.stored sameBytes.symm
            ⟨bytes, contentType, immutableCacheControl, expected⟩⟩
        · rw [if_neg room]
          by_cases fits : memory.totalBytes + bytes.length < 2 ^ 64
          · rw [if_pos fits]
            simp only [if_pos (Nat.lt_of_not_le room)]
            exact ⟨rfl, represents⟩
          · rw [if_neg fits]
            exact ⟨rfl, represents⟩

end ZedRegistry
