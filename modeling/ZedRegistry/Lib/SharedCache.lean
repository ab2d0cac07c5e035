import ZedRegistry.Lib.Execution

/-!
# A shared HTTP cache

A cache stands between many clients and one origin server.  It may keep an answer, hand a
kept one to a later request that the answer fits, or ask the origin whether a kept one is
current.  The origin answers from a world that changes under the cache.
-/

set_option autoImplicit false

namespace SharedCache

/-! ## The cache -/

/-- What a cache reads off requests and answers. -/
structure CacheRules (Request Answer : Type) where
  storable : Request → Answer → Bool
  /-- An answer kept for the first request fits the second. -/
  selects : Request → Answer → Request → Bool
  fresh : Answer → Bool
  /-- The request, on condition that the kept answer is not current. -/
  conditional : Answer → Request → Request
  notModified : Answer → Bool
  refreshed : Answer → Answer → Answer

inductive Source where
  | origin
  | validated
  | store
  deriving DecidableEq

/-- An answer that reached a client, with the world of that moment and those before it. -/
structure Delivery (World Request Answer : Type) where
  request : Request
  answer : Answer
  source : Source
  world : World
  past : List World

structure CacheState (World Request Answer : Type) where
  world : World
  past : List World
  entries : List (Request × Answer)
  delivered : List (Delivery World Request Answer)

inductive CacheEvent (World Request : Type) where
  | changed (world : World)
  | forwarded (request : Request)
  | reused (position : Nat) (request : Request)
  | revalidated (position : Nat) (request : Request)
  | dropped (position : Nat)

/-- A cache that has kept nothing yet. -/
def CacheState.initial {World Request Answer : Type} (world : World) :
    CacheState World Request Answer :=
  ⟨world, [world], [], []⟩

section System

variable {World Request Answer : Type} (rules : CacheRules Request Answer)
  (origin : World → Request → Answer)

/-- The client gets the answer, and the cache keeps it if it may. -/
def handOut (state : CacheState World Request Answer) (source : Source) (request : Request)
    (answer : Answer) : CacheState World Request Answer where
  world := state.world
  past := state.past
  entries :=
    if rules.storable request answer then (request, answer) :: state.entries else state.entries
  delivered := ⟨request, answer, source, state.world, state.past⟩ :: state.delivered

/-- What the client gets of a conditional request for a kept answer. -/
def revalidate (world : World) (kept : Answer) (request : Request) : Source × Answer :=
  let answer := origin world (rules.conditional kept request)
  if rules.notModified answer then (.validated, rules.refreshed kept answer)
  else (.origin, answer)

def cacheStep (state : CacheState World Request Answer) :
    CacheEvent World Request → Option (CacheState World Request Answer)
  | .changed world => some { state with world, past := world :: state.past }
  | .forwarded request =>
    some (handOut rules state .origin request (origin state.world request))
  | .reused position request =>
    state.entries[position]?.bind fun entry =>
      if rules.selects entry.1 entry.2 request && rules.fresh entry.2 then
        some { state with
          delivered := ⟨request, entry.2, .store, state.world, state.past⟩ :: state.delivered }
      else none
  | .revalidated position request =>
    state.entries[position]?.bind fun entry =>
      if rules.selects entry.1 entry.2 request then
        let outcome := revalidate rules origin state.world entry.2 request
        some (handOut rules { state with entries := state.entries.eraseIdx position }
          outcome.1 request outcome.2)
      else none
  | .dropped position => some { state with entries := state.entries.eraseIdx position }

/-! ## What reaches the clients -/

/-- The answer was given to the request in one of the worlds, and might be kept. -/
def Kept (past : List World) (entry : Request × Answer) : Prop :=
  ∃ world ∈ past, origin world entry.1 = entry.2 ∧ rules.storable entry.1 entry.2 = true

/-- An answer out of the store was kept for a request it fits; any other is the origin's. -/
structure Faithful (delivery : Delivery World Request Answer) : Prop where
  present : delivery.world ∈ delivery.past
  asked : delivery.source ≠ .store → delivery.answer = origin delivery.world delivery.request
  stored : delivery.source = .store → ∃ stored,
    Kept rules origin delivery.past (stored, delivery.answer) ∧
      rules.selects stored delivery.answer delivery.request = true ∧
      rules.fresh delivery.answer = true

/-- To ask about a kept answer comes to the same as to ask again. -/
def Validates (possible : World → Prop) : Prop :=
  ∀ before now stored request, possible before → possible now →
    rules.storable stored (origin before stored) = true →
    rules.selects stored (origin before stored) request = true →
    (revalidate rules origin now (origin before stored) request).2 = origin now request

structure Genuine (possible : World → Prop) (state : CacheState World Request Answer) :
    Prop where
  present : state.world ∈ state.past
  worlds : ∀ world ∈ state.past, possible world
  entries : ∀ entry ∈ state.entries, Kept rules origin state.past entry
  delivered : ∀ delivery ∈ state.delivered, Faithful rules origin delivery ∧
    ∀ world ∈ delivery.past, possible world

/-- The worlds the run moves to are possible. -/
def MovesWithin (possible : World → Prop) (_ : CacheState World Request Answer)
    (event : CacheEvent World Request) : Prop :=
  ∀ world, event = .changed world → possible world

variable {rules origin}

theorem Kept.later {past : List World} {entry : Request × Answer}
    (kept : Kept rules origin past entry) (world : World) :
    Kept rules origin (world :: past) entry := by
  obtain ⟨then', member, answered⟩ := kept
  exact ⟨then', List.mem_cons_of_mem _ member, answered⟩

theorem revalidate_source (world : World) (kept : Answer) (request : Request) :
    (revalidate rules origin world kept request).1 ≠ .store := by
  unfold revalidate
  by_cases current : rules.notModified (origin world (rules.conditional kept request)) = true
  · simp [current]
  · simp [current]

variable {possible : World → Prop} {state : CacheState World Request Answer}

theorem genuine_initial {world : World} (here : possible world) :
    Genuine rules origin possible (.initial world) where
  present := List.mem_cons_self
  worlds := by
    intro other member
    obtain rfl := List.mem_singleton.mp member
    exact here
  entries _ member := absurd member List.not_mem_nil
  delivered _ member := absurd member List.not_mem_nil

theorem Genuine.erase (genuine : Genuine rules origin possible state) (position : Nat) :
    Genuine rules origin possible { state with entries := state.entries.eraseIdx position } where
  present := genuine.present
  worlds := genuine.worlds
  entries entry member := genuine.entries entry (List.mem_of_mem_eraseIdx member)
  delivered := genuine.delivered

/-- The origin's own answer may be handed out and kept. -/
theorem Genuine.handOut (genuine : Genuine rules origin possible state) {source : Source}
    (asked : source ≠ .store) (request : Request) :
    Genuine rules origin possible
      (handOut rules state source request (origin state.world request)) where
  present := genuine.present
  worlds := genuine.worlds
  entries := by
    intro entry member
    unfold SharedCache.handOut at member
    dsimp only at member
    split at member
    next may =>
      rcases List.mem_cons.mp member with rfl | member
      · exact ⟨state.world, genuine.present, rfl, may⟩
      · exact genuine.entries entry member
    next => exact genuine.entries entry member
  delivered := by
    intro delivery member
    rcases List.mem_cons.mp member with rfl | member
    · exact ⟨⟨genuine.present, fun _ => rfl, fun here => absurd here asked⟩, genuine.worlds⟩
    · exact genuine.delivered delivery member

theorem Genuine.reused (genuine : Genuine rules origin possible state) {position : Nat}
    {entry : Request × Answer} (found : state.entries[position]? = some entry)
    {request : Request} (fits : rules.selects entry.1 entry.2 request = true)
    (fresh : rules.fresh entry.2 = true) :
    Genuine rules origin possible { state with
      delivered := ⟨request, entry.2, .store, state.world, state.past⟩ :: state.delivered } where
  present := genuine.present
  worlds := genuine.worlds
  entries := genuine.entries
  delivered := by
    intro delivery member
    rcases List.mem_cons.mp member with rfl | member
    · have kept := genuine.entries entry (List.mem_of_getElem? found)
      exact ⟨⟨genuine.present, fun other => absurd rfl other,
        fun _ => ⟨entry.1, kept, fits, fresh⟩⟩, genuine.worlds⟩
    · exact genuine.delivered delivery member

/-- One step keeps the store and the deliveries genuine. -/
theorem cacheStep_genuine (validates : Validates rules origin possible)
    {event : CacheEvent World Request} {next : CacheState World Request Answer}
    (genuine : Genuine rules origin possible state) (within : MovesWithin possible state event)
    (stepped : cacheStep rules origin state event = some next) :
    Genuine rules origin possible next := by
  cases event with
  | changed world =>
      obtain rfl := Option.some.inj stepped
      refine ⟨List.mem_cons_self, ?_, ?_, genuine.delivered⟩
      · intro other member
        rcases List.mem_cons.mp member with rfl | member
        · exact within other rfl
        · exact genuine.worlds other member
      · intro entry member
        exact (genuine.entries entry member).later world
  | forwarded request =>
      obtain rfl := Option.some.inj stepped
      exact genuine.handOut (by decide) request
  | reused position request =>
      obtain ⟨entry, found, taken⟩ := Option.bind_eq_some_iff.mp stepped
      split at taken
      next passes =>
        obtain ⟨fits, fresh⟩ := Bool.and_eq_true_iff.mp passes
        obtain rfl := Option.some.inj taken
        exact genuine.reused found fits fresh
      next => contradiction
  | revalidated position request =>
      obtain ⟨entry, found, taken⟩ := Option.bind_eq_some_iff.mp stepped
      split at taken
      next fits =>
        obtain ⟨world, member, answered, storable⟩ :=
          genuine.entries entry (List.mem_of_getElem? found)
        have plain : (revalidate rules origin state.world entry.2 request).2 =
            origin state.world request := by
          rw [← answered] at storable fits ⊢
          exact validates world state.world entry.1 request (genuine.worlds world member)
            (genuine.worlds _ genuine.present) storable fits
        obtain rfl := Option.some.inj taken
        rw [plain]
        exact (genuine.erase position).handOut (revalidate_source _ _ _) request
      next => contradiction
  | dropped position =>
      obtain rfl := Option.some.inj stepped
      exact genuine.erase position

theorem allowed_within {events : List (CacheEvent World Request)}
    (within : ∀ world, .changed world ∈ events → possible world)
    (start : CacheState World Request Answer) :
    Execution.Allowed (cacheStep rules origin) (MovesWithin possible) start events := by
  induction events generalizing start with
  | nil => trivial
  | cons event events ih =>
      refine ⟨?_, fun next _ => ih (fun world member => within world (.tail _ member)) next⟩
      rintro world rfl
      exact within world (.head _)

theorem run_genuine (validates : Validates rules origin possible) {world : World}
    (here : possible world) {events : List (CacheEvent World Request)}
    {final : CacheState World Request Answer}
    (within : ∀ world, .changed world ∈ events → possible world)
    (run : Execution.exec (cacheStep rules origin) (.initial world) events = some final) :
    Genuine rules origin possible final :=
  Execution.exec_invariant_of_allowed (cacheStep rules origin)
    (fun _ _ _ genuine allowed stepped => cacheStep_genuine validates genuine allowed stepped)
    (genuine_initial here) (allowed_within within _) run

/-- Where no answer may be kept, every client gets what the origin answers it. -/
theorem delivered_by_origin
    (barred : ∀ world request, possible world →
      rules.storable request (origin world request) = false) {world : World}
    (here : possible world) {events : List (CacheEvent World Request)}
    {final : CacheState World Request Answer}
    (within : ∀ world, .changed world ∈ events → possible world)
    (run : Execution.exec (cacheStep rules origin) (.initial world) events = some final) :
    ∀ delivery ∈ final.delivered, delivery.source ≠ .store ∧
      delivery.answer = origin delivery.world delivery.request := by
  have validates : Validates rules origin possible := by
    intro before _ stored _ possibleBefore _ storable
    rw [barred before stored possibleBefore] at storable
    contradiction
  intro delivery member
  obtain ⟨faithful, worlds⟩ :=
    (run_genuine validates here within run).delivered delivery member
  have asked : delivery.source ≠ .store := by
    intro fromStore
    obtain ⟨stored, ⟨world, before, answered, storable⟩, -⟩ := faithful.stored fromStore
    dsimp only at answered storable
    rw [← answered, barred world stored (worlds world before)] at storable
    contradiction
  exact ⟨asked, faithful.asked asked⟩

end System

/-! ## The rules of HTTP -/

/-- The parts of messages that the rules look at; the names of fields are in lower case. -/
structure Http (Target Request Answer : Type) where
  target : Request → Target
  /-- The lines of a field; a line that is not text is `none`. -/
  field : Request → String → List (Option String)
  /-- The request with an entity tag as its only `If-None-Match`. -/
  conditioned : Request → String → Request
  status : Answer → Nat
  headers : Answer → List (String × String)
  withHeaders : Answer → List (String × String) → Answer

def trimmed (text : List Char) : List Char :=
  ((text.dropWhile Char.isWhitespace).reverse.dropWhile Char.isWhitespace).reverse

/-- The members of a comma-separated field, in lower case. -/
def members (value : String) : List (List Char) :=
  (value.toList.splitOn ',').map fun member => (trimmed member).map Char.toLower

/-- The statuses whose answers may be kept without a directive. -/
def heuristicallyCacheable (status : Nat) : Bool :=
  status ∈ [200, 203, 204, 300, 301, 308, 404, 405, 410, 414, 501]

/-- The newer header fields replace those of their names. -/
def updated (older newer : List (String × String)) : List (String × String) :=
  newer ++ older.filter fun header => !(newer.map Prod.fst).contains header.1

namespace Http

variable {Target Request Answer : Type} (http : Http Target Request Answer)

/-- The names of the `Cache-Control` directives. -/
def directives (answer : Answer) : List (List Char) :=
  ((http.headers answer).lookup "cache-control").elim [] fun value =>
    (members value).map fun directive => directive.takeWhile (· ≠ '=')

def directs (answer : Answer) (name : String) : Bool :=
  (http.directives answer).contains name.toList

/-- A final answer whose status or directives let it be kept.  Partial answers and those
to conditions are passed on only. -/
def cacheable (answer : Answer) : Bool :=
  200 ≤ http.status answer && http.status answer ≠ 206 && http.status answer ≠ 304 &&
    (heuristicallyCacheable (http.status answer) || http.directs answer "public" ||
      http.directs answer "max-age" || http.directs answer "s-maxage")

/-- An answer to a request with credentials must say that it may be shared. -/
def shareable (request : Request) (answer : Answer) : Bool :=
  (http.field request "authorization").isEmpty || http.directs answer "public" ||
    http.directs answer "s-maxage" || http.directs answer "must-revalidate"

def mayStore (request : Request) (answer : Answer) : Bool :=
  http.cacheable answer && !http.directs answer "no-store" && !http.directs answer "private" &&
    http.shareable request answer

/-- An answer that says so is not kept. -/
theorem not_stored {request : Request} {answer : Answer}
    (directive : (http.headers answer).lookup "cache-control" = some "private, no-store") :
    http.mayStore request answer = false := by
  have directives : http.directives answer = ["private".toList, "no-store".toList] := by
    unfold directives
    rw [directive]
    decide +kernel
  have barred : http.directs answer "no-store" = true := by
    unfold directs
    rw [directives]
    decide +kernel
  unfold mayStore
  rw [barred]
  simp

variable [DecidableEq Target]

/-- The request asks for the same target, without a condition of its own, and agrees on the
fields that the answer varies with. -/
def fits (stored : Request) (answer : Answer) (request : Request) : Bool :=
  http.target stored = http.target request && (http.field request "if-none-match").isEmpty &&
    (((http.headers answer).lookup "vary").elim [] members).all fun name =>
      name ≠ ['*'] &&
        http.field stored (String.ofList name) = http.field request (String.ofList name)

/-- The rules of a cache that counts no time: what it may keep stays fresh. -/
def rules : CacheRules Request Answer where
  storable := http.mayStore
  selects := http.fits
  fresh answer := !http.directs answer "no-cache"
  conditional kept request :=
    ((http.headers kept).lookup "etag").elim request (http.conditioned request)
  notModified answer := http.status answer = 304
  refreshed kept answer :=
    http.withHeaders kept (updated (http.headers kept) (http.headers answer))

end Http

end SharedCache
