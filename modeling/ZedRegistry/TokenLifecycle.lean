import Mathlib.Data.List.Nodup
import Mathlib.Logic.Function.Basic
import ZedRegistry.Lib.Execution
import ZedRegistry.OrgClaims
import ZedRegistry.TokenCommands

/-!
# The life of a token

`create-token` and `revoke-token` as concurrent processes take them, statement by
statement against one database, and `require_token` as the requests that present
a credential see it.  A statement may fail, may take effect although it reports an
error, and a process may stop between any two.
-/

set_option autoImplicit false

namespace ZedRegistry.TokenLifecycle

open Execution OrgClaims TokenCommands

/-! ## Rows and processes -/

/-- `entities::token::Model`. -/
structure TokenRow extends Token where
  createdAt : DateTimeUtc

/-- What the commands use of other crates; `addDays` gives nothing where chrono panics. -/
structure Tools where
  sha256 : Bytes → String
  timestamps : Timestamps
  parseUuid : String → Option Uuid
  simple : Uuid → String
  addDays : DateTimeUtc → Int → Option DateTimeUtc
  simple_visible : ∀ id, ∀ char ∈ (simple id).toList, char.isWhitespace = false

inductive CommandError where
  | message (text : String)
  | database
  | panic

inductive CommandPhase where
  | findOrg (command : CreateCommand) (slug : String)
  | insertOrg (command : CreateCommand) (slug : String)
  | insertToken (command : CreateCommand) (orgId : Option Uuid)
  | findTokens (command : RevokeCommand)
  | revoking (now : DateTimeUtc) (rest : List TokenRow) (revoked : Nat)
  | finished (printed : Except CommandError (List String))
  | crashed

/-- `minted` says which command made a row, and for which plaintext. -/
structure TokenWorld where
  orgs : List OrgRow
  tokens : List TokenRow
  commands : Nat → Option CommandPhase
  minted : List (CreateCommand × String × TokenRow)

/-- What a statement answers, and the clock and the random ids that go into it. -/
structure CommandAnswer where
  dbOk : Bool
  landed : Bool
  id : Uuid
  first : Uuid
  second : Uuid
  clock : DateTimeUtc

inductive TokenEvent where
  | create (process : Nat) (args : List String) (connected : Bool)
  | revoke (process : Nat) (args : List String) (connected : Bool)
  | advance (process : Nat) (answer : CommandAnswer)
  | crash (process : Nat)
  | claimOrg (row : OrgRow)

def TokenWorld.initial : TokenWorld := ⟨[], [], fun _ => none, []⟩

/-! ## Steps -/

namespace TokenWorld

def goto (world : TokenWorld) (process : Nat) (phase : CommandPhase) : TokenWorld :=
  { world with commands := Function.update world.commands process (some phase) }

@[simp] theorem goto_self (world : TokenWorld) (process : Nat) (phase : CommandPhase) :
    (world.goto process phase).commands process = some phase :=
  Function.update_self ..

theorem goto_of_ne (world : TokenWorld) {process other : Nat} (differs : other ≠ process)
    (phase : CommandPhase) : (world.goto process phase).commands other = world.commands other :=
  Function.update_of_ne differs ..

def fail (world : TokenWorld) (process : Nat) (error : CommandError) : TokenWorld :=
  world.goto process (.finished (.error error))

def addOrg (world : TokenWorld) (row : OrgRow) : TokenWorld :=
  { world with orgs := row :: world.orgs }

def addToken (world : TokenWorld) (command : CreateCommand) (plaintext : String)
    (row : TokenRow) : TokenWorld :=
  { world with
    tokens := row :: world.tokens
    minted := (command, plaintext, row) :: world.minted }

/-- `UPDATE token SET revoked_at`; the other columns are unchanged in the active model. -/
def revokeToken (world : TokenWorld) (id : Uuid) (now : DateTimeUtc) : TokenWorld :=
  { world with
    tokens := world.tokens.map fun row =>
      if row.id = id then { row with revokedAt := some now } else row }

/-- The slug and the id of the table are unique. -/
def orgTaken (world : TokenWorld) (row : OrgRow) : Bool :=
  world.orgs.any fun other => other.slug = row.slug || other.id = row.id

def tokenTaken (world : TokenWorld) (row : TokenRow) : Bool :=
  world.tokens.any fun other => other.id = row.id || other.tokenHash = row.tokenHash

end TokenWorld

variable (tools : Tools)

def plaintextOf (answer : CommandAnswer) : String :=
  "zpkg_" ++ tools.simple answer.first ++ tools.simple answer.second

/-- `Utc::now() + Duration::days(days)`; the outer option is for the panic. -/
def expiresAt (clock : DateTimeUtc) : Option Int → Option (Option DateTimeUtc)
  | none => some none
  | some days => (tools.addDays clock days).map some

def tokenRow (command : CreateCommand) (orgId : Option Uuid) (expires : Option DateTimeUtc)
    (answer : CommandAnswer) : TokenRow where
  id := answer.id
  name := command.name
  tokenHash := hashToken tools.sha256 (plaintextOf tools answer)
  orgId := orgId
  role := command.role
  expiresAt := expires.map tools.timestamps.stored
  revokedAt := none
  createdAt := tools.timestamps.stored answer.clock

def orgRow (slug : String) (answer : CommandAnswer) : OrgRow where
  id := answer.id
  slug := slug
  createdAt := tools.timestamps.stored answer.clock
  createdByToken := none

def scopeText (command : CreateCommand) : String :=
  match command.orgSlug with
  | some slug => "org `" ++ slug ++ "`, role `" ++ command.role ++ "`"
  | none => "admin (all orgs)"

def createdLines (command : CreateCommand) (expires : Option DateTimeUtc) (plaintext : String) :
    List String :=
  ["token `" ++ command.name ++ "` created (" ++ scopeText command ++
      expires.elim "" (fun at' => ", expires " ++ tools.timestamps.toRfc3339 at') ++
      "); save it now, it is shown exactly once:",
    plaintext]

/-- The filters of `revoke_token`. -/
def Matches (command : RevokeCommand) (id : Option Uuid) (row : TokenRow) : Bool :=
  (command.name.all fun name => row.name = name) && id.all fun id => row.id = id

/-- The id is parsed while the query is built. -/
def revokeId (command : RevokeCommand) : Except CommandError (Option Uuid) :=
  match command.id with
  | none => .ok none
  | some raw => (okOrElse (tools.parseUuid raw) (.message "--id must be a UUID")).map some

def advance (world : TokenWorld) (process : Nat) (answer : CommandAnswer) :
    CommandPhase → Option TokenWorld
  | .findOrg command slug =>
    if answer.dbOk = false then some (world.fail process .database)
    else
      match world.orgs.find? fun org => org.slug = slug with
      | some org => some (world.goto process (.insertToken command (some org.id)))
      | none => some (world.goto process (.insertOrg command slug))
  | .insertOrg command slug =>
    let row := orgRow tools slug answer
    if world.orgTaken row = true then some (world.fail process .database)
    else if answer.dbOk = true then
      some ((world.addOrg row).goto process (.insertToken command (some row.id)))
    else if answer.landed = true then some ((world.addOrg row).fail process .database)
    else some (world.fail process .database)
  | .insertToken command orgId =>
    match expiresAt tools answer.clock command.expiresInDays with
    | none => some (world.fail process .panic)
    | some expires =>
      let row := tokenRow tools command orgId expires answer
      let plaintext := plaintextOf tools answer
      if world.tokenTaken row = true then some (world.fail process .database)
      else if answer.dbOk = true then
        some ((world.addToken command plaintext row).goto process
          (.finished (.ok (createdLines tools command expires plaintext))))
      else if answer.landed = true then
        some ((world.addToken command plaintext row).fail process .database)
      else some (world.fail process .database)
  | .findTokens command =>
    match revokeId tools command with
    | .error error => some (world.fail process error)
    | .ok id =>
      if answer.dbOk = false then some (world.fail process .database)
      else
        match world.tokens.filter (Matches command id) with
        | [] => some (world.fail process (.message "no token matched"))
        | row :: rest =>
          some (world.goto process
            (.revoking (tools.timestamps.stored answer.clock) (row :: rest) 0))
  | .revoking _ [] revoked =>
    some (world.goto process
      (.finished (.ok ["revoked " ++ toString revoked ++ " token(s)"])))
  | .revoking now (row :: rest) revoked =>
    if row.revokedAt.isSome = true then some (world.goto process (.revoking now rest revoked))
    else if answer.dbOk = true then
      some ((world.revokeToken row.id now).goto process (.revoking now rest (revoked + 1)))
    else if answer.landed = true then
      some ((world.revokeToken row.id now).fail process .database)
    else some (world.fail process .database)
  | .finished _ | .crashed => none

def createPhase (command : CreateCommand) : CommandPhase :=
  match command.orgSlug with
  | some slug => .findOrg command slug
  | none => .insertToken command none

def step (world : TokenWorld) : TokenEvent → Option TokenWorld
  | .create process args connected =>
    if (world.commands process).isSome then none
    else
      match createCommand args with
      | .error text => some (world.fail process (.message text))
      | .ok command =>
        if connected = false then some (world.fail process .database)
        else some (world.goto process (createPhase command))
  | .revoke process args connected =>
    if (world.commands process).isSome then none
    else
      match revokeCommand args with
      | .error text => some (world.fail process (.message text))
      | .ok command =>
        if connected = false then some (world.fail process .database)
        else some (world.goto process (.findTokens command))
  | .advance process answer =>
    match world.commands process with
    | some phase => advance tools world process answer phase
    | none => none
  | .crash process =>
    match world.commands process with
    | some (.finished _) | some .crashed | none => none
    | some _ => some (world.goto process .crashed)
  | .claimOrg row => if world.orgTaken row = true then none else some (world.addOrg row)

/-- `require_token` against the table as it stands. -/
def authenticate (world : TokenWorld) (now : DateTimeUtc) (authorization : Option String) :
    ApiResult Token :=
  requireToken tools.sha256
    (fun hash => .ok ((world.tokens.find? fun row => row.tokenHash = hash).map TokenRow.toToken))
    now authorization

/-! ## What a row keeps -/

/-- A later form of a row: only the revocation may be new. -/
structure SameGrant (row later : TokenRow) : Prop where
  id : later.id = row.id
  name : later.name = row.name
  tokenHash : later.tokenHash = row.tokenHash
  orgId : later.orgId = row.orgId
  role : later.role = row.role
  expiresAt : later.expiresAt = row.expiresAt
  createdAt : later.createdAt = row.createdAt
  revoked : row.revokedAt ≠ none → later.revokedAt ≠ none

theorem SameGrant.refl (row : TokenRow) : SameGrant row row :=
  ⟨rfl, rfl, rfl, rfl, rfl, rfl, rfl, fun revoked => revoked⟩

theorem SameGrant.trans {first second third : TokenRow} (early : SameGrant first second)
    (late : SameGrant second third) : SameGrant first third where
  id := late.id.trans early.id
  name := late.name.trans early.name
  tokenHash := late.tokenHash.trans early.tokenHash
  orgId := late.orgId.trans early.orgId
  role := late.role.trans early.role
  expiresAt := late.expiresAt.trans early.expiresAt
  createdAt := late.createdAt.trans early.createdAt
  revoked := fun revoked => late.revoked (early.revoked revoked)

/-- A row that is not revoked later is the row it was. -/
theorem SameGrant.toToken_eq {row later : TokenRow} (same : SameGrant row later)
    (live : later.revokedAt = none) : later.toToken = row.toToken := by
  have before : row.revokedAt = none := by
    by_contra revoked
    exact same.revoked revoked live
  obtain ⟨⟨id, name, tokenHash, orgId, role, expiresAt, revokedAt⟩, createdAt⟩ := row
  obtain ⟨⟨id', name', tokenHash', orgId', role', expiresAt', revokedAt'⟩, createdAt'⟩ := later
  obtain ⟨rfl, rfl, rfl, rfl, rfl, rfl, rfl, -⟩ := same
  obtain rfl : revokedAt' = revokedAt := live.trans before.symm
  rfl

structure KeepsTokens (world next : TokenWorld) : Prop where
  orgs : ∀ org ∈ world.orgs, org ∈ next.orgs
  tokens : ∀ row ∈ world.tokens, ∃ later ∈ next.tokens, SameGrant row later
  minted : ∀ mint ∈ world.minted, mint ∈ next.minted

theorem KeepsTokens.refl (world : TokenWorld) : KeepsTokens world world :=
  ⟨fun _ member => member, fun row member => ⟨row, member, SameGrant.refl row⟩,
    fun _ member => member⟩

theorem KeepsTokens.trans {first second third : TokenWorld} (early : KeepsTokens first second)
    (late : KeepsTokens second third) : KeepsTokens first third where
  orgs org member := late.orgs org (early.orgs org member)
  tokens row member := by
    obtain ⟨middle, found, same⟩ := early.tokens row member
    obtain ⟨last, found, same'⟩ := late.tokens middle found
    exact ⟨last, found, same.trans same'⟩
  minted mint member := late.minted mint (early.minted mint member)

/-! ## What a step does to the tables -/

/-- The tables after one step of a process that is at `phase`. -/
inductive Effect (world : TokenWorld) (phase : CommandPhase) : TokenWorld → Prop
  | quiet : Effect world phase world
  | addOrg (row : OrgRow) (free : world.orgTaken row = false) :
      Effect world phase (world.addOrg row)
  | addToken (command : CreateCommand) (orgId : Option Uuid) (expires : Option DateTimeUtc)
      (answer : CommandAnswer) (here : phase = .insertToken command orgId)
      (dated : expiresAt tools answer.clock command.expiresInDays = some expires)
      (free : world.tokenTaken (tokenRow tools command orgId expires answer) = false) :
      Effect world phase (world.addToken command (plaintextOf tools answer)
        (tokenRow tools command orgId expires answer))
  | revokeToken (id : Uuid) (now : DateTimeUtc) : Effect world phase (world.revokeToken id now)

/-- The scope of a row is the id of the org that the command names. -/
def Scoped (orgs : List OrgRow) (command : CreateCommand) : Option Uuid → Prop
  | none => command.orgSlug = none
  | some id => ∃ org ∈ orgs, org.id = id ∧ command.orgSlug = some org.slug

theorem Scoped.mono {orgs later : List OrgRow} {command : CreateCommand} {orgId : Option Uuid}
    (keeps : ∀ org ∈ orgs, org ∈ later) (holds : Scoped orgs command orgId) :
    Scoped later command orgId := by
  cases orgId with
  | none => exact holds
  | some id =>
      obtain ⟨org, member, same⟩ := holds
      exact ⟨org, keeps org member, same⟩

/-- What a process knows at a phase; `asked` holds of the commands that were given. -/
def PhaseHolds (asked : CreateCommand → Prop) (world : TokenWorld) : CommandPhase → Prop
  | .findOrg command slug | .insertOrg command slug =>
      asked command ∧ command.orgSlug = some slug
  | .insertToken command orgId => asked command ∧ Scoped world.orgs command orgId
  | .revoking _ rest _ => ∀ row ∈ rest, ∃ current ∈ world.tokens, SameGrant row current
  | .findTokens _ | .finished _ | .crashed => True

section Steps

variable {tools} {asked : CreateCommand → Prop} {world next : TokenWorld} {process : Nat}
  {phase : CommandPhase}

theorem PhaseHolds.mono (keeps : KeepsTokens world next) (holds : PhaseHolds asked world phase) :
    PhaseHolds asked next phase := by
  cases phase with
  | findOrg command slug | insertOrg command slug => exact holds
  | insertToken command orgId => exact ⟨holds.1, Scoped.mono keeps.orgs holds.2⟩
  | revoking now rest revoked =>
      intro row member
      obtain ⟨current, found, same⟩ := holds row member
      obtain ⟨later, found, same'⟩ := keeps.tokens current found
      exact ⟨later, found, same.trans same'⟩
  | findTokens | finished | crashed => trivial

theorem sameGrant_revoked (row : TokenRow) (id : Uuid) (now : DateTimeUtc) :
    SameGrant row (if row.id = id then { row with revokedAt := some now } else row) := by
  by_cases named : row.id = id
  · rw [if_pos named]
    exact ⟨rfl, rfl, rfl, rfl, rfl, rfl, rfl, fun _ => Option.some_ne_none now⟩
  · rw [if_neg named]
    exact SameGrant.refl row

theorem keeps_revokeToken (world : TokenWorld) (id : Uuid) (now : DateTimeUtc) :
    KeepsTokens world (world.revokeToken id now) where
  orgs _ member := member
  tokens row member := ⟨_, List.mem_map_of_mem member, sameGrant_revoked row id now⟩
  minted _ member := member

theorem Effect.keeps (effect : Effect tools world phase next) : KeepsTokens world next := by
  cases effect with
  | quiet => exact KeepsTokens.refl world
  | addOrg row free =>
      exact { KeepsTokens.refl world with orgs := fun _ => List.mem_cons_of_mem row }
  | addToken command orgId expires answer here dated free =>
      exact
        { orgs := fun _ member => member
          tokens := fun row member => ⟨row, List.mem_cons_of_mem _ member, SameGrant.refl row⟩
          minted := fun _ => List.mem_cons_of_mem _ }
  | revokeToken id now => exact keeps_revokeToken world id now

theorem Effect.commands (effect : Effect tools world phase next) :
    next.commands = world.commands := by
  cases effect with
  | _ => rfl

/-- A step of a process is an effect on the tables and a phase that holds after it. -/
theorem advance_effect {answer : CommandAnswer} (holds : PhaseHolds asked world phase)
    (stepped : advance tools world process answer phase = some next) :
    ∃ middle later, Effect tools world phase middle ∧ next = middle.goto process later ∧
      PhaseHolds asked middle later := by
  have failed : ∀ error, ∃ middle later, Effect tools world phase middle ∧
      world.fail process error = middle.goto process later ∧ PhaseHolds asked middle later :=
    fun error => ⟨world, .finished (.error error), .quiet, rfl, trivial⟩
  cases phase with
  | findOrg command slug =>
      simp only [advance] at stepped
      split at stepped
      · obtain rfl := Option.some.inj stepped
        exact failed _
      · split at stepped
        · rename_i org found
          obtain rfl := Option.some.inj stepped
          have named : org.slug = slug := by simpa using List.find?_some found
          exact ⟨world, _, .quiet, rfl, holds.1, org, List.mem_of_find?_eq_some found, rfl,
            named ▸ holds.2⟩
        · obtain rfl := Option.some.inj stepped
          exact ⟨world, _, .quiet, rfl, holds⟩
  | insertOrg command slug =>
      simp only [advance] at stepped
      split at stepped
      · obtain rfl := Option.some.inj stepped
        exact failed _
      · rename_i free
        have added : Effect tools world (.insertOrg command slug)
            (world.addOrg (orgRow tools slug answer)) := .addOrg _ (Bool.eq_false_iff.mpr free)
        split at stepped
        · obtain rfl := Option.some.inj stepped
          exact ⟨_, _, added, rfl, holds.1, _, List.mem_cons_self, rfl, holds.2⟩
        · split at stepped
          · obtain rfl := Option.some.inj stepped
            exact ⟨_, .finished (.error .database), added, rfl, trivial⟩
          · obtain rfl := Option.some.inj stepped
            exact failed _
  | insertToken command orgId =>
      simp only [advance] at stepped
      split at stepped
      · obtain rfl := Option.some.inj stepped
        exact failed _
      · rename_i expires dated
        split at stepped
        · obtain rfl := Option.some.inj stepped
          exact failed _
        · rename_i free
          have added : Effect tools world (.insertToken command orgId)
              (world.addToken command (plaintextOf tools answer)
                (tokenRow tools command orgId expires answer)) :=
            .addToken command orgId expires answer rfl dated (Bool.eq_false_iff.mpr free)
          split at stepped
          · obtain rfl := Option.some.inj stepped
            exact ⟨_, _, added, rfl, trivial⟩
          · split at stepped
            · obtain rfl := Option.some.inj stepped
              exact ⟨_, .finished (.error .database), added, rfl, trivial⟩
            · obtain rfl := Option.some.inj stepped
              exact failed _
  | findTokens command =>
      simp only [advance] at stepped
      split at stepped
      · obtain rfl := Option.some.inj stepped
        exact failed _
      · split at stepped
        · obtain rfl := Option.some.inj stepped
          exact failed _
        · split at stepped
          · obtain rfl := Option.some.inj stepped
            exact failed _
          · rename_i row rest matched
            obtain rfl := Option.some.inj stepped
            refine ⟨world, _, .quiet, rfl, fun own member => ?_⟩
            rw [← matched] at member
            exact ⟨own, List.mem_of_mem_filter member, SameGrant.refl own⟩
  | revoking now rows revoked =>
      cases rows with
      | nil =>
          obtain rfl := Option.some.inj stepped
          exact ⟨world, _, .quiet, rfl, trivial⟩
      | cons row rest =>
          have later : PhaseHolds asked world (.revoking now rest (revoked + 1)) :=
            fun own member => holds own (List.mem_cons_of_mem row member)
          simp only [advance] at stepped
          split at stepped
          · obtain rfl := Option.some.inj stepped
            exact ⟨world, _, .quiet, rfl, later⟩
          · split at stepped
            · obtain rfl := Option.some.inj stepped
              exact ⟨_, _, .revokeToken row.id now, rfl,
                PhaseHolds.mono (keeps_revokeToken world row.id now) later⟩
            · split at stepped
              · obtain rfl := Option.some.inj stepped
                exact ⟨_, .finished (.error .database), .revokeToken row.id now, rfl, trivial⟩
              · obtain rfl := Option.some.inj stepped
                exact failed _
  | finished | crashed => contradiction

end Steps

end ZedRegistry.TokenLifecycle
