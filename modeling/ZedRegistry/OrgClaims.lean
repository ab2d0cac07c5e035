import Mathlib.Data.List.Nodup
import Mathlib.Logic.Function.Basic
import ZedRegistry.Access
import ZedRegistry.Lib.RelyGuarantee

/-!
# Claiming an org

`claim_org` and `claim_org_serialized` as concurrent requests on any number of
replicas take them, on Postgres: the early look at the slug, the fail-open outer
lock, and one transaction with the advisory lock, the count, the insert and the
commit.  Statements may fail, a commit may take effect although its answer is
lost, and a replica may stop between any two steps.
-/

set_option autoImplicit false

namespace ZedRegistry.OrgClaims

open RelyGuarantee Execution

/-! ## State -/

/-- `entities::org::Model`. -/
structure OrgRow where
  id : Uuid
  slug : String
  createdAt : DateTimeUtc
  createdByToken : Option Uuid

structure ClaimOrgResponse where
  slug : String
  created : Bool
  deriving DecidableEq

/-- The `org` table and the advisory locks.  `committed` has each row with the
claim that made it, `pending` the uncommitted rows with the transaction that
inserted them, and `locks` the transaction that holds a key. -/
structure ClaimDb where
  committed : List (Option Nat × OrgRow)
  pending : List (Nat × OrgRow)
  locks : Int → Option Nat

inductive ClaimPoint where
  | lookup
  | fiducia
  | beginTxn
  | lock
  | count
  | insert
  | commit (row : OrgRow)
  | audit

inductive ClaimPhase where
  | idle
  | running (token : Token) (slug : String) (point : ClaimPoint)
  | finished (result : ApiResult ClaimOrgResponse)
  | crashed (point : ClaimPoint)

/-- What the checks before the first look at the table read. -/
structure ClaimRequest where
  authorization : Option String
  slug : String
  tokens : String → ApiResult (Option Token)
  now : DateTimeUtc

/-- What the database answers to a statement: whether it works, whether a commit
takes effect when it reports an error, and what is new in a row. -/
structure ClaimAnswer where
  dbOk : Bool
  landed : Bool
  id : Uuid
  now : DateTimeUtc

inductive ClaimAction where
  | arrive (request : ClaimRequest)
  | advance (answer : ClaimAnswer)
  | crash (landed : Bool)

/-- The code that the registry calls and the configured limit. -/
structure ClaimEnv where
  sha256 : Bytes → String
  isSlug : String → Bool
  hashtext : String → Int
  maxOrgsPerToken : Nat

variable (env : ClaimEnv)

/-! ## Steps -/

def admitClaim (request : ClaimRequest) : ApiResult Token := do
  let token ← requireToken env.sha256 request.tokens request.now request.authorization
  ensure (env.isSlug request.slug = true)
    (.badRequest "invalid_slug" "org slugs are lowercase letters, digits, and hyphens")
  pure token

def orgTaken (slug : String) : ApiErr :=
  .conflict "org_taken" ("org `" ++ slug ++ "` is already claimed")

def lockKey (token : Uuid) : Int := env.hashtext ("zed-api:org-claim:" ++ token.hyphenated)

namespace ClaimDb

def find (db : ClaimDb) (slug : String) : Option OrgRow :=
  (db.committed.map Prod.snd).find? fun row => row.slug = slug

/-- The orgs a token has claimed, as a statement of any transaction without an
insert of its own counts them. -/
def claimed (db : ClaimDb) (token : Uuid) : Nat :=
  db.committed.countP fun entry => entry.2.createdByToken = some token

/-- The end of a transaction: its row and its locks are gone. -/
def release (db : ClaimDb) (attempt : Nat) : ClaimDb where
  committed := db.committed
  pending := db.pending.filter fun entry => entry.1 ≠ attempt
  locks key := if db.locks key = some attempt then none else db.locks key

def land (db : ClaimDb) (attempt : Nat) (row : OrgRow) : ClaimDb :=
  { db.release attempt with committed := (some attempt, row) :: db.committed }

end ClaimDb

section Steps

variable (attempt : Nat) (db : ClaimDb) (token : Token) (slug : String) (answer : ClaimAnswer)

/-- The transaction is dropped and the request refused. -/
def abort (error : ApiErr) : ClaimDb × ClaimPhase := (db.release attempt, .finished (.error error))

def lookupStep : ClaimPhase :=
  if answer.dbOk = false then .finished (.error .database)
  else
    match db.find slug with
    | none => .running token slug .fiducia
    | some existing =>
      if token.orgId = some existing.id then .finished (.ok ⟨slug, false⟩)
      else .finished (.error (orgTaken slug))

/-- `pg_advisory_xact_lock` waits for the holder of the key. -/
def lockStep : Option (ClaimDb × ClaimPhase) :=
  if answer.dbOk = false then some (abort attempt db .database)
  else if (db.locks (lockKey env token.id)).isSome then none
  else some
    ({ db with locks := Function.update db.locks (lockKey env token.id) (some attempt) },
      .running token slug .count)

def countStep : ClaimDb × ClaimPhase :=
  if token.orgId.isSome = false then (db, .running token slug .insert)
  else if answer.dbOk = false then abort attempt db .database
  else if env.maxOrgsPerToken ≤ db.claimed token.id then
    abort attempt db (.forbidden "org_quota_exceeded" ("this token has already claimed " ++
      toString (db.claimed token.id) ++ " orgs (limit " ++ toString env.maxOrgsPerToken ++
      "); contact the registry operator"))
  else (db, .running token slug .insert)

/-- `unique(slug)`: an insert waits for the transaction that has inserted the slug,
and fails where the slug is committed. -/
def insertStep : Option (ClaimDb × ClaimPhase) :=
  if answer.dbOk = false then some (abort attempt db .database)
  else if (db.find slug).isSome then some (abort attempt db (orgTaken slug))
  else if db.pending.any fun entry => entry.2.slug = slug then none
  else
    let row : OrgRow := ⟨answer.id, slug, answer.now, some token.id⟩
    some ({ db with pending := (attempt, row) :: db.pending }, .running token slug (.commit row))

def commitStep (row : OrgRow) : ClaimDb × ClaimPhase :=
  if answer.dbOk = true then (db.land attempt row, .running token slug .audit)
  else if answer.landed = true then (db.land attempt row, .finished (.error .database))
  else abort attempt db .database

def advanceClaim : ClaimPoint → Option (ClaimDb × ClaimPhase)
  | .lookup => some (db, lookupStep db token slug answer)
  | .fiducia => some (db, .running token slug .beginTxn)
  | .beginTxn =>
    if answer.dbOk = false then some (db, .finished (.error .database))
    else some (db, .running token slug .lock)
  | .lock => lockStep env attempt db token slug answer
  | .count => some (countStep env attempt db token slug answer)
  | .insert => insertStep attempt db token slug answer
  | .commit row => some (commitStep attempt db token slug answer row)
  | .audit => some (db, .finished (.ok ⟨slug, true⟩))

/-- The connection of a replica that stops is closed; a commit it has sent may
still take effect. -/
def crashStep (landed : Bool) (point : ClaimPoint) : ClaimDb × ClaimPhase :=
  match point, landed with
  | .commit row, true => (db.land attempt row, .crashed point)
  | _, _ => (db.release attempt, .crashed point)

end Steps

def claimMove : Move ClaimDb ClaimPhase ClaimAction
  | _, db, .idle, .arrive request =>
    match admitClaim env request with
    | .error error => some (db, .finished (.error error))
    | .ok token => some (db, .running token request.slug .lookup)
  | attempt, db, .running token slug point, .advance answer =>
    advanceClaim env attempt db token slug answer point
  | attempt, db, .running _ _ point, .crash landed => some (crashStep attempt db landed point)
  | _, _, _, _ => none

/-- A table of committed rows, and no claim yet. -/
def ClaimDb.initial (rows : List OrgRow) : ClaimDb where
  committed := rows.map fun row => (none, row)
  pending := []
  locks _ := none

end ZedRegistry.OrgClaims
