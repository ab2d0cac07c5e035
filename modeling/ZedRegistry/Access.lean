import Mathlib.Data.List.Infix
import Mathlib.Data.List.TakeWhile
import ZedRegistry.Digest
import ZedRegistry.Timestamp

/-!
# Errors, bearer tokens and roles

The error type of every handler, the legacy token check of `auth.rs` and the
role checks of `rbac.rs`.
-/

set_option autoImplicit false

namespace ZedRegistry

structure ApiErr where
  status : Nat
  code : String
  message : String
  deriving DecidableEq

abbrev ApiResult (α : Type) := Except ApiErr α

namespace ApiErr

def notFound (what : String) : ApiErr := ⟨404, "not_found", what ++ " not found"⟩

def badRequest (code message : String) : ApiErr := ⟨400, code, message⟩

def unauthorized : ApiErr := ⟨401, "unauthorized", "missing or invalid bearer token"⟩

def forbidden (code message : String) : ApiErr := ⟨403, code, message⟩

def conflict (code message : String) : ApiErr := ⟨409, code, message⟩

def serviceUnavailable (code message : String) : ApiErr := ⟨503, code, message⟩

/-- `From<sea_orm::DbErr>`. -/
def database : ApiErr := ⟨500, "internal", "internal database error"⟩

/-- `From<anyhow::Error>`. -/
def internal : ApiErr := ⟨500, "internal", "internal error"⟩

end ApiErr

/-! ## Errors of the canonical plane -/

/-- `OrmError`; `other` stands for the variants `map_orm_error` does not name. -/
inductive OrmError where
  | visibilityWindowExpired (message : String)
  | visibilityDownloadLimitExceeded (message : String)
  | notFound (message : String)
  | policyViolation (message : String)
  | database (message : String)
  | other
  deriving DecidableEq

def containsText (text part : String) : Bool :=
  decide (part.toList <:+: text.toList)

/-- `to_ascii_lowercase` leaves characters outside ASCII alone, as `Char.toLower` does. -/
def asciiLowercase (text : String) : String := String.ofList (text.toList.map Char.toLower)

def mapOrmError : OrmError → ApiErr
  | .visibilityWindowExpired message | .visibilityDownloadLimitExceeded message =>
    .conflict "visibility_window_closed" message
  | .notFound message => .notFound message
  | .policyViolation message =>
    if ["membership", "role", "permission"].any (containsText (asciiLowercase message)) then
      .forbidden "forbidden" "insufficient registry permission"
    else .badRequest "invalid_request" message
  | .database message =>
    if ["duplicate", "unique"].any (containsText (asciiLowercase message)) then
      .conflict "already_exists" "the registry entity already exists"
    else .database
  | .other => ⟨500, "internal", "internal registry error"⟩

/-! ## Results -/

section Results

variable {ε ε' α β : Type}

def ensure (condition : Prop) [Decidable condition] (error : ε) : Except ε Unit :=
  if condition then .ok () else .error error

def okOrElse (found : Option α) (error : ε) : Except ε α := found.elim (.error error) .ok

theorem bind_ok {action : Except ε α} {next : α → Except ε β} {result : β} :
    action >>= next = .ok result ↔ ∃ value, action = .ok value ∧ next value = .ok result := by
  cases action with
  | error error => simp [bind, Except.bind]
  | ok value => simp [bind, Except.bind]

theorem map_bind_next {γ : Type} (action : Except ε α) (next : α → Except ε β)
    (convert : β → γ) :
    (action >>= next).map convert = action >>= fun value => (next value).map convert := by
  cases action with
  | error error => rfl
  | ok value => rfl

theorem mapError_ok {action : Except ε α} {convert : ε → ε'} {result : α} :
    action.mapError convert = .ok result ↔ action = .ok result := by
  cases action with
  | error error => simp [Except.mapError]
  | ok value => simp [Except.mapError]

theorem toOption_ok {action : Except ε α} {result : α} (found : action.toOption = some result) :
    action = .ok result := by
  cases action with
  | error error => contradiction
  | ok value => exact congrArg Except.ok (Option.some.inj found)

theorem okOrElse_ok {found : Option α} {error : ε} {result : α} :
    okOrElse found error = .ok result ↔ found = some result := by
  cases found with
  | none => simp [okOrElse]
  | some value => simp [okOrElse]

theorem ensure_ok {condition : Prop} [Decidable condition] {error : ε} {result : Unit} :
    ensure condition error = .ok result ↔ condition := by
  unfold ensure
  split
  · rename_i holds
    simp [holds]
  · rename_i fails
    simp [fails]

/-- A loop that stops at the first refusal. -/
def checkEach (check : α → Except ε Unit) : List α → Except ε Unit
  | [] => .ok ()
  | item :: rest => do
    check item
    checkEach check rest

theorem checkEach_ok {check : α → Except ε Unit} {items : List α} {result : Unit} :
    checkEach check items = .ok result ↔ ∀ item ∈ items, check item = .ok () := by
  induction items with
  | nil => simp [checkEach]
  | cons item rest ih =>
      simp only [checkEach, bind_ok, ih, List.forall_mem_cons]
      constructor
      · rintro ⟨⟨⟩, first, later⟩
        exact ⟨first, later⟩
      · rintro ⟨first, later⟩
        exact ⟨(), first, later⟩

variable {allowed : ε → Prop}

/-- Every failure of the action is an allowed one. -/
def FailsOnly (allowed : ε → Prop) (action : Except ε α) : Prop :=
  ∀ error, action = .error error → allowed error

theorem failsOnly_ok (value : α) : FailsOnly allowed (.ok value : Except ε α) := by
  intro error failed
  contradiction

theorem failsOnly_error {error : ε} (holds : allowed error) :
    FailsOnly allowed (.error error : Except ε α) := by
  intro other failed
  obtain rfl := Except.error.inj failed
  exact holds

theorem FailsOnly.bind {action : Except ε α} {next : α → Except ε β}
    (first : FailsOnly allowed action) (rest : ∀ value, FailsOnly allowed (next value)) :
    FailsOnly allowed (action >>= next) := by
  cases action with
  | error error => exact failsOnly_error (first error rfl)
  | ok value => exact rest value

theorem FailsOnly.map {action : Except ε α} (first : FailsOnly allowed action)
    (convert : α → β) : FailsOnly allowed (action.map convert) := by
  cases action with
  | error error => exact failsOnly_error (first error rfl)
  | ok value => exact failsOnly_ok (convert value)

theorem failsOnly_ensure (condition : Prop) [Decidable condition] {error : ε}
    (holds : allowed error) : FailsOnly allowed (ensure condition error) := by
  unfold ensure
  split
  · exact failsOnly_ok ()
  · exact failsOnly_error holds

theorem failsOnly_okOrElse (found : Option α) {error : ε} (holds : allowed error) :
    FailsOnly allowed (okOrElse found error) := by
  cases found with
  | none => exact failsOnly_error holds
  | some value => exact failsOnly_ok value

theorem failsOnly_mapError (action : Except ε' α) {error : ε} (holds : allowed error) :
    FailsOnly allowed (action.mapError fun _ => error) := by
  cases action with
  | error other => exact failsOnly_error holds
  | ok value => exact failsOnly_ok value

theorem failsOnly_mapM {convert : α → Except ε β}
    (each : ∀ item, FailsOnly allowed (convert item)) (items : List α) :
    FailsOnly allowed (items.mapM convert) := by
  induction items with
  | nil => exact failsOnly_ok []
  | cons item items ih =>
      rw [List.mapM_cons]
      exact (each item).bind fun first => ih.bind fun rest => failsOnly_ok (first :: rest)

end Results

/-! ## Tokens -/

/-- `entities::token::Model`. -/
structure Token where
  id : Uuid
  name : String
  tokenHash : String
  orgId : Option Uuid
  role : String
  expiresAt : Option DateTimeUtc
  revokedAt : Option DateTimeUtc

def sampleToken : Token where
  id := ⟨"0b54b0a4-6a0f-4f27-9f39-52a1f3c0d9e1"⟩
  name := "ci"
  tokenHash := "unused"
  orgId := none
  role := "owner"
  expiresAt := none
  revokedAt := none

def trimText (text : List Char) : List Char :=
  ((text.dropWhile Char.isWhitespace).reverse.dropWhile Char.isWhitespace).reverse

/-- `split_once`. -/
def splitOnce (separator : Char) (text : List Char) : Option (List Char × List Char) :=
  match text.dropWhile (· ≠ separator) with
  | [] => none
  | _ :: after => some (text.takeWhile (· ≠ separator), after)

theorem splitOnce_append {separator : Char} {before after : List Char}
    (absent : separator ∉ before) :
    splitOnce separator (before ++ separator :: after) = some (before, after) := by
  have others : ∀ char ∈ before, decide (char ≠ separator) = true := by
    intro char member
    simp only [ne_eq, decide_eq_true_eq]
    rintro rfl
    exact absent member
  unfold splitOnce
  rw [List.dropWhile_append_of_pos others, List.takeWhile_append_of_pos others]
  simp

theorem splitOnce_absent {separator : Char} {text : List Char} (absent : separator ∉ text) :
    splitOnce separator text = none := by
  have kept : text.dropWhile (· ≠ separator) = [] := by
    rw [List.dropWhile_eq_nil_iff]
    intro char member
    simp only [ne_eq, decide_eq_true_eq]
    rintro rfl
    exact absent member
  rw [splitOnce, kept]

/-- The credential of an `Authorization` header, when the header is text. -/
def bearerToken (authorization : Option String) : Option String := do
  let value ← authorization
  let rest ← value.toList.dropPrefix? "Bearer ".toList
  let token := trimText rest
  if token = [] then none else some (String.ofList token)

def hashToken (sha256 : Bytes → String) (plaintext : String) : String :=
  sha256 (asBytes plaintext)

/-- `tokens` answers the lookup by hash, and `now` is the clock at the check. -/
def requireToken (sha256 : Bytes → String) (tokens : String → ApiResult (Option Token))
    (now : DateTimeUtc) (authorization : Option String) : ApiResult Token := do
  let plaintext ← okOrElse (bearerToken authorization) .unauthorized
  let row ← okOrElse (← tokens (hashToken sha256 plaintext)) .unauthorized
  ensure (row.revokedAt = none) .unauthorized
  ensure (¬∃ expires ∈ row.expiresAt, expires.ordinal ≤ now.ordinal) .unauthorized
  pure row

/-! ## Roles -/

inductive Role where
  | owner
  | publisher
  | reader
  deriving DecidableEq

namespace Role

def parse (text : String) : Role :=
  if text = "owner" then .owner
  else if text = "publisher" then .publisher
  else .reader

def asStr : Role → String
  | .owner => "owner"
  | .publisher => "publisher"
  | .reader => "reader"

def canPublish : Role → Bool
  | .owner | .publisher => true
  | .reader => false

def canManage : Role → Bool
  | .owner => true
  | .publisher | .reader => false

end Role

/-- The scope rule that publishing and management share. -/
def authorizeScope (allowed : Role → Bool) (refusal : String) (tokenOrg : Option Uuid)
    (role : Role) (targetOrg : Uuid) : ApiResult Unit :=
  match tokenOrg with
  | none => .ok ()
  | some scope =>
    if scope ≠ targetOrg then .error .unauthorized
    else if allowed role then .ok ()
    else .error (.forbidden "insufficient_role"
      ("this token's role (`" ++ role.asStr ++ "`) cannot " ++ refusal))

def authorizePublish : Option Uuid → Role → Uuid → ApiResult Unit :=
  authorizeScope Role.canPublish "publish; a `publisher` or `owner` token is required"

def authorizeManage : Option Uuid → Role → Uuid → ApiResult Unit :=
  authorizeScope Role.canManage "manage the org; an `owner` token is required"

/-- A scoped token acts in its own org only, and only with a role that may. -/
theorem authorizeScope_ok_iff (allowed : Role → Bool) (refusal : String)
    (tokenOrg : Option Uuid) (role : Role) (targetOrg : Uuid) :
    authorizeScope allowed refusal tokenOrg role targetOrg = .ok () ↔
      tokenOrg = none ∨ tokenOrg = some targetOrg ∧ allowed role = true := by
  cases tokenOrg with
  | none => simp [authorizeScope]
  | some scope =>
      by_cases own : scope = targetOrg
      · cases may : allowed role with
        | true => simp [authorizeScope, own, may]
        | false => simp [authorizeScope, own, may]
      · simp [authorizeScope, own]

/-- Whoever may manage an org may publish in it. -/
theorem authorizePublish_of_authorizeManage {tokenOrg : Option Uuid} {role : Role}
    {targetOrg : Uuid} (managed : authorizeManage tokenOrg role targetOrg = .ok ()) :
    authorizePublish tokenOrg role targetOrg = .ok () := by
  rw [authorizeManage, authorizeScope_ok_iff] at managed
  rw [authorizePublish, authorizeScope_ok_iff]
  rcases managed with admin | ⟨own, may⟩
  · exact Or.inl admin
  · cases role with
    | owner => exact Or.inr ⟨own, rfl⟩
    | publisher => simp [Role.canManage] at may
    | reader => simp [Role.canManage] at may

end ZedRegistry
