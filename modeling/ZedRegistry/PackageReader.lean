import ZedRegistry.Access

/-!
# Delegated readers

`require_package_reader`: the delegated user token that reads of private package
resources require, checked through Shared Auth introspection.
-/

set_option autoImplicit false

namespace ZedRegistry

/-- A value under `rest`; only strings and null are told apart. -/
inductive RestValue where
  | null
  | string (value : String)
  | other
  deriving DecidableEq

structure Introspection where
  active : Bool
  sub : Option String
  iss : Option String
  email : Option String
  rest : List (String × RestValue)
  deriving DecidableEq

/-- `shared_auth::ClientError`. -/
inductive ClientError where
  | unauthorized
  | missingServiceCredential
  | invalidBaseUrl
  | invalidInput (field : String)
  | requestTooLarge (limit : Nat)
  | responseTooLarge (limit : Nat)
  | decode
  | transport
  | status (code : Nat)
  deriving DecidableEq

def mapSharedAuthError : ClientError → ApiErr
  | .unauthorized | .status 401 | .invalidInput _ => .unauthorized
  | _ => .serviceUnavailable "auth_unavailable" "shared authentication is temporarily unavailable"

structure SessionIdentity where
  subject : Uuid
  realm : String
  email : Option String
  displayName : Option String
  avatarUrl : Option String
  deriving DecidableEq

structure PackageReaderIdentity where
  session : SessionIdentity
  sessionId : String
  parentJti : String
  deriving DecidableEq

/-- `introspect` is the Shared Auth client pinned to the registry's audience;
`parseUuid` is the UUID crate's. -/
structure SharedAuth where
  introspect : String → Except ClientError Introspection
  parseUuid : String → Option Uuid

/-! ## Claims of a token -/

def requiredPackageReadScope : String := "zpkg:packages:read"

def zpkgCliAuthorizedParty : String := "zpkg-cli"

def customerAuthRealm : String := "customer"

/-- A claim in use is trimmed, not empty and at most 1024 bytes long. -/
def trimmedClaim (value : String) : ApiResult String :=
  let trimmed := String.ofList (trimText value.toList)
  if trimmed = "" ∨ 1024 < trimmed.utf8ByteSize then .error .unauthorized else .ok trimmed

def requiredClaim (value : Option String) : ApiResult String := do
  trimmedClaim (← okOrElse value .unauthorized)

def optionalRestString (introspection : Introspection) (key : String) :
    ApiResult (Option String) :=
  match introspection.rest.lookup key with
  | none | some .null => .ok none
  | some (.string value) => (trimmedClaim value).map some
  | some .other => .error .unauthorized

def delegatedRequired : ApiErr :=
  .forbidden "delegated_user_token_required"
    "private package reads require a session-backed delegated user token"

def insufficientReadScope : ApiErr :=
  .forbidden "insufficient_scope"
    "the delegated token is missing the private-package read scope"

/-- `split_ascii_whitespace`, without the empty pieces. -/
def asciiWords (text : String) : List (List Char) :=
  (text.toList.splitOnP fun char =>
    char = ' ' || char = '\t' || char = '\n' || char = '\x0c' || char = '\r').filter (· ≠ [])

def packageReaderFromIntrospection (parseUuid : String → Option Uuid)
    (introspection : Introspection) : ApiResult PackageReaderIdentity := do
  ensure (introspection.active = true) .unauthorized
  let subject ← okOrElse (parseUuid (← requiredClaim introspection.sub)) .unauthorized
  let _ ← requiredClaim introspection.iss
  let sessionId ← okOrElse (← optionalRestString introspection "sid") delegatedRequired
  let authorizedParty ← okOrElse (← optionalRestString introspection "azp") delegatedRequired
  let parentJti ← okOrElse (← optionalRestString introspection "parent_jti") delegatedRequired
  ensure (authorizedParty = zpkgCliAuthorizedParty) (.forbidden "wrong_authorized_party"
    "the delegated token was not issued to the zed-pkg CLI")
  let scope ← okOrElse (← optionalRestString introspection "scope") insufficientReadScope
  ensure (requiredPackageReadScope.toList ∈ asciiWords scope) insufficientReadScope
  let authRealm ← optionalRestString introspection "auth_realm"
  let otherRealm ← optionalRestString introspection "realm"
  let realm := (authRealm <|> otherRealm).getD customerAuthRealm
  ensure (realm = customerAuthRealm) (.forbidden "wrong_auth_realm"
    "the zed-pkg CLI accepts customer identities only")
  let displayName ← optionalRestString introspection "display_name"
  let avatarUrl ← optionalRestString introspection "avatar_url"
  pure ⟨⟨subject, realm, introspection.email, displayName, avatarUrl⟩, sessionId, parentJti⟩

def requirePackageReader (sharedAuth : Option SharedAuth) (authorization : Option String) :
    ApiResult PackageReaderIdentity := do
  let token ← okOrElse (bearerToken authorization) .unauthorized
  let client ← okOrElse sharedAuth
    (.serviceUnavailable "auth_unavailable" "shared authentication is not configured")
  let introspection ← (client.introspect token).mapError mapSharedAuthError
  packageReaderFromIntrospection client.parseUuid introspection

/-! ## Browser accounts -/

structure AccountIdentity where
  session : SessionIdentity
  sessionId : String
  parentJti : String
  deriving DecidableEq

/-- What `account_from_introspection` and `package_reader_from_introspection` ask of a
token in the same order, each of its own client. -/
structure DelegatedClient where
  authorizedParty : String
  requiredScope : String
  delegatedRequired : ApiErr
  wrongParty : ApiErr
  insufficientScope : ApiErr
  wrongRealm : ApiErr

def delegatedFromIntrospection (client : DelegatedClient) (parseUuid : String → Option Uuid)
    (introspection : Introspection) : ApiResult (SessionIdentity × String × String) := do
  ensure (introspection.active = true) .unauthorized
  let subject ← okOrElse (parseUuid (← requiredClaim introspection.sub)) .unauthorized
  let _ ← requiredClaim introspection.iss
  let sessionId ← okOrElse (← optionalRestString introspection "sid") client.delegatedRequired
  let authorizedParty ← okOrElse (← optionalRestString introspection "azp")
    client.delegatedRequired
  let parentJti ← okOrElse (← optionalRestString introspection "parent_jti")
    client.delegatedRequired
  ensure (authorizedParty = client.authorizedParty) client.wrongParty
  let scope ← okOrElse (← optionalRestString introspection "scope") client.insufficientScope
  ensure (client.requiredScope.toList ∈ asciiWords scope) client.insufficientScope
  let authRealm ← optionalRestString introspection "auth_realm"
  let otherRealm ← optionalRestString introspection "realm"
  let realm := (authRealm <|> otherRealm).getD customerAuthRealm
  ensure (realm = customerAuthRealm) client.wrongRealm
  let displayName ← optionalRestString introspection "display_name"
  let avatarUrl ← optionalRestString introspection "avatar_url"
  pure (⟨subject, realm, introspection.email, displayName, avatarUrl⟩, sessionId, parentJti)

def cliClient : DelegatedClient where
  authorizedParty := zpkgCliAuthorizedParty
  requiredScope := requiredPackageReadScope
  delegatedRequired := delegatedRequired
  wrongParty := .forbidden "wrong_authorized_party"
    "the delegated token was not issued to the zed-pkg CLI"
  insufficientScope := insufficientReadScope
  wrongRealm := .forbidden "wrong_auth_realm" "the zed-pkg CLI accepts customer identities only"

def webClient (expectedAuthorizedParty : String) : DelegatedClient where
  authorizedParty := expectedAuthorizedParty
  requiredScope := "zpkg:account"
  delegatedRequired := .forbidden "delegated_user_token_required"
    "this endpoint requires a session-backed delegated user token"
  wrongParty := .forbidden "wrong_authorized_party"
    "the delegated token was not issued to the zed-pkg web client"
  insufficientScope := .forbidden "insufficient_scope"
    "the delegated token is missing the zed-pkg account scope"
  wrongRealm := .forbidden "wrong_auth_realm"
    "the zed-pkg browser client accepts customer identities only"

def accountFromIntrospection (parseUuid : String → Option Uuid) (introspection : Introspection)
    (expectedAuthorizedParty : String) : ApiResult AccountIdentity := do
  let (session, sessionId, parentJti) ←
    delegatedFromIntrospection (webClient expectedAuthorizedParty) parseUuid introspection
  pure ⟨session, sessionId, parentJti⟩

def requireAccount (sharedAuth : Option SharedAuth) (applicationId : String)
    (authorization : Option String) : ApiResult AccountIdentity := do
  let token ← okOrElse (bearerToken authorization) .unauthorized
  let client ← okOrElse sharedAuth
    (.serviceUnavailable "auth_unavailable" "shared authentication is not configured")
  let introspection ← (client.introspect token).mapError mapSharedAuthError
  accountFromIntrospection client.parseUuid introspection applicationId

/-- The CLI's readers are the delegated users of its own client. -/
theorem packageReaderFromIntrospection_eq (parseUuid : String → Option Uuid)
    (introspection : Introspection) :
    packageReaderFromIntrospection parseUuid introspection =
      (delegatedFromIntrospection cliClient parseUuid introspection).map fun delegated =>
        ⟨delegated.1, delegated.2.1, delegated.2.2⟩ := by
  unfold packageReaderFromIntrospection delegatedFromIntrospection
  simp only [map_bind_next]
  rfl

/-- A request without a bearer credential is nobody's. -/
theorem requirePackageReader_anonymous (sharedAuth : Option SharedAuth) :
    requirePackageReader sharedAuth none = .error .unauthorized := rfl

/-- A reader comes from an active token and is a customer identity. -/
theorem packageReader_customer {parseUuid : String → Option Uuid} {introspection : Introspection}
    {reader : PackageReaderIdentity}
    (accepted : packageReaderFromIntrospection parseUuid introspection = .ok reader) :
    introspection.active = true ∧ reader.session.realm = customerAuthRealm := by
  unfold packageReaderFromIntrospection at accepted
  simp only [bind_ok, ensure_ok] at accepted
  obtain ⟨_, active, _, _, _, _, _, _, _, _, _, _, accepted⟩ := accepted
  obtain ⟨_, _, _, _, _, _, _, _, _, _, _, _, _, _, _, _, accepted⟩ := accepted
  obtain ⟨_, _, _, _, _, customer, _, _, _, _, built⟩ := accepted
  obtain rfl := Except.ok.inj built
  exact ⟨active, customer⟩

end ZedRegistry
