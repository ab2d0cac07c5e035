import ZedRegistry.Lib.JsonText
import ZedRegistry.PackageReader
import ZedRegistry.StorageEndpoints
import ZedRegistry.Utf8

/-!
# The Shared Auth client

`shared_auth.rs`: introspection of a token for one audience, which every delegated
identity comes from.  A request names its token and its audience unmistakably and is
never too large; an identity is only ever made of a successful answer to it, and an
outage of the service is told apart from a refusal.
-/

set_option autoImplicit false

namespace ZedRegistry.TokenIntrospection

open JsonText
open StorageReport (trim)

/-! ## The service at the other end -/

structure ParsedUrl where
  text : String
  scheme : String
  username : String
  password : Option String
  host : Option String
  query : Option String
  fragment : Option String
  deriving DecidableEq

structure HttpRequest where
  method : String
  url : String
  headers : List (String × String)
  body : Bytes
  deriving DecidableEq

/-- Reading the body may fail after the status came. -/
structure HttpResponse where
  status : Nat
  body : Except String Bytes

/-- The URL, HTTP and JSON crates, and what the service answers. -/
structure Transport where
  parseUrl : String → Option ParsedUrl
  join : ParsedUrl → String → Option String
  validHeader : String → Bool
  send : HttpRequest → Except String HttpResponse
  decodeIntrospection : Bytes → Option Introspection

/-! ## The client -/

def maxRequestBytes : Nat := 256 * 1024

def maxResponseBytes : Nat := 1024 * 1024

def maxCredentialBytes : Nat := 16 * 1024

def maxIdentifierBytes : Nat := 128

structure SharedAuthClient where
  base : Option ParsedUrl
  serviceCredential : Option String

def withSlash (raw : List Char) : List Char := if raw.getLast? = some '/' then raw else raw ++ ['/']

def normalizeBase (parseUrl : String → Option ParsedUrl) (raw : String) : Option ParsedUrl := do
  let trimmed := trim raw.toList
  if trimmed = [] then none
  else
    let url ← parseUrl (String.ofList (withSlash trimmed))
    if (url.scheme = "http" ∨ url.scheme = "https") ∧ url.username = "" ∧ url.password = none ∧
        url.host ≠ none ∧ url.query = none ∧ url.fragment = none then some url
    else none

def SharedAuthClient.new (parseUrl : String → Option ParsedUrl) (base : String)
    (serviceCredential : Option String) : SharedAuthClient where
  base := normalizeBase parseUrl base
  serviceCredential

/-- `char::is_control`. -/
def isControl (character : Char) : Bool :=
  character.toNat < 0x20 || (0x7f ≤ character.toNat && character.toNat < 0xa0)

def isCredential (value : String) : Bool :=
  value ≠ "" && (asBytes value).length ≤ maxCredentialBytes && trim value.toList = value.toList &&
    !value.toList.any isControl

def requiredCredential (value field : String) : Except ClientError String := do
  ensure (isCredential value = true) (.invalidInput field)
  pure value

def identifierChar (character : Char) : Bool :=
  character.isAlphanum || character = '-' || character = '_' || character = '.' || character = ':'

/-- The test of the bytes: a character outside ASCII has none that passes. -/
def isIdentifier (value : String) : Bool :=
  value ≠ "" && (asBytes value).length ≤ maxIdentifierBytes && trim value.toList = value.toList &&
    value.toList.all identifierChar

def requiredIdentifier (value field : String) : Except ClientError String := do
  ensure (isIdentifier value = true) (.invalidInput field)
  pure value

/-- `serde_json::to_vec` of an `IntrospectRequest`. -/
def introspectText (token audience : String) : List Char :=
  "\x7b\"token\":".toList ++ (quote token ++ (",\"audience\":".toList ++
    (quote audience ++ "\x7d".toList)))

def introspectBody (token audience : String) : Bytes :=
  asBytes (String.ofList (introspectText token audience))

section Introspection

variable (transport : Transport) (client : SharedAuthClient)

def requestUrl (relativePath : String) : Except ClientError String := do
  let base ← okOrElse client.base .invalidBaseUrl
  okOrElse (transport.join base relativePath) .invalidBaseUrl

def bearerValue (token : String) : Except ClientError String := do
  ensure (transport.validHeader ("Bearer " ++ token) = true) (.invalidInput "bearer credential")
  pure ("Bearer " ++ token)

/-- `introspect_for_audience` up to the request it sends. -/
def introspectRequest (token audience : String) : Except ClientError HttpRequest := do
  let token ← requiredCredential token "token"
  let audience ← requiredIdentifier audience "audience"
  let credential ← okOrElse client.serviceCredential .missingServiceCredential
  let credential ← requiredCredential credential "service credential"
  let body := introspectBody token audience
  ensure (body.length ≤ maxRequestBytes) (.requestTooLarge maxRequestBytes)
  let url ← requestUrl transport client "auth/introspect"
  let bearer ← bearerValue transport credential
  pure ⟨"POST", url, [("accept", "application/json"), ("authorization", bearer),
    ("content-type", "application/json")], body⟩

def sendJson {α : Type} (decode : Bytes → Option α) (request : HttpRequest) :
    Except ClientError α := do
  let response ← (transport.send request).mapError fun _ => .transport
  ensure (response.status ≠ 401) .unauthorized
  ensure (200 ≤ response.status ∧ response.status < 300) (.status response.status)
  let bytes ← response.body.mapError fun _ => .transport
  ensure (bytes.length ≤ maxResponseBytes) (.responseTooLarge maxResponseBytes)
  okOrElse (decode bytes) .decode

def introspectForAudience (token audience : String) : Except ClientError Introspection := do
  let request ← introspectRequest transport client token audience
  sendJson transport transport.decodeIntrospection request

/-- What the checks of delegated tokens are given, pinned to the audience. -/
def sharedAuth (audience : String) (parseUuid : String → Option Uuid) : SharedAuth where
  introspect token := introspectForAudience transport client token audience
  parseUuid

end Introspection

/-! ## The size of a request -/

/-- The bytes that a text takes. -/
def bytesOf (text : List Char) : Nat := (text.map Char.utf8Size).sum

theorem bytesOf_append (left right : List Char) :
    bytesOf (left ++ right) = bytesOf left + bytesOf right := by
  simp [bytesOf]

theorem bytesOf_cons (character : Char) (rest : List Char) :
    bytesOf (character :: rest) = character.utf8Size + bytesOf rest := by
  simp [bytesOf]

theorem digitChar_size {value : Nat} (small : value < 16) :
    (Nat.digitChar value).utf8Size = 1 := by
  have all : ∀ value : Fin 16, (Nat.digitChar value).utf8Size = 1 := by decide
  exact all ⟨value, small⟩

theorem bytesOf_escape (character : Char) :
    bytesOf (escape character) ≤ 6 * character.utf8Size := by
  have positive := Char.utf8Size_pos character
  have letters : ∀ pair ∈ shortEscapes, pair.2.utf8Size = 1 := by decide
  have slash : Char.utf8Size '\\' = 1 := by decide
  unfold escape
  cases short : shortEscapes.lookup character with
  | some letter =>
      obtain ⟨before, after, split, _⟩ := List.lookup_eq_some_iff.mp short
      have member : (character, letter) ∈ shortEscapes := by
        rw [split]
        simp
      have one := letters _ member
      simp only [bytesOf, List.map_cons, List.map_nil, List.sum_cons, List.sum_nil, slash, one]
      omega
  | none =>
      by_cases control : character.toNat < 0x20
      · have high := @digitChar_size (character.toNat / 16) (by omega)
        have low := @digitChar_size (character.toNat % 16) (by omega)
        have letter : Char.utf8Size 'u' = 1 := by decide
        have zero : Char.utf8Size '0' = 1 := by decide
        simp only [control, if_true, bytesOf, List.map_cons, List.map_nil, List.sum_cons,
          List.sum_nil, slash, letter, zero, high, low]
        omega
      · simp only [control, if_false, bytesOf, List.map_cons, List.map_nil, List.sum_cons,
          List.sum_nil]
        omega

theorem bytesOf_escapes (text : List Char) :
    bytesOf (text.flatMap escape) ≤ 6 * bytesOf text := by
  induction text with
  | nil => exact le_refl _
  | cons character rest ih =>
      have one := bytesOf_escape character
      rw [List.flatMap_cons, bytesOf_append, bytesOf_cons]
      omega

theorem bytesOf_quote (text : String) :
    bytesOf (quote text) ≤ 6 * (asBytes text).length + 2 := by
  have inner := bytesOf_escapes text.toList
  have mark : Char.utf8Size '"' = 1 := by decide
  have alone : bytesOf ['"'] = 1 := by decide
  rw [quote, bytesOf_cons, bytesOf_append, alone, mark, asBytes_length]
  unfold bytesOf at inner ⊢
  omega

/-- The bounds of the credential and the audience leave no request too large. -/
theorem introspectBody_small {token audience : String} (credential : isCredential token = true)
    (identifier : isIdentifier audience = true) :
    (introspectBody token audience).length ≤ maxRequestBytes := by
  simp only [isCredential, isIdentifier, Bool.and_eq_true, decide_eq_true_eq] at *
  have tokenBytes := bytesOf_quote token
  have audienceBytes := bytesOf_quote audience
  have opening : bytesOf "\x7b\"token\":".toList = 9 := by decide
  have between : bytesOf ",\"audience\":".toList = 12 := by decide
  have closing : bytesOf "\x7d".toList = 1 := by decide
  have total : (introspectBody token audience).length =
      9 + (bytesOf (quote token) + (12 + (bytesOf (quote audience) + 1))) := by
    unfold introspectBody
    rw [asBytes_length, String.toList_ofList]
    change bytesOf (introspectText token audience) = _
    unfold introspectText
    rw [bytesOf_append, bytesOf_append, bytesOf_append, bytesOf_append, opening, between, closing]
  unfold maxCredentialBytes maxIdentifierBytes maxRequestBytes at *
  omega

/-! ## What a request names -/

/-- String literals of JSON. -/
def jsonLiteral : QuotedStyle where
  short letter := (shortEscapes.find? fun pair => pair.2 = letter).map Prod.fst
  long letter := if letter = 'u' then some 4 else none
  raw character := !escaped character

theorem jsonLiteral_readsJson : ReadsJson jsonLiteral where
  short := by decide
  notShort := by decide
  long := by decide

theorem jsonLiteral_allows (text : List Char) : text.all jsonLiteral.allows = true := by
  rw [List.all_eq_true]
  intro character _
  simp [QuotedStyle.allows, jsonLiteral]

/-- A string literal ends where it says. -/
theorem quote_append_injective {left right : String} {rest rest' : List Char}
    (same : quote left ++ rest = quote right ++ rest') : left = right ∧ rest = rest' := by
  have readLeft := readQuoted_quote jsonLiteral_readsJson left rest
  have readRight := readQuoted_quote jsonLiteral_readsJson right rest'
  rw [jsonLiteral_allows, if_pos rfl] at readLeft readRight
  rw [same, readRight] at readLeft
  obtain ⟨atoms, rests⟩ := Prod.mk.inj (Option.some.inj readLeft)
  have texts := congrArg (List.map Atom.character) atoms
  rw [map_atom_character, map_atom_character] at texts
  exact ⟨String.toList_injective texts.symm, rests.symm⟩

theorem introspectBody_injective {token token' audience audience' : String}
    (same : introspectBody token audience = introspectBody token' audience') :
    token = token' ∧ audience = audience' := by
  have texts := String.ofList_injective (asBytes_injective same)
  unfold introspectText at texts
  obtain ⟨sameToken, rest⟩ := quote_append_injective (List.append_cancel_left texts)
  exact ⟨sameToken, (quote_append_injective (List.append_cancel_left rest)).1⟩

/-! ## What an answer must be -/

section Answers

variable {transport : Transport} {client : SharedAuthClient}

/-- The service answered the request with a body that reads as an introspection. -/
def Answered (transport : Transport) (request : HttpRequest) (introspection : Introspection) :
    Prop :=
  ∃ response bytes, transport.send request = .ok response ∧
    (200 ≤ response.status ∧ response.status < 300) ∧ response.body = .ok bytes ∧
    bytes.length ≤ maxResponseBytes ∧ transport.decodeIntrospection bytes = some introspection

theorem sendJson_ok {request : HttpRequest} {introspection : Introspection} :
    sendJson transport transport.decodeIntrospection request = .ok introspection ↔
      Answered transport request introspection := by
  simp only [sendJson, Answered, bind_ok, mapError_ok, ensure_ok, okOrElse_ok]
  constructor
  · rintro ⟨response, sent, _, authorized, _, success, bytes, read, _, fits, decoded⟩
    exact ⟨response, bytes, sent, success, read, fits, decoded⟩
  · rintro ⟨response, bytes, sent, success, read, fits, decoded⟩
    have authorized : response.status ≠ 401 := by omega
    exact ⟨response, sent, (), authorized, (), success, bytes, read, (), fits, decoded⟩

/-- What a client needs to ask anything for an audience. -/
structure Configured (transport : Transport) (client : SharedAuthClient) (audience : String)
    (url bearer : String) : Prop where
  url : requestUrl transport client "auth/introspect" = .ok url
  audience : isIdentifier audience = true
  credential : ∃ credential, client.serviceCredential = some credential ∧
    isCredential credential = true ∧ bearerValue transport credential = .ok bearer

def requestOf (url bearer token audience : String) : HttpRequest :=
  ⟨"POST", url, [("accept", "application/json"), ("authorization", bearer),
    ("content-type", "application/json")], introspectBody token audience⟩

theorem introspectRequest_ok {token audience : String} {request : HttpRequest} :
    introspectRequest transport client token audience = .ok request ↔
      isCredential token = true ∧ ∃ url bearer, Configured transport client audience url bearer ∧
        request = requestOf url bearer token audience := by
  simp only [introspectRequest, requiredCredential, requiredIdentifier, bind_ok, ensure_ok,
    okOrElse_ok, pure, Except.pure, Except.ok.injEq]
  constructor
  · rintro ⟨_, ⟨_, wellFormed, rfl⟩, _, ⟨_, identifier, rfl⟩, credential, held, _,
      ⟨_, valid, rfl⟩, _, small, url, located, bearer, built, rfl⟩
    exact ⟨wellFormed, url, bearer, ⟨located, identifier, credential, held, valid, built⟩, rfl⟩
  · rintro ⟨wellFormed, url, bearer, ⟨located, identifier, credential, held, valid, built⟩, rfl⟩
    exact ⟨_, ⟨(), wellFormed, rfl⟩, _, ⟨(), identifier, rfl⟩, credential, held, _,
      ⟨(), valid, rfl⟩, (), introspectBody_small wellFormed identifier, url, located, bearer,
      built, rfl⟩

/-- An introspection comes from one request, whose body names the token and the audience. -/
theorem introspectForAudience_ok {token audience : String} {introspection : Introspection} :
    introspectForAudience transport client token audience = .ok introspection ↔
      isCredential token = true ∧ ∃ url bearer, Configured transport client audience url bearer ∧
        Answered transport (requestOf url bearer token audience) introspection := by
  simp only [introspectForAudience, bind_ok, introspectRequest_ok, sendJson_ok]
  constructor
  · rintro ⟨_, ⟨wellFormed, url, bearer, configured, rfl⟩, answered⟩
    exact ⟨wellFormed, url, bearer, configured, answered⟩
  · rintro ⟨wellFormed, url, bearer, configured, answered⟩
    exact ⟨_, ⟨wellFormed, url, bearer, configured, rfl⟩, answered⟩

end Answers

/-! ## Delegated identities -/

section Identities

variable {transport : Transport} {client : SharedAuthClient} {audience : String}
  {parseUuid : String → Option Uuid} {applicationId : String} {authorization : Option String}

/-- An identity that a client of the service may be given: the claims of an active token of
that client, with its scope and of the customer realm. -/
structure Delegated (asked : DelegatedClient) (introspection : Introspection)
    (session : SessionIdentity) (sessionId parentJti : String) : Prop where
  active : introspection.active = true
  party : optionalRestString introspection "azp" = .ok (some asked.authorizedParty)
  scope : ∃ scope, optionalRestString introspection "scope" = .ok (some scope) ∧
    asked.requiredScope.toList ∈ asciiWords scope
  realm : session.realm = customerAuthRealm
  session : optionalRestString introspection "sid" = .ok (some sessionId)
  parent : optionalRestString introspection "parent_jti" = .ok (some parentJti)

theorem delegated_of_ok {asked : DelegatedClient} {introspection : Introspection}
    {session : SessionIdentity} {sessionId parentJti : String}
    (accepted : delegatedFromIntrospection asked parseUuid introspection =
      .ok (session, sessionId, parentJti)) :
    Delegated asked introspection session sessionId parentJti := by
  simp only [delegatedFromIntrospection, bind_ok, ensure_ok, okOrElse_ok, pure, Except.pure,
    Except.ok.injEq, Prod.mk.injEq] at accepted
  obtain ⟨_, active, _, -, subject, -, _, -, _, sid, _, rfl, _, azp, party, rfl, _, jti, _, rfl, _,
    isParty, _, scopeRead, scope, rfl, _, within, _, -, _, -, _, isCustomer, _, -, _, -, rfl, rfl,
    rfl⟩ := accepted
  exact ⟨active, isParty ▸ azp, ⟨scope, scopeRead, within⟩, isCustomer, sid, jti⟩

/-- The service vouched, asked about the caller's own token for the audience. -/
def Vouched (transport : Transport) (client : SharedAuthClient) (audience : String)
    (authorization : Option String) (asked : DelegatedClient) (session : SessionIdentity)
    (sessionId parentJti : String) : Prop :=
  ∃ token url bearer introspection, bearerToken authorization = some token ∧
    Configured transport client audience url bearer ∧
    Answered transport (requestOf url bearer token audience) introspection ∧
    Delegated asked introspection session sessionId parentJti

theorem map_ok {α β ε : Type} {action : Except ε α} {convert : α → β} {result : β} :
    action.map convert = .ok result ↔ ∃ value, action = .ok value ∧ convert value = result := by
  cases action with
  | error error => simp [Except.map]
  | ok value => simp [Except.map]

theorem requireAccount_vouched {identity : AccountIdentity}
    (accepted : requireAccount (some (sharedAuth transport client audience parseUuid))
      applicationId authorization = .ok identity) :
    Vouched transport client audience authorization (webClient applicationId) identity.session
      identity.sessionId identity.parentJti := by
  simp only [requireAccount, accountFromIntrospection, bind_ok, okOrElse_ok, mapError_ok, pure,
    Except.pure, Except.ok.injEq, Option.some.injEq] at accepted
  obtain ⟨token, bearing, _, rfl, introspection, asked, ⟨session, sessionId, parentJti⟩, claims,
    rfl⟩ := accepted
  obtain ⟨-, url, bearer, configured, answered⟩ := introspectForAudience_ok.mp asked
  exact ⟨token, url, bearer, introspection, bearing, configured, answered, delegated_of_ok claims⟩

theorem requirePackageReader_vouched {reader : PackageReaderIdentity}
    (accepted : requirePackageReader (some (sharedAuth transport client audience parseUuid))
      authorization = .ok reader) :
    Vouched transport client audience authorization cliClient reader.session reader.sessionId
      reader.parentJti := by
  simp only [requirePackageReader, packageReaderFromIntrospection_eq, bind_ok, okOrElse_ok,
    mapError_ok, Option.some.injEq] at accepted
  obtain ⟨token, bearing, _, rfl, introspection, asked, built⟩ := accepted
  obtain ⟨⟨session, sessionId, parentJti⟩, claims, rfl⟩ := map_ok.mp built
  obtain ⟨-, url, bearer, configured, answered⟩ := introspectForAudience_ok.mp asked
  exact ⟨token, url, bearer, introspection, bearing, configured, answered, delegated_of_ok claims⟩

/-- One answer of the service makes no account of the web client and a reader of the CLI both,
unless the web client goes by the CLI's name. -/
theorem parties_exclude {auth : SharedAuth} {identity : AccountIdentity}
    {reader : PackageReaderIdentity}
    (account : requireAccount (some auth) applicationId authorization = .ok identity)
    (read : requirePackageReader (some auth) authorization = .ok reader) :
    applicationId = zpkgCliAuthorizedParty := by
  simp only [requireAccount, accountFromIntrospection, bind_ok, okOrElse_ok, mapError_ok,
    Option.some.injEq] at account
  simp only [requirePackageReader, packageReaderFromIntrospection_eq, bind_ok, okOrElse_ok,
    mapError_ok, Option.some.injEq] at read
  obtain ⟨token, bearing, _, rfl, introspection, asked, ⟨session, sessionId, parentJti⟩, claims,
    -⟩ := account
  obtain ⟨_, bearing', _, rfl, _, asked', built⟩ := read
  obtain ⟨⟨session', sessionId', parentJti'⟩, claims', -⟩ := map_ok.mp built
  rw [bearing] at bearing'
  obtain rfl := Option.some.inj bearing'
  rw [asked] at asked'
  obtain rfl := Except.ok.inj asked'
  have party := (delegated_of_ok claims).party
  rw [(delegated_of_ok claims').party] at party
  exact (Option.some.inj (Except.ok.inj party)).symm

end Identities

/-! ## Refusals and outages -/

section Outages

/-- Unauthorized or forbidden. -/
def Denied (error : ApiErr) : Prop := error.status = 401 ∨ error.status = 403

theorem failsOnly_trimmedClaim (value : String) : FailsOnly Denied (trimmedClaim value) := by
  intro error failed
  unfold trimmedClaim at failed
  simp only at failed
  split at failed
  · cases failed
    exact .inl rfl
  · cases failed

theorem failsOnly_requiredClaim (value : Option String) : FailsOnly Denied (requiredClaim value) :=
  (failsOnly_okOrElse value (.inl rfl)).bind failsOnly_trimmedClaim

theorem failsOnly_optionalRestString (introspection : Introspection) (key : String) :
    FailsOnly Denied (optionalRestString introspection key) := by
  unfold optionalRestString
  cases introspection.rest.lookup key with
  | none => exact failsOnly_ok none
  | some value =>
      cases value with
      | null => exact failsOnly_ok none
      | string text => exact (failsOnly_trimmedClaim text).map some
      | other => exact failsOnly_error (.inl rfl)

/-- The refusals of a client of the service are of status 403. -/
structure Forbids (asked : DelegatedClient) : Prop where
  delegated : asked.delegatedRequired.status = 403
  party : asked.wrongParty.status = 403
  scope : asked.insufficientScope.status = 403
  realm : asked.wrongRealm.status = 403

theorem cliClient_forbids : Forbids cliClient := ⟨rfl, rfl, rfl, rfl⟩

theorem webClient_forbids (applicationId : String) : Forbids (webClient applicationId) :=
  ⟨rfl, rfl, rfl, rfl⟩

theorem failsOnly_delegated {asked : DelegatedClient} (forbids : Forbids asked)
    (parseUuid : String → Option Uuid) (introspection : Introspection) :
    FailsOnly Denied (delegatedFromIntrospection asked parseUuid introspection) := by
  have rest := failsOnly_optionalRestString introspection
  unfold delegatedFromIntrospection
  refine (failsOnly_ensure _ (.inl rfl)).bind fun _ => ?_
  refine (failsOnly_requiredClaim _).bind fun _ => ?_
  refine (failsOnly_okOrElse _ (.inl rfl)).bind fun _ => ?_
  refine (failsOnly_requiredClaim _).bind fun _ => ?_
  refine (rest "sid").bind fun _ => ?_
  refine (failsOnly_okOrElse _ (.inr forbids.delegated)).bind fun _ => ?_
  refine (rest "azp").bind fun _ => ?_
  refine (failsOnly_okOrElse _ (.inr forbids.delegated)).bind fun _ => ?_
  refine (rest "parent_jti").bind fun _ => ?_
  refine (failsOnly_okOrElse _ (.inr forbids.delegated)).bind fun _ => ?_
  refine (failsOnly_ensure _ (.inr forbids.party)).bind fun _ => ?_
  refine (rest "scope").bind fun _ => ?_
  refine (failsOnly_okOrElse _ (.inr forbids.scope)).bind fun _ => ?_
  refine (failsOnly_ensure _ (.inr forbids.scope)).bind fun _ => ?_
  refine (rest "auth_realm").bind fun _ => ?_
  refine (rest "realm").bind fun _ => ?_
  refine (failsOnly_ensure _ (.inr forbids.realm)).bind fun _ => ?_
  refine (rest "display_name").bind fun _ => ?_
  exact (rest "avatar_url").bind fun _ => failsOnly_ok _

variable {transport : Transport} {client : SharedAuthClient}

/-- The service gave no answer to the request that could be used, other than a refusal. -/
inductive Outage (transport : Transport) (request : HttpRequest) : Prop where
  | unreachable (error : String) (failed : transport.send request = .error error)
  | unsuccessful (response : HttpResponse) (sent : transport.send request = .ok response)
      (refusal : response.status ≠ 401) (failed : ¬(200 ≤ response.status ∧ response.status < 300))
  | interrupted (response : HttpResponse) (error : String)
      (sent : transport.send request = .ok response)
      (success : 200 ≤ response.status ∧ response.status < 300)
      (failed : response.body = .error error)
  | tooLarge (response : HttpResponse) (bytes : Bytes)
      (sent : transport.send request = .ok response)
      (success : 200 ≤ response.status ∧ response.status < 300)
      (read : response.body = .ok bytes) (failed : maxResponseBytes < bytes.length)
  | unreadable (response : HttpResponse) (bytes : Bytes)
      (sent : transport.send request = .ok response)
      (success : 200 ≤ response.status ∧ response.status < 300)
      (read : response.body = .ok bytes) (fits : bytes.length ≤ maxResponseBytes)
      (failed : transport.decodeIntrospection bytes = none)

def authUnavailable : ApiErr :=
  .serviceUnavailable "auth_unavailable" "shared authentication is temporarily unavailable"

/-- An outage is always an error of the service, whichever it is. -/
theorem sendJson_outage {request : HttpRequest} (outage : Outage transport request) :
    ∃ error, sendJson transport transport.decodeIntrospection request = .error error ∧
      mapSharedAuthError error = authUnavailable := by
  cases outage with
  | unreachable error failed =>
      exact ⟨.transport, by simp [sendJson, failed, Except.mapError, bind, Except.bind], rfl⟩
  | unsuccessful response sent refusal failed =>
      refine ⟨.status response.status, ?_, ?_⟩
      · simp [sendJson, sent, Except.mapError, bind, Except.bind, ensure, refusal, failed]
      · unfold mapSharedAuthError
        split
        · contradiction
        · rename_i same
          exact absurd (ClientError.status.inj same) refusal
        · contradiction
        · rfl
  | interrupted response error sent success failed =>
      have authorized : response.status ≠ 401 := by omega
      refine ⟨.transport, ?_, rfl⟩
      simp [sendJson, sent, Except.mapError, bind, Except.bind, ensure, authorized, success, failed]
  | tooLarge response bytes sent success read failed =>
      have authorized : response.status ≠ 401 := by omega
      have long : ¬ bytes.length ≤ maxResponseBytes := by omega
      refine ⟨.responseTooLarge maxResponseBytes, ?_, rfl⟩
      simp [sendJson, sent, Except.mapError, bind, Except.bind, ensure, authorized, success, read,
        long]
  | unreadable response bytes sent success read fits failed =>
      have authorized : response.status ≠ 401 := by omega
      refine ⟨.decode, ?_, rfl⟩
      simp [sendJson, sent, Except.mapError, bind, Except.bind, ensure, authorized, success, read,
        fits, failed, okOrElse]

/-- The service refuses the credential it is asked with or about. -/
def Refused (transport : Transport) (request : HttpRequest) : Prop :=
  ∃ response, transport.send request = .ok response ∧ response.status = 401

theorem sendJson_refused {request : HttpRequest} (refused : Refused transport request) :
    sendJson transport transport.decodeIntrospection request = .error .unauthorized := by
  obtain ⟨response, sent, status⟩ := refused
  simp [sendJson, sent, Except.mapError, bind, Except.bind, ensure, status]

theorem request_settled (request : HttpRequest) :
    (∃ introspection, Answered transport request introspection) ∨ Refused transport request ∨
      Outage transport request := by
  cases sent : transport.send request with
  | error error => exact .inr (.inr (.unreachable error sent))
  | ok response =>
      by_cases refusal : response.status = 401
      · exact .inr (.inl ⟨response, sent, refusal⟩)
      · by_cases success : 200 ≤ response.status ∧ response.status < 300
        · cases read : response.body with
          | error error => exact .inr (.inr (.interrupted response error sent success read))
          | ok bytes =>
              by_cases fits : bytes.length ≤ maxResponseBytes
              · cases decoded : transport.decodeIntrospection bytes with
                | none =>
                    exact .inr (.inr (.unreadable response bytes sent success read fits decoded))
                | some introspection =>
                    exact .inl ⟨introspection, response, bytes, sent, success, read, fits, decoded⟩
              · exact .inr (.inr (.tooLarge response bytes sent success read (by omega)))
        · exact .inr (.inr (.unsuccessful response sent refusal success))

variable {audience token url bearer : String}

theorem introspectForAudience_asked (configured : Configured transport client audience url bearer)
    (wellFormed : isCredential token = true) :
    introspectForAudience transport client token audience =
      sendJson transport transport.decodeIntrospection (requestOf url bearer token audience) := by
  have built := introspectRequest_ok.mpr ⟨wellFormed, url, bearer, configured, rfl⟩
  rw [introspectForAudience, built]
  rfl

theorem outage_iff {α : Type} {check : Introspection → ApiResult α}
    (refuses : ∀ introspection, FailsOnly Denied (check introspection))
    (configured : Configured transport client audience url bearer)
    (wellFormed : isCredential token = true) :
    (∃ error, ((introspectForAudience transport client token audience).mapError
        mapSharedAuthError >>= check) = .error error ∧ error.status = 503) ↔
      Outage transport (requestOf url bearer token audience) := by
  rw [introspectForAudience_asked configured wellFormed]
  constructor
  · rintro ⟨error, failed, status⟩
    rcases request_settled (requestOf url bearer token audience) with
      ⟨introspection, answered⟩ | refused | outage
    · rw [sendJson_ok.mpr answered] at failed
      have refusal : error.status = 401 ∨ error.status = 403 := refuses introspection error failed
      omega
    · rw [sendJson_refused refused] at failed
      cases failed
      contradiction
    · exact outage
  · intro outage
    obtain ⟨error, failed, unavailable⟩ := sendJson_outage outage
    refine ⟨authUnavailable, ?_, rfl⟩
    rw [failed, ← unavailable]
    rfl

theorem requireAccount_asked {auth : SharedAuth} {applicationId : String}
    {authorization : Option String} (bearing : bearerToken authorization = some token) :
    requireAccount (some auth) applicationId authorization =
      ((auth.introspect token).mapError mapSharedAuthError >>= fun introspection =>
        accountFromIntrospection auth.parseUuid introspection applicationId) := by
  unfold requireAccount
  rw [bearing]
  rfl

theorem requirePackageReader_asked {auth : SharedAuth} {authorization : Option String}
    (bearing : bearerToken authorization = some token) :
    requirePackageReader (some auth) authorization =
      ((auth.introspect token).mapError mapSharedAuthError >>= fun introspection =>
        packageReaderFromIntrospection auth.parseUuid introspection) := by
  unfold requirePackageReader
  rw [bearing]
  rfl

theorem failsOnly_account (parseUuid : String → Option Uuid) (applicationId : String)
    (introspection : Introspection) :
    FailsOnly Denied (accountFromIntrospection parseUuid introspection applicationId) :=
  (failsOnly_delegated (webClient_forbids applicationId) parseUuid introspection).bind
    fun _ => failsOnly_ok _

theorem failsOnly_packageReader (parseUuid : String → Option Uuid)
    (introspection : Introspection) :
    FailsOnly Denied (packageReaderFromIntrospection parseUuid introspection) := by
  rw [packageReaderFromIntrospection_eq]
  intro error failed
  cases claims : delegatedFromIntrospection cliClient parseUuid introspection with
  | error other =>
      rw [claims] at failed
      cases failed
      exact failsOnly_delegated cliClient_forbids parseUuid introspection _ claims
  | ok delegated =>
      rw [claims] at failed
      cases failed

end Outages

/-! ## A service that answers the same to everything -/

def sampleUrl (text : String) : Option ParsedUrl :=
  some ⟨text, "https", "", none, some "auth.zpkg.net", none, none⟩

def sampleService (answer : Except String HttpResponse) : Transport where
  parseUrl := sampleUrl
  join base path := some (base.text ++ path)
  validHeader _ := true
  send _ := answer
  decodeIntrospection _ := some ⟨true, some "1d1a", some "https://auth.zpkg.net", none,
    [("sid", .string "s-1"), ("azp", .string "zpkg-web"), ("parent_jti", .string "p-1"),
      ("scope", .string "zpkg:account")]⟩

def sampleClient : SharedAuthClient :=
  .new sampleUrl "https://auth.zpkg.net" (some "service-secret")

theorem sampleClient_base : sampleClient.base =
    some ⟨"https://auth.zpkg.net/", "https", "", none, some "auth.zpkg.net", none, none⟩ := by
  decide +kernel

theorem sampleClient_configured (answer : Except String HttpResponse) :
    Configured (sampleService answer) sampleClient "zed-pkg"
      "https://auth.zpkg.net/auth/introspect" "Bearer service-secret" where
  url := by
    have joined : "https://auth.zpkg.net/" ++ "auth/introspect" =
        "https://auth.zpkg.net/auth/introspect" := by decide +kernel
    rw [requestUrl, sampleClient_base, ← joined]
    rfl
  audience := by decide +kernel
  credential := ⟨"service-secret", rfl, by decide +kernel, by
    have joined : "Bearer " ++ "service-secret" = "Bearer service-secret" := by decide +kernel
    rw [bearerValue, joined]
    rfl⟩

theorem delegated_bearer : bearerToken (some "Bearer delegated") = some "delegated" := by
  decide +kernel

theorem delegated_credential : isCredential "delegated" = true := by decide +kernel

/-! ## Identities and their source -/

section Results

variable {transport : Transport} {client : SharedAuthClient} {audience : String}
  {parseUuid : String → Option Uuid} {applicationId : String} {authorization : Option String}

/-- Whatever the service does, an account and a package reader are only made of a successful
answer to the one request about the caller's own token for the configured audience, which no
request for another token or audience is mistaken for. -/
theorem identities_vouched :
    (∀ identity, requireAccount (some (sharedAuth transport client audience parseUuid))
        applicationId authorization = .ok identity →
      Vouched transport client audience authorization (webClient applicationId) identity.session
        identity.sessionId identity.parentJti) ∧
    (∀ reader, requirePackageReader (some (sharedAuth transport client audience parseUuid))
        authorization = .ok reader →
      Vouched transport client audience authorization cliClient reader.session reader.sessionId
        reader.parentJti) ∧
    ∀ url url' bearer bearer' token token' audience',
      requestOf url bearer token audience = requestOf url' bearer' token' audience' →
        token = token' ∧ audience = audience' := by
  refine ⟨fun identity => requireAccount_vouched, fun reader => requirePackageReader_vouched, ?_⟩
  intro url url' bearer bearer' token token' audience' same
  exact introspectBody_injective (congrArg HttpRequest.body same)

/-- An account and a package reader are never the same token's, whatever the service says of
it, while the web client does not go by the name of the CLI. -/
theorem delegated_identities_exclusive {auth : SharedAuth}
    (named : applicationId ≠ zpkgCliAuthorizedParty) :
    (∃ error, requireAccount (some auth) applicationId authorization = .error error) ∨
      ∃ error, requirePackageReader (some auth) authorization = .error error := by
  cases account : requireAccount (some auth) applicationId authorization with
  | error error => exact .inl ⟨error, rfl⟩
  | ok identity =>
      cases read : requirePackageReader (some auth) authorization with
      | error error => exact .inr ⟨error, rfl⟩
      | ok reader => exact absurd (parties_exclude account read) named

/-- With a client that can ask about a token, both checks report the service unavailable
exactly in an outage, and a refusal by the service as unauthorized. -/
theorem unavailable_iff_outage {token url bearer : String}
    (configured : Configured transport client audience url bearer)
    (wellFormed : isCredential token = true)
    (bearing : bearerToken authorization = some token) :
    ((∃ error, requireAccount (some (sharedAuth transport client audience parseUuid))
        applicationId authorization = .error error ∧ error.status = 503) ↔
      Outage transport (requestOf url bearer token audience)) ∧
    ((∃ error, requirePackageReader (some (sharedAuth transport client audience parseUuid))
        authorization = .error error ∧ error.status = 503) ↔
      Outage transport (requestOf url bearer token audience)) ∧
    (Refused transport (requestOf url bearer token audience) →
      requireAccount (some (sharedAuth transport client audience parseUuid)) applicationId
          authorization = .error .unauthorized ∧
        requirePackageReader (some (sharedAuth transport client audience parseUuid))
          authorization = .error .unauthorized) := by
  rw [requireAccount_asked bearing, requirePackageReader_asked bearing]
  refine ⟨outage_iff (fun introspection => failsOnly_account _ _ introspection) configured
      wellFormed,
    outage_iff (fun introspection => failsOnly_packageReader _ introspection) configured
      wellFormed, fun refused => ?_⟩
  have answer : (sharedAuth transport client audience parseUuid).introspect token =
      .error .unauthorized :=
    (introspectForAudience_asked configured wellFormed).trans (sendJson_refused refused)
  rw [answer]
  exact ⟨rfl, rfl⟩

end Results

def sampleAuth (answer : Except String HttpResponse) : SharedAuth :=
  sharedAuth (sampleService answer) sampleClient "zed-pkg" fun text => some ⟨text⟩

def vouches : Except String HttpResponse := .ok ⟨200, .ok [0]⟩

def sampleIdentity : AccountIdentity :=
  ⟨⟨⟨"1d1a"⟩, "customer", none, none, none⟩, "s-1", "p-1"⟩

theorem sampleAuth_accepts :
    requireAccount (some (sampleAuth vouches)) "zpkg-web" (some "Bearer delegated") =
      .ok sampleIdentity := by
  have asked : (sampleAuth vouches).introspect "delegated" = _ :=
    (introspectForAudience_asked (sampleClient_configured vouches) delegated_credential).trans rfl
  rw [requireAccount_asked delegated_bearer, asked]
  decide +kernel

/-- The web client's account, out of the answer to the question about its own token. -/
theorem identities_vouched_sample :
    Vouched (sampleService vouches) sampleClient "zed-pkg" (some "Bearer delegated")
      (webClient "zpkg-web") sampleIdentity.session sampleIdentity.sessionId
      sampleIdentity.parentJti :=
  identities_vouched.1 sampleIdentity sampleAuth_accepts

theorem delegated_identities_exclusive_sample :
    ∃ error, requirePackageReader (some (sampleAuth vouches)) (some "Bearer delegated") =
      .error error := by
  have apart : "zpkg-web" ≠ zpkgCliAuthorizedParty := by decide
  rcases @delegated_identities_exclusive "zpkg-web" (some "Bearer delegated")
    (sampleAuth vouches) apart with ⟨error, failed⟩ | refused
  · rw [sampleAuth_accepts] at failed
    cases failed
  · exact refused

/-- The service cannot be reached. -/
theorem unavailable_iff_outage_sample :
    ∃ error, requireAccount (some (sampleAuth (.error "connection refused"))) "zpkg-web"
      (some "Bearer delegated") = .error error ∧ error.status = 503 :=
  (unavailable_iff_outage (sampleClient_configured (.error "connection refused"))
    delegated_credential delegated_bearer).1.mpr (.unreachable "connection refused" rfl)

end ZedRegistry.TokenIntrospection
