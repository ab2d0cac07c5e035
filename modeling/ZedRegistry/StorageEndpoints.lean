import ZedRegistry.CsvExport
import ZedRegistry.Lib.Delimiters
import ZedRegistry.RegistryHost

/-!
# What a storage endpoint tells

`storage_report.rs`: the host of an S3 endpoint and the vendor behind it.  Of an
endpoint URL the description keeps the host alone, and a vendor's domain is
recognized only at a label boundary.
-/

set_option autoImplicit false

namespace ZedRegistry.StorageReport

open Delimiters
open CsvExport (isWhitespace trimStart)
open RegistryHost (rsplitOnce)

inductive StorageBackendKind where
  | processMemory
  | filesystem
  | objectStore
  deriving DecidableEq

inductive StorageProvider where
  | cloudflareR2
  | amazonS3
  | googleCloudStorage
  | backblazeB2
  | digitalOceanSpaces
  | minio
  | s3Compatible
  | localDisk
  | processMemory
  deriving DecidableEq

def StorageProvider.displayName : StorageProvider → String
  | .cloudflareR2 => "Cloudflare R2"
  | .amazonS3 => "Amazon S3"
  | .googleCloudStorage => "Google Cloud Storage"
  | .backblazeB2 => "Backblaze B2"
  | .digitalOceanSpaces => "DigitalOcean Spaces"
  | .minio => "MinIO"
  | .s3Compatible => "S3-compatible store"
  | .localDisk => "Local disk"
  | .processMemory => "Process memory"

/-! ## The host of an endpoint -/

def trim (text : List Char) : List Char := (trimStart text).rdropWhile isWhitespace

def withoutScheme (endpoint : List Char) : List Char :=
  ((splitAtMark "://".toList endpoint).map Prod.snd).getD endpoint

def inAuthority (char : Char) : Bool := char ≠ '/' && char ≠ '?' && char ≠ '#'

/-- What stands after the last `@`. -/
def hostAndPort (authority : List Char) : List Char :=
  ((rsplitOnce '@' authority).map Prod.snd).getD authority

def hostOf (hostAndPort : List Char) : List Char :=
  match hostAndPort with
  | '[' :: rest => ((splitOnce ']' rest).map Prod.fst).getD rest
  | _ => ((splitOnce ':' hostAndPort).map Prod.fst).getD hostAndPort

def endpointHost (endpoint : String) : Option String :=
  let authority := (withoutScheme endpoint.toList).takeWhile inAuthority
  let host := (trim (hostOf (hostAndPort authority))).map Char.toLower
  if host = [] then none else some (String.ofList host)

/-! ## The vendor -/

def suffixMatches (host suffix : String) : Bool :=
  host = suffix || ("." ++ suffix).toList.isSuffixOf host.toList

def classifyHost (host : String) : StorageProvider :=
  if suffixMatches host "r2.cloudflarestorage.com" then .cloudflareR2
  else if suffixMatches host "storage.googleapis.com" then .googleCloudStorage
  else if suffixMatches host "amazonaws.com" then .amazonS3
  else if suffixMatches host "backblazeb2.com" then .backblazeB2
  else if suffixMatches host "digitaloceanspaces.com" then .digitalOceanSpaces
  else if host = "minio" || suffixMatches host "min.io" ||
      "minio.".toList.isPrefixOf host.toList then .minio
  else .s3Compatible

/-- No endpoint, or one without a host, is the default resolution of the SDK. -/
def classifyObjectStore (endpoint : Option String) : StorageProvider :=
  ((endpoint.bind endpointHost).map classifyHost).getD .amazonS3

structure StorageBackend where
  kind : StorageBackendKind
  provider : StorageProvider
  displayName : String
  bucket : Option String
  region : Option String
  endpointHost : Option String
  pathStyle : Option Bool
  directory : Option String
  durable : Bool
  deriving DecidableEq

def StorageBackend.objectStore (bucket region : String) (endpoint : Option String)
    (pathStyle : Bool) : StorageBackend :=
  let provider := classifyObjectStore endpoint
  { kind := .objectStore
    provider
    displayName := provider.displayName
    bucket := some bucket
    region := some region
    endpointHost := endpoint.bind StorageReport.endpointHost
    pathStyle := some pathStyle
    directory := none
    durable := true }

/-! ## Endpoint URLs -/

/-- The letters at which an authority ends. -/
def afterAuthority : List Char := ['/', '?', '#']

def Free (delimiters text : List Char) : Prop := ∀ char ∈ text, char ∉ delimiters

theorem free_of_all {delimiters text : List Char}
    (others : text.all (fun char => !delimiters.contains char) = true) : Free delimiters text := by
  intro char member
  simpa using List.all_eq_true.mp others char member

theorem visible_of_any {text : List Char} (visible : text.any isWhitespace = false) :
    ∀ char ∈ text, isWhitespace char = false := by
  intro char member
  simpa using List.any_eq_false.mp visible char member

/-- A registered name or an IPv4 address, or an IPv6 address between brackets. -/
inductive UrlHost where
  | name (text : List Char) (free : Free (['@', ':', '['] ++ afterAuthority) text)
      (visible : ∀ char ∈ text, isWhitespace char = false)
  | bracketed (text : List Char) (free : Free (['@', ']'] ++ afterAuthority) text)
      (visible : ∀ char ∈ text, isWhitespace char = false)

def UrlHost.text : UrlHost → List Char
  | .name text _ _ => text
  | .bracketed text _ _ => text

def UrlHost.render : UrlHost → List Char
  | .name text _ _ => text
  | .bracketed text _ _ => '[' :: text ++ [']']

/-- The parts of `scheme://[userinfo@]host[:port][/path][?query][#fragment]`. -/
structure EndpointUrl where
  scheme : List Char
  userinfo : Option (List Char)
  host : UrlHost
  port : Option (List Char)
  path : Option (List Char)
  query : Option (List Char)
  fragment : Option (List Char)
  schemeFree : ':' ∉ scheme
  userinfoFree : ∀ text ∈ userinfo, Free afterAuthority text
  portFree : ∀ text ∈ port, Free ('@' :: afterAuthority) text

def before (text : Option (List Char)) (mark : Char) : List Char :=
  text.elim [] fun text => text ++ [mark]

def after (mark : Char) (text : Option (List Char)) : List Char :=
  text.elim [] fun text => mark :: text

namespace EndpointUrl

variable (url : EndpointUrl)

def authority : List Char :=
  before url.userinfo '@' ++ (url.host.render ++ after ':' url.port)

def rest : List Char := after '/' url.path ++ (after '?' url.query ++ after '#' url.fragment)

def render : String :=
  String.ofList (url.scheme ++ ("://".toList ++ (url.authority ++ url.rest)))

end EndpointUrl

/-! ## The cuts -/

theorem Free.inAuthority {delimiters text : List Char} (free : Free delimiters text)
    (all : afterAuthority ⊆ delimiters) : ∀ char ∈ text, inAuthority char = true := by
  intro char member
  have other : char ∉ afterAuthority := fun isDelimiter => free char member (all isDelimiter)
  simpa [StorageReport.inAuthority, afterAuthority, and_assoc] using other

theorem Free.not_mem {delimiters text : List Char} (free : Free delimiters text) {mark : Char}
    (isDelimiter : mark ∈ delimiters) : mark ∉ text :=
  fun member => free mark member isDelimiter

theorem inAuthority_before {text : Option (List Char)}
    (kept : ∀ part ∈ text, ∀ char ∈ part, inAuthority char = true) :
    ∀ char ∈ before text '@', inAuthority char = true := by
  cases text with
  | none => exact nofun
  | some part =>
      intro char member
      rcases List.mem_append.mp member with inPart | isMark
      · exact kept part rfl char inPart
      · rw [List.mem_singleton.mp isMark]
        rfl

theorem inAuthority_after {text : Option (List Char)}
    (kept : ∀ part ∈ text, ∀ char ∈ part, inAuthority char = true) :
    ∀ char ∈ after ':' text, inAuthority char = true := by
  cases text with
  | none => exact nofun
  | some part =>
      intro char member
      rcases List.mem_cons.mp member with isMark | inPart
      · rw [isMark]
        rfl
      · exact kept part rfl char inPart

theorem inAuthority_host (host : UrlHost) :
    ∀ char ∈ host.render, inAuthority char = true := by
  cases host with
  | name text free visible => exact free.inAuthority (List.subset_append_right _ _)
  | bracketed text free visible =>
      intro char member
      simp only [UrlHost.render, List.cons_append, List.mem_cons, List.mem_append] at member
      rcases member with rfl | inText | rfl | impossible
      · rfl
      · exact free.inAuthority (List.subset_append_right _ _) char inText
      · rfl
      · exact absurd impossible List.not_mem_nil

namespace EndpointUrl

theorem withoutScheme_render (url : EndpointUrl) :
    withoutScheme url.render.toList = url.authority ++ url.rest := by
  have cut : splitAtMark "://".toList
      (url.scheme ++ ("://".toList ++ (url.authority ++ url.rest))) =
      some (url.scheme, url.authority ++ url.rest) := splitAtMark_front url.schemeFree
  rw [render, String.toList_ofList, withoutScheme, cut]
  rfl

theorem inAuthority_authority (url : EndpointUrl) :
    ∀ char ∈ url.authority, inAuthority char = true := by
  intro char member
  rcases List.mem_append.mp member with inUserinfo | member
  · exact inAuthority_before
      (fun text isUserinfo => (url.userinfoFree text isUserinfo).inAuthority (List.Subset.refl _))
      char inUserinfo
  · rcases List.mem_append.mp member with inHost | inPort
    · exact inAuthority_host url.host char inHost
    · exact inAuthority_after
        (fun text isPort => (url.portFree text isPort).inAuthority (List.subset_cons_self _ _))
        char inPort

theorem stops_rest (url : EndpointUrl) : Stops inAuthority url.rest := by
  unfold rest
  cases url.path with
  | some path => exact stops_cons rfl
  | none =>
      cases url.query with
      | some query => exact stops_cons rfl
      | none =>
          cases url.fragment with
          | some fragment => exact stops_cons rfl
          | none => exact stops_nil

theorem authority_render (url : EndpointUrl) :
    (withoutScheme url.render.toList).takeWhile inAuthority = url.authority := by
  rw [withoutScheme_render, takeWhile_front url.inAuthority_authority url.stops_rest]

end EndpointUrl

theorem rsplitOnce_append {separator : Char} {before after : List Char}
    (absent : separator ∉ after) :
    rsplitOnce separator (before ++ separator :: after) = some (before, after) := by
  have turned : (before ++ separator :: after).reverse =
      after.reverse ++ separator :: before.reverse := by simp
  rw [rsplitOnce, turned, splitOnce_append (by simpa using absent)]
  simp

theorem rsplitOnce_absent {separator : Char} {text : List Char} (absent : separator ∉ text) :
    rsplitOnce separator text = none := by
  rw [rsplitOnce, splitOnce_absent (by simpa using absent)]
  rfl

theorem hostAndPort_cut {userinfo : Option (List Char)} {text : List Char}
    (absent : '@' ∉ text) : hostAndPort (before userinfo '@' ++ text) = text := by
  unfold hostAndPort
  cases userinfo with
  | none =>
      have same : before none '@' ++ text = text := rfl
      rw [same, rsplitOnce_absent absent]
      rfl
  | some userinfo =>
      have split : before (some userinfo) '@' ++ text = userinfo ++ '@' :: text :=
        List.append_assoc _ _ _
      rw [split, rsplitOnce_append absent]
      rfl

theorem hostOf_cut (host : UrlHost) (port : Option (List Char)) :
    hostOf (host.render ++ after ':' port) = host.text := by
  cases host with
  | bracketed text free visible =>
      have closed : UrlHost.render (.bracketed text free visible) ++ after ':' port =
          '[' :: (text ++ ']' :: after ':' port) := by simp [UrlHost.render]
      have absent : ']' ∉ text := free.not_mem (by decide)
      rw [closed]
      simp only [hostOf, splitOnce_append absent]
      rfl
  | name text free visible =>
      have colonFree : ':' ∉ text := free.not_mem (by decide)
      have openFree : '[' ∉ text := free.not_mem (by decide)
      have unbracketed : hostOf (text ++ after ':' port) =
          ((splitOnce ':' (text ++ after ':' port)).map Prod.fst).getD
            (text ++ after ':' port) := by
        unfold hostOf
        split
        · rename_i rest opened
          cases text with
          | nil =>
              cases port with
              | none =>
                  have nothing : [] = '[' :: rest := opened
                  exact absurd nothing.symm (List.cons_ne_nil _ _)
              | some port => exact absurd (List.cons.inj opened).1 (by decide)
          | cons char text =>
              have isBracket : char = '[' := (List.cons.inj opened).1
              rw [isBracket] at openFree
              exact absurd List.mem_cons_self openFree
        · rfl
      rw [UrlHost.render, unbracketed]
      cases port with
      | none =>
          have same : text ++ after ':' none = text := List.append_nil text
          rw [same, splitOnce_absent colonFree]
          rfl
      | some port =>
          rw [after, Option.elim_some, splitOnce_append colonFree]
          rfl

/-! ## The host alone is kept -/

theorem trim_visible {text : List Char} (visible : ∀ char ∈ text, isWhitespace char = false) :
    trim text = text := by
  have front : trimStart text = text := by
    cases text with
    | nil => rfl
    | cons char text =>
        exact List.dropWhile_cons_of_neg (by simp [visible char List.mem_cons_self])
  rw [trim, front, List.rdropWhile_eq_self_iff]
  intro nonempty
  simp [visible _ (List.getLast_mem nonempty)]

theorem UrlHost.visible (host : UrlHost) : ∀ char ∈ host.text, isWhitespace char = false := by
  cases host with
  | name text free visible => exact visible
  | bracketed text free visible => exact visible

theorem atFree_hostPort (url : EndpointUrl) : '@' ∉ url.host.render ++ after ':' url.port := by
  have hostFree : '@' ∉ url.host.render := by
    cases url.host with
    | name text free visible => exact free.not_mem (by decide)
    | bracketed text free visible =>
        have textFree : '@' ∉ text := free.not_mem (by decide)
        simpa [UrlHost.render] using textFree
  have portFree : '@' ∉ after ':' url.port := by
    cases isPort : url.port with
    | none => exact List.not_mem_nil
    | some port =>
        have free : '@' ∉ port := (url.portFree port isPort).not_mem List.mem_cons_self
        simpa [after] using free
  exact fun member => (List.mem_append.mp member).elim hostFree portFree

theorem endpointHost_render (url : EndpointUrl) :
    endpointHost url.render =
      if url.host.text = [] then none
      else some (String.ofList (url.host.text.map Char.toLower)) := by
  unfold endpointHost
  dsimp only
  rw [url.authority_render, EndpointUrl.authority, hostAndPort_cut (atFree_hostPort url),
    hostOf_cut, trim_visible url.host.visible]
  simp only [List.map_eq_nil_iff]

theorem objectStore_of_host {endpoint other : Option String}
    (same : endpoint.bind endpointHost = other.bind endpointHost) (bucket region : String)
    (pathStyle : Bool) :
    StorageBackend.objectStore bucket region endpoint pathStyle =
      StorageBackend.objectStore bucket region other pathStyle := by
  have provider : classifyObjectStore endpoint = classifyObjectStore other := by
    rw [classifyObjectStore, classifyObjectStore, same]
  simp only [StorageBackend.objectStore, provider, same]

/-! ## Vendors by domain -/

def StorageProvider.domain? : StorageProvider → Option String
  | .cloudflareR2 => some "r2.cloudflarestorage.com"
  | .googleCloudStorage => some "storage.googleapis.com"
  | .amazonS3 => some "amazonaws.com"
  | .backblazeB2 => some "backblazeb2.com"
  | .digitalOceanSpaces => some "digitaloceanspaces.com"
  | .minio => some "min.io"
  | .s3Compatible | .localDisk | .processMemory => none

/-- The domain itself or a name with labels in front of it. -/
def Under (domain host : String) : Prop :=
  host = domain ∨ '.' :: domain.toList <:+ host.toList

def MinioHostName (host : String) : Prop :=
  host = "minio" ∨ "minio.".toList <+: host.toList

theorem suffixMatches_iff {host suffix : String} :
    suffixMatches host suffix = true ↔ Under suffix host := by
  have dotted : ("." ++ suffix).toList = '.' :: suffix.toList := by
    rw [String.toList_append]
    rfl
  rw [suffixMatches, Bool.or_eq_true, decide_eq_true_eq, List.isSuffixOf_iff_suffix, dotted]
  rfl

theorem classifyObjectStore_host {endpoint host : String}
    (hasHost : endpointHost endpoint = some host) :
    classifyObjectStore (some endpoint) = classifyHost host := by
  rw [classifyObjectStore, Option.bind_some, hasHost]
  rfl

/-- What the description says of a provider is borne out by the host. -/
def Justified (provider : StorageProvider) (host : String) : Prop :=
  provider = .s3Compatible ∨ (∃ domain ∈ provider.domain?, Under domain host) ∨
    provider = .minio ∧ MinioHostName host

theorem justified_of_suffix {provider : StorageProvider} {domain host : String}
    (vendor : provider.domain? = some domain) (ends : suffixMatches host domain = true) :
    Justified provider host :=
  Or.inr (Or.inl ⟨domain, vendor, suffixMatches_iff.mp ends⟩)

theorem classifyHost_justified (host : String) : Justified (classifyHost host) host := by
  unfold classifyHost
  split_ifs with cloudflare google amazon backblaze digitalOcean minio
  · exact justified_of_suffix rfl cloudflare
  · exact justified_of_suffix rfl google
  · exact justified_of_suffix rfl amazon
  · exact justified_of_suffix rfl backblaze
  · exact justified_of_suffix rfl digitalOcean
  · simp only [Bool.or_eq_true, decide_eq_true_eq, List.isPrefixOf_iff_prefix] at minio
    rcases minio with (named | ends) | starts
    · exact Or.inr (Or.inr ⟨rfl, Or.inl named⟩)
    · exact justified_of_suffix rfl ends
    · exact Or.inr (Or.inr ⟨rfl, Or.inr starts⟩)
  · exact Or.inl rfl

/-- The description of an endpoint URL is that of its host, and names no vendor but
the one the host is under. -/
theorem endpoint_description :
    (∀ url : EndpointUrl, endpointHost url.render =
      if url.host.text = [] then none
      else some (String.ofList (url.host.text.map Char.toLower))) ∧
    (∀ url other : EndpointUrl, url.host = other.host → ∀ bucket region pathStyle,
      StorageBackend.objectStore bucket region (some url.render) pathStyle =
        StorageBackend.objectStore bucket region (some other.render) pathStyle) ∧
    ∀ endpoint host, endpointHost endpoint = some host →
      Justified (classifyObjectStore (some endpoint)) host := by
  refine ⟨endpointHost_render, ?_, ?_⟩
  · intro url other same bucket region pathStyle
    apply objectStore_of_host
    rw [Option.bind_some, Option.bind_some, endpointHost_render, endpointHost_render, same]
  · intro endpoint host hasHost
    rw [classifyObjectStore_host hasHost]
    exact classifyHost_justified host

/-- `HTTPS://key:s@cret@[2001:DB8::1]:9000/a@b?x=:y#z` -/
def bracketedSample : EndpointUrl where
  scheme := "HTTPS".toList
  userinfo := some "key:s@cret".toList
  host := .bracketed "2001:DB8::1".toList (free_of_all (by decide)) (visible_of_any (by decide))
  port := some "9000".toList
  path := some "a@b".toList
  query := some "x=:y".toList
  fragment := some "z".toList
  schemeFree := by decide
  userinfoFree := by
    intro text isUserinfo
    rw [← Option.some.inj isUserinfo]
    exact free_of_all (by decide)
  portFree := by
    intro text isPort
    rw [← Option.some.inj isPort]
    exact free_of_all (by decide)

theorem endpoint_description_sample :
    endpointHost bracketedSample.render = some "2001:db8::1" ∧
      Justified (classifyObjectStore (some bracketedSample.render)) "2001:db8::1" := by
  obtain ⟨hosts, -, vendors⟩ := endpoint_description
  have host : endpointHost bracketedSample.render = some "2001:db8::1" :=
    (hosts bracketedSample).trans (by decide)
  exact ⟨host, vendors _ _ host⟩

end ZedRegistry.StorageReport
