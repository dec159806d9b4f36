import McpTrust.Python.IsoFormat
import McpTrust.Python.JsonDecode
import McpTrust.Python.JsonLoads
import McpTrust.Python.Utf8
import McpTrust.Python.Sha256
import McpTrust.Portability.HostValues
import McpTrust.Portability.Views

/-! # The authorization metadata preflight

Discovery of OAuth metadata for one bound endpoint. A run asks the pinned fetcher for one URL
after the other; the network answers as it likes. The fixed parts of a result are left out.
-/

namespace McpTrust.Posture

set_option autoImplicit false

open Python

/-! ## URLs -/

/-- `SplitResult`. -/
structure SplitUrl where
  scheme : Str
  netloc : Str
  path : Str
  query : Str
  fragment : Str
  deriving DecidableEq

/-- The functions of the standard library on URLs, host names and dates; `none` is a `ValueError`. -/
structure NetLibrary where
  urlsplit : Str → Option SplitUrl
  idna : Str → Option Str
  isIpAddress : Str → Bool
  unquote : Str → Str
  lower : Str → Str
  casefold : Str → Str
  parseDate : Str → Option DateTime

structure BoundURL where
  url : Str
  hostname : Str
  port : Nat
  path : Str
  origin : Str
  deriving DecidableEq

inductive PostureError
  | input (text : Str)
  | escaped (e : PyErr)
  deriving DecidableEq

/-- What may raise `MetadataDocumentError`, with its reason code. -/
abbrev Checked := Except Str

abbrev PostureM := Except PostureError

def cut (c : Char) (s : Str) : Str := s.takeWhile fun d => decide (d ≠ ch c)

def afterCut (c : Char) (s : Str) : Str := (s.dropWhile fun d => decide (d ≠ ch c)).drop 1

/-- `netloc.rpartition("@")[2]`. -/
def hostPart (netloc : Str) : Str := (cut '@' netloc.reverse).reverse

/-- `_hostinfo`: the host and the text of the port. -/
def hostInfo (netloc : Str) : Str × Str :=
  let host := hostPart netloc
  if ch '[' ∈ host then
    let bracketed := afterCut '[' host
    (cut ']' bracketed, afterCut ':' (afterCut ']' bracketed))
  else (cut ':' host, afterCut ':' host)

/-- `parsed.hostname or ""`; the zone keeps its case. -/
def SplitUrl.hostname (lib : NetLibrary) (parts : SplitUrl) : Str :=
  let host := (hostInfo parts.netloc).1
  lib.lower (cut '%' host) ++ host.dropWhile fun d => decide (d ≠ ch '%')

/-- `parsed.port`: `none` is a `ValueError`. -/
def SplitUrl.port (parts : SplitUrl) : Option (Option Nat) :=
  let port := (hostInfo parts.netloc).2
  if port = [] then some none
  else if port.all isDigit = true ∧ readNat port ≤ 65535 then some (some (readNat port))
  else none

/-- `parsed.username is not None or parsed.password is not None`. -/
def SplitUrl.hasCredentials (parts : SplitUrl) : Bool := decide (ch '@' ∈ parts.netloc)

/-- `_normalized_hostname`; the error is the text of an `AuthPostureInputError`. -/
def normalizedHostname (lib : NetLibrary) (hostname : Str) : Except String Str :=
  match lib.idna (hostname.reverse.dropWhile fun c => decide (c = ch '.')).reverse with
  | none => .error "URL hostname is not valid IDNA"
  | some ascii => if ascii = [] then .error "URL must include a hostname" else .ok (lower ascii)

def isLocalhost (hostname : Str) : Bool :=
  decide (hostname = u "localhost") || (u ".localhost").isSuffixOf hostname

def hasControl (text : Str) : Bool := text.any fun c => decide (c.val < 32)

def maxUrl : Nat := 2048

/-- `if not condition: raise`. -/
def ensure {ε : Type} (condition : Bool) (error : ε) : Except ε Unit := if condition then .ok () else .error error

def orRaise {ε α : Type} (value : Option α) (error : ε) : Except ε α :=
  match value with
  | some a => .ok a
  | none => .error error

/-- The host name of a split URL, behind the tests on its other parts. -/
def boundHostname (lib : NetLibrary) (parsed : SplitUrl) : Except String Str := do
  ensure (decide (lower parsed.scheme = u "https")) " must use https"
  ensure (!parsed.hasCredentials) " must not contain credentials"
  ensure (decide (parsed.query = [] ∧ parsed.fragment = [])) " must not contain a query or fragment"
  let hostname ← normalizedHostname lib (parsed.hostname lib)
  ensure (!isLocalhost hostname) " must not target localhost"
  ensure (!lib.isIpAddress hostname) " must use a DNS hostname, not an IP literal"
  .ok hostname

/-- The URL of a host, a port and a path. -/
def boundTarget (lib : NetLibrary) (hostname path : Str) (port : Nat) : Except String BoundURL := do
  let decoded := lib.unquote path
  let netloc := if port = 443 then hostname else hostname ++ ch ':' :: natRepr port
  ensure (decide (1 ≤ port)) " has an invalid port"
  ensure (decide (path.head? = some (ch '/') ∧ ch '\\' ∉ decoded)) " has an invalid path"
  ensure (!hasControl decoded) " has an invalid path"
  .ok
    { url := u "https://" ++ netloc ++ path, hostname := hostname, port := port, path := path,
      origin := u "https://" ++ netloc }

/-- `_bound_https_url` of a string, with the text behind the label of its errors. -/
def boundParts (lib : NetLibrary) (raw : Str) : Except String BoundURL := do
  ensure (decide (raw ≠ [] ∧ raw = strip raw)) " must be one non-empty URL"
  ensure (decide (raw.length ≤ maxUrl ∧ ch '\\' ∉ raw) && !hasControl raw) " exceeds the URL boundary"
  let parsed ← orRaise (lib.urlsplit raw) " is not a valid URL"
  let hostname ← boundHostname lib parsed
  let declared ← orRaise parsed.port " has an invalid port"
  boundTarget lib hostname (if parsed.path = [] then u "/" else parsed.path) (declared.getD 443)

/-- `_bound_https_url`; the host name errors carry no label. -/
def boundHttpsUrl (lib : NetLibrary) (raw : Str) (label : String) : PostureM BoundURL :=
  match boundParts lib raw with
  | .ok target => .ok target
  | .error text => .error (.input (if text.startsWith " " then u label ++ u text else u text))

def invalid (label : String) : Str := u label ++ u "_invalid"

/-- `_metadata_url`. -/
def metadataUrl (lib : NetLibrary) (raw : Json) (label : String) : Checked BoundURL :=
  match raw with
  | .str text =>
    match boundParts lib text with
    | .ok target => .ok target
    | .error _ => .error (invalid label)
  | _ => .error (invalid label)

/-- The tests of `_https_endpoint`. -/
def isHttpsEndpoint (lib : NetLibrary) (raw : Str) : Bool :=
  decide (raw ≠ []) && decide (raw = strip raw) && decide (raw.length ≤ maxUrl) && decide (ch '\\' ∉ raw) &&
    !hasControl raw &&
    match lib.urlsplit raw with
    | none => false
    | some parsed =>
      match normalizedHostname lib (parsed.hostname lib), parsed.port with
      | .ok hostname, some declared =>
        let decoded := lib.unquote (if parsed.path = [] then u "/" else parsed.path)
        decide (lower parsed.scheme = u "https") && !parsed.hasCredentials && decide (parsed.fragment = []) &&
          decide (1 ≤ declared.getD 443) && !isLocalhost hostname && !lib.isIpAddress hostname &&
          decide (ch '\\' ∉ decoded) && !hasControl decoded
      | _, _ => false

def httpsEndpoint (lib : NetLibrary) (raw : Json) (label : String) : Checked Str :=
  match raw with
  | .str text => if isHttpsEndpoint lib text = true then .ok text else .error (invalid label)
  | _ => .error (invalid label)

/-! ## The challenge -/

/-- `_unique`. -/
def unique (values : List Str) : List Str := (values.reverse.dedup).reverse

/-- `(?:^|,)\s*Bearer(?:\s|$)` at a place where a scheme may stand. -/
def bearerAt (text : Str) : Bool :=
  let rest := text.dropWhile isWhitespace
  decide (lower (rest.take 6) = u "bearer") && (rest.drop 6).head?.all isWhitespace

/-- `_BEARER_RE.search`. -/
def hasBearer (header : Str) : Bool :=
  bearerAt header || header.tails.any fun tail => decide (tail.head? = some (ch ',')) && bearerAt (tail.drop 1)

def isParamSeparator (c : CodePoint) : Bool := decide (c = ch ',') || decide (c = ch ';') || isWhitespace c

/-- `_PARAM_RE` behind its separator: the name, the value and what is left. -/
def paramAt (text : Str) : Option (Str × Str × Str) :=
  let name := text.takeWhile fun c => isAlnum c || decide (c = ch '_') || decide (c = ch '-')
  if (name.head?.any fun c => isLowerAlpha c || isUpperAlpha c) = false then none
  else
    match (text.drop name.length).dropWhile isWhitespace with
    | [] => none
    | sign :: rest =>
      if sign ≠ ch '=' then none
      else
        let value := rest.dropWhile isWhitespace
        let token := value.takeWhile fun c => !isParamSeparator c
        let quoted := (value.drop 1).takeWhile fun c => decide (c ≠ ch '"') && decide (c ≠ ch '\\')
        let closed := (value.drop 1).drop quoted.length
        if value.head? = some (ch '"') ∧ closed.head? = some (ch '"') then some (name, quoted, closed.drop 1)
        else if token = [] then none
        else some (name, token, value.drop token.length)

/-- `_PARAM_RE.finditer`, with `atStart` where `^` matches. -/
def paramsFrom : Nat → Bool → Str → List (Str × Str)
  | 0, _, _ => []
  | fuel + 1, atStart, text =>
    match if atStart then paramAt text else none with
    | some (name, value, rest) => (name, value) :: paramsFrom fuel false rest
    | none =>
      match text with
      | [] => []
      | c :: rest =>
        match if isParamSeparator c then paramAt rest else none with
        | some (name, value, rest) => (name, value) :: paramsFrom fuel false rest
        | none => paramsFrom fuel false rest

def maxHeaderBytes : Nat := 8 * 1024

def challengeParameter (header : Str) (name : String) : Checked (Option Str) :=
  match encodeUtf8 header with
  | .error _ => .error (u "challenge_invalid")
  | .ok bytes =>
    if maxHeaderBytes < bytes.length ∨ ch '\r' ∈ header ∨ ch '\n' ∈ header then .error (u "challenge_invalid")
    else if hasBearer header = false then .error (u "challenge_invalid")
    else
      match (paramsFrom (header.length + 1) true header).filter fun param => decide (lower param.1 = u name) with
      | [] => .ok none
      | [param] => .ok (some param.2)
      | _ => .error (u "challenge_duplicate_parameter")

def maxScopes : Nat := 64

def challenge (header : Option Str) : Checked (Option Str × List Str) :=
  match header with
  | none => .ok (none, [])
  | some header => do
    let metadataUrl ← challengeParameter header "resource_metadata"
    let scope ← challengeParameter header "scope"
    let scopes := match scope with
      | none => []
      | some scope => unique (Portability.splitWords scope)
    if maxScopes < scopes.length then .error (u "challenge_scope_invalid") else .ok (metadataUrl, scopes)

/-! ## Candidates -/

def stripSlashesEnd (path : Str) : Str := (path.reverse.dropWhile fun c => decide (c = ch '/')).reverse

def stripSlashes (path : Str) : Str := stripSlashesEnd (path.dropWhile fun c => decide (c = ch '/'))

/-- `_resource_metadata_candidates`; its two well-known URLs differ. -/
def resourceMetadataCandidates (lib : NetLibrary) (resource : BoundURL) (challengeUrl : Option Str) :
    Checked (List (Str × String)) :=
  match challengeUrl with
  | some raw => do
    let metadata ← metadataUrl lib (.str raw) "resource_metadata_url"
    if metadata.origin ≠ resource.origin then .error (u "resource_metadata_origin_not_allowed")
    else .ok [(metadata.url, "www-authenticate")]
  | none =>
    let resourcePath := stripSlashesEnd resource.path
    let root := resource.origin ++ u "/.well-known/oauth-protected-resource"
    .ok ((if resourcePath = [] then [] else [(root ++ resourcePath, "well-known-path")]) ++ [(root, "well-known-root")])

def authorizationMetadataCandidates (issuer : BoundURL) : List (Str × String) :=
  let issuerPath := stripSlashes issuer.path
  if issuerPath = [] then
    [(issuer.origin ++ u "/.well-known/oauth-authorization-server", "rfc8414"),
      (issuer.origin ++ u "/.well-known/openid-configuration", "openid-connect")]
  else
    [(issuer.origin ++ u "/.well-known/oauth-authorization-server/" ++ issuerPath, "rfc8414-path-insertion"),
      (issuer.origin ++ u "/.well-known/openid-configuration/" ++ issuerPath, "openid-connect-path-insertion"),
      (issuer.origin ++ u "/" ++ issuerPath ++ u "/.well-known/openid-configuration", "openid-connect-path-append")]

/-! ## Responses -/

structure FetchResponse where
  status : Option ℤ := none
  contentType : Option Str := none
  httpDate : Option Str := none
  cacheControl : Option Str := none
  age : Option Str := none
  lastModified : Option Str := none
  body : Option Bytes := none
  reasonCode : Option Str := none
  deriving DecidableEq

/-- A hostile network: its answer to a request, given the requests before it, or the error it provokes. -/
abbrev Network := List BoundURL → Except PyErr FetchResponse

/-- `_content_type_is_json`. -/
def contentTypeIsJson (lib : NetLibrary) (value : Option Str) : Bool :=
  match value with
  | none => false
  | some value =>
    let mediaType := lib.casefold (strip (cut ';' value))
    decide (mediaType = u "application/json") ||
      (u "application/").isPrefixOf mediaType && (u "+json").isSuffixOf mediaType

/-- `text.split(",")`. -/
def splitCommas : Str → List Str
  | [] => [[]]
  | c :: rest =>
    if c = ch ',' then [] :: splitCommas rest
    else
      match splitCommas rest with
      | [] => [[c]]
      | part :: parts => (c :: part) :: parts

/-- The text of a parameter, without the quotes around it. -/
def unquoted (raw : Str) : Checked Str :=
  let opens := decide (raw.head? = some (ch '"'))
  let closes := decide (raw.getLast? = some (ch '"'))
  if (opens || closes) = false then .ok raw
  else if raw.length < 2 ∨ (opens && closes) = false then .error (u "cache_control_invalid")
  else .ok (raw.drop 1).dropLast

/-- `int(text)` of ASCII digits: the outer error escapes, the inner one is a reason code. -/
def readSeconds (text : Str) (reason : String) : PostureM (Checked ℤ) :=
  if text = [] ∨ text.all isDigit = false then .ok (.error (u reason))
  else
    match pyInt text with
    | .ok seconds => .ok (.ok seconds)
    | .error e => .error (.escaped e)

/-- The value of a `max-age` directive, `none` for another directive. -/
def maxAge (lib : NetLibrary) (directive : Str) : PostureM (Checked (Option ℤ)) :=
  let text := strip directive
  if lib.casefold (cut '=' text) ≠ u "max-age" then .ok (.ok none)
  else
    match unquoted (strip (afterCut '=' text)) with
    | .error reason => .ok (.error reason)
    | .ok parameter => do
      let seconds ← readSeconds parameter "cache_control_invalid"
      .ok (seconds.map some)

def maxUndirectedCacheAge : ℤ := 3600

def maxAcceptedCacheAge : ℤ := 86400

/-- Follows the directives of `_cache_freshness_seconds` in order. -/
def maxAges (lib : NetLibrary) : List Str → PostureM (Checked (List ℤ))
  | [] => .ok (.ok [])
  | directive :: rest => do
    match ← maxAge lib directive with
    | .error reason => .ok (.error reason)
    | .ok found =>
      match ← maxAges lib rest with
      | .error reason => .ok (.error reason)
      | .ok ages => .ok (.ok (found.toList ++ ages))

def cacheFreshnessSeconds (lib : NetLibrary) (value : Option Str) : PostureM (Checked ℤ) :=
  match value with
  | none => .ok (.ok maxUndirectedCacheAge)
  | some value => do
    match ← maxAges lib (splitCommas value) with
    | .error reason => .ok (.error reason)
    | .ok [] => .ok (.ok (min maxUndirectedCacheAge maxAcceptedCacheAge))
    | .ok [declared] => .ok (.ok (min declared maxAcceptedCacheAge))
    | .ok _ => .ok (.error (u "cache_control_invalid"))

structure ResponseFreshness where
  httpDate : Str
  lastModified : Option Str
  cacheControl : Option Str
  ageHeaderSeconds : Option ℤ
  effectiveAgeSeconds : ℚ
  policyFreshnessSeconds : ℤ
  deriving DecidableEq

def maxClockSkew : ℚ := 300

/-- `value.isoformat(timespec="seconds")` of a time in UTC, with `Z`. -/
def zuluText (d : DateTime) : Str :=
  d.date.isoformat ++ ch 'T' :: (DateTime.clockText (d.micros % microsPerDay).toNat).take 8 ++ [ch 'Z']

/-- The seconds of an `Age` header. -/
def headerAge (age : Option Str) : PostureM (Checked ℤ) :=
  match age with
  | none => .ok (.ok 0)
  | some age => readSeconds (strip age) "http_age_invalid"

def raisedBy {α : Type} : Except PyErr α → PostureM α
  | .ok a => .ok a
  | .error e => .error (.escaped e)

/-- `_response_freshness`: the outer error escapes, the inner one is a reason code. -/
def responseFreshness (lib : NetLibrary) (response : FetchResponse) (observedAt : DateTime) :
    PostureM (Checked ResponseFreshness) :=
  match response.httpDate with
  | none => .ok (.error (u "http_date_missing"))
  | some text =>
    match lib.parseDate text with
    | none => .ok (.error (u "http_date_invalid"))
    | some parsed =>
      if parsed.offset = none then .ok (.error (u "http_date_invalid"))
      else do
        let sourceDate ← raisedBy parsed.astimezoneUtc
        if maxClockSkew < DateTime.totalSeconds (sourceDate.instant - observedAt.instant) then
          .ok (.error (u "http_date_future"))
        else
          let apparent := max 0 (DateTime.totalSeconds (observedAt.instant - sourceDate.instant))
          match ← headerAge response.age with
          | .error reason => .ok (.error reason)
          | .ok seconds =>
            let header ← raisedBy (floatOfInt seconds)
            let effective := max apparent (header.value?.getD 0)
            match ← cacheFreshnessSeconds lib response.cacheControl with
            | .error reason => .ok (.error reason)
            | .ok policy =>
              if (policy : ℚ) + maxClockSkew < effective then .ok (.error (u "metadata_response_stale"))
              else
                .ok (.ok
                  { httpDate := zuluText sourceDate, lastModified := response.lastModified,
                    cacheControl := response.cacheControl,
                    ageHeaderSeconds := if response.age.isSome then some seconds else none,
                    effectiveAgeSeconds := roundDigits effective 3, policyFreshnessSeconds := policy })

/-! ## Documents -/

/-- `_DuplicateKeyError`. -/
def duplicateKeyError : PyErr := .app "_DuplicateKeyError" ""

/-- `json.loads` with `_reject_duplicate_keys`. -/
def uniqueHooks : Hooks :=
  { defaultHooks with
    objectPairs := fun pairs => if (Dict.keys pairs).Nodup then .ok (.obj pairs) else .error duplicateKeyError }

def maxJsonDepth : Nat := 16

def maxJsonNodes : Nat := 2048

/-- `_bounded_json`: the nodes of a value, none when it is too complex. -/
def boundedJson : Nat → Json → Option Nat
  | depth, .obj fields =>
    if maxJsonDepth < depth then none
    else
      let counts := fields.attach.map fun kv => if 256 < kv.1.1.length then none else boundedJson (depth + 1) kv.1.2
      (counts.foldl (fun total count => total.bind fun n => count.map (n + ·)) (some 1)).bind fun n =>
        if maxJsonNodes < n then none else some n
  | depth, .arr items =>
    if maxJsonDepth < depth then none
    else
      let counts := items.attach.map fun item => boundedJson (depth + 1) item.1
      (counts.foldl (fun total count => total.bind fun n => count.map (n + ·)) (some 1)).bind fun n =>
        if maxJsonNodes < n then none else some n
  | depth, _ => if maxJsonDepth < depth then none else some 1
termination_by _ v => v.depth
decreasing_by
  · exact Nat.lt_succ_of_le (Json.depth_le_fields kv.2)
  · exact Nat.lt_succ_of_le (Json.depth_le_items item.2)

inductive AttemptState
  | unknown
  | fetched
  | invalid
  | validated
  deriving DecidableEq

structure Attempt where
  kind : String
  url : Str
  status : Option ℤ
  contentType : Option Str
  bodyBytes : Option Nat := none
  bodySha256 : Option Str := none
  freshness : Option ResponseFreshness := none
  state : AttemptState := .unknown
  reasonCode : Option Str
  deriving DecidableEq

/-- What a run depends on. -/
structure Probe where
  lib : NetLibrary
  network : Network
  interp : Interpreter
  observedAt : DateTime

/-- `PinnedHTTPSFetcher.fetch`, behind the requests made before. -/
def Probe.fetch (p : Probe) (before : List BoundURL) (url : Str) : PostureM (BoundURL × FetchResponse) := do
  let target ← boundHttpsUrl p.lib url "metadata URL"
  let response ← raisedBy (p.network (before ++ [target]))
  .ok (target, response)

/-- The document in a body, or a reason code; other errors escape. -/
def Probe.decodeBody (p : Probe) (body : Bytes) : PostureM (Checked Dict) :=
  match decodeUtf8 body with
  | .error _ => .ok (.error (u "json_invalid"))
  | .ok text =>
    match loads uniqueHooks p.interp.recursionLimit text with
    | .error e =>
      if e = duplicateKeyError then .ok (.error (u "json_duplicate_key"))
      else if e = .jsonDecodeError then .ok (.error (u "json_invalid"))
      else .error (.escaped e)
    | .ok (.obj document) =>
      if (boundedJson 0 (.obj document)).isNone = true then .ok (.error (u "json_too_complex")) else .ok (.ok document)
    | .ok _ => .ok (.error (u "json_not_object"))

def statusReason (status : Option ℤ) : String :=
  if status = some 404 ∨ status = some 410 then "metadata_not_found" else "http_status_unexpected"

/-- What `_fetch_json` makes of a response: the document, or the reason why there is none. -/
def Probe.answered (p : Probe) (target : BoundURL) (response : FetchResponse) (kind : String) :
    PostureM (BoundURL × Option Dict × Attempt) :=
  let attempt : Attempt :=
    { kind := kind, url := target.url, status := response.status, contentType := response.contentType,
      reasonCode := response.reasonCode }
  if response.reasonCode.isSome = true then .ok (target, none, attempt)
  else if response.status ≠ some 200 then
    .ok (target, none, { attempt with reasonCode := some (u (statusReason response.status)) })
  else if contentTypeIsJson p.lib response.contentType = false then
    .ok (target, none, { attempt with reasonCode := some (u "content_type_invalid") })
  else do
    match ← responseFreshness p.lib response p.observedAt with
    | .error reason => .ok (target, none, { attempt with reasonCode := some reason })
    | .ok freshness =>
      let body := response.body.getD []
      let read := { attempt with
        freshness := some freshness, bodyBytes := some body.length, bodySha256 := some (sha256Hex body) }
      match ← p.decodeBody body with
      | .error reason => .ok (target, none, { read with reasonCode := some reason })
      | .ok document => .ok (target, some document, { read with state := .fetched, reasonCode := some (u "fetched") })

/-- `_fetch_json`. -/
def Probe.fetchJson (p : Probe) (before : List BoundURL) (url : Str) (kind : String) :
    PostureM (BoundURL × Option Dict × Attempt) := do
  let fetched ← p.fetch before url
  p.answered fetched.1 fetched.2 kind

/-! ## Validation -/

/-- An item that `_string_list` keeps. -/
def listedString : Json → Option Str
  | .str s => if s = [] ∨ 512 < s.length then none else some s
  | _ => none

/-- `_string_list`. -/
def stringList (value : Json) (label : String) (maximum : Nat) (required : Bool) : Checked (List Str) :=
  if value.isNull = true ∧ required = false then .ok []
  else
    match value with
    | .arr items =>
      if (required = true ∧ items.isEmpty = true) ∨ maximum < items.length then .error (invalid label)
      else
        match items.mapM listedString with
        | none => .error (invalid label)
        | some strings => if strings.Nodup then .ok strings else .error (invalid label)
    | _ => .error (invalid label)

structure ResourceMetadata where
  resource : Str
  authorizationServers : List Str
  scopesSupported : List Str
  deriving DecidableEq

def maxAuthorizationServers : Nat := 8

def validateResourceMetadata (lib : NetLibrary) (resource : BoundURL) (document : Dict) : Checked ResourceMetadata := do
  let declared ← metadataUrl lib (Dict.get document "resource") "resource"
  if declared.url ≠ resource.url then .error (u "resource_mismatch")
  else do
    let servers ← stringList (Dict.get document "authorization_servers") "authorization_servers"
      maxAuthorizationServers true
    let _bounds ← servers.mapM fun server => metadataUrl lib (.str server) "authorization_server"
    let scopes ← stringList (Dict.get document "scopes_supported") "scopes_supported" maxScopes false
    .ok { resource := declared.url, authorizationServers := servers, scopesSupported := scopes }

/-- An optional boolean of a document. -/
def optionalBool (document : Dict) (key : String) : Checked (Option Bool) :=
  match Dict.get document key with
  | .null => .ok none
  | .bool b => .ok (some b)
  | _ => .error (invalid key)

structure AuthorizationMetadata where
  issuer : Str
  authorizationEndpoint : Str
  tokenEndpoint : Str
  codeChallengeMethods : List Str
  scopesSupported : List Str
  clientIdMetadataDocumentSupported : Option Bool
  registrationEndpoint : Option Str
  issParameterSupported : Option Bool
  deriving DecidableEq

def requiredEndpoint (lib : NetLibrary) (document : Dict) (key : String) : Checked Str :=
  httpsEndpoint lib (Dict.get document key) key

def registrationEndpoint (lib : NetLibrary) (document : Dict) : Checked (Option Str) :=
  if (Dict.get document "registration_endpoint").isNull = true then .ok none
  else (requiredEndpoint lib document "registration_endpoint").map some

/-- `value == text`. -/
def isText (value : Json) (text : Str) : Bool :=
  match value with
  | .str s => decide (s = text)
  | _ => false

def validateAuthorizationMetadata (lib : NetLibrary) (issuer : BoundURL) (expected : Str) (document : Dict) :
    Checked AuthorizationMetadata :=
  if isText (Dict.get document "issuer") expected = false then .error (u "issuer_mismatch")
  else do
    let declared ← metadataUrl lib (.str expected) "issuer"
    if declared.url ≠ issuer.url then .error (u "issuer_mismatch")
    else do
      let methods ← stringList (Dict.get document "code_challenge_methods_supported")
        "code_challenge_methods_supported" 16 true
      if u "S256" ∉ methods then .error (u "pkce_s256_missing")
      else do
        let scopes ← stringList (Dict.get document "scopes_supported") "scopes_supported" maxScopes false
        let client ← optionalBool document "client_id_metadata_document_supported"
        let iss ← optionalBool document "authorization_response_iss_parameter_supported"
        let registration ← registrationEndpoint lib document
        let authorization ← requiredEndpoint lib document "authorization_endpoint"
        let token ← requiredEndpoint lib document "token_endpoint"
        .ok
          { issuer := expected, authorizationEndpoint := authorization, tokenEndpoint := token,
            codeChallengeMethods := methods, scopesSupported := scopes,
            clientIdMetadataDocumentSupported := client, registrationEndpoint := registration,
            issParameterSupported := iss }

/-! ## Discovery -/

/-- What a loop over candidate URLs leaves behind. -/
structure Discovery (α : Type) where
  requests : List BoundURL
  asked : List Str
  attempts : List Attempt
  errors : List Str
  found : Option (α × Str × String)

/-- The loop over candidates, up to the first document that `validate` accepts. -/
def Probe.discover {α : Type} (p : Probe) (front : String) (validate : Dict → Checked α) (valid : String) :
    List (Str × String) → List BoundURL → PostureM (Discovery α)
  | [], before => .ok { requests := before, asked := [], attempts := [], errors := [], found := none }
  | (url, discovery) :: rest, before => do
    let (target, document, attempt) ← p.fetchJson before url (front ++ discovery)
    match document with
    | none => do
      let later ← p.discover front validate valid rest (before ++ [target])
      .ok { later with
        asked := url :: later.asked, attempts := attempt :: later.attempts,
        errors := attempt.reasonCode.getD (u "None") :: later.errors }
    | some document =>
      match validate document with
      | .error reason => do
        let later ← p.discover front validate valid rest (before ++ [target])
        .ok { later with
          asked := url :: later.asked,
          attempts := { attempt with state := .invalid, reasonCode := some reason } :: later.attempts,
          errors := reason :: later.errors }
      | .ok value =>
        .ok
          { requests := before ++ [target], asked := [url],
            attempts := [{ attempt with state := .validated, reasonCode := some (u valid) }], errors := [],
            found := some (value, url, discovery) }

structure ServerResult where
  issuer : Str
  ready : Bool
  metadataUrl : Option Str := none
  discovery : Option String := none
  metadata : Option AuthorizationMetadata := none
  reasonCodes : List Str
  deriving DecidableEq

/-- `_unique(errors or [text])`. -/
def errorsOr (errors : List Str) (text : String) : List Str := unique (if errors = [] then [u text] else errors)

def serverResult (issuer : Str) (discovery : Discovery AuthorizationMetadata) : ServerResult :=
  match discovery.found with
  | none =>
    { issuer := issuer, ready := false,
      reasonCodes := errorsOr discovery.errors "authorization_server_metadata_unavailable" }
  | some (metadata, url, kind) =>
    let deprecated := metadata.registrationEndpoint.any (fun endpoint => decide (endpoint ≠ [])) &&
      !metadata.clientIdMetadataDocumentSupported.getD false
    { issuer := issuer, ready := true, metadataUrl := some url, discovery := some kind, metadata := some metadata,
      reasonCodes := u "metadata_ready" :: if deprecated then [u "deprecated_registration"] else [] }

structure ServersRun where
  asked : List Str := []
  attempts : List Attempt := []
  results : List ServerResult := []

/-- The loop over the issuers. -/
def Probe.probeServers (p : Probe) : List Str → List BoundURL → PostureM ServersRun
  | [], _ => .ok {}
  | issuer :: rest, before =>
    match metadataUrl p.lib (.str issuer) "authorization_server" with
    | .error _ => .error (.escaped .valueError)
    | .ok bound => do
      let discovery ← p.discover "authorization-server:" (validateAuthorizationMetadata p.lib bound issuer)
        "authorization_server_metadata_valid" (authorizationMetadataCandidates bound) before
      let later ← p.probeServers rest discovery.requests
      .ok
        { asked := discovery.asked ++ later.asked, attempts := discovery.attempts ++ later.attempts,
          results := serverResult issuer discovery :: later.results }

structure PostureResult where
  observedAt : Str
  resourceUrl : Str
  ready : Bool := false
  authorizationRequired : Option Bool := none
  challengeScopes : List Str := []
  resourceMetadata : Option (ResourceMetadata × Str × String) := none
  authorizationServers : List ServerResult := []
  fetches : List Attempt := []
  reasonCodes : List Str := []
  deriving DecidableEq

/-- The challenge and the candidates, where no reason code ends the run. -/
def startDiscovery (lib : NetLibrary) (resource : BoundURL) (wwwAuthenticate : Option Str) :
    Checked (List Str × List (Str × String)) := do
  let (challengeUrl, scopes) ← challenge wwwAuthenticate
  let candidates ← resourceMetadataCandidates lib resource challengeUrl
  .ok (scopes, candidates)

/-- `probe_authorization_posture` with a valid timeout: the result and the URLs asked for, in order. -/
def Probe.run (p : Probe) (resourceUrl : Str) (wwwAuthenticate : Option Str) : PostureM (PostureResult × List Str) := do
  let resource ← boundHttpsUrl p.lib resourceUrl "candidate resource URL"
  let base : PostureResult := { observedAt := zuluText p.observedAt, resourceUrl := resourceUrl }
  match startDiscovery p.lib resource wwwAuthenticate with
  | .error reason => .ok ({ base with reasonCodes := [reason] }, [])
  | .ok (scopes, candidates) => do
    let started := { base with
      authorizationRequired := if wwwAuthenticate.isSome then some true else none, challengeScopes := scopes }
    let discovery ← p.discover "resource-metadata:" (validateResourceMetadata p.lib resource)
      "resource_metadata_valid" candidates []
    match discovery.found with
    | none =>
      .ok ({ started with
        fetches := discovery.attempts, reasonCodes := errorsOr discovery.errors "resource_metadata_unavailable" },
        discovery.asked)
    | some (metadata, url, kind) => do
      let servers ← p.probeServers metadata.authorizationServers discovery.requests
      let readyCount := servers.results.countP ServerResult.ready
      let reasons :=
        if readyCount = 0 then [u "authorization_server_metadata_unavailable"]
        else u "metadata_ready" ::
          if readyCount ≠ servers.results.length then [u "authorization_server_partial"] else []
      .ok ({ started with
        ready := decide (readyCount ≠ 0), resourceMetadata := some (metadata, url, kind),
        authorizationServers := servers.results, fetches := discovery.attempts ++ servers.attempts,
        reasonCodes := reasons }, discovery.asked ++ servers.asked)

end McpTrust.Posture
