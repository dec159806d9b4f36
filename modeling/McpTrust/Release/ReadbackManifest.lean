import McpTrust.Core.Grading
import McpTrust.Qualification.Runs
import McpTrust.Release.Routes
import McpTrust.Refresh.NpmCache

/-! # The readback manifest and its consumers

`_public_readback_manifest` lists one route for each public file of a site. The readback
tool validates the list and requests each route; the verifier of a publication receipt
computes the requested URLs again.
-/

namespace McpTrust.Release

set_option autoImplicit false

open Python

/-- What is raised, with its text. -/
inductive Raised
  | siteCandidateError (message : Str)
  | manifestError (message : Str)
  | overflowError
  deriving DecidableEq

/-! ## The producer -/

/-- A row of `_capture_content`. -/
structure SiteFile where
  path : Str
  bytes : Nat
  sha256 : Str
  deriving DecidableEq

/-- The files below the root of a site, in the order they are captured. -/
structure SiteTree where
  contents : List (Str × Bytes)
  distinct : (contents.map Prod.fst).Nodup

/-- `_capture_content(root)`. -/
def SiteTree.files (tree : SiteTree) : List SiteFile :=
  tree.contents.map fun entry => ⟨entry.1, entry.2.length, Refresh.digestBytes entry.2⟩

def readbackMissingRoute : String := "/__mcp_trust_candidate_missing__"

def readbackMaxRoutes : Nat := 128

def readbackMaxBodyBytes : Nat := 16 * 1024 * 1024

def isPublic (file : SiteFile) : Bool := decide (file.path ≠ u "vercel.json")

/-- The mapping of `_public_route`. -/
def mappedRoute (relative : Str) : Option (Str × ℤ) :=
  if relative = u "index.html" then some (u "/", 200)
  else if relative = u "404.html" then some (u readbackMissingRoute, 404)
  else if (u "ui/").isPrefixOf relative && (u "/index.html").isSuffixOf relative then
    some (ch '/' :: relative.take (relative.length - 11), 200)
  else if (u "servers/").isPrefixOf relative && (u "/badge.json").isSuffixOf relative then some (ch '/' :: relative, 200)
  else none

/-- `_public_route(relative)`. -/
def publicRoute (relative : Str) : Except Raised (Str × ℤ) :=
  match mappedRoute relative with
  | none => .error (.siteCandidateError (u "site candidate file has no public route mapping: " ++ relative))
  | some (route, status) =>
    if !(u "/").isPrefixOf route || (u "//").isPrefixOf route || decide (ch '#' ∈ route) || route.any isWhite then
      .error (.siteCandidateError (u "site candidate file maps to an invalid public route: " ++ relative))
    else .ok (route, status)

/-- `f"route-{index:03d}"`. -/
def routeId (index : Nat) : Str :=
  u "route-" ++ (List.replicate (3 - (natRepr index).length) (ch '0') ++ natRepr index)

def routeEntry (index : Nat) (route : Str) (status : ℤ) (digest : Str) : Json :=
  .obj
    [(u "id", .str (routeId index)), (u "method", .str (u "GET")), (u "route", .str route),
      (u "expected_status", .int status), (u "body_sha256", .str digest)]

/-- The loop over the public files. -/
def publicRoutes (index : Nat) : List SiteFile → Except Raised (List Json)
  | [] => .ok []
  | file :: rest => do
    let mapped ← publicRoute file.path
    let routes ← publicRoutes (index + 1) rest
    .ok (routeEntry index mapped.1 mapped.2 (Qualification.removeDigestPrefix file.sha256) :: routes)

def largestBody (files : List SiteFile) : Nat := files.foldl (fun largest file => max largest file.bytes) 1

def manifestOf (largest : Nat) (routes : List Json) : Json :=
  .obj
    [(u "schema", .str (u "WebReleaseSentinelManifestV1")), (u "contract_version", .str (u "1.0.0")),
      (u "name", .str (u "mcp-trust-site-candidate-exact")),
      (u "defaults", .obj
        [(u "timeout_seconds", .int 10), (u "max_body_bytes", .int largest),
          (u "follow_same_origin_redirects", .bool false)]),
      (u "denied_methods", .arr (["POST", "PUT", "PATCH", "DELETE", "CONNECT", "TRACE"].map fun name => .str (u name))),
      (u "routes", .arr routes)]

/-- `_public_readback_manifest(files)`. -/
def publicReadbackManifest (files : List SiteFile) : Except Raised Json := do
  let publicFiles := files.filter isPublic
  if ¬(1 ≤ publicFiles.length ∧ publicFiles.length ≤ readbackMaxRoutes) then
    .error (.siteCandidateError (u "site candidate exact readback requires between 1 and 128 routes"))
  else do
    let routes ← publicRoutes 0 publicFiles
    if readbackMaxBodyBytes < largestBody publicFiles then
      .error (.siteCandidateError (u "site candidate file exceeds exact readback body limit"))
    else .ok (manifestOf (largestBody publicFiles) routes)

/-! ## The validator -/

/-- `str.upper` and `repr` of a text. -/
structure TextTables where
  upper : Str → Str
  upper_ascii : ∀ s, Ascii s → upper s = upperAscii s
  repr : Str → Str

def refuseManifest (refused : Bool) (message : Str) : Except Raised Unit :=
  if refused then .error (.manifestError message) else .ok ()

/-- `", ".join(names)`. -/
def joinComma (names : List Str) : Str := (u ", ").intercalate names

def requireMapping (value : Json) (label : Str) : Except Raised Dict :=
  match value with
  | .obj fields => .ok fields
  | _ => .error (.manifestError (label ++ u " must be an object"))

/-- `_require_exact_keys(value, label, required, optional)`. -/
def requireExactKeys (value : Dict) (label : Str) (required allowed : List String) : Except Raised Unit := do
  let missing := (required.map u).filter fun key => !Dict.contains value key
  let extra := (Dict.keys value).filter fun key => decide (key ∉ (required ++ allowed).map u)
  refuseManifest (!missing.isEmpty)
    (label ++ u " is missing required keys: " ++ joinComma (missing.insertionSort StrLe))
  refuseManifest (!extra.isEmpty) (label ++ u " has unsupported keys: " ++ joinComma (extra.insertionSort StrLe))

/-- `float(value)` of a number. -/
def numberOf (value : Json) (label : Str) : Except Raised PyFloat :=
  match value with
  | .int n => if (PyFloat.ofRat n).isFinite then .ok (PyFloat.ofRat n) else .error .overflowError
  | .float x => .ok x
  | _ => .error (.manifestError (label ++ u " must be a number"))

/-- `_positive_number(value, label, 60.0)`. -/
def positiveNumber (value : Json) (label : Str) : Except Raised PyFloat := do
  let number ← numberOf value label
  if leFloat number (.ofRat 0) || ltFloat (.ofRat 60) number then
    .error (.manifestError (label ++ u " must be greater than 0 and at most 60"))
  else .ok number

/-- `_positive_int(value, label, MAX_BODY_BYTES)`. -/
def positiveInt (value : Json) (label : Str) : Except Raised ℤ :=
  match value with
  | .int n =>
    if n ≤ 0 ∨ 16777216 < n then
      .error (.manifestError (label ++ u " must be greater than 0 and at most 16777216"))
    else .ok n
  | _ => .error (.manifestError (label ++ u " must be an integer"))

def indexed (label : Str) (index : Nat) : Str := label ++ u "[" ++ natRepr index ++ u "]"

def sentinelItems (label : Str) (index : Nat) : List Json → Except Raised (List Str)
  | [] => .ok []
  | item :: rest =>
    match item with
    | .str text =>
      if text = [] ∨ 4096 < text.length then
        .error (.manifestError (indexed label index ++ u " must be a non-empty string up to 4096 characters"))
      else do
        let texts ← sentinelItems label (index + 1) rest
        .ok (text :: texts)
    | _ => .error (.manifestError (indexed label index ++ u " must be a non-empty string up to 4096 characters"))

/-- `_sentinels(value, label)`. -/
def sentinels (value : Json) (label : Str) : Except Raised (List Str) :=
  match value with
  | .arr items =>
    if 64 < items.length then .error (.manifestError (label ++ u " must contain at most 64 entries"))
    else do
      let texts ← sentinelItems label 0 items
      if texts.Nodup then .ok texts else .error (.manifestError (label ++ u " must not contain duplicates"))
  | _ => .error (.manifestError (label ++ u " must be an array"))

/-- `_ID_RE.fullmatch(text)`. -/
def isManifestId : Str → Bool
  | [] => false
  | c :: rest =>
    isLowerAlpha c && decide (rest.length ≤ 62) &&
      rest.all fun d => isLowerAlpha d || isDigit d || decide (d = ch '-')

def isManifestIdValue : Json → Bool
  | .str text => isManifestId text
  | _ => false

/-- `_SHA256_RE.fullmatch(text)` of a text. -/
def isBodyDigest : Json → Bool
  | .str text => decide (text.length = 64) && text.all isHexLower
  | _ => false

/-- `_positive_number` and `_positive_int` on an optional key. -/
def timeoutOf (route : Dict) (label : Str) (inherited : PyFloat) : Except Raised PyFloat :=
  match Dict.lookup route (u "timeout_seconds") with
  | some value => positiveNumber value (label ++ u ".timeout_seconds")
  | none => .ok inherited

def maxBodyOf (route : Dict) (label : Str) (inherited : ℤ) : Except Raised ℤ :=
  match Dict.lookup route (u "max_body_bytes") with
  | some value => positiveInt value (label ++ u ".max_body_bytes")
  | none => .ok inherited

def isStatus : Json → Bool
  | .int n => decide (100 ≤ n ∧ n ≤ 599)
  | _ => false

def isRouteValue : Json → Bool
  | .str route => isRoute route
  | _ => false

def isText : Json → Bool
  | .str _ => true
  | _ => false

/-- `route["method"].upper()`. -/
def methodOf (tables : TextTables) (value : Json) (label : Str) : Except Raised Str :=
  match value with
  | .str text =>
    if tables.upper text ∈ ["GET", "HEAD"].map u then .ok (tables.upper text)
    else
      .error (.manifestError (label ++ u ".method " ++ tables.repr (tables.upper text) ++
        u " is denied; only GET and HEAD are implemented"))
  | _ => .error (.manifestError (label ++ u ".method must be a string"))

/-- The loop body of `validate_manifest`: the normalised route. -/
def validateRoute (tables : TextTables) (timeout : PyFloat) (maxBody : ℤ) (seen : List Json) (index : Nat)
    (raw : Json) : Except Raised Dict := do
  let label := indexed (u "routes") index
  let route ← requireMapping raw label
  requireExactKeys route label ["id", "method", "route", "expected_status"]
    ["timeout_seconds", "max_body_bytes", "required_sentinels", "forbidden_sentinels", "exact_body_utf8", "body_sha256"]
  let id := Dict.get route "id"
  refuseManifest (!isManifestIdValue id) (label ++ u ".id must match ^[a-z][a-z0-9-]\x7b0,62\x7d$")
  refuseManifest (seen.any fun other => Json.pyEq other id)
    (u "duplicate route id: " ++ (match id with | .str text => text | _ => []))
  let method ← methodOf tables (Dict.get route "method") label
  let path := Dict.get route "route"
  refuseManifest (!isRouteValue path)
    (label ++ u ".route must be a root-relative path without whitespace or fragments")
  let status := Dict.get route "expected_status"
  refuseManifest (!isStatus status) (label ++ u ".expected_status must be an HTTP status integer")
  let routeTimeout ← timeoutOf route label timeout
  let routeMaxBody ← maxBodyOf route label maxBody
  let required ← sentinels ((Dict.lookup route (u "required_sentinels")).getD (.arr [])) (label ++ u ".required_sentinels")
  let forbidden ← sentinels ((Dict.lookup route (u "forbidden_sentinels")).getD (.arr [])) (label ++ u ".forbidden_sentinels")
  let overlap := (required.filter fun text => decide (text ∈ forbidden)).insertionSort StrLe
  refuseManifest (!overlap.isEmpty)
    (label ++ u " requires and forbids the same sentinel: " ++ tables.repr (overlap.headD []))
  let exactBody := Dict.get route "exact_body_utf8"
  let digest := Dict.get route "body_sha256"
  refuseManifest (!exactBody.isNull && !isText exactBody) (label ++ u ".exact_body_utf8 must be a string")
  refuseManifest (!digest.isNull && !isBodyDigest digest) (label ++ u ".body_sha256 must be a lowercase SHA-256 digest")
  refuseManifest (!exactBody.isNull && !digest.isNull) (label ++ u " may define exact_body_utf8 or body_sha256, not both")
  refuseManifest (decide (method = u "HEAD") &&
      (!required.isEmpty || !forbidden.isEmpty || !exactBody.isNull || !digest.isNull))
    (label ++ u " HEAD checks may assert status only")
  .ok ([(u "id", id), (u "method", .str method), (u "route", path), (u "expected_status", status),
      (u "timeout_seconds", .float routeTimeout), (u "max_body_bytes", .int routeMaxBody),
      (u "required_sentinels", .arr (required.map Json.str)), (u "forbidden_sentinels", .arr (forbidden.map Json.str))] ++
    (if exactBody.isNull then [] else [(u "exact_body_utf8", exactBody)]) ++
    (if digest.isNull then [] else [(u "body_sha256", digest)]))

/-- The loop over the routes. -/
def validateRoutes (tables : TextTables) (timeout : PyFloat) (maxBody : ℤ) (seen : List Json) (index : Nat) :
    List Json → Except Raised (List Dict)
  | [] => .ok []
  | raw :: rest => do
    let route ← validateRoute tables timeout maxBody seen index raw
    let routes ← validateRoutes tables timeout maxBody (Dict.get route "id" :: seen) (index + 1) rest
    .ok (route :: routes)

def deniedMethods : List String := ["POST", "PUT", "PATCH", "DELETE", "CONNECT", "TRACE"]

/-- `denied_methods` as a list of texts. -/
def deniedOf (value : Json) : Except Raised (List Str) :=
  match value with
  | .arr items =>
    if items.all isText then .ok (items.map fun item => match item with | .str text => text | _ => [])
    else .error (.manifestError (u "denied_methods must be an array of strings"))
  | _ => .error (.manifestError (u "denied_methods must be an array of strings"))

/-- A manifest as `validate_manifest` returns it. -/
structure NormalizedManifest where
  name : Str
  timeoutSeconds : PyFloat
  maxBodyBytes : ℤ
  followSameOriginRedirects : Bool
  routes : List Dict

/-- `validate_manifest(value)`. -/
def validateManifest (tables : TextTables) (value : Json) : Except Raised NormalizedManifest := do
  let manifest ← requireMapping value (u "manifest")
  requireExactKeys manifest (u "manifest")
    ["schema", "contract_version", "name", "defaults", "denied_methods", "routes"] []
  refuseManifest (!(Dict.get manifest "schema").isStr "WebReleaseSentinelManifestV1")
    (u "manifest schema must be WebReleaseSentinelManifestV1")
  refuseManifest (!(Dict.get manifest "contract_version").isStr "1.0.0") (u "contract_version must be 1.0.0")
  refuseManifest (!isManifestIdValue (Dict.get manifest "name"))
    (u "manifest name must match ^[a-z][a-z0-9-]\x7b0,62\x7d$")
  let defaults ← requireMapping (Dict.get manifest "defaults") (u "defaults")
  requireExactKeys defaults (u "defaults") ["timeout_seconds", "max_body_bytes", "follow_same_origin_redirects"] []
  let timeout ← positiveNumber (Dict.get defaults "timeout_seconds") (u "defaults.timeout_seconds")
  let maxBody ← positiveInt (Dict.get defaults "max_body_bytes") (u "defaults.max_body_bytes")
  let follow ← match Dict.get defaults "follow_same_origin_redirects" with
    | .bool follow => .ok follow
    | _ => .error (.manifestError (u "defaults.follow_same_origin_redirects must be boolean"))
  let denied ← deniedOf (Dict.get manifest "denied_methods")
  refuseManifest (!decide denied.Nodup) (u "denied_methods must not contain duplicates")
  refuseManifest (!(denied.all (fun name => decide (name ∈ deniedMethods.map u)) &&
      (deniedMethods.map u).all fun name => decide (name ∈ denied)))
    (u "denied_methods must contain exactly POST, PUT, PATCH, DELETE, CONNECT, TRACE")
  match Dict.get manifest "routes" with
  | .arr routes => do
    refuseManifest (!decide (1 ≤ routes.length ∧ routes.length ≤ 128)) (u "routes must contain between 1 and 128 entries")
    let normalized ← validateRoutes tables timeout maxBody [] 0 routes
    .ok ⟨(match Dict.get manifest "name" with | .str name => name | _ => []), timeout, maxBody, follow, normalized⟩
  | _ => .error (.manifestError (u "routes must contain between 1 and 128 entries"))

/-! ## The producer's routes -/

theorem raised_bind {α β : Type} {x : Except Raised α} {f : α → Except Raised β} {a : α} {b : β} (hx : x = .ok a)
    (hf : f a = .ok b) : (x >>= f) = .ok b := by
  rw [hx]
  exact hf

theorem of_raised_bind {α β : Type} {x : Except Raised α} {f : α → Except Raised β} {b : β} (h : (x >>= f) = .ok b) :
    ∃ a, x = .ok a ∧ f a = .ok b := by
  cases x with
  | error e => cases h
  | ok a => exact ⟨a, rfl, h⟩

theorem publicRoute_eq_ok {relative route : Str} {status : ℤ} (h : publicRoute relative = .ok (route, status)) :
    mappedRoute relative = some (route, status) ∧ isRoute route = true := by
  unfold publicRoute at h
  split at h
  · cases h
  · next found code hmapped =>
    split_ifs at h with hrefused
    cases h
    refine ⟨hmapped, ?_⟩
    simp only [Bool.or_eq_true, not_or, Bool.not_eq_true, Bool.not_eq_false', decide_eq_false_iff_not] at hrefused
    obtain ⟨⟨⟨hroot, hdouble⟩, hfragment⟩, hspace⟩ := hrefused
    simp [isRoute, hroot, hdouble, hfragment, hspace]

/-- The mapping has an inverse: the file a route is for. -/
def fileOf (route : Str) : Str :=
  if route = u "/" then u "index.html"
  else if route = u readbackMissingRoute then u "404.html"
  else if (u "/servers/").isPrefixOf route then route.drop 1
  else route.drop 1 ++ u "/index.html"

theorem second_ne {s t : Str} {c : CodePoint} {d : Option CodePoint} (hs : s[1]? = some c) (ht : t[1]? = d)
    (h : d ≠ some c) : s ≠ t := by
  rintro rfl
  exact h (ht.symm.trans hs)

/-- The second character tells a page's route from all others. -/
theorem fileOf_page (below : Str) :
    fileOf (ch '/' :: ch 'u' :: ch 'i' :: below) = ch 'u' :: ch 'i' :: below ++ u "/index.html" := by
  have hsecond : (ch '/' :: ch 'u' :: ch 'i' :: below)[1]? = some (ch 'u') := rfl
  have hroot : ch '/' :: ch 'u' :: ch 'i' :: below ≠ u "/" := second_ne hsecond rfl (by decide)
  have hmissing : ch '/' :: ch 'u' :: ch 'i' :: below ≠ u readbackMissingRoute :=
    second_ne hsecond (t := u readbackMissingRoute) (d := some (ch '_')) (by decide) (by decide)
  have hbadge : ¬(u "/servers/").isPrefixOf (ch '/' :: ch 'u' :: ch 'i' :: below) = true := by
    intro h
    obtain ⟨rest, hrest⟩ := List.isPrefixOf_iff_prefix.mp h
    exact second_ne hsecond (t := u "/servers/" ++ rest) (d := some (ch 's')) rfl (by decide) hrest.symm
  rw [fileOf, if_neg hroot, if_neg hmissing, if_neg hbadge]
  rfl

theorem fileOf_badge (rest : Str) : fileOf (ch '/' :: (u "servers/" ++ rest)) = u "servers/" ++ rest := by
  have hsecond : (ch '/' :: (u "servers/" ++ rest))[1]? = some (ch 's') := rfl
  have hroot : ch '/' :: (u "servers/" ++ rest) ≠ u "/" := second_ne hsecond rfl (by decide)
  have hmissing : ch '/' :: (u "servers/" ++ rest) ≠ u readbackMissingRoute :=
    second_ne hsecond (t := u readbackMissingRoute) (d := some (ch '_')) (by decide) (by decide)
  have hbadge : (u "/servers/").isPrefixOf (ch '/' :: (u "servers/" ++ rest)) = true :=
    List.isPrefixOf_iff_prefix.mpr ⟨rest, rfl⟩
  rw [fileOf, if_neg hroot, if_neg hmissing, if_pos hbadge]
  rfl

/-- The directory of a page starts with `ui`. -/
theorem page_front {front rest : Str} (h : u "ui/" ++ rest = front ++ u "/index.html") :
    ∃ below, front = ch 'u' :: ch 'i' :: below := by
  match front with
  | [] =>
    have hfirst : some (ch 'u') = some (ch '/') := congrArg List.head? h
    exact absurd hfirst (by decide)
  | [a] => exact absurd h (second_ne (c := ch 'i') (d := some (ch '/')) rfl rfl (by decide))
  | a :: b :: below =>
    have hfirst : some (ch 'u') = some a := congrArg List.head? h
    have hsecond : some (ch 'i') = some b := congrArg (fun s : Str => s[1]?) h
    exact ⟨below, by rw [← Option.some.inj hfirst, ← Option.some.inj hsecond]⟩

theorem mappedRoute_spec {relative route : Str} {status : ℤ} (h : mappedRoute relative = some (route, status)) :
    fileOf route = relative ∧ (status = 200 ∨ status = 404) := by
  unfold mappedRoute at h
  by_cases hindex : relative = u "index.html"
  · rw [if_pos hindex] at h
    cases h
    exact ⟨hindex ▸ rfl, .inl rfl⟩
  rw [if_neg hindex] at h
  by_cases hmissing : relative = u "404.html"
  · rw [if_pos hmissing] at h
    cases h
    exact ⟨by rw [hmissing]; decide, .inr rfl⟩
  rw [if_neg hmissing] at h
  by_cases hpage : ((u "ui/").isPrefixOf relative && (u "/index.html").isSuffixOf relative) = true
  · rw [if_pos hpage] at h
    cases h
    obtain ⟨hfront, hback⟩ := Bool.and_eq_true_iff.mp hpage
    obtain ⟨front, rfl⟩ := List.isSuffixOf_iff_suffix.mp hback
    obtain ⟨rest, hrest⟩ := List.isPrefixOf_iff_prefix.mp hfront
    have hlength : (front ++ u "/index.html").length - 11 = front.length := by
      have hname : (u "/index.html").length = 11 := by decide
      rw [List.length_append, hname, Nat.add_sub_cancel]
    obtain ⟨below, rfl⟩ := page_front hrest
    rw [hlength, List.take_left]
    exact ⟨fileOf_page below, .inl rfl⟩
  rw [if_neg hpage] at h
  by_cases hbadge : ((u "servers/").isPrefixOf relative && (u "/badge.json").isSuffixOf relative) = true
  · rw [if_pos hbadge] at h
    cases h
    obtain ⟨hfront, -⟩ := Bool.and_eq_true_iff.mp hbadge
    obtain ⟨rest, rfl⟩ := List.isPrefixOf_iff_prefix.mp hfront
    exact ⟨fileOf_badge rest, .inl rfl⟩
  · rw [if_neg hbadge] at h
    cases h

/-- A route as it is normalised. -/
def normalizedEntry (timeout : PyFloat) (maxBody : ℤ) (index : Nat) (route : Str) (status : ℤ) (digest : Str) : Dict :=
  [(u "id", .str (routeId index)), (u "method", .str (u "GET")), (u "route", .str route),
    (u "expected_status", .int status), (u "timeout_seconds", .float timeout), (u "max_body_bytes", .int maxBody),
    (u "required_sentinels", .arr []), (u "forbidden_sentinels", .arr []), (u "body_sha256", .str digest)]

theorem refuseManifest_false {refused : Bool} {message : Str} (h : refused = false) :
    refuseManifest refused message = .ok () := by
  rw [h]
  rfl

theorem methodOf_get (tables : TextTables) (label : Str) : methodOf tables (.str (u "GET")) label = .ok (u "GET") := by
  have hascii : Ascii (u "GET") := by decide
  have hupper : tables.upper (u "GET") = u "GET" := by
    rw [tables.upper_ascii _ hascii]
    decide
  have hsafe : u "GET" ∈ ["GET", "HEAD"].map u := by decide
  rw [methodOf, hupper, if_pos hsafe]

theorem validateRoute_entry (tables : TextTables) (timeout : PyFloat) (maxBody : ℤ) {seen : List Json} {index : Nat}
    {route digest : Str} {status : ℤ} (hid : isManifestId (routeId index) = true)
    (hseen : (seen.any fun other => Json.pyEq other (.str (routeId index))) = false) (hroute : isRoute route = true)
    (hstatus : status = 200 ∨ status = 404) (hdigest : isBodyDigest (.str digest) = true) :
    validateRoute tables timeout maxBody seen index (routeEntry index route status digest) =
      .ok (normalizedEntry timeout maxBody index route status digest) := by
  have hcode : isStatus (.int status) = true := by
    obtain rfl | rfl := hstatus <;> rfl
  have hname : (!isManifestIdValue (.str (routeId index))) = false := by rw [isManifestIdValue, hid]; rfl
  have hpath : (!isRouteValue (.str route)) = false := by rw [isRouteValue, hroute]; rfl
  have hnumber : (!isStatus (.int status)) = false := by rw [hcode]; rfl
  have hbody : (!(Json.str digest).isNull && !isBodyDigest (.str digest)) = false := by rw [hdigest]; rfl
  unfold validateRoute
  -- the checks, in their order, on the five keys of an entry
  refine raised_bind rfl (raised_bind rfl ?_)
  refine raised_bind (refuseManifest_false hname) (raised_bind (refuseManifest_false hseen) ?_)
  refine raised_bind (methodOf_get tables _) (raised_bind (refuseManifest_false hpath) ?_)
  refine raised_bind (refuseManifest_false hnumber) (raised_bind rfl (raised_bind rfl ?_))
  refine raised_bind rfl (raised_bind rfl (raised_bind rfl (raised_bind rfl ?_)))
  exact raised_bind (refuseManifest_false hbody) (raised_bind rfl (raised_bind rfl rfl))

/-! ## The loop over the routes -/

/-- The number of a route is read back from its id. -/
theorem routeId_spec : ((List.range 128).all fun index =>
    isManifestId (routeId index) && decide (readNat ((routeId index).drop 6) = index)) = true := by
  decide +kernel

theorem isManifestId_routeId {index : Nat} (h : index < 128) : isManifestId (routeId index) = true :=
  (Bool.and_eq_true_iff.mp (List.all_eq_true.mp routeId_spec index (List.mem_range.mpr h))).1

theorem routeId_injective {i j : Nat} (hi : i < 128) (hj : j < 128) (h : routeId i = routeId j) : i = j := by
  have hread : ∀ {k}, k < 128 → readNat ((routeId k).drop 6) = k := fun {k} hk =>
    of_decide_eq_true (Bool.and_eq_true_iff.mp (List.all_eq_true.mp routeId_spec k (List.mem_range.mpr hk))).2
  rw [← hread hi, ← hread hj, h]

theorem isBodyDigest_content (content : Bytes) :
    isBodyDigest (.str (Qualification.removeDigestPrefix (Refresh.digestBytes content))) = true := by
  rw [Qualification.removeDigestPrefix_digestBytes]
  simp only [isBodyDigest, length_sha256Hex, decide_true, Bool.true_and, List.all_eq_true]
  exact sha256Hex_isHexLower content

/-- The route of a captured file, and its entry. -/
def EntryOf (index : Nat) (file : SiteFile) (entry : Json) : Prop :=
  ∃ route status, mappedRoute file.path = some (route, status) ∧ isRoute route = true ∧
    entry = routeEntry index route status (Qualification.removeDigestPrefix file.sha256)

/-- `str(expected.get("route", ""))`. -/
def routeText (entry : Json) : Str :=
  match entry with
  | .obj fields => match Dict.get fields "route" with | .str route => route | _ => []
  | _ => []

theorem publicRoutes_eq_ok {files : List SiteFile} {index : Nat} {entries : List Json}
    (h : publicRoutes index files = .ok entries) :
    (entries.map fun entry => fileOf (routeText entry)) = files.map SiteFile.path ∧
      ∀ k file, files[k]? = some file → ∃ entry, entries[k]? = some entry ∧ EntryOf (index + k) file entry := by
  induction files generalizing index entries with
  | nil =>
    cases h
    exact ⟨rfl, fun k file hk => by cases hk⟩
  | cons file rest ih =>
    obtain ⟨⟨route, status⟩, hroute, h⟩ := of_raised_bind h
    obtain ⟨tail, htail, h⟩ := of_raised_bind h
    cases h
    obtain ⟨hmapped, hvalid⟩ := publicRoute_eq_ok hroute
    obtain ⟨hpaths, hentries⟩ := ih htail
    refine ⟨?_, fun k other hk => ?_⟩
    · rw [List.map_cons, List.map_cons, hpaths]
      exact congrArg (· :: rest.map SiteFile.path) (mappedRoute_spec hmapped).1
    cases k with
    | zero =>
      cases hk
      exact ⟨_, rfl, route, status, hmapped, hvalid, rfl⟩
    | succ k =>
      obtain ⟨entry, hentry, hof⟩ := hentries k other hk
      refine ⟨entry, hentry, ?_⟩
      rwa [show index + (k + 1) = index + 1 + k by omega]

theorem validateRoutes_produced (tables : TextTables) (timeout : PyFloat) (maxBody : ℤ) {files : List SiteFile}
    {index : Nat} {entries seen : List Json} (h : publicRoutes index files = .ok entries)
    (hcaptured : ∀ file ∈ files, isBodyDigest (.str (Qualification.removeDigestPrefix file.sha256)) = true)
    (hbound : index + files.length ≤ 128) (hseen : ∀ other ∈ seen, ∃ j, j < index ∧ other = .str (routeId j)) :
    ∃ routes, validateRoutes tables timeout maxBody seen index entries = .ok routes ∧
      (routes.map fun route => Dict.get route "route") = entries.map fun entry => .str (routeText entry) := by
  induction files generalizing index entries seen with
  | nil =>
    cases h
    exact ⟨[], rfl, rfl⟩
  | cons file rest ih =>
    obtain ⟨⟨route, status⟩, hroute, h⟩ := of_raised_bind h
    obtain ⟨tail, htail, h⟩ := of_raised_bind h
    cases h
    obtain ⟨hmapped, hvalid⟩ := publicRoute_eq_ok hroute
    obtain ⟨hfile, hrest⟩ := List.forall_mem_cons.mp hcaptured
    rw [List.length_cons] at hbound
    have hfresh : (seen.any fun other => Json.pyEq other (.str (routeId index))) = false := by
      rw [List.any_eq_false]
      intro other hother hsame
      obtain ⟨j, hj, rfl⟩ := hseen other hother
      have hindex := routeId_injective (by omega) (by omega) (Json.str.inj (Json.pyEq_str.mp hsame))
      omega
    have hentry := validateRoute_entry tables timeout maxBody (@isManifestId_routeId index (by omega)) hfresh hvalid
      (mappedRoute_spec hmapped).2 hfile
    have hseen' : ∀ other ∈ Json.str (routeId index) :: seen, ∃ j, j < index + 1 ∧ other = .str (routeId j) := by
      refine List.forall_mem_cons.mpr ⟨⟨index, Nat.lt_succ_self _, rfl⟩, fun other hother => ?_⟩
      obtain ⟨j, hj, hid⟩ := hseen other hother
      exact ⟨j, Nat.lt_succ_of_lt hj, hid⟩
    obtain ⟨routes, hroutes, hpaths⟩ := ih htail hrest (by omega) hseen'
    refine ⟨_, raised_bind hentry (raised_bind hroutes rfl), ?_⟩
    rw [List.map_cons, List.map_cons, hpaths]
    rfl

/-! ## The two consumers -/

theorem largestBody_pos (files : List SiteFile) : 1 ≤ largestBody files := by
  have hfold : ∀ (files : List SiteFile) (largest : Nat), largest ≤ files.foldl (fun largest file => max largest file.bytes) largest := by
    intro files
    induction files with
    | nil => exact fun largest => le_refl largest
    | cons file rest ih => exact fun largest => (le_max_left _ _).trans (ih _)
  exact hfold files 1

/-- The requested URL that `verify_production_publication_receipt` computes of an expected route. -/
def publicationUrl (tables : UrlTables) (baseUrl : Str) (expected : Json) : Option Str :=
  urljoin tables (baseUrl ++ u "/") ((routeText expected).dropWhile fun c => decide (c = ch '/'))

theorem positiveNumber_ten (label : Str) : positiveNumber (.int 10) label = .ok (.ofRat ((10 : ℤ) : ℚ)) := by
  have hfinite : (PyFloat.ofRat ((10 : ℤ) : ℚ)).isFinite = true := by decide +kernel
  have hbounds : (leFloat (.ofRat ((10 : ℤ) : ℚ)) (.ofRat 0) || ltFloat (.ofRat 60) (.ofRat ((10 : ℤ) : ℚ))) = false := by
    decide +kernel
  unfold positiveNumber
  refine raised_bind (if_pos hfinite) ?_
  rw [hbounds]
  rfl

theorem positiveInt_largest {largest : Nat} (hpos : 1 ≤ largest) (hlargest : largest ≤ readbackMaxBodyBytes) (label : Str) :
    positiveInt (.int largest) label = .ok (largest : ℤ) := by
  have hwithin : ¬((largest : ℤ) ≤ 0 ∨ (16777216 : ℤ) < largest) := by
    have hmax : readbackMaxBodyBytes = 16777216 := rfl
    omega
  exact if_neg hwithin

theorem validateManifest_produced (tables : TextTables) {files : List SiteFile} {entries : List Json} {largest : Nat}
    (h : publicRoutes 0 files = .ok entries)
    (hcaptured : ∀ file ∈ files, isBodyDigest (.str (Qualification.removeDigestPrefix file.sha256)) = true)
    (hnonempty : 1 ≤ files.length) (hbound : files.length ≤ 128) (hpos : 1 ≤ largest)
    (hlargest : largest ≤ readbackMaxBodyBytes) :
    ∃ manifest, validateManifest tables (manifestOf largest entries) = .ok manifest ∧
      (manifest.routes.map fun route => Dict.get route "route") = entries.map fun entry => .str (routeText entry) := by
  have hlength : entries.length = files.length := by
    have hpaths := congrArg List.length (publicRoutes_eq_ok h).1
    rwa [List.length_map, List.length_map] at hpaths
  have hcount : (!decide (1 ≤ entries.length ∧ entries.length ≤ 128)) = false := by
    rw [hlength, Bool.not_eq_false', decide_eq_true_eq]
    exact ⟨hnonempty, hbound⟩
  obtain ⟨routes, hroutes, hpaths⟩ := validateRoutes_produced tables (.ofRat ((10 : ℤ) : ℚ)) largest h hcaptured (by omega)
    fun _ hmem => absurd hmem List.not_mem_nil
  refine ⟨⟨u "mcp-trust-site-candidate-exact", .ofRat ((10 : ℤ) : ℚ), largest, false, routes⟩, ?_, hpaths⟩
  unfold validateManifest
  refine raised_bind rfl (raised_bind rfl (raised_bind rfl (raised_bind rfl (raised_bind rfl ?_))))
  refine raised_bind rfl (raised_bind rfl (raised_bind (positiveNumber_ten _) ?_))
  refine raised_bind (positiveInt_largest hpos hlargest _) (raised_bind rfl (raised_bind rfl ?_))
  refine raised_bind rfl (raised_bind rfl ?_)
  exact raised_bind (refuseManifest_false hcount) (raised_bind hroutes rfl)

theorem publicReadbackManifest_eq_ok {files : List SiteFile} {manifest : Json}
    (h : publicReadbackManifest files = .ok manifest) :
    ∃ entries, publicRoutes 0 (files.filter isPublic) = .ok entries ∧
      manifest = manifestOf (largestBody (files.filter isPublic)) entries ∧ 1 ≤ (files.filter isPublic).length ∧
      (files.filter isPublic).length ≤ 128 ∧ largestBody (files.filter isPublic) ≤ readbackMaxBodyBytes := by
  unfold publicReadbackManifest at h
  dsimp only at h
  by_cases hcount : 1 ≤ (files.filter isPublic).length ∧ (files.filter isPublic).length ≤ readbackMaxRoutes
  · rw [if_neg (not_not.mpr hcount)] at h
    obtain ⟨entries, hentries, h⟩ := of_raised_bind h
    by_cases hlarge : readbackMaxBodyBytes < largestBody (files.filter isPublic)
    · rw [if_pos hlarge] at h
      cases h
    · rw [if_neg hlarge] at h
      cases h
      exact ⟨entries, hentries, rfl, hcount.1, hcount.2, not_lt.mp hlarge⟩
  · rw [if_pos hcount] at h
    cases h

/-- Where the producer returns, the readback tool accepts its manifest, whose routes are distinct and those of the
public files in their order. The URL the tool requests is the one the verifier computes from the target of the receipt. -/
theorem readback_manifest_agrees (tables : TextTables) (urls : UrlTables) (tree : SiteTree) (manifest : Json)
    (h : publicReadbackManifest tree.files = .ok manifest) :
    ∃ entries normalized, manifest = manifestOf (largestBody (tree.files.filter isPublic)) entries ∧
      validateManifest tables manifest = .ok normalized ∧
      (normalized.routes.map fun route => Dict.get route "route") = (entries.map fun entry => .str (routeText entry)) ∧
      (entries.map routeText).Nodup ∧ entries.length = (tree.files.filter isPublic).length ∧
      (∀ k file, (tree.files.filter isPublic)[k]? = some file → ∃ entry, entries[k]? = some entry ∧ EntryOf k file entry) ∧
      ∀ raw target, validateTargetUrl urls raw = .ok target → target.url = rstripSlashes (strip raw) ∧
        ∀ baseUrl, target.url = baseUrl → ∀ entry ∈ entries,
          requestedUrl urls target (routeText entry) = publicationUrl urls baseUrl entry := by
  obtain ⟨entries, hentries, rfl, hmin, hmax, hlarge⟩ := publicReadbackManifest_eq_ok h
  obtain ⟨hpaths, hof⟩ := publicRoutes_eq_ok hentries
  have hcaptured : ∀ file ∈ tree.files.filter isPublic,
      isBodyDigest (.str (Qualification.removeDigestPrefix file.sha256)) = true := by
    intro file hfile
    obtain ⟨entry, -, rfl⟩ := List.mem_map.mp (List.mem_filter.mp hfile).1
    exact isBodyDigest_content entry.2
  obtain ⟨normalized, hnormalized, hroutes⟩ :=
    validateManifest_produced tables hentries hcaptured hmin hmax (largestBody_pos _) hlarge
  have hdistinct : ((tree.files.filter isPublic).map SiteFile.path).Nodup := by
    have hall : (tree.files.map SiteFile.path).Nodup := by
      rw [SiteTree.files, List.map_map]
      exact tree.distinct
    exact hall.sublist ((List.filter_sublist).map _)
  have hlength : entries.length = (tree.files.filter isPublic).length := by
    have hsame := congrArg List.length hpaths
    rwa [List.length_map, List.length_map] at hsame
  refine ⟨entries, normalized, rfl, hnormalized, hroutes, ?_, hlength, fun k file hk => ?_, fun raw target htarget => ?_⟩
  · rw [← hpaths] at hdistinct
    have hfiles : ((entries.map routeText).map fileOf).Nodup := by rwa [List.map_map]
    exact hfiles.of_map _
  · have hentry := hof k file hk
    rwa [Nat.zero_add] at hentry
  · obtain ⟨parsed, hchecked⟩ := validateTargetUrl_eq_ok htarget
    refine ⟨hchecked.url, ?_⟩
    rintro baseUrl rfl entry -
    rfl

/-- A site of two pages and a badge. -/
def smallSite : SiteTree where
  contents := [(u "index.html", utf8 "<p>"), (u "servers/a/badge.json", utf8 "x"), (u "ui/servers/a/index.html", utf8 "")]
  distinct := by decide

def asciiTables : TextTables := ⟨upperAscii, fun _ _ => rfl, id⟩

theorem manifestOf_routes {largest largest' : Nat} {routes routes' : List Json}
    (h : manifestOf largest routes = manifestOf largest' routes') : routes = routes' := by
  have hlast := congrArg List.getLast? (Json.obj.inj h)
  exact Json.arr.inj (Prod.mk.inj (Option.some.inj hlast)).2

theorem readback_manifest_agrees_small : ∃ manifest normalized, publicReadbackManifest smallSite.files = .ok manifest ∧
    validateManifest asciiTables manifest = .ok normalized ∧
    (normalized.routes.map fun route => Dict.get route "route") =
      ["/", "/servers/a/badge.json", "/ui/servers/a"].map fun route => .str (u route) := by
  have hroutes : publicRoutes 0 (smallSite.files.filter isPublic) = .ok
      [routeEntry 0 (u "/") 200 (sha256Hex (utf8 "<p>")), routeEntry 1 (u "/servers/a/badge.json") 200 (sha256Hex (utf8 "x")),
        routeEntry 2 (u "/ui/servers/a") 200 (sha256Hex (utf8 ""))] := rfl
  have hproduced : publicReadbackManifest smallSite.files = .ok (manifestOf (largestBody (smallSite.files.filter isPublic)) _) :=
    raised_bind hroutes rfl
  obtain ⟨entries, normalized, hmanifest, haccepted, hpaths, -⟩ :=
    readback_manifest_agrees asciiTables plainTables smallSite _ hproduced
  refine ⟨_, normalized, hproduced, haccepted, ?_⟩
  rw [hpaths, ← manifestOf_routes hmanifest]
  rfl

end McpTrust.Release
