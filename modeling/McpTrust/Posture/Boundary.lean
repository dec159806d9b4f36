import McpTrust.Failure
import McpTrust.Posture.AuthPosture

/-! # The network boundary of a run

Every URL a run asks for passed the pinned fetcher and lies at the origin of the resource or
of a listed authorization server, and a run is ready only on documents it accepted.
-/

namespace McpTrust.Posture

set_option autoImplicit false

open Python

open Failure (bind_ok)

/-! ## Safe URLs -/

/-- `https`, no credentials, no query or fragment, and a DNS name as host. -/
structure SafeUrl (lib : NetLibrary) (url : Str) : Prop where
  split : ∃ parts hostname, lib.urlsplit url = some parts ∧ lower parts.scheme = u "https" ∧
    parts.hasCredentials = false ∧ parts.query = [] ∧ parts.fragment = [] ∧
    normalizedHostname lib (parts.hostname lib) = .ok hostname ∧ isLocalhost hostname = false ∧
    lib.isIpAddress hostname = false

/-- The authority of an `https` URL: the text up to the first `/`, `?` or `#`. -/
def authority (url : Str) : Str := (url.drop 8).takeWhile fun c => decide (c ∉ u "/?#")

/-- Two `https` URLs with one authority. -/
def SameOrigin (url other : Str) : Prop :=
  (u "https://").isPrefixOf url = true ∧ (u "https://").isPrefixOf other = true ∧ authority url = authority other

structure BoundOk (lib : NetLibrary) (raw : Str) (b : BoundURL) : Prop where
  safe : SafeUrl lib raw
  front : ∃ netloc, b.origin = u "https://" ++ netloc
  url : b.url = b.origin ++ b.path
  path : ∃ rest, b.path = ch '/' :: rest

theorem ensure_ok {ε : Type} {condition : Bool} {error : ε} {r : Unit} :
    ensure condition error = .ok r ↔ condition = true := by
  unfold ensure
  cases condition with
  | true => exact ⟨fun _ => rfl, fun _ => rfl⟩
  | false =>
    constructor
    · intro h
      cases h
    · intro h
      cases h

theorem orRaise_ok {ε α : Type} {value : Option α} {error : ε} {a : α} :
    orRaise value error = .ok a ↔ value = some a := by
  cases value with
  | none =>
    constructor
    · intro h
      cases h
    · intro h
      cases h
  | some b => rw [orRaise, Except.ok.injEq, Option.some.injEq]

theorem boundHostname_ok {lib : NetLibrary} {parsed : SplitUrl} {hostname : Str}
    (h : boundHostname lib parsed = .ok hostname) :
    lower parsed.scheme = u "https" ∧ parsed.hasCredentials = false ∧ parsed.query = [] ∧ parsed.fragment = [] ∧
      normalizedHostname lib (parsed.hostname lib) = .ok hostname ∧ isLocalhost hostname = false ∧
        lib.isIpAddress hostname = false := by
  unfold boundHostname at h
  obtain ⟨_, hscheme, h⟩ := bind_ok.mp h
  obtain ⟨_, hcredentials, h⟩ := bind_ok.mp h
  obtain ⟨_, hquery, h⟩ := bind_ok.mp h
  obtain ⟨name, hname, h⟩ := bind_ok.mp h
  obtain ⟨_, hlocal, h⟩ := bind_ok.mp h
  obtain ⟨_, hip, h⟩ := bind_ok.mp h
  cases h
  rw [ensure_ok, decide_eq_true_eq] at hscheme hquery
  rw [ensure_ok, Bool.not_eq_true'] at hcredentials hlocal hip
  exact ⟨hscheme, hcredentials, hquery.1, hquery.2, hname, hlocal, hip⟩

theorem boundTarget_ok {lib : NetLibrary} {hostname path : Str} {port : Nat} {b : BoundURL}
    (h : boundTarget lib hostname path port = .ok b) :
    (∃ netloc, b.origin = u "https://" ++ netloc) ∧ b.url = b.origin ++ b.path ∧ ∃ rest, b.path = ch '/' :: rest := by
  unfold boundTarget at h
  obtain ⟨_, hport, h⟩ := bind_ok.mp h
  obtain ⟨_, hpath, h⟩ := bind_ok.mp h
  obtain ⟨_, hcontrol, h⟩ := bind_ok.mp h
  cases h
  rw [ensure_ok, decide_eq_true_eq] at hpath
  refine ⟨⟨_, rfl⟩, rfl, ?_⟩
  exact List.head?_eq_some_iff.mp hpath.1

theorem boundParts_ok {lib : NetLibrary} {raw : Str} {b : BoundURL} (h : boundParts lib raw = .ok b) :
    BoundOk lib raw b := by
  unfold boundParts at h
  obtain ⟨_, -, h⟩ := bind_ok.mp h
  obtain ⟨_, -, h⟩ := bind_ok.mp h
  obtain ⟨parsed, hparsed, h⟩ := bind_ok.mp h
  obtain ⟨hostname, hhostname, h⟩ := bind_ok.mp h
  obtain ⟨declared, -, h⟩ := bind_ok.mp h
  obtain ⟨hfront, hurl, hpath⟩ := boundTarget_ok h
  exact ⟨⟨⟨parsed, hostname, orRaise_ok.mp hparsed, boundHostname_ok hhostname⟩⟩, hfront, hurl, hpath⟩

theorem isPrefixOf_append (front rest : Str) : front.isPrefixOf (front ++ rest) = true :=
  List.isPrefixOf_iff_prefix.mpr (List.prefix_append _ _)

/-- An origin followed by a path has the authority of the origin. -/
theorem sameOrigin_append {origin : Str} (h : ∃ netloc, origin = u "https://" ++ netloc) (rest : Str) :
    SameOrigin (origin ++ ch '/' :: rest) origin := by
  obtain ⟨netloc, rfl⟩ := h
  have hlength : (u "https://").length = 8 := by decide
  refine ⟨?_, isPrefixOf_append _ _, ?_⟩
  · rw [List.append_assoc]
    exact isPrefixOf_append _ _
  · unfold authority
    rw [List.append_assoc, ← hlength, List.drop_left, List.drop_left]
    induction netloc with
    | nil => rw [List.nil_append, List.takeWhile_cons_of_neg (by decide), List.takeWhile_nil]
    | cons c netloc ih => rw [List.cons_append, List.takeWhile_cons, List.takeWhile_cons, ih]

/-! ## Candidates -/

theorem metadataUrl_ok {lib : NetLibrary} {raw : Json} {label : String} {b : BoundURL}
    (h : metadataUrl lib raw label = .ok b) : ∃ text, raw = .str text ∧ boundParts lib text = .ok b := by
  cases raw with
  | str text =>
    refine ⟨text, rfl, ?_⟩
    unfold metadataUrl at h
    dsimp only at h
    cases hbound : boundParts lib text with
    | error e =>
      rw [hbound] at h
      cases h
    | ok target =>
      rw [hbound] at h
      cases h
      rfl
  | _ => cases h

/-- The URL of a bound value is its origin and a path. -/
theorem BoundOk.sameOrigin {lib : NetLibrary} {raw : Str} {b : BoundURL} (h : BoundOk lib raw b) :
    SameOrigin b.url b.origin := by
  obtain ⟨rest, hrest⟩ := h.path
  rw [h.url, hrest]
  exact sameOrigin_append h.front rest

theorem stripSlashesEnd_append (path : Str) : ∃ slashes, path = stripSlashesEnd path ++ slashes := by
  have hsplit := List.takeWhile_append_dropWhile (p := fun c => decide (c = ch '/')) (l := path.reverse)
  refine ⟨(path.reverse.takeWhile fun c => decide (c = ch '/')).reverse, ?_⟩
  unfold stripSlashesEnd
  rw [← List.reverse_append, hsplit, List.reverse_reverse]

theorem resourceCandidates_origin {lib : NetLibrary} {resource : BoundURL} (hresource : ∃ raw, BoundOk lib raw resource)
    {challengeUrl : Option Str} {candidates : List (Str × String)}
    (h : resourceMetadataCandidates lib resource challengeUrl = .ok candidates) :
    candidates.length ≤ 2 ∧ ∀ candidate ∈ candidates, SameOrigin candidate.1 resource.origin := by
  obtain ⟨raw, hbound⟩ := hresource
  cases challengeUrl with
  | some challenge =>
    unfold resourceMetadataCandidates at h
    obtain ⟨metadata, hmetadata, h⟩ := bind_ok.mp h
    split_ifs at h with horigin
    cases h
    obtain ⟨text, -, hparts⟩ := metadataUrl_ok hmetadata
    refine ⟨by simp, ?_⟩
    intro candidate hcandidate
    rw [List.mem_singleton] at hcandidate
    subst hcandidate
    rw [← not_not.mp horigin]
    exact (boundParts_ok hparts).sameOrigin
  | none =>
    cases h
    constructor
    · split_ifs <;> simp
    · intro candidate hcandidate
      obtain hpath | hroot := List.mem_append.mp hcandidate
      · split_ifs at hpath
        · cases hpath
        · rw [List.mem_singleton] at hpath
          subst hpath
          rw [List.append_assoc]
          exact sameOrigin_append hbound.front _
      · rw [List.mem_singleton] at hroot
        subst hroot
        exact sameOrigin_append hbound.front _

theorem authorizationCandidates_origin {lib : NetLibrary} {raw : Str} {issuer : BoundURL} (hbound : BoundOk lib raw issuer) :
    (authorizationMetadataCandidates issuer).length ≤ 3 ∧
      ∀ candidate ∈ authorizationMetadataCandidates issuer, SameOrigin candidate.1 issuer.origin := by
  unfold authorizationMetadataCandidates
  dsimp only
  split_ifs
  · refine ⟨by simp, ?_⟩
    intro candidate hcandidate
    simp only [List.mem_cons, List.not_mem_nil, or_false] at hcandidate
    obtain rfl | rfl := hcandidate
    · exact sameOrigin_append hbound.front _
    · exact sameOrigin_append hbound.front _
  · refine ⟨by simp, ?_⟩
    intro candidate hcandidate
    simp only [List.mem_cons, List.not_mem_nil, or_false] at hcandidate
    obtain rfl | rfl | rfl := hcandidate
    · rw [List.append_assoc]
      exact sameOrigin_append hbound.front _
    · rw [List.append_assoc]
      exact sameOrigin_append hbound.front _
    · rw [List.append_assoc, List.append_assoc]
      exact sameOrigin_append hbound.front _

/-! ## One fetch -/

/-- A `200` JSON response that passed the freshness policy, and the document in it. -/
structure Accepted (p : Probe) (before : List BoundURL) (url : Str) (document : Dict) : Prop where
  response : ∃ target response freshness, boundParts p.lib url = .ok target ∧
    p.network (before ++ [target]) = .ok response ∧ response.reasonCode = none ∧ response.status = some 200 ∧
    contentTypeIsJson p.lib response.contentType = true ∧
    responseFreshness p.lib response p.observedAt = .ok (.ok freshness) ∧
    p.decodeBody (response.body.getD []) = .ok (.ok document)

theorem boundHttpsUrl_ok {lib : NetLibrary} {raw : Str} {label : String} {b : BoundURL}
    (h : boundHttpsUrl lib raw label = .ok b) : boundParts lib raw = .ok b := by
  unfold boundHttpsUrl at h
  cases hbound : boundParts lib raw with
  | error e =>
    rw [hbound] at h
    cases h
  | ok target =>
    rw [hbound] at h
    cases h
    rfl

theorem raisedBy_ok {α : Type} {x : Except PyErr α} {a : α} : raisedBy x = .ok a ↔ x = .ok a := by
  cases x with
  | error e =>
    constructor
    · intro h
      cases h
    · intro h
      cases h
  | ok b => rw [raisedBy, Except.ok.injEq, Except.ok.injEq]

theorem fetch_ok {p : Probe} {before : List BoundURL} {url : Str} {target : BoundURL} {response : FetchResponse}
    (h : p.fetch before url = .ok (target, response)) :
    boundParts p.lib url = .ok target ∧ p.network (before ++ [target]) = .ok response := by
  unfold Probe.fetch at h
  obtain ⟨bound, hbound, h⟩ := bind_ok.mp h
  obtain ⟨answer, hanswer, h⟩ := bind_ok.mp h
  cases h
  exact ⟨boundHttpsUrl_ok hbound, raisedBy_ok.mp hanswer⟩

/-- An answer without a document. -/
theorem unanswered {p : Probe} {before : List BoundURL} {url : Str} {bound target : BoundURL} {document : Option Dict}
    {read attempt : Attempt} (hbound : boundParts p.lib url = .ok bound)
    (h : (.ok (bound, none, read) : PostureM (BoundURL × Option Dict × Attempt)) = .ok (target, document, attempt)) :
    boundParts p.lib url = .ok target ∧ ∀ d, document = some d → Accepted p before url d := by
  obtain ⟨rfl, hrest⟩ := Prod.mk.inj (Except.ok.inj h)
  obtain ⟨rfl, -⟩ := Prod.mk.inj hrest
  refine ⟨hbound, ?_⟩
  intro d hd
  cases hd

theorem fetchJson_ok {p : Probe} {before : List BoundURL} {url : Str} {kind : String} {target : BoundURL}
    {document : Option Dict} {attempt : Attempt}
    (h : p.fetchJson before url kind = .ok (target, document, attempt)) :
    boundParts p.lib url = .ok target ∧ ∀ d, document = some d → Accepted p before url d := by
  unfold Probe.fetchJson at h
  obtain ⟨⟨target', response⟩, hfetch, h⟩ := bind_ok.mp h
  obtain ⟨hbound, hnetwork⟩ := fetch_ok hfetch
  unfold Probe.answered at h
  dsimp only at h
  split_ifs at h with hreason hstatus htype
  · exact unanswered hbound h
  · exact unanswered hbound h
  · exact unanswered hbound h
  · obtain ⟨freshness, hfresh, h⟩ := bind_ok.mp h
    cases freshness with
    | error reason => exact unanswered hbound h
    | ok freshness =>
      obtain ⟨decoded, hdecoded, h⟩ := bind_ok.mp h
      cases decoded with
      | error reason => exact unanswered hbound h
      | ok d =>
        cases h
        refine ⟨hbound, ?_⟩
        intro d' hd
        cases hd
        refine ⟨target, response, freshness, hbound, hnetwork, ?_, not_not.mp hstatus, ?_, hfresh, hdecoded⟩
        · rw [Bool.not_eq_true, Option.isSome_eq_false_iff, Option.isNone_iff_eq_none] at hreason
          exact hreason
        · rw [Bool.not_eq_false] at htype
          exact htype

/-! ## Loops over candidates -/

/-- What a loop over candidates leaves behind. -/
structure DiscoveryOk {α : Type} (p : Probe) (validate : Dict → Checked α) (candidates : List (Str × String))
    (d : Discovery α) : Prop where
  asked : d.asked.length ≤ candidates.length
  each : ∀ url ∈ d.asked, SafeUrl p.lib url ∧ ∃ kind, (url, kind) ∈ candidates
  found : ∀ value url kind, d.found = some (value, url, kind) →
    url ∈ d.asked ∧ ∃ before document, Accepted p before url document ∧ validate document = .ok value

theorem DiscoveryOk.cons {α : Type} {p : Probe} {validate : Dict → Checked α} {candidates : List (Str × String)}
    {later d : Discovery α} (h : DiscoveryOk p validate candidates later) {url : Str} {kind : String}
    (hurl : SafeUrl p.lib url) (hasked : d.asked = url :: later.asked) (hfound : d.found = later.found) :
    DiscoveryOk p validate ((url, kind) :: candidates) d := by
  refine ⟨?_, ?_, ?_⟩
  · rw [hasked, List.length_cons, List.length_cons]
    exact Nat.succ_le_succ h.asked
  · intro other hother
    rw [hasked] at hother
    obtain rfl | hother := List.mem_cons.mp hother
    · exact ⟨hurl, kind, List.mem_cons_self⟩
    · obtain ⟨hsafe, kind', hmem⟩ := h.each other hother
      exact ⟨hsafe, kind', List.mem_cons_of_mem _ hmem⟩
  · intro value found kind' hvalue
    rw [hfound] at hvalue
    obtain ⟨hmem, hrest⟩ := h.found value found kind' hvalue
    rw [hasked]
    exact ⟨List.mem_cons_of_mem _ hmem, hrest⟩

theorem discover_ok {α : Type} {p : Probe} {front : String} {validate : Dict → Checked α} {valid : String}
    {candidates : List (Str × String)} : ∀ {before : List BoundURL} {d : Discovery α},
      p.discover front validate valid candidates before = .ok d → DiscoveryOk p validate candidates d := by
  induction candidates with
  | nil =>
    intro before d h
    cases h
    refine ⟨le_rfl, ?_, ?_⟩
    · intro url hurl
      cases hurl
    · intro value url kind hfound
      cases hfound
  | cons candidate candidates ih =>
    intro before d h
    obtain ⟨url, kind⟩ := candidate
    rw [Probe.discover] at h
    obtain ⟨⟨target, document, attempt⟩, hfetch, h⟩ := bind_ok.mp h
    obtain ⟨hbound, hdocument⟩ := fetchJson_ok hfetch
    have hsafe := (boundParts_ok hbound).safe
    cases document with
    | none =>
      obtain ⟨later, hlater, h⟩ := bind_ok.mp h
      cases h
      exact (ih hlater).cons hsafe rfl rfl
    | some document =>
      dsimp only at h
      cases hvalid : validate document with
      | error reason =>
        rw [hvalid] at h
        obtain ⟨later, hlater, h⟩ := bind_ok.mp h
        cases h
        exact (ih hlater).cons hsafe rfl rfl
      | ok value =>
        rw [hvalid] at h
        cases h
        refine ⟨?_, ?_, ?_⟩
        · rw [List.length_singleton, List.length_cons]
          exact Nat.succ_le_succ (Nat.zero_le _)
        · intro other hother
          rw [List.mem_singleton] at hother
          subst hother
          exact ⟨hsafe, kind, List.mem_cons_self⟩
        · intro value' url' kind' hfound
          cases hfound
          exact ⟨List.mem_singleton_self _, before, document, hdocument document rfl, hvalid⟩

/-! ## Accepted documents -/

theorem mapM_listedString {items : List Json} : ∀ {strings : List Str}, items.mapM listedString = some strings →
    items = strings.map Json.str := by
  induction items with
  | nil =>
    intro strings h
    cases h
    rfl
  | cons item items ih =>
    intro strings h
    rw [List.mapM_cons] at h
    obtain ⟨head, hhead, h⟩ := Option.bind_eq_some_iff.mp h
    obtain ⟨tail, htail, h⟩ := Option.bind_eq_some_iff.mp h
    cases h
    rw [List.map_cons, ih htail]
    congr 1
    cases item with
    | str s =>
      unfold listedString at hhead
      dsimp only at hhead
      split_ifs at hhead
      cases hhead
      rfl
    | _ => cases hhead

theorem stringList_ok {value : Json} {label : String} {maximum : Nat} {strings : List Str}
    (h : stringList value label maximum true = .ok strings) :
    value = .arr (strings.map Json.str) ∧ strings.length ≤ maximum := by
  unfold stringList at h
  rw [if_neg (fun hnot => Bool.noConfusion hnot.2)] at h
  cases value with
  | arr items =>
    dsimp only at h
    split_ifs at h with hsize
    cases hmap : items.mapM listedString with
    | none =>
      rw [hmap] at h
      cases h
    | some found =>
      rw [hmap] at h
      dsimp only at h
      split_ifs at h
      cases h
      have hitems := mapM_listedString hmap
      refine ⟨by rw [hitems], ?_⟩
      have hlength : items.length = strings.length := by rw [hitems, List.length_map]
      rw [← hlength]
      exact Nat.le_of_not_lt fun hlt => hsize (.inr hlt)
  | _ => cases h

/-- A document that declares the resource and lists the servers. -/
structure DeclaresResource (lib : NetLibrary) (resource : BoundURL) (document : Dict) (servers : List Str) : Prop where
  resource : ∃ text declared, Dict.get document "resource" = .str text ∧ boundParts lib text = .ok declared ∧
    declared.url = resource.url
  listed : Dict.get document "authorization_servers" = .arr (servers.map Json.str)
  bounded : servers.length ≤ maxAuthorizationServers

theorem validateResourceMetadata_ok {lib : NetLibrary} {resource : BoundURL} {document : Dict} {m : ResourceMetadata}
    (h : validateResourceMetadata lib resource document = .ok m) :
    DeclaresResource lib resource document m.authorizationServers := by
  unfold validateResourceMetadata at h
  obtain ⟨declared, hdeclared, h⟩ := bind_ok.mp h
  split_ifs at h with hurl
  obtain ⟨servers, hservers, h⟩ := bind_ok.mp h
  obtain ⟨bounds, -, h⟩ := bind_ok.mp h
  obtain ⟨scopes, -, h⟩ := bind_ok.mp h
  cases h
  obtain ⟨text, htext, hparts⟩ := metadataUrl_ok hdeclared
  obtain ⟨hlisted, hlength⟩ := stringList_ok hservers
  exact ⟨⟨text, declared, htext, hparts, not_not.mp hurl⟩, hlisted, hlength⟩

/-- An advertised endpoint: an `https` URL of a DNS name without credentials. -/
structure HttpsEndpoint (lib : NetLibrary) (text : Str) : Prop where
  split : ∃ parts hostname, lib.urlsplit text = some parts ∧ lower parts.scheme = u "https" ∧
    parts.hasCredentials = false ∧ normalizedHostname lib (parts.hostname lib) = .ok hostname ∧
    isLocalhost hostname = false ∧ lib.isIpAddress hostname = false

/-- A document that declares the issuer, S256 and its endpoints. -/
structure DeclaresIssuer (lib : NetLibrary) (issuer : Str) (document : Dict) : Prop where
  issuer : Dict.get document "issuer" = .str issuer
  challenge : ∃ methods, Dict.get document "code_challenge_methods_supported" = .arr methods ∧
    .str (u "S256") ∈ methods
  authorization : ∃ text, Dict.get document "authorization_endpoint" = .str text ∧ HttpsEndpoint lib text
  token : ∃ text, Dict.get document "token_endpoint" = .str text ∧ HttpsEndpoint lib text

theorem isHttpsEndpoint_ok {lib : NetLibrary} {text : Str} (h : isHttpsEndpoint lib text = true) :
    HttpsEndpoint lib text := by
  unfold isHttpsEndpoint at h
  have hparts := (Bool.and_eq_true_iff.mp h).2
  cases hsplit : lib.urlsplit text with
  | none =>
    rw [hsplit] at hparts
    cases hparts
  | some parsed =>
    rw [hsplit] at hparts
    dsimp only at hparts
    cases hname : normalizedHostname lib (parsed.hostname lib) with
    | error e =>
      rw [hname] at hparts
      cases hparts
    | ok hostname =>
      cases hport : parsed.port with
      | none =>
        rw [hname, hport] at hparts
        cases hparts
      | some declared =>
        rw [hname, hport] at hparts
        simp only [Bool.and_eq_true, decide_eq_true_eq, Bool.not_eq_true'] at hparts
        obtain ⟨⟨⟨⟨⟨⟨⟨hscheme, hcredentials⟩, -⟩, -⟩, hlocal⟩, hip⟩, -⟩, -⟩ := hparts
        exact ⟨parsed, hostname, hsplit, hscheme, hcredentials, hname, hlocal, hip⟩

theorem requiredEndpoint_ok {lib : NetLibrary} {document : Dict} {key : String} {text : Str}
    (h : requiredEndpoint lib document key = .ok text) :
    Dict.get document key = .str text ∧ HttpsEndpoint lib text := by
  unfold requiredEndpoint httpsEndpoint at h
  cases hvalue : Dict.get document key with
  | str s =>
    rw [hvalue] at h
    dsimp only at h
    split_ifs at h with hok
    cases h
    exact ⟨rfl, isHttpsEndpoint_ok hok⟩
  | _ =>
    rw [hvalue] at h
    cases h

theorem isText_eq_true {value : Json} {text : Str} (h : isText value text = true) : value = .str text := by
  cases value with
  | str s => rw [of_decide_eq_true h]
  | _ => cases h

theorem validateAuthorizationMetadata_ok {lib : NetLibrary} {bound : BoundURL} {issuer : Str} {document : Dict}
    {m : AuthorizationMetadata} (h : validateAuthorizationMetadata lib bound issuer document = .ok m) :
    DeclaresIssuer lib issuer document := by
  unfold validateAuthorizationMetadata at h
  split_ifs at h with hissuer
  obtain ⟨declared, -, h⟩ := bind_ok.mp h
  split_ifs at h with hurl
  obtain ⟨methods, hmethods, h⟩ := bind_ok.mp h
  split_ifs at h with hpkce
  obtain ⟨scopes, -, h⟩ := bind_ok.mp h
  obtain ⟨client, -, h⟩ := bind_ok.mp h
  obtain ⟨iss, -, h⟩ := bind_ok.mp h
  obtain ⟨registration, -, h⟩ := bind_ok.mp h
  obtain ⟨authorization, hauthorization, h⟩ := bind_ok.mp h
  obtain ⟨token, htoken, h⟩ := bind_ok.mp h
  rw [Bool.not_eq_false] at hissuer
  refine ⟨isText_eq_true hissuer, ⟨_, (stringList_ok hmethods).1, ?_⟩, ⟨_, requiredEndpoint_ok hauthorization⟩,
    ⟨_, requiredEndpoint_ok htoken⟩⟩
  exact List.mem_map_of_mem hpkce

/-! ## Runs -/

/-- An accepted resource document, with the servers it lists. -/
def AcceptedResource (p : Probe) (resource : BoundURL) (asked : List Str) (servers : List Str) : Prop :=
  ∃ before url document, url ∈ asked ∧ Accepted p before url document ∧
    DeclaresResource p.lib resource document servers

/-- Some URL of the run gave a document that declares the issuer. -/
def AcceptedIssuer (p : Probe) (asked : List Str) (issuer : Str) : Prop :=
  ∃ bound before url kind document, boundParts p.lib issuer = .ok bound ∧ url ∈ asked ∧
    (url, kind) ∈ authorizationMetadataCandidates bound ∧ Accepted p before url document ∧
    DeclaresIssuer p.lib issuer document

/-- The URL lies at the origin of one of the issuers. -/
def AtIssuer (lib : NetLibrary) (issuers : List Str) (url : Str) : Prop :=
  ∃ issuer ∈ issuers, ∃ bound, boundParts lib issuer = .ok bound ∧ SameOrigin url bound.origin

structure ServersOk (p : Probe) (issuers : List Str) (run : ServersRun) : Prop where
  asked : run.asked.length ≤ 3 * issuers.length
  each : ∀ url ∈ run.asked, SafeUrl p.lib url ∧ AtIssuer p.lib issuers url
  ready : ∀ result ∈ run.results, result.ready = true → ∃ issuer ∈ issuers, AcceptedIssuer p run.asked issuer

theorem AcceptedIssuer.mono {p : Probe} {asked asked' : List Str} {issuer : Str} (h : AcceptedIssuer p asked issuer)
    (hsub : asked ⊆ asked') : AcceptedIssuer p asked' issuer := by
  obtain ⟨bound, before, url, kind, document, hbound, hurl, hrest⟩ := h
  exact ⟨bound, before, url, kind, document, hbound, hsub hurl, hrest⟩

theorem probeServers_ok {p : Probe} {issuers : List Str} : ∀ {before : List BoundURL} {run : ServersRun},
    p.probeServers issuers before = .ok run → ServersOk p issuers run := by
  induction issuers with
  | nil =>
    intro before run h
    cases h
    refine ⟨le_rfl, ?_, ?_⟩
    · intro url hurl
      cases hurl
    · intro result hresult
      cases hresult
  | cons issuer issuers ih =>
    intro before run h
    rw [Probe.probeServers] at h
    cases hissuer : metadataUrl p.lib (.str issuer) "authorization_server" with
    | error reason =>
      rw [hissuer] at h
      cases h
    | ok bound =>
      rw [hissuer] at h
      obtain ⟨discovery, hdiscovery, h⟩ := bind_ok.mp h
      obtain ⟨later, hlater, h⟩ := bind_ok.mp h
      cases h
      have hfirst := discover_ok hdiscovery
      have hrest := ih hlater
      obtain ⟨text, htext, hparts⟩ := metadataUrl_ok hissuer
      cases htext
      have horigins := authorizationCandidates_origin (boundParts_ok hparts)
      refine ⟨?_, ?_, ?_⟩
      · have hone := hfirst.asked.trans horigins.1
        have hmany := hrest.asked
        rw [List.length_append, List.length_cons]
        omega
      · intro url hurl
        obtain hurl | hurl := List.mem_append.mp hurl
        · obtain ⟨hsafe, kind, hcandidate⟩ := hfirst.each url hurl
          exact ⟨hsafe, issuer, List.mem_cons_self, bound, hparts, horigins.2 _ hcandidate⟩
        · obtain ⟨hsafe, other, hother, hrest⟩ := hrest.each url hurl
          exact ⟨hsafe, other, List.mem_cons_of_mem _ hother, hrest⟩
      · intro result hresult hready
        obtain rfl | hresult := List.mem_cons.mp hresult
        · unfold serverResult at hready
          cases hfound : discovery.found with
          | none =>
            rw [hfound] at hready
            cases hready
          | some found =>
            obtain ⟨metadata, url, kind⟩ := found
            obtain ⟨hurl, before', document, haccepted, hvalid⟩ := hfirst.found metadata url kind hfound
            obtain ⟨-, kind', hcandidate⟩ := hfirst.each url hurl
            refine ⟨issuer, List.mem_cons_self, bound, before', url, kind', document, hparts, ?_, hcandidate, haccepted,
              validateAuthorizationMetadata_ok hvalid⟩
            exact List.mem_append_left _ hurl
        · obtain ⟨other, hother, haccepted⟩ := hrest.ready result hresult hready
          exact ⟨other, List.mem_cons_of_mem _ hother, haccepted.mono (List.subset_append_right _ _)⟩

/-- A URL a run may ask for. -/
structure WithinBoundary (p : Probe) (resource : BoundURL) (asked : List Str) (url : Str) : Prop where
  safe : SafeUrl p.lib url
  origin : SameOrigin url resource.origin ∨
    ∃ servers, AcceptedResource p resource asked servers ∧ AtIssuer p.lib servers url

/-- What a ready result rests on. -/
def ReadyOn (p : Probe) (resource : BoundURL) (asked : List Str) : Prop :=
  ∃ servers, AcceptedResource p resource asked servers ∧ ∃ issuer ∈ servers, AcceptedIssuer p asked issuer

/-- A run that returns stayed inside its boundary, and a ready verdict rests on accepted documents. -/
theorem run_boundary {p : Probe} {resourceUrl : Str} {wwwAuthenticate : Option Str} {result : PostureResult}
    {asked : List Str} (h : p.run resourceUrl wwwAuthenticate = .ok (result, asked)) :
    ∃ resource, boundParts p.lib resourceUrl = .ok resource ∧
      (∀ url ∈ asked, WithinBoundary p resource asked url) ∧ asked.length ≤ 2 + 3 * maxAuthorizationServers ∧
        (result.ready = true → ReadyOn p resource asked) := by
  unfold Probe.run at h
  obtain ⟨resource, hresource, h⟩ := bind_ok.mp h
  have hparts := boundHttpsUrl_ok hresource
  refine ⟨resource, hparts, ?_⟩
  cases hstart : startDiscovery p.lib resource wwwAuthenticate with
  | error reason =>
    rw [hstart] at h
    obtain ⟨rfl, rfl⟩ := Prod.mk.inj (Except.ok.inj h)
    refine ⟨?_, Nat.zero_le _, ?_⟩
    · intro url hurl
      cases hurl
    · intro hready
      cases hready
  | ok started =>
    obtain ⟨scopes, candidates⟩ := started
    rw [hstart] at h
    obtain ⟨discovery, hdiscovery, h⟩ := bind_ok.mp h
    have hfirst := discover_ok hdiscovery
    have hcandidates : candidates.length ≤ 2 ∧ ∀ candidate ∈ candidates, SameOrigin candidate.1 resource.origin := by
      unfold startDiscovery at hstart
      obtain ⟨⟨challengeUrl, scopes'⟩, -, hstart⟩ := bind_ok.mp hstart
      obtain ⟨candidates', hcandidates, hstart⟩ := bind_ok.mp hstart
      cases hstart
      exact resourceCandidates_origin ⟨_, boundParts_ok hparts⟩ hcandidates
    have hasked := hfirst.asked.trans hcandidates.1
    cases hfound : discovery.found with
    | none =>
      rw [hfound] at h
      obtain ⟨rfl, rfl⟩ := Prod.mk.inj (Except.ok.inj h)
      refine ⟨?_, hasked.trans (by decide), ?_⟩
      · intro url hurl
        obtain ⟨hsafe, kind, hcandidate⟩ := hfirst.each url hurl
        exact ⟨hsafe, .inl (hcandidates.2 _ hcandidate)⟩
      · intro hready
        cases hready
    | some found =>
      obtain ⟨metadata, url, kind⟩ := found
      rw [hfound] at h
      obtain ⟨servers, hservers, h⟩ := bind_ok.mp h
      obtain ⟨rfl, rfl⟩ := Prod.mk.inj (Except.ok.inj h)
      obtain ⟨hurl, before, document, haccepted, hvalid⟩ := hfirst.found metadata url kind hfound
      have hdeclares := validateResourceMetadata_ok hvalid
      have hrest := probeServers_ok hservers
      have hlisted : AcceptedResource p resource (discovery.asked ++ servers.asked) metadata.authorizationServers :=
        ⟨before, url, document, List.mem_append_left _ hurl, haccepted, hdeclares⟩
      refine ⟨?_, ?_, ?_⟩
      · intro other hother
        obtain hother | hother := List.mem_append.mp hother
        · obtain ⟨hsafe, kind', hcandidate⟩ := hfirst.each other hother
          exact ⟨hsafe, .inl (hcandidates.2 _ hcandidate)⟩
        · obtain ⟨hsafe, hissuer⟩ := hrest.each other hother
          exact ⟨hsafe, .inr ⟨_, hlisted, hissuer⟩⟩
      · have hmany := hrest.asked
        have hbound := hdeclares.bounded
        rw [List.length_append]
        omega
      · intro hready
        have hcount : servers.results.countP ServerResult.ready ≠ 0 := of_decide_eq_true hready
        obtain ⟨serverResult, hmem, hserver⟩ := List.countP_pos_iff.mp (Nat.pos_of_ne_zero hcount)
        obtain ⟨issuer, hissuer, hready'⟩ := hrest.ready serverResult hmem hserver
        exact ⟨_, hlisted, issuer, hissuer, hready'.mono (List.subset_append_right _ _)⟩

/-! ## A run against a network without metadata -/

/-- The library on the URLs of one host. -/
def sampleLibrary : NetLibrary where
  urlsplit := fun url =>
    some { scheme := u "https", netloc := u "example.test", path := url.drop 20, query := [], fragment := [] }
  idna := some
  isIpAddress := fun _ => false
  unquote := id
  lower := lower
  casefold := lower
  parseDate := fun _ => none

theorem sampleInstant_inRange : 0 ≤ (63913708800000000 : ℤ) ∧ (63913708800000000 : ℤ) < maxMicros := by decide

/-- Every request is answered with `404`. -/
def emptyProbe : Probe where
  lib := sampleLibrary
  network := fun _ => .ok { status := some 404 }
  interp := ⟨1000, initialLimit_deep⟩
  observedAt := ⟨63913708800000000, some 0, sampleInstant_inRange⟩

theorem emptyProbe_asked : ((emptyProbe.run (u "https://example.test/mcp") none).toOption.map Prod.snd) =
    some [u "https://example.test/.well-known/oauth-protected-resource/mcp",
      u "https://example.test/.well-known/oauth-protected-resource"] := by decide +kernel

theorem run_boundary_empty : ∃ result asked resource, emptyProbe.run (u "https://example.test/mcp") none = .ok (result, asked) ∧
    boundParts sampleLibrary (u "https://example.test/mcp") = .ok resource ∧
      (∀ url ∈ asked, WithinBoundary emptyProbe resource asked url) ∧
        asked.length ≤ 2 + 3 * maxAuthorizationServers ∧ (result.ready = true → ReadyOn emptyProbe resource asked) := by
  have hasked := emptyProbe_asked
  cases hrun : emptyProbe.run (u "https://example.test/mcp") none with
  | error e =>
    rw [hrun] at hasked
    cases hasked
  | ok pair =>
    obtain ⟨result, asked⟩ := pair
    obtain ⟨resource, hresource, hrest⟩ := run_boundary hrun
    exact ⟨result, asked, resource, rfl, hresource, hrest⟩

end McpTrust.Posture
