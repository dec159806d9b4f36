import McpTrust.Posture.Boundary
import McpTrust.Posture.Binding

/-! # When a run returns

What a response can hold that makes a run raise, and that a run returns exactly where it
reaches none of it.
-/

namespace McpTrust.Posture

set_option autoImplicit false

open Python Failure

def AnyError : PostureError → Prop := fun _ => True

theorem passes_iff_not_fails {α : Type} {x : PostureM α} : Passes x ↔ ¬Fails AnyError x := by
  cases x with
  | ok a =>
    constructor
    · intro _
      exact not_fails_ok a
    · intro _
      exact ⟨a, rfl⟩
  | error e =>
    constructor
    · rintro ⟨a, ha⟩
      cases ha
    · intro h
      exact absurd ⟨e, rfl, trivial⟩ h

/-! ## What a response can hold -/

/-- The bound `_bounded_response_header` puts on a header. -/
def maxHeader : Nat := 512

def maxMetadataBytes : Nat := 64 * 1024

/-- A response as the fetcher bounds it. -/
structure Bounded (response : FetchResponse) : Prop where
  age : ∀ text, response.age = some text → text.length ≤ maxHeader
  cacheControl : ∀ text, response.cacheControl = some text → text.length ≤ maxHeader
  body : ∀ bytes, response.body = some bytes → bytes.length ≤ maxMetadataBytes

/-- A date that leaves the calendar in UTC, or an age that no float can hold. -/
def FreshnessDefect (lib : NetLibrary) (response : FetchResponse) (observedAt : DateTime) : Prop :=
  ∃ text parsed, response.httpDate = some text ∧ lib.parseDate text = some parsed ∧ parsed.offset ≠ none ∧
    ((∃ e, parsed.astimezoneUtc = .error e) ∨
      ∃ source, parsed.astimezoneUtc = .ok source ∧
        ¬maxClockSkew < DateTime.totalSeconds (source.instant - observedAt.instant) ∧
        ∃ seconds, headerAge response.age = .ok (.ok seconds) ∧ ∃ e, floatOfInt seconds = .error e)

/-- A text that `json.loads` refuses with another error than its decode errors. -/
def BodyDefect (p : Probe) (body : Bytes) : Prop :=
  ∃ text e, decodeUtf8 body = .ok text ∧ loads uniqueHooks p.interp.recursionLimit text = .error e ∧
    e ≠ duplicateKeyError ∧ e ≠ .jsonDecodeError

def ResponseDefect (p : Probe) (response : FetchResponse) : Prop :=
  response.reasonCode = none ∧ response.status = some 200 ∧ contentTypeIsJson p.lib response.contentType = true ∧
    (FreshnessDefect p.lib response p.observedAt ∨
      (∃ freshness, responseFreshness p.lib response p.observedAt = .ok (.ok freshness)) ∧
        BodyDefect p (response.body.getD []))

/-- A URL that the fetcher refuses, a request that raises, or a response with a defect. -/
def RequestDefect (p : Probe) (before : List BoundURL) (url : Str) : Prop :=
  (∃ text, boundParts p.lib url = .error text) ∨
    ∃ target, boundParts p.lib url = .ok target ∧
      ((∃ e, p.network (before ++ [target]) = .error e) ∨
        ∃ response, p.network (before ++ [target]) = .ok response ∧ ResponseDefect p response)

/-- The request gives no document that ends the loop. -/
def Continues {α : Type} (p : Probe) (validate : Dict → Checked α) (before : List BoundURL) (url : Str) (kind : String)
    (target : BoundURL) : Prop :=
  ∃ document attempt, p.fetchJson before url kind = .ok (target, document, attempt) ∧
    ∀ d, document = some d → ∃ reason, validate d = .error reason

/-- A loop over candidates reaches a request with a defect. -/
def DiscoverDefect {α : Type} (p : Probe) (front : String) (validate : Dict → Checked α) :
    List (Str × String) → List BoundURL → Prop
  | [], _ => False
  | (url, kind) :: rest, before =>
    RequestDefect p before url ∨
      ∃ target, Continues p validate before url (front ++ kind) target ∧
        DiscoverDefect p front validate rest (before ++ [target])

/-- The loop over the issuers reaches a request with a defect. -/
def IssuersDefect (p : Probe) : List Str → List BoundURL → Prop
  | [], _ => False
  | issuer :: rest, before =>
    ∃ bound, boundParts p.lib issuer = .ok bound ∧
      (DiscoverDefect p "authorization-server:" (validateAuthorizationMetadata p.lib bound issuer)
          (authorizationMetadataCandidates bound) before ∨
        ∃ discovery, p.discover "authorization-server:" (validateAuthorizationMetadata p.lib bound issuer)
            "authorization_server_metadata_valid" (authorizationMetadataCandidates bound) before = .ok discovery ∧
          IssuersDefect p rest discovery.requests)

/-- A run reaches a request with a defect. -/
def RunDefect (p : Probe) (resource : BoundURL) (wwwAuthenticate : Option Str) : Prop :=
  ∃ scopes candidates, startDiscovery p.lib resource wwwAuthenticate = .ok (scopes, candidates) ∧
    (DiscoverDefect p "resource-metadata:" (validateResourceMetadata p.lib resource) candidates [] ∨
      ∃ discovery metadata url kind, p.discover "resource-metadata:" (validateResourceMetadata p.lib resource)
          "resource_metadata_valid" candidates [] = .ok discovery ∧
        discovery.found = some (metadata, url, kind) ∧
        IssuersDefect p metadata.authorizationServers discovery.requests)

/-! ## Headers -/

theorem fails_raisedBy {α : Type} {x : Except PyErr α} : Fails AnyError (raisedBy x) ↔ ∃ e, x = .error e := by
  cases x with
  | ok a =>
    constructor
    · intro h
      exact absurd h (not_fails_ok a)
    · rintro ⟨e, he⟩
      cases he
  | error e =>
    constructor
    · intro _
      exact ⟨e, rfl⟩
    · intro _
      exact ⟨.escaped e, rfl, trivial⟩

theorem digits_integer {text : Str} (hne : text ≠ []) (hdigits : text.all isDigit = true) :
    isIntegerText text = true := by
  cases text with
  | nil => exact absurd rfl hne
  | cons c rest =>
    rw [isIntegerText]
    split_ifs with hminus
    · rw [hminus] at hdigits
      exact absurd (Bool.and_eq_true_iff.mp hdigits).1 (by decide)
    · exact hdigits

/-- `int` accepts the digits of a bounded header. -/
theorem pyInt_digits {text : Str} (hne : text ≠ []) (hdigits : text.all isDigit = true) (hlength : text.length ≤ maxHeader) :
    ∃ n, pyInt text = .ok n := by
  have hfilter : (text.filter isDigit).length ≤ 4300 := by
    have hle := (List.length_filter_le isDigit text).trans hlength
    unfold maxHeader at hle
    omega
  unfold pyInt
  rw [digits_integer hne hdigits, decide_eq_true hfilter]
  exact ⟨_, rfl⟩

theorem length_lstrip_le (s : Str) : (lstrip s).length ≤ s.length := List.length_dropWhile_le _ _

theorem length_strip_le (s : Str) : (strip s).length ≤ s.length := by
  unfold strip
  rw [List.length_reverse]
  refine (length_lstrip_le _).trans ?_
  rw [List.length_reverse]
  exact length_lstrip_le s

theorem not_fails_readSeconds {text : Str} (h : text.length ≤ maxHeader) (reason : String) :
    ¬Fails AnyError (readSeconds text reason) := by
  unfold readSeconds
  split_ifs with hbad
  · exact not_fails_ok _
  · rw [not_or, Bool.not_eq_false] at hbad
    obtain ⟨n, hn⟩ := pyInt_digits hbad.1 hbad.2 h
    rw [hn]
    exact not_fails_ok _

theorem not_fails_headerAge {age : Option Str} (h : ∀ text, age = some text → text.length ≤ maxHeader) :
    ¬Fails AnyError (headerAge age) := by
  cases age with
  | none => exact not_fails_ok _
  | some text => exact not_fails_readSeconds ((length_strip_le text).trans (h text rfl)) _

theorem length_afterCut_le (c : Char) (s : Str) : (afterCut c s).length ≤ s.length := by
  unfold afterCut
  rw [List.length_drop]
  exact (Nat.sub_le _ _).trans (List.length_dropWhile_le _ _)

theorem length_unquoted_le {raw parameter : Str} (h : unquoted raw = .ok parameter) : parameter.length ≤ raw.length := by
  unfold unquoted at h
  dsimp only at h
  split_ifs at h
  · cases h
    exact le_rfl
  · cases h
    rw [List.length_dropLast, List.length_drop]
    omega

theorem not_fails_maxAge {lib : NetLibrary} {directive : Str} (h : directive.length ≤ maxHeader) :
    ¬Fails AnyError (maxAge lib directive) := by
  have hraw : (strip (afterCut '=' (strip directive))).length ≤ maxHeader :=
    (length_strip_le _).trans ((length_afterCut_le _ _).trans ((length_strip_le _).trans h))
  unfold maxAge
  dsimp only
  split_ifs with hname
  · exact not_fails_ok _
  · cases hparameter : unquoted (strip (afterCut '=' (strip directive))) with
    | error reason => exact not_fails_ok _
    | ok parameter =>
      apply not_fails_bind (not_fails_readSeconds ((length_unquoted_le hparameter).trans hraw) _)
      intro seconds
      exact not_fails_ok _

theorem not_fails_maxAges {lib : NetLibrary} {directives : List Str} (h : ∀ d ∈ directives, d.length ≤ maxHeader) :
    ¬Fails AnyError (maxAges lib directives) := by
  induction directives with
  | nil => exact not_fails_ok _
  | cons directive directives ih =>
    apply not_fails_bind (not_fails_maxAge (h directive List.mem_cons_self))
    intro found
    cases found with
    | error reason => exact not_fails_ok _
    | ok found =>
      apply not_fails_bind (ih fun d hd => h d (List.mem_cons_of_mem _ hd))
      intro ages
      cases ages with
      | error reason => exact not_fails_ok _
      | ok ages => exact not_fails_ok _

theorem length_splitCommas_le (text : Str) : ∀ part ∈ splitCommas text, part.length ≤ text.length := by
  induction text with
  | nil =>
    intro part hpart
    rw [splitCommas, List.mem_singleton] at hpart
    rw [hpart]
  | cons c rest ih =>
    intro part hpart
    rw [splitCommas] at hpart
    rw [List.length_cons]
    split_ifs at hpart with hcomma
    · obtain rfl | hpart := List.mem_cons.mp hpart
      · exact Nat.zero_le _
      · exact (ih part hpart).trans (Nat.le_succ _)
    · cases hrest : splitCommas rest with
      | nil =>
        rw [hrest, List.mem_singleton] at hpart
        rw [hpart, List.length_singleton]
        omega
      | cons first parts =>
        rw [hrest] at hpart
        rw [hrest] at ih
        obtain rfl | hpart := List.mem_cons.mp hpart
        · rw [List.length_cons]
          exact Nat.succ_le_succ (ih first List.mem_cons_self)
        · exact (ih part (List.mem_cons_of_mem _ hpart)).trans (Nat.le_succ _)

theorem not_fails_cacheFreshnessSeconds {lib : NetLibrary} {value : Option Str}
    (h : ∀ text, value = some text → text.length ≤ maxHeader) : ¬Fails AnyError (cacheFreshnessSeconds lib value) := by
  cases value with
  | none => exact not_fails_ok _
  | some text =>
    unfold cacheFreshnessSeconds
    dsimp only
    apply not_fails_bind
    · apply not_fails_maxAges
      intro directive hdirective
      exact (length_splitCommas_le text directive hdirective).trans (h text rfl)
    · intro ages
      cases ages with
      | error reason => exact not_fails_ok _
      | ok ages =>
        cases ages with
        | nil => exact not_fails_ok _
        | cons declared rest =>
          cases rest with
          | nil => exact not_fails_ok _
          | cons other rest => exact not_fails_ok _

theorem fails_responseFreshness {lib : NetLibrary} {response : FetchResponse} {observedAt : DateTime}
    (hbounded : Bounded response) :
    Fails AnyError (responseFreshness lib response observedAt) ↔ FreshnessDefect lib response observedAt := by
  unfold responseFreshness FreshnessDefect
  cases hdate : response.httpDate with
  | none => simp [not_fails_ok]
  | some text =>
    dsimp only
    cases hparsed : lib.parseDate text with
    | none => simp [hparsed, not_fails_ok]
    | some parsed =>
      dsimp only
      by_cases hoffset : parsed.offset = none
      · rw [if_pos hoffset]
        simp [hparsed, hoffset, not_fails_ok]
      · rw [if_neg hoffset]
        have hdata : ∀ P : DateTime → Prop,
            (∃ text' parsed', some text = some text' ∧ lib.parseDate text' = some parsed' ∧ parsed'.offset ≠ none ∧
              P parsed') ↔ P parsed := by
          intro P
          constructor
          · rintro ⟨text', parsed', htext, hparsed', -, h⟩
            cases htext
            rw [hparsed] at hparsed'
            cases hparsed'
            exact h
          · intro h
            exact ⟨text, parsed, rfl, hparsed, hoffset, h⟩
        rw [hdata, fails_bind, fails_raisedBy]
        apply or_congr_right
        apply exists_congr
        intro source
        rw [raisedBy_ok]
        apply and_congr_right
        intro _
        by_cases hfuture : maxClockSkew < DateTime.totalSeconds (source.instant - observedAt.instant)
        · rw [if_pos hfuture]
          simp [hfuture, not_fails_ok]
        · rw [if_neg hfuture, fails_bind_of_not (not_fails_headerAge hbounded.age), and_iff_right hfuture]
          constructor
          · rintro ⟨age, hage, h⟩
            cases age with
            | error reason => exact absurd h (not_fails_ok _)
            | ok seconds =>
              refine ⟨seconds, hage, ?_⟩
              obtain hfloat | ⟨header, -, h⟩ := fails_bind.mp h
              · exact fails_raisedBy.mp hfloat
              · refine absurd h (not_fails_bind (not_fails_cacheFreshnessSeconds hbounded.cacheControl) fun policy => ?_)
                cases policy with
                | error reason => exact not_fails_ok _
                | ok policy =>
                  dsimp only
                  by_cases hstale : (policy : ℚ) + maxClockSkew <
                      max (max 0 (DateTime.totalSeconds (observedAt.instant - source.instant))) (header.value?.getD 0)
                  · rw [if_pos hstale]
                    exact not_fails_ok _
                  · rw [if_neg hstale]
                    exact not_fails_ok _
          · rintro ⟨seconds, hseconds, hfloat⟩
            exact ⟨_, hseconds, fails_bind.mpr (.inl (fails_raisedBy.mpr hfloat))⟩

/-! ## One request -/

theorem fails_decodeBody {p : Probe} {body : Bytes} : Fails AnyError (p.decodeBody body) ↔ BodyDefect p body := by
  unfold Probe.decodeBody BodyDefect
  cases htext : decodeUtf8 body with
  | error e => simp [not_fails_ok]
  | ok text =>
    dsimp only
    cases hdocument : loads uniqueHooks p.interp.recursionLimit text with
    | error e =>
      dsimp only
      by_cases hduplicate : e = duplicateKeyError
      · rw [if_pos hduplicate]
        simp [hduplicate, hdocument, not_fails_ok]
      · rw [if_neg hduplicate]
        by_cases hdecode : e = .jsonDecodeError
        · rw [if_pos hdecode]
          simp [hdecode, hdocument, not_fails_ok]
        · rw [if_neg hdecode]
          constructor
          · intro _
            exact ⟨text, e, rfl, hdocument, hduplicate, hdecode⟩
          · intro _
            exact ⟨_, rfl, trivial⟩
    | ok document =>
      cases document with
      | obj fields =>
        dsimp only
        split_ifs
        · simp [hdocument, not_fails_ok]
        · simp [hdocument, not_fails_ok]
      | _ => simp [hdocument, not_fails_ok]

theorem fails_boundHttpsUrl {lib : NetLibrary} {raw : Str} {label : String} :
    Fails AnyError (boundHttpsUrl lib raw label) ↔ ∃ text, boundParts lib raw = .error text := by
  unfold boundHttpsUrl
  cases hbound : boundParts lib raw with
  | error text =>
    constructor
    · intro _
      exact ⟨text, rfl⟩
    · intro _
      exact ⟨_, rfl, trivial⟩
  | ok target =>
    constructor
    · intro h
      exact absurd h (not_fails_ok target)
    · rintro ⟨text, htext⟩
      cases htext

theorem boundHttpsUrl_eq_ok {lib : NetLibrary} {raw : Str} {label : String} {b : BoundURL} :
    boundHttpsUrl lib raw label = .ok b ↔ boundParts lib raw = .ok b := by
  constructor
  · exact boundHttpsUrl_ok
  · intro h
    unfold boundHttpsUrl
    rw [h]

theorem metadataUrl_str {lib : NetLibrary} {text : Str} {label : String} {b : BoundURL} (h : boundParts lib text = .ok b) :
    metadataUrl lib (.str text) label = .ok b := by
  unfold metadataUrl
  dsimp only
  rw [h]

theorem fails_fetch {p : Probe} {before : List BoundURL} {url : Str} :
    Fails AnyError (p.fetch before url) ↔
      (∃ text, boundParts p.lib url = .error text) ∨
        ∃ target, boundParts p.lib url = .ok target ∧ ∃ e, p.network (before ++ [target]) = .error e := by
  unfold Probe.fetch
  rw [fails_bind, fails_boundHttpsUrl]
  apply or_congr_right
  apply exists_congr
  intro target
  rw [boundHttpsUrl_eq_ok, fails_bind_last fun response => not_fails_ok _, fails_raisedBy]

theorem fetch_eq_ok {p : Probe} {before : List BoundURL} {url : Str} {target : BoundURL} {response : FetchResponse} :
    p.fetch before url = .ok (target, response) ↔
      boundParts p.lib url = .ok target ∧ p.network (before ++ [target]) = .ok response := by
  constructor
  · exact fetch_ok
  · rintro ⟨hbound, hresponse⟩
    unfold Probe.fetch
    rw [boundHttpsUrl_eq_ok.mpr hbound]
    dsimp only [bind, Except.bind]
    rw [hresponse]
    rfl

/-- The network answers as the fetcher bounds it. -/
def BoundedNetwork (p : Probe) : Prop := ∀ requests response, p.network requests = .ok response → Bounded response

theorem fails_answered {p : Probe} {target : BoundURL} {response : FetchResponse} (hbounded : Bounded response)
    {kind : String} : Fails AnyError (p.answered target response kind) ↔ ResponseDefect p response := by
  unfold Probe.answered ResponseDefect
  dsimp only
  by_cases hreason : response.reasonCode = none
  · rw [if_neg (by rw [hreason]; decide), and_iff_right hreason]
    by_cases hstatus : response.status = some 200
    · rw [if_neg (not_not.mpr hstatus), and_iff_right hstatus]
      by_cases htype : contentTypeIsJson p.lib response.contentType = true
      · rw [if_neg (by rw [htype]; decide), and_iff_right htype, fails_bind, fails_responseFreshness hbounded]
        apply or_congr_right
        constructor
        · rintro ⟨freshness, hfreshness, h⟩
          cases freshness with
          | error reason => exact absurd h (not_fails_ok _)
          | ok freshness =>
            refine ⟨⟨freshness, hfreshness⟩, fails_decodeBody.mp ?_⟩
            refine (fails_bind_last fun document => ?_).mp h
            cases document with
            | error reason => exact not_fails_ok _
            | ok document => exact not_fails_ok _
        · rintro ⟨⟨freshness, hfreshness⟩, h⟩
          exact ⟨_, hfreshness, fails_bind.mpr (.inl (fails_decodeBody.mpr h))⟩
      · rw [if_pos (Bool.not_eq_true _ ▸ htype)]
        exact iff_of_false (not_fails_ok _) fun h => htype h.1
    · rw [if_pos hstatus]
      exact iff_of_false (not_fails_ok _) fun h => hstatus h.1
  · rw [if_pos (Option.isSome_iff_ne_none.mpr hreason)]
    exact iff_of_false (not_fails_ok _) fun h => hreason h.1

theorem fails_fetchJson {p : Probe} (hbounded : BoundedNetwork p) {before : List BoundURL} {url : Str} {kind : String} :
    Fails AnyError (p.fetchJson before url kind) ↔ RequestDefect p before url := by
  unfold Probe.fetchJson RequestDefect
  rw [fails_bind, fails_fetch, or_assoc]
  apply or_congr_right
  constructor
  · rintro (⟨target, hbound, herror⟩ | ⟨⟨target, response⟩, hfetch, h⟩)
    · exact ⟨target, hbound, .inl herror⟩
    · obtain ⟨hbound, hresponse⟩ := fetch_ok hfetch
      exact ⟨target, hbound, .inr ⟨response, hresponse, (fails_answered (hbounded _ _ hresponse)).mp h⟩⟩
  · rintro ⟨target, hbound, herror | ⟨response, hresponse, h⟩⟩
    · exact .inl ⟨target, hbound, herror⟩
    · refine .inr ⟨(target, response), fetch_eq_ok.mpr ⟨hbound, hresponse⟩, ?_⟩
      exact (fails_answered (hbounded _ _ hresponse)).mpr h

/-! ## Loops -/

theorem fails_discover {α : Type} {p : Probe} (hbounded : BoundedNetwork p) {front : String}
    {validate : Dict → Checked α} {valid : String} {candidates : List (Str × String)} : ∀ {before : List BoundURL},
      Fails AnyError (p.discover front validate valid candidates before) ↔ DiscoverDefect p front validate candidates before := by
  induction candidates with
  | nil =>
    intro before
    exact iff_of_false (not_fails_ok _) id
  | cons candidate candidates ih =>
    intro before
    obtain ⟨url, kind⟩ := candidate
    rw [Probe.discover, DiscoverDefect, fails_bind, fails_fetchJson hbounded]
    apply or_congr_right
    constructor
    · rintro ⟨⟨target, document, attempt⟩, hfetch, h⟩
      refine ⟨target, ?_⟩
      cases document with
      | none =>
        refine ⟨⟨none, attempt, hfetch, fun d hd => by cases hd⟩, ?_⟩
        exact ih.mp ((fails_bind_last fun later => not_fails_ok _).mp h)
      | some document =>
        dsimp only at h
        cases hvalid : validate document with
        | ok value =>
          rw [hvalid] at h
          exact absurd h (not_fails_ok _)
        | error reason =>
          rw [hvalid] at h
          refine ⟨⟨some document, attempt, hfetch, ?_⟩, ih.mp ((fails_bind_last fun later => not_fails_ok _).mp h)⟩
          intro d hd
          cases hd
          exact ⟨reason, hvalid⟩
    · rintro ⟨target, ⟨document, attempt, hfetch, hdocument⟩, h⟩
      refine ⟨_, hfetch, ?_⟩
      cases document with
      | none => exact (fails_bind_last fun later => not_fails_ok _).mpr (ih.mpr h)
      | some document =>
        obtain ⟨reason, hreason⟩ := hdocument document rfl
        dsimp only
        rw [hreason]
        exact (fails_bind_last fun later => not_fails_ok _).mpr (ih.mpr h)

theorem fails_probeServers {p : Probe} (hbounded : BoundedNetwork p) {issuers : List Str} :
    ∀ {before : List BoundURL}, (∀ issuer ∈ issuers, ∃ bound, boundParts p.lib issuer = .ok bound) →
      (Fails AnyError (p.probeServers issuers before) ↔ IssuersDefect p issuers before) := by
  induction issuers with
  | nil =>
    intro before _
    exact iff_of_false (not_fails_ok _) id
  | cons issuer issuers ih =>
    intro before hissuers
    obtain ⟨bound, hbound⟩ := hissuers issuer List.mem_cons_self
    have hrest : ∀ before, Fails AnyError (p.probeServers issuers before) ↔ IssuersDefect p issuers before := by
      intro before
      exact ih fun other hother => hissuers other (List.mem_cons_of_mem _ hother)
    rw [Probe.probeServers, IssuersDefect, metadataUrl_str hbound]
    dsimp only
    rw [fails_bind, fails_discover hbounded]
    constructor
    · rintro (h | ⟨discovery, hdiscovery, h⟩)
      · exact ⟨bound, hbound, .inl h⟩
      · refine ⟨bound, hbound, .inr ⟨discovery, hdiscovery, ?_⟩⟩
        exact (hrest _).mp ((fails_bind_last fun later => not_fails_ok _).mp h)
    · rintro ⟨bound', hbound', h⟩
      rw [hbound] at hbound'
      cases hbound'
      obtain h | ⟨discovery, hdiscovery, h⟩ := h
      · exact .inl h
      · exact .inr ⟨discovery, hdiscovery, (fails_bind_last fun later => not_fails_ok _).mpr ((hrest _).mpr h)⟩

/-! ## A run -/

/-- The issuers of accepted metadata are bound URLs. -/
theorem validateResourceMetadata_issuers {lib : NetLibrary} {resource : BoundURL} {document : Dict} {m : ResourceMetadata}
    (h : validateResourceMetadata lib resource document = .ok m) :
    ∀ issuer ∈ m.authorizationServers, ∃ bound, boundParts lib issuer = .ok bound := by
  unfold validateResourceMetadata at h
  obtain ⟨declared, -, h⟩ := bind_ok.mp h
  split_ifs at h
  obtain ⟨servers, -, h⟩ := bind_ok.mp h
  obtain ⟨bounds, hbounds, h⟩ := bind_ok.mp h
  obtain ⟨scopes, -, h⟩ := bind_ok.mp h
  cases h
  intro issuer hissuer
  cases hmeta : metadataUrl lib (.str issuer) "authorization_server" with
  | error reason =>
    obtain ⟨e, he⟩ := (mapM_error_iff (f := fun server => metadataUrl lib (.str server) "authorization_server")).mpr
      ⟨issuer, hissuer, reason, hmeta⟩
    rw [hbounds] at he
    cases he
  | ok bound =>
    obtain ⟨text, htext, hbound⟩ := metadataUrl_ok hmeta
    cases htext
    exact ⟨bound, hbound⟩

theorem fails_run {p : Probe} (hbounded : BoundedNetwork p) {resourceUrl : Str} {resource : BoundURL}
    (hbinding : boundParts p.lib resourceUrl = .ok resource) {wwwAuthenticate : Option Str} :
    Fails AnyError (p.run resourceUrl wwwAuthenticate) ↔ RunDefect p resource wwwAuthenticate := by
  unfold Probe.run RunDefect
  rw [boundHttpsUrl_eq_ok.mpr hbinding]
  dsimp only [bind, Except.bind]
  cases hstart : startDiscovery p.lib resource wwwAuthenticate with
  | error reason =>
    refine iff_of_false (not_fails_ok _) ?_
    rintro ⟨scopes, candidates, hstarted, -⟩
    cases hstarted
  | ok started =>
    obtain ⟨scopes, candidates⟩ := started
    dsimp only
    constructor
    · intro h
      refine ⟨scopes, candidates, rfl, ?_⟩
      obtain h | ⟨discovery, hdiscovery, h⟩ := fails_bind.mp h
      · exact .inl ((fails_discover hbounded).mp h)
      · cases hfound : discovery.found with
        | none =>
          rw [hfound] at h
          exact absurd h (not_fails_ok _)
        | some found =>
          obtain ⟨metadata, url, kind⟩ := found
          rw [hfound] at h
          obtain ⟨-, before, document, -, hvalid⟩ := (discover_ok hdiscovery).found metadata url kind hfound
          have hissuers := validateResourceMetadata_issuers hvalid
          refine .inr ⟨discovery, metadata, url, kind, hdiscovery, hfound, (fails_probeServers hbounded hissuers).mp ?_⟩
          exact (fails_bind_last fun servers => not_fails_ok _).mp h
    · rintro ⟨scopes', candidates', hstarted, h⟩
      cases hstarted
      obtain h | ⟨discovery, metadata, url, kind, hdiscovery, hfound, h⟩ := h
      · exact fails_bind.mpr (.inl ((fails_discover hbounded).mpr h))
      · obtain ⟨-, before, document, -, hvalid⟩ := (discover_ok hdiscovery).found metadata url kind hfound
        have hissuers := validateResourceMetadata_issuers hvalid
        refine fails_bind.mpr (.inr ⟨discovery, hdiscovery, ?_⟩)
        rw [hfound]
        exact (fails_bind_last fun servers => not_fails_ok _).mpr ((fails_probeServers hbounded hissuers).mpr h)

theorem emptyProbe_bounded : BoundedNetwork emptyProbe := by
  intro requests response h
  cases h
  refine ⟨?_, ?_, ?_⟩
  · intro text htext
    cases htext
  · intro text htext
    cases htext
  · intro body hbody
    cases hbody

def sampleResource : BoundURL where
  url := u "https://example.test/mcp"
  hostname := u "example.test"
  port := 443
  path := u "/mcp"
  origin := u "https://example.test"

theorem sampleResource_bound : boundParts sampleLibrary (u "https://example.test/mcp") = .ok sampleResource := by
  decide +kernel

/-- Every request is answered with a document that is as old as 400 digits can say. -/
def agedProbe : Probe :=
  { emptyProbe with
    lib := { sampleLibrary with parseDate := fun _ => some emptyProbe.observedAt }
    network := fun _ => .ok
      { status := some 200, contentType := some (u "application/json"), httpDate := some (u "Sun, 10 May 2026 00:00:00 GMT"),
        age := some (List.replicate 400 (ch '9')), body := some [] } }

theorem agedProbe_bounded : BoundedNetwork agedProbe := by
  intro requests response h
  cases h
  refine ⟨?_, ?_, ?_⟩
  · intro text htext
    cases htext
    rw [List.length_replicate]
    decide
  · intro text htext
    cases htext
  · intro body hbody
    cases hbody
    exact Nat.zero_le _

end McpTrust.Posture
