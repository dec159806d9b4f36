import McpTrust.Posture.AuthPosture
import McpTrust.Posture.Totality

/-! # Routes of the release verifier

A manifest's route is joined to the target by `urljoin`. A route whose relative
reference reads as something else than a path and a query leaves the target, or
loses a part on the way.
-/

namespace McpTrust.Release

set_option autoImplicit false

open Python Posture

/-! ## `urllib.parse` -/

/-- What `urlsplit` leaves to other tables: the refusal of a network location, and the case of a host. -/
structure UrlTables where
  netlocAllowed : Str → Bool
  lower : Str → Str
  lower_nil : lower [] = []

def isUnsafePoint (c : CodePoint) : Bool := decide (c.val = 9) || decide (c.val = 10) || decide (c.val = 13)

/-- A leading control or space goes, and so does every tab and line break. -/
def cleanUrl (url : Str) : Str := (url.dropWhile fun c => decide (c.val ≤ 32)).filter fun c => !isUnsafePoint c

def isSchemeChar (c : CodePoint) : Bool := isAlnum c || decide (c ∈ u "+-.")

/-- The scheme of a URL and what follows it. -/
def splitScheme (url : Str) : Option (Str × Str) :=
  let scheme := Posture.cut ':' url
  if ch ':' ∈ url ∧ (scheme.head?.any fun c => isLowerAlpha c || isUpperAlpha c) = true ∧
      scheme.all isSchemeChar = true then
    some (lower scheme, afterCut ':' url)
  else none

/-- Neither ends a network location. -/
def isNetlocChar (c : CodePoint) : Bool := decide (c ∉ u "/?#")

def splitNetloc (url : Str) : Str × Str :=
  if (u "//").isPrefixOf url then ((url.drop 2).takeWhile isNetlocChar, (url.drop 2).dropWhile isNetlocChar)
  else ([], url)

/-- `urlsplit(url, scheme)`; `none` is a `ValueError`. -/
def urlsplit (tables : UrlTables) (url : Str) (scheme : Str) : Option SplitUrl :=
  let url := cleanUrl url
  let schemed := (splitScheme url).getD (scheme, url)
  let located := splitNetloc schemed.2
  let front := Posture.cut '#' located.2
  if located.1 = [] ∨ tables.netlocAllowed located.1 = true then
    some { scheme := schemed.1, netloc := located.1, path := Posture.cut '?' front, query := afterCut '?' front,
           fragment := afterCut '#' located.2 }
  else none

/-- The last part of a path, from its last slash on. -/
def lastPart (path : Str) : Str := (path.reverse.takeWhile fun c => decide (c ≠ ch '/')).reverse

/-- `_splitparams(path)`. -/
def splitParams (path : Str) : Str × Str :=
  let last := lastPart path
  if ch ';' ∈ last then
    (path.take (path.length - last.length) ++ Posture.cut ';' last, afterCut ';' last)
  else (path, [])

/-- `urlunparse` with a scheme. -/
def urlunparse (scheme netloc path params query fragment : Str) : Str :=
  let path := if params = [] then path else path ++ ch ';' :: params
  let rooted := if path ≠ [] ∧ path.head? ≠ some (ch '/') then ch '/' :: path else path
  scheme ++ u "://" ++ netloc ++ rooted ++ (if query = [] then [] else ch '?' :: query) ++
    (if fragment = [] then [] else ch '#' :: fragment)

def parts (path : Str) : List Str := path.splitOn (ch '/')

/-- `segments[1:-1] = filter(None, segments[1:-1])`. -/
def filterInner : List Str → List Str
  | [] => []
  | first :: rest => first :: (rest.dropLast.filter fun s => decide (s ≠ [])) ++ rest.getLast?.toList

/-- The loop over the segments: `..` takes the last one back, `.` is skipped. -/
def resolveSegments (segments : List Str) : List Str :=
  segments.foldl (fun resolved segment =>
    if segment = u ".." then resolved.dropLast else if segment = u "." then resolved else resolved ++ [segment]) []

def isDots (segment : Str) : Bool := decide (segment = u ".") || decide (segment = u "..")

/-- The path `urljoin` makes of a base path and a relative one. -/
def resolvePath (basePath path : Str) : Str :=
  let base := if (parts basePath).getLast? = some [] then parts basePath else (parts basePath).dropLast
  let segments := if path.head? = some (ch '/') then parts path else filterInner (base ++ parts path)
  let resolved := resolveSegments segments
  let resolved := if (segments.getLast?.any isDots) = true then resolved ++ [[]] else resolved
  let joined := [ch '/'].intercalate resolved
  if joined = [] then u "/" else joined

/-- `urljoin(base, url)` for a base whose scheme is `http` or `https`; `none` is a `ValueError`. -/
def urljoin (tables : UrlTables) (base url : Str) : Option Str :=
  if url = [] then some base
  else do
    let b ← urlsplit tables base []
    let r ← urlsplit tables url b.scheme
    if r.scheme ≠ b.scheme then some url
    else
      let split := splitParams r.path
      let path := split.1
      let params := split.2
      if r.netloc ≠ [] then some (urlunparse r.scheme r.netloc path params r.query r.fragment)
      else if path = [] ∧ params = [] then
        let baseSplit := splitParams b.path
        some (urlunparse b.scheme b.netloc baseSplit.1 baseSplit.2 (if r.query = [] then b.query else r.query) r.fragment)
      else
        some (urlunparse b.scheme b.netloc (resolvePath (splitParams b.path).1 path) params r.query r.fragment)

/-! ## Targets and routes -/

structure Origin where
  scheme : Str
  hostname : Str
  port : Option Nat
  deriving DecidableEq

structure Target where
  url : Str
  origin : Origin

/-- `parsed.hostname or ""`; the zone keeps its case. -/
def hostname (tables : UrlTables) (parsed : SplitUrl) : Str :=
  let host := (hostInfo parsed.netloc).1
  tables.lower (Posture.cut '%' host) ++ host.dropWhile fun d => decide (d ≠ ch '%')

/-- `_origin(url)` of a URL that `urlsplit` reads as `parsed`; `urlsplit` has lowered the scheme. -/
def originOf (tables : UrlTables) (parsed : SplitUrl) : Except PyErr Origin :=
  match parsed.port with
  | none => .error (.app "ManifestError" "target URL has an invalid port")
  | some port => .ok ⟨parsed.scheme, tables.lower (hostname tables parsed), port⟩

def isLoopback (hostname : Str) : Bool :=
  decide (hostname ∈ ["localhost", "127.0.0.1", "::1"].map u) || (u ".localhost").isSuffixOf hostname

/-- `text.rstrip("/")`. -/
def rstripSlashes (text : Str) : Str := (text.reverse.dropWhile fun c => decide (c = ch '/')).reverse

def refuse (refused : Bool) (message : String) : Except PyErr Unit :=
  if refused then .error (.app "ManifestError" message) else .ok ()

/-- `validate_target_url(raw)`. -/
def validateTargetUrl (tables : UrlTables) (raw : Str) : Except PyErr Target := do
  let candidate := strip raw
  refuse (decide (candidate = [])) "target URL must be a non-empty string"
  match urlsplit tables candidate [] with
  | none => .error .valueError
  | some parsed => do
    refuse (decide (parsed.scheme ∉ ["http", "https"].map u)) "target URL must use http or https"
    refuse (decide (hostname tables parsed = [])) "target URL must include a hostname"
    refuse parsed.hasCredentials "target URL must not contain credentials"
    refuse (decide (parsed.path ∉ ["", "/"].map u) || decide (parsed.query ≠ []) || decide (parsed.fragment ≠ []))
      "target URL must be an origin with no path, query, or fragment"
    refuse (decide (parsed.scheme = u "http") && !isLoopback (tables.lower (hostname tables parsed)))
      "non-loopback targets must use https"
    let origin ← originOf tables parsed
    .ok ⟨rstripSlashes candidate, origin⟩

/-- `validate_manifest` on the route of an entry. -/
def isRoute (route : Str) : Bool :=
  (u "/").isPrefixOf route && !(u "//").isPrefixOf route && decide (ch '#' ∉ route) &&
    !route.any isWhite

/-- `requested_url` of `_route_result`. -/
def requestedUrl (tables : UrlTables) (target : Target) (route : Str) : Option Str :=
  urljoin tables (target.url ++ u "/") (route.dropWhile fun c => decide (c = ch '/'))

/-- The path and the query a URL is requested with. -/
def pathAndQuery (parsed : SplitUrl) : Str :=
  (if parsed.path = [] then u "/" else parsed.path) ++ (if parsed.query = [] then [] else ch '?' :: parsed.query)

/-- The verifier requests the route of the target itself. -/
def RequestsOwn (tables : UrlTables) (target : Target) (route : Str) : Prop :=
  ∃ url parsed, requestedUrl tables target route = some url ∧ urlsplit tables url [] = some parsed ∧
    originOf tables parsed = .ok target.origin ∧ pathAndQuery parsed = route

/-! ## Reading URLs -/

theorem cut_append {c : Char} {front rest : Str} (h : ch c ∉ front) :
    Posture.cut c (front ++ ch c :: rest) = front ∧ afterCut c (front ++ ch c :: rest) = rest := by
  have hfront : ∀ d ∈ front, decide (d ≠ ch c) = true := fun d hd => decide_eq_true fun heq => h (heq ▸ hd)
  constructor
  · rw [Posture.cut, List.takeWhile_append_of_pos hfront, List.takeWhile_cons_of_neg (by simp), List.append_nil]
  · rw [afterCut, List.dropWhile_append_of_pos hfront, List.dropWhile_cons_of_neg (by simp)]
    rfl

theorem cut_of_notMem {c : Char} {text : Str} (h : ch c ∉ text) : Posture.cut c text = text ∧ afterCut c text = [] := by
  have hall : ∀ d ∈ text, decide (d ≠ ch c) = true := fun d hd => decide_eq_true fun heq => h (heq ▸ hd)
  constructor
  · exact List.takeWhile_eq_self_iff.mpr hall
  · rw [afterCut, List.dropWhile_eq_nil_iff.mpr hall]
    rfl

/-- A text is its part before a separator and, where there is one, the separator and the part after it. -/
theorem cut_cases (c : Char) (text : Str) :
    (ch c ∉ text ∧ Posture.cut c text = text ∧ afterCut c text = []) ∨
      ∃ front rest, text = front ++ ch c :: rest ∧ ch c ∉ front ∧ Posture.cut c text = front ∧ afterCut c text = rest := by
  by_cases hmem : ch c ∈ text
  · obtain ⟨front, rest, rfl, hfront⟩ := List.eq_append_cons_of_mem hmem
    exact .inr ⟨front, rest, rfl, hfront, (cut_append hfront).1, (cut_append hfront).2⟩
  · exact .inl ⟨hmem, (cut_of_notMem hmem).1, (cut_of_notMem hmem).2⟩

theorem cleanUrl_append {url : Str} (h : url.dropWhile (fun c => decide (c.val ≤ 32)) ≠ []) (rest : Str) :
    cleanUrl (url ++ rest) = cleanUrl url ++ rest.filter fun c => !isUnsafePoint c := by
  rw [cleanUrl, List.dropWhile_append, if_neg (by simpa using h), List.filter_append]
  rfl

theorem cleanUrl_self {url : Str} (hhead : ∀ c, url.head? = some c → 32 < c.val) (hsafe : ∀ c ∈ url, isUnsafePoint c = false) :
    cleanUrl url = url := by
  have hdrop : url.dropWhile (fun c => decide (c.val ≤ 32)) = url := by
    cases url with
    | nil => rfl
    | cons c rest => exact List.dropWhile_cons_of_neg (by simpa using hhead c rfl)
  rw [cleanUrl, hdrop]
  exact List.filter_eq_self.mpr fun c hc => by rw [hsafe c hc]; rfl

theorem safe_cleanUrl (url : Str) : ∀ c ∈ cleanUrl url, isUnsafePoint c = false := fun c hc => by
  have hkept := (List.mem_filter.mp hc).2
  simpa using hkept

def webSchemes : List Str := ["http", "https"].map u

theorem webScheme_spec {scheme : Str} (h : scheme ∈ webSchemes) :
    lower scheme = scheme ∧ ch ':' ∉ scheme ∧ (scheme.head?.any fun c => isLowerAlpha c || isUpperAlpha c) = true ∧
      scheme.all isSchemeChar = true ∧ (∀ c, scheme.head? = some c → 32 < c.val) ∧
        (∀ c ∈ scheme, isUnsafePoint c = false) ∧ scheme ≠ [] := by
  have hall : ∀ s ∈ webSchemes, lower s = s ∧ ch ':' ∉ s ∧
      (s.head?.any fun c => isLowerAlpha c || isUpperAlpha c) = true ∧ s.all isSchemeChar = true ∧
        (s.head?.all fun c => decide (32 < c.val)) = true ∧ (s.all fun c => !isUnsafePoint c) = true ∧ s ≠ [] := by
    decide +kernel
  obtain ⟨hlower, hcolon, hhead, hchars, hfirst, hsafe, hne⟩ := hall scheme h
  refine ⟨hlower, hcolon, hhead, hchars, fun c hc => ?_, fun c hc => ?_, hne⟩
  · rw [hc] at hfirst
    exact of_decide_eq_true hfirst
  · have hkept := List.all_eq_true.mp hsafe c hc
    simpa using hkept

/-- A network location as `urlsplit` reads it. -/
structure Located (tables : UrlTables) (netloc : Str) : Prop where
  nonempty : netloc ≠ []
  chars : ∀ c ∈ netloc, isNetlocChar c = true
  safe : ∀ c ∈ netloc, isUnsafePoint c = false
  allowed : tables.netlocAllowed netloc = true

/-- What may follow a network location. -/
def IsTail (tail : Str) : Prop := ∀ c, tail.head? = some c → isNetlocChar c = false

theorem splitNetloc_located {netloc tail : Str} (hchars : ∀ c ∈ netloc, isNetlocChar c = true) (htail : IsTail tail) :
    splitNetloc (u "//" ++ netloc ++ tail) = (netloc, tail) := by
  have hstart : (u "//").isPrefixOf (u "//" ++ netloc ++ tail) = true := by
    rw [List.append_assoc]
    exact List.isPrefixOf_iff_prefix.mpr (List.prefix_append _ _)
  have hdrop : (u "//" ++ netloc ++ tail).drop 2 = netloc ++ tail := rfl
  have htake : tail.takeWhile isNetlocChar = [] ∧ tail.dropWhile isNetlocChar = tail := by
    cases tail with
    | nil => exact ⟨rfl, rfl⟩
    | cons c rest =>
      have hc : ¬isNetlocChar c = true := by rw [htail c rfl]; exact Bool.false_ne_true
      exact ⟨List.takeWhile_cons_of_neg hc, List.dropWhile_cons_of_neg hc⟩
  rw [splitNetloc, if_pos hstart, hdrop, List.takeWhile_append_of_pos hchars, List.dropWhile_append_of_pos hchars,
    htake.1, htake.2, List.append_nil]

/-- `urlsplit` of an absolute URL. -/
theorem urlsplit_absolute {tables : UrlTables} {scheme netloc tail : Str} (hscheme : scheme ∈ webSchemes)
    (hnetloc : Located tables netloc) (htail : IsTail tail) (hsafe : ∀ c ∈ tail, isUnsafePoint c = false)
    (given : Str) : urlsplit tables (scheme ++ u "://" ++ netloc ++ tail) given = some
      { scheme := scheme, netloc := netloc, path := Posture.cut '?' (Posture.cut '#' tail),
        query := afterCut '?' (Posture.cut '#' tail), fragment := afterCut '#' tail } := by
  obtain ⟨hlower, hcolon, hhead, hchars, hfirst, hsafeScheme, hne⟩ := webScheme_spec hscheme
  have hurl : scheme ++ u "://" ++ netloc ++ tail = scheme ++ ch ':' :: (u "//" ++ netloc ++ tail) := by
    simp only [List.append_assoc]
    rfl
  have hmarks : ∀ c ∈ u "://", isUnsafePoint c = false := fun c hc => by
    have hall : ((u "://").all fun c => !isUnsafePoint c) = true := by decide
    have hkept := List.all_eq_true.mp hall c hc
    simpa using hkept
  have hclean : cleanUrl (scheme ++ u "://" ++ netloc ++ tail) = scheme ++ u "://" ++ netloc ++ tail := by
    refine cleanUrl_self (fun c hc => ?_) fun c hc => ?_
    · obtain ⟨first, rest, rfl⟩ := List.exists_cons_of_ne_nil hne
      exact hfirst c hc
    · obtain hc | hc := List.mem_append.mp hc
      · obtain hc | hc := List.mem_append.mp hc
        · obtain hc | hc := List.mem_append.mp hc
          · exact hsafeScheme c hc
          · exact hmarks c hc
        · exact hnetloc.safe c hc
      · exact hsafe c hc
  have hsplit : splitScheme (scheme ++ u "://" ++ netloc ++ tail) = some (scheme, u "//" ++ netloc ++ tail) := by
    rw [splitScheme, hurl, (cut_append hcolon).1, (cut_append hcolon).2, if_pos, hlower]
    exact ⟨List.mem_append_right _ List.mem_cons_self, hhead, hchars⟩
  simp only [urlsplit, hclean, hsplit, Option.getD_some, splitNetloc_located hnetloc.chars htail,
    if_pos (Or.inr hnetloc.allowed : netloc = [] ∨ tables.netlocAllowed netloc = true)]

/-- What `urlsplit` reads, piece by piece. -/
theorem urlsplit_eq_some {tables : UrlTables} {url given : Str} {parsed : SplitUrl}
    (h : urlsplit tables url given = some parsed) {schemed : Str × Str}
    (hscheme : (splitScheme (cleanUrl url)).getD (given, cleanUrl url) = schemed) :
    parsed = { scheme := schemed.1, netloc := (splitNetloc schemed.2).1,
               path := Posture.cut '?' (Posture.cut '#' (splitNetloc schemed.2).2),
               query := afterCut '?' (Posture.cut '#' (splitNetloc schemed.2).2),
               fragment := afterCut '#' (splitNetloc schemed.2).2 } ∧
      ((splitNetloc schemed.2).1 = [] ∨ tables.netlocAllowed (splitNetloc schemed.2).1 = true) := by
  simp only [urlsplit, hscheme] at h
  split_ifs at h with hok
  exact ⟨(Option.some.inj h).symm, hok⟩

/-! ## The target -/

/-- What is known of the base URL of an accepted target. -/
structure BaseOf (tables : UrlTables) (target : Target) (b : SplitUrl) : Prop where
  base : urlsplit tables (target.url ++ u "/") [] = some b
  scheme : b.scheme ∈ webSchemes
  located : Located tables b.netloc
  path : b.path = [] ∨ b.path = u "/"
  query : b.query = [] ∨ b.query = u "/"
  noQuery : b.query = [] ↔ target.url.getLast? ≠ some (ch '?')
  origin : originOf tables b = .ok target.origin

theorem rstripSlashes_eq (text : Str) : ∃ k, text = rstripSlashes text ++ List.replicate k (ch '/') ∧
    (rstripSlashes text).getLast? ≠ some (ch '/') := by
  refine ⟨(text.reverse.takeWhile fun c => decide (c = ch '/')).length, ?_, ?_⟩
  · have hslashes : text.reverse.takeWhile (fun c => decide (c = ch '/')) =
        List.replicate (text.reverse.takeWhile fun c => decide (c = ch '/')).length (ch '/') :=
      List.eq_replicate_iff.mpr ⟨rfl, fun c hc => by simpa using List.mem_takeWhile_imp hc⟩
    have hboth : text.reverse.takeWhile (fun c => decide (c = ch '/')) ++ text.reverse.dropWhile (fun c => decide (c = ch '/')) =
        text.reverse := List.takeWhile_append_dropWhile
    have hjoin := congrArg List.reverse hboth
    rw [List.reverse_append, List.reverse_reverse, hslashes, List.reverse_replicate] at hjoin
    exact hjoin.symm
  · intro hlast
    rw [rstripSlashes, List.getLast?_reverse] at hlast
    have hhead := List.head?_dropWhile_not (fun c => decide (c = ch '/')) text.reverse
    rw [hlast] at hhead
    cases hhead

theorem strip_last {raw : Str} {c : CodePoint} (h : (strip raw).getLast? = some c) : isWhite c = false := by
  rw [strip, List.getLast?_reverse] at h
  have hhead := List.head?_dropWhile_not isWhite (lstrip raw).reverse
  rw [lstrip] at h
  rw [h] at hhead
  simpa using hhead

/-- Cleaning keeps a last character that is not removed. -/
theorem getLast_cleanUrl {url : Str} (h : url.dropWhile (fun c => decide (c.val ≤ 32)) ≠ []) {c : CodePoint}
    (hlast : url.getLast? = some c) (hsafe : isUnsafePoint c = false) : (cleanUrl url).getLast? = some c := by
  obtain ⟨front, hfront⟩ := List.getLast?_eq_some_iff.mp hlast
  have hsuffix : url.dropWhile (fun c : CodePoint => decide (c.val ≤ 32)) <:+ url := List.dropWhile_suffix _
  obtain ⟨rest, last, hdrop⟩ :=
    (List.eq_nil_or_concat' (url.dropWhile fun c : CodePoint => decide (c.val ≤ 32))).resolve_left h
  obtain ⟨before, hbefore⟩ := hsuffix
  rw [hdrop, hfront, ← List.append_assoc] at hbefore
  obtain rfl := List.singleton_inj.mp (List.append_inj' hbefore rfl).2
  rw [cleanUrl, hdrop, List.filter_append, List.filter_cons_of_pos (by rw [hsafe]; rfl), List.filter_nil,
    List.getLast?_concat]

theorem cleanUrl_slashes (k : Nat) : cleanUrl (List.replicate k (ch '/')) = List.replicate k (ch '/') := by
  refine cleanUrl_self (fun c hc => ?_) fun c hc => ?_
  · cases k with
    | zero => cases hc
    | succ k =>
      obtain rfl := Option.some.inj hc
      decide
  · rw [List.eq_of_mem_replicate hc]
    rfl

theorem dropWhile_replicate_slash (k : Nat) :
    (List.replicate k (ch '/')).takeWhile isNetlocChar = [] ∧
      (List.replicate k (ch '/')).dropWhile isNetlocChar = List.replicate k (ch '/') := by
  cases k with
  | zero => exact ⟨rfl, rfl⟩
  | succ k => exact ⟨rfl, rfl⟩

theorem netloc_append (z : Str) (k : Nat) :
    (z ++ List.replicate k (ch '/')).takeWhile isNetlocChar = z.takeWhile isNetlocChar ∧
      (z ++ List.replicate k (ch '/')).dropWhile isNetlocChar = z.dropWhile isNetlocChar ++ List.replicate k (ch '/') := by
  obtain ⟨htake, hdrop⟩ := dropWhile_replicate_slash k
  rw [List.takeWhile_append, List.dropWhile_append]
  constructor
  · split_ifs with hall
    · rw [htake, List.append_nil]
      exact ((List.takeWhile_prefix _).eq_of_length hall).symm
    · rfl
  · split_ifs with hall
    · rw [hdrop, List.isEmpty_iff.mp hall, List.nil_append]
    · rfl

theorem slashes_nil {k : Nat} (h : List.replicate k (ch '/') = []) : k = 0 := by
  cases k with
  | zero => rfl
  | succ k => cases h

/-- A URL with slashes behind it is read as an absolute one only where it is one itself. -/
theorem absolute_of_slashes {url scheme rest : Str} {k : Nat} (hscheme : scheme ∈ webSchemes)
    (h : (splitScheme (cleanUrl (url ++ List.replicate k (ch '/')))).getD ([], cleanUrl (url ++ List.replicate k (ch '/'))) =
      (scheme, rest)) (hne : (splitNetloc rest).1 ≠ []) :
    ∃ front z, cleanUrl url = front ++ ch ':' :: (u "//" ++ z) ∧ ch ':' ∉ front ∧ lower front = scheme ∧
      rest = u "//" ++ z ++ List.replicate k (ch '/') ∧ url.dropWhile (fun c : CodePoint => decide (c.val ≤ 32)) ≠ [] ∧
        (front.head?.any fun c => isLowerAlpha c || isUpperAlpha c) = true ∧ front.all isSchemeChar = true := by
  have hslash : ∀ k, (List.replicate k (ch '/')).filter (fun c => !isUnsafePoint c) = List.replicate k (ch '/') := fun k =>
    List.filter_eq_self.mpr fun c hc => by rw [List.eq_of_mem_replicate hc]; rfl
  have hnocolon : ∀ k, ch ':' ∉ List.replicate k (ch '/') := fun k hmem =>
    absurd (List.eq_of_mem_replicate hmem) (by decide)
  have hweb : ([] : Str) ∉ webSchemes := by decide
  have hnone : ∀ text : Str, ch ':' ∉ text → (splitScheme text).getD ([], text) = ([], text) := fun text hmem => by
    rw [splitScheme, if_neg fun hall => hmem hall.1]
    rfl
  by_cases hdrop : url.dropWhile (fun c : CodePoint => decide (c.val ≤ 32)) = []
  · have hclean : cleanUrl (url ++ List.replicate k (ch '/')) = List.replicate k (ch '/') := by
      rw [cleanUrl, List.dropWhile_append, if_pos (by rw [hdrop]; rfl)]
      exact cleanUrl_slashes k
    rw [hclean, hnone _ (hnocolon k)] at h
    obtain ⟨rfl, -⟩ := Prod.mk.inj h
    exact absurd hscheme hweb
  · rw [cleanUrl_append hdrop, hslash] at h
    obtain ⟨hmem, -⟩ | ⟨front, y, hy, hfront, -, -⟩ := cut_cases ':' (cleanUrl url)
    · rw [hnone _ fun hin => (List.mem_append.mp hin).elim hmem (hnocolon k)] at h
      obtain ⟨rfl, -⟩ := Prod.mk.inj h
      exact absurd hscheme hweb
    · rw [hy, List.append_assoc, List.cons_append, splitScheme, (cut_append hfront).1, (cut_append hfront).2] at h
      split_ifs at h with hall
      · obtain ⟨hlower, hrest⟩ := Prod.mk.inj h
        have hstart : (u "//").isPrefixOf rest = true := by
          by_contra hno
          exact hne (by rw [splitNetloc, if_neg hno])
        have hnetloc : (rest.drop 2).takeWhile isNetlocChar ≠ [] := by
          rw [splitNetloc, if_pos hstart] at hne
          exact hne
        obtain ⟨z, hz⟩ : ∃ z, y = u "//" ++ z := by
          rw [← hrest] at hstart hnetloc
          cases y with
          | nil =>
            rw [List.nil_append, List.drop_replicate] at hnetloc
            exact absurd (dropWhile_replicate_slash _).1 hnetloc
          | cons a y =>
            cases y with
            | nil =>
              rw [List.cons_append, List.drop_succ_cons, List.nil_append, List.drop_replicate] at hnetloc
              exact absurd (dropWhile_replicate_slash _).1 hnetloc
            | cons b y =>
              obtain ⟨z, hz⟩ := List.isPrefixOf_iff_prefix.mp hstart
              have hz : ch '/' :: ch '/' :: z = a :: b :: (y ++ List.replicate k (ch '/')) := hz
              obtain ⟨ha, hz⟩ := List.cons.inj hz
              obtain ⟨hb, -⟩ := List.cons.inj hz
              exact ⟨y, by rw [← ha, ← hb]; rfl⟩
        exact ⟨front, z, by rw [hy, hz], hfront, hlower, by rw [← hrest, hz], hdrop, hall.2.1, hall.2.2⟩
      · obtain ⟨rfl, -⟩ := Prod.mk.inj h
        exact absurd hscheme hweb

theorem refuse_eq_ok {refused : Bool} {message : String} {a : Unit} :
    refuse refused message = .ok a ↔ refused = false := by
  cases refused <;> simp [refuse]

/-- What `validate_target_url` has checked. -/
structure Checked (tables : UrlTables) (raw : Str) (target : Target) (parsed : SplitUrl) : Prop where
  read : urlsplit tables (strip raw) [] = some parsed
  scheme : parsed.scheme ∈ webSchemes
  hostname : hostname tables parsed ≠ []
  path : parsed.path = [] ∨ parsed.path = u "/"
  query : parsed.query = []
  fragment : parsed.fragment = []
  origin : originOf tables parsed = .ok target.origin
  url : target.url = rstripSlashes (strip raw)

theorem validateTargetUrl_eq_ok {tables : UrlTables} {raw : Str} {target : Target}
    (h : validateTargetUrl tables raw = .ok target) : ∃ parsed, Checked tables raw target parsed := by
  obtain ⟨_, _, h⟩ := bind_eq_ok.mp h
  cases hread : urlsplit tables (strip raw) [] with
  | none =>
    simp only [hread] at h
    cases h
  | some parsed =>
    simp only [hread] at h
    obtain ⟨_, hscheme, h⟩ := bind_eq_ok.mp h
    obtain ⟨_, hhostname, h⟩ := bind_eq_ok.mp h
    obtain ⟨_, _, h⟩ := bind_eq_ok.mp h
    obtain ⟨_, hplain, h⟩ := bind_eq_ok.mp h
    obtain ⟨_, _, h⟩ := bind_eq_ok.mp h
    obtain ⟨origin, horigin, h⟩ := bind_eq_ok.mp h
    rw [Except.ok.injEq] at h
    subst h
    have hscheme := refuse_eq_ok.mp hscheme
    have hhostname := refuse_eq_ok.mp hhostname
    have hplain := refuse_eq_ok.mp hplain
    rw [decide_eq_false_iff_not, not_not] at hscheme
    rw [decide_eq_false_iff_not] at hhostname
    rw [Bool.or_eq_false_iff, Bool.or_eq_false_iff, decide_eq_false_iff_not, not_not, decide_eq_false_iff_not, not_not,
      decide_eq_false_iff_not, not_not] at hplain
    have hpath : parsed.path = [] ∨ parsed.path = u "/" := by
      obtain heq | hin := List.mem_cons.mp hplain.1.1
      · exact .inl heq
      · exact .inr (List.mem_singleton.mp hin)
    exact ⟨parsed, hread, hscheme, hhostname, hpath, hplain.1.2, hplain.2, horigin, rfl⟩

theorem hostname_nil {tables : UrlTables} {parsed : SplitUrl} (h : parsed.netloc = []) : hostname tables parsed = [] := by
  rw [hostname, h]
  exact congrArg (· ++ []) tables.lower_nil

/-- The base URL of an accepted target has its origin, and at most the appended slash behind it. -/
theorem Checked.baseOf {tables : UrlTables} {raw : Str} {target : Target} {parsed : SplitUrl}
    (h : Checked tables raw target parsed) : ∃ b, BaseOf tables target b := by
  obtain ⟨k, hcandidate, hlast⟩ := rstripSlashes_eq (strip raw)
  rw [← h.url] at hcandidate hlast
  have hwhite : ∀ c, k = 0 → target.url.getLast? = some c → isWhite c = false := fun c hk hc => by
    rw [hk, List.replicate_zero, List.append_nil] at hcandidate
    rw [← hcandidate] at hc
    exact strip_last hc
  have hnetlocNe : parsed.netloc ≠ [] := fun hnil => h.hostname (hostname_nil hnil)
  have hread := h.read
  rw [hcandidate] at hread
  obtain ⟨rest, hrest⟩ : ∃ rest, (splitScheme (cleanUrl (target.url ++ List.replicate k (ch '/')))).getD
      ([], cleanUrl (target.url ++ List.replicate k (ch '/'))) = (parsed.scheme, rest) := by
    refine ⟨_, Prod.ext ?_ rfl⟩
    exact (congrArg SplitUrl.scheme (urlsplit_eq_some hread rfl).1).symm
  obtain ⟨hparsed, hallowed⟩ := urlsplit_eq_some hread hrest
  have hnetloc : (splitNetloc rest).1 = parsed.netloc := (congrArg SplitUrl.netloc hparsed).symm
  obtain ⟨front, z, hclean, hfront, hlower, hz, hdrop, hhead, hchars⟩ :=
    absolute_of_slashes h.scheme hrest (by rw [hnetloc]; exact hnetlocNe)
  obtain ⟨hcandidateNetloc, hcandidateTail⟩ := netloc_append z k
  have hdecomposed : z.takeWhile isNetlocChar ++ z.dropWhile isNetlocChar = z := List.takeWhile_append_dropWhile
  have hsplit : ∀ j, splitNetloc (u "//" ++ z ++ List.replicate j (ch '/')) =
      (z.takeWhile isNetlocChar, z.dropWhile isNetlocChar ++ List.replicate j (ch '/')) := fun j => by
    have hstart : (u "//").isPrefixOf (u "//" ++ z ++ List.replicate j (ch '/')) = true := by
      rw [List.append_assoc]
      exact List.isPrefixOf_iff_prefix.mpr (List.prefix_append _ _)
    have hdropped : (u "//" ++ z ++ List.replicate j (ch '/')).drop 2 = z ++ List.replicate j (ch '/') := rfl
    rw [splitNetloc, if_pos hstart, hdropped, (netloc_append z j).1, (netloc_append z j).2]
  simp only [hz, hsplit] at hparsed hallowed
  have hnetlocEq : parsed.netloc = z.takeWhile isNetlocChar := congrArg SplitUrl.netloc hparsed
  have hpath : parsed.path = Posture.cut '?' (Posture.cut '#' (z.dropWhile isNetlocChar ++ List.replicate k (ch '/'))) :=
    congrArg SplitUrl.path hparsed
  have hquery : afterCut '?' (Posture.cut '#' (z.dropWhile isNetlocChar ++ List.replicate k (ch '/'))) = [] :=
    (congrArg SplitUrl.query hparsed).symm.trans h.query
  have hfragment : afterCut '#' (z.dropWhile isNetlocChar ++ List.replicate k (ch '/')) = [] :=
    (congrArg SplitUrl.fragment hparsed).symm.trans h.fragment
  have hsafe : ∀ c ∈ z, isUnsafePoint c = false := fun c hc =>
    safe_cleanUrl target.url c (by
      rw [hclean]
      exact List.mem_append_right _ (List.mem_cons_of_mem _ (List.mem_append_right _ hc)))
  have hlocated : Located tables parsed.netloc := by
    refine ⟨hnetlocNe, fun c hc => ?_, fun c hc => ?_, ?_⟩
    · rw [hnetlocEq] at hc
      exact List.mem_takeWhile_imp hc
    · rw [hnetlocEq] at hc
      exact hsafe c ((List.takeWhile_sublist _).subset hc)
    · rw [hnetlocEq] at hnetlocNe ⊢
      exact hallowed.resolve_left hnetlocNe
  -- The base is read at the same colon and the same end of the network location.
  have hbase : urlsplit tables (target.url ++ u "/") [] = some
      { scheme := parsed.scheme, netloc := parsed.netloc,
        path := Posture.cut '?' (Posture.cut '#' (z.dropWhile isNetlocChar ++ u "/")),
        query := afterCut '?' (Posture.cut '#' (z.dropWhile isNetlocChar ++ u "/")),
        fragment := afterCut '#' (z.dropWhile isNetlocChar ++ u "/") } := by
    have hslash : (u "/").filter (fun c => !isUnsafePoint c) = u "/" := by decide
    have hone : u "/" = List.replicate 1 (ch '/') := rfl
    have htext : front ++ ch ':' :: (u "//" ++ z) ++ u "/" = front ++ ch ':' :: (u "//" ++ z ++ u "/") := by
      rw [List.append_assoc, List.cons_append]
    have hscheme : splitScheme (cleanUrl (target.url ++ u "/")) = some (parsed.scheme, u "//" ++ z ++ u "/") := by
      rw [cleanUrl_append hdrop, hslash, hclean, htext, splitScheme, (cut_append hfront).1, (cut_append hfront).2, if_pos,
        hlower]
      exact ⟨List.mem_append_right _ List.mem_cons_self, hhead, hchars⟩
    have hok : z.takeWhile isNetlocChar = [] ∨ tables.netlocAllowed (z.takeWhile isNetlocChar) = true := hallowed
    have hloc := hsplit 1
    rw [← hone] at hloc
    simp only [urlsplit, hscheme, Option.getD_some, hloc, if_pos hok, hnetlocEq]
  have hcleanLast : ∀ c, (cleanUrl target.url).getLast? = some c → k = 0 → isUnsafePoint c = false →
      target.url.getLast? = some c := fun c hc hk hkeptSafe => by
    obtain ⟨before, w, hw⟩ := (List.eq_nil_or_concat' target.url).resolve_left fun hnil => hdrop (by rw [hnil]; rfl)
    have hw' : target.url.getLast? = some w := by rw [hw, List.getLast?_concat]
    have hplain := hwhite w hk hw'
    have hkept : isUnsafePoint w = false := by
      unfold isWhite at hplain
      unfold isUnsafePoint
      simp only [Bool.or_eq_false_iff, decide_eq_false_iff_not] at hplain ⊢
      omega
    rw [hw', ← hc, getLast_cleanUrl hdrop hw' hkept]
  have hquestion : target.url.getLast? = some (ch '?') → (cleanUrl target.url).getLast? = some (ch '?') :=
    fun hq => getLast_cleanUrl hdrop hq (by decide)
  have hend : ∀ (before : Str) (c : CodePoint), z = before ++ [c] → (cleanUrl target.url).getLast? = some c :=
    fun before c hc => by
      rw [hclean, hc, ← List.append_assoc, ← List.cons_append, ← List.append_assoc, List.getLast?_concat]
  have horigin : ∀ b : SplitUrl, b.scheme = parsed.scheme → b.netloc = parsed.netloc → originOf tables b = .ok target.origin :=
    fun b hs hn => by
      rw [← h.origin]
      unfold originOf SplitUrl.port Release.hostname
      rw [hs, hn]
  have hends : ∀ d, z = z.takeWhile isNetlocChar ++ d →
      parsed.path = Posture.cut '?' (Posture.cut '#' (d ++ List.replicate k (ch '/'))) →
      afterCut '?' (Posture.cut '#' (d ++ List.replicate k (ch '/'))) = [] →
      afterCut '#' (d ++ List.replicate k (ch '/')) = [] →
      (Posture.cut '?' (Posture.cut '#' (d ++ u "/")) = [] ∨ Posture.cut '?' (Posture.cut '#' (d ++ u "/")) = u "/") ∧
      (afterCut '?' (Posture.cut '#' (d ++ u "/")) = [] ∨ afterCut '?' (Posture.cut '#' (d ++ u "/")) = u "/") ∧
      (afterCut '?' (Posture.cut '#' (d ++ u "/")) = [] ↔ target.url.getLast? ≠ some (ch '?')) := by
    intro d hd hpath hquery hfragment
    obtain ⟨hhash, -, -⟩ | ⟨d₁, d₂, rfl, hhash, -, -⟩ := cut_cases '#' d
    · have hslashHash : ch '#' ∉ u "/" := by decide
      have hrepHash : ch '#' ∉ List.replicate k (ch '/') := fun hmem =>
        absurd (List.eq_of_mem_replicate hmem) (by decide)
      have hcut : Posture.cut '#' (d ++ List.replicate k (ch '/')) = d ++ List.replicate k (ch '/') :=
        (cut_of_notMem fun hmem => (List.mem_append.mp hmem).elim hhash hrepHash).1
      have hcutBase : Posture.cut '#' (d ++ u "/") = d ++ u "/" :=
        (cut_of_notMem fun hmem => (List.mem_append.mp hmem).elim hhash hslashHash).1
      rw [hcut] at hpath hquery
      rw [hcutBase]
      obtain ⟨hmark, -, -⟩ | ⟨d₁, d₂, rfl, hmark, -, -⟩ := cut_cases '?' d
      · have hslashMark : ch '?' ∉ u "/" := by decide
        have hrepMark : ch '?' ∉ List.replicate k (ch '/') := fun hmem =>
          absurd (List.eq_of_mem_replicate hmem) (by decide)
        rw [(cut_of_notMem fun hmem => (List.mem_append.mp hmem).elim hmark hrepMark).1] at hpath
        have hempty : d = [] := by
          obtain hnil | hslash := h.path
          · exact (List.append_eq_nil_iff.mp (hpath.symm.trans hnil)).1
          · obtain ⟨rfl, -⟩ | ⟨rfl, hrep⟩ := List.append_eq_singleton_iff.mp (hpath.symm.trans hslash)
            · rfl
            · exact absurd (hcleanLast _ (hend _ _ hd) (slashes_nil hrep) (by decide)) hlast
        subst hempty
        refine ⟨.inr (by decide), .inl (by decide), iff_of_true (by decide) fun hq => ?_⟩
        rw [List.append_nil] at hd
        obtain ⟨before, w, hw⟩ := (List.eq_nil_or_concat' z).resolve_left fun hnil => hnetlocNe (by rw [hnetlocEq, hnil]; rfl)
        have hwq := Option.some.inj ((hend before w hw).symm.trans (hquestion hq))
        have hmem : w ∈ z.takeWhile isNetlocChar := by
          rw [← hd, hw]
          exact List.mem_append_right _ (List.mem_singleton_self w)
        have hchar := List.mem_takeWhile_imp hmem
        rw [hwq] at hchar
        cases hchar
      · rw [List.append_assoc, List.cons_append, (cut_append hmark).1] at hpath
        rw [List.append_assoc, List.cons_append, (cut_append hmark).2] at hquery
        rw [List.append_assoc, List.cons_append, (cut_append hmark).1, (cut_append hmark).2]
        obtain ⟨rfl, hrep⟩ := List.append_eq_nil_iff.mp hquery
        refine ⟨hpath ▸ h.path, .inr rfl, iff_of_false (by decide) fun hne => hne ?_⟩
        exact hcleanLast _ (hend _ _ (by rw [← List.append_assoc] at hd; exact hd)) (slashes_nil hrep) (by decide)
    · rw [List.append_assoc, List.cons_append, (cut_append hhash).1] at hpath hquery
      rw [List.append_assoc, List.cons_append, (cut_append hhash).2] at hfragment
      rw [List.append_assoc, List.cons_append, (cut_append hhash).1]
      obtain ⟨rfl, hrep⟩ := List.append_eq_nil_iff.mp hfragment
      refine ⟨hpath ▸ h.path, .inl hquery, iff_of_true hquery fun hq => ?_⟩
      have hsharp := hend _ _ (by rw [← List.append_assoc] at hd; exact hd)
      exact absurd (Option.some.inj (hsharp.symm.trans (hquestion hq))) (by decide)
  obtain ⟨hbasePath, hbaseQuery, hbaseNone⟩ := hends _ hdecomposed.symm hpath hquery hfragment
  exact ⟨_, hbase, h.scheme, hlocated, hbasePath, hbaseQuery, hbaseNone, horigin _ rfl rfl⟩

/-! ## The reference -/

/-- No segment is dropped or resolved away. -/
def IsPlainPath (path : Str) : Prop :=
  (∀ segment ∈ (parts path).dropLast, segment ≠ []) ∧ ∀ segment ∈ parts path, isDots segment = false

/-- The relative reference of the route is read as a path and a query, and nothing of it is lost. -/
def Direct (target : Target) (route : Str) : Prop :=
  let reference := route.drop 1
  if reference = [] then target.url.getLast? ≠ some (ch '?')
  else
    (∀ c, reference.head? = some c → 32 < c.val) ∧ splitScheme reference = none ∧
      (ch '?' ∈ reference → afterCut '?' reference ≠ []) ∧
      (ch ';' ∈ lastPart (Posture.cut '?' reference) → (splitParams (Posture.cut '?' reference)).2 ≠ []) ∧
      IsPlainPath (splitParams (Posture.cut '?' reference)).1

/-- A route of an accepted manifest: one slash and its reference. -/
structure IsReference (reference : Str) : Prop where
  head : reference.head? ≠ some (ch '/')
  noHash : ch '#' ∉ reference
  safe : ∀ c ∈ reference, isUnsafePoint c = false

theorem isRoute_spec {route : Str} (h : isRoute route = true) :
    ∃ reference, route = ch '/' :: reference ∧ IsReference reference := by
  rw [isRoute, Bool.and_eq_true, Bool.and_eq_true, Bool.and_eq_true, decide_eq_true_eq] at h
  obtain ⟨⟨⟨hstart, hdouble⟩, hhash⟩, hwhite⟩ := h
  obtain ⟨reference, rfl⟩ := List.isPrefixOf_iff_prefix.mp hstart
  refine ⟨reference, rfl, ?_, ?_, fun c hc => ?_⟩
  · intro hhead
    cases reference with
    | nil => cases hhead
    | cons c rest =>
      obtain rfl := Option.some.inj hhead
      have hfront : (u "//").isPrefixOf (u "/" ++ ch '/' :: rest) = true := List.isPrefixOf_iff_prefix.mpr ⟨rest, rfl⟩
      rw [hfront] at hdouble
      cases hdouble
  · exact fun hmem => hhash (List.mem_append_right _ hmem)
  · rw [Bool.not_eq_true', List.any_eq_false] at hwhite
    have hplain := hwhite c (List.mem_append_right _ hc)
    unfold isWhite at hplain
    unfold isUnsafePoint
    simp only [Bool.or_eq_true, decide_eq_true_eq, not_or] at hplain
    simp only [Bool.or_eq_false_iff, decide_eq_false_iff_not]
    omega

/-- A segment and what follows the last one are all that is filtered. -/
def innerParts (segments : List Str) : List Str :=
  (segments.dropLast.filter fun s => decide (s ≠ [])) ++ segments.getLast?.toList

theorem parts_ne_nil (path : Str) : parts path ≠ [] := List.splitOn_ne_nil _ _

theorem filterInner_base {basePath : Str} (h : basePath = [] ∨ basePath = u "/") (path : Str) :
    filterInner ((if (parts basePath).getLast? = some [] then parts basePath else (parts basePath).dropLast) ++ parts path) =
      [] :: innerParts (parts path) := by
  obtain rfl | rfl := h
  · have hbase : parts [] = [[]] := rfl
    have hlast : ([[]] : List Str).getLast? = some [] := rfl
    rw [hbase, if_pos hlast]
    rfl
  · have hbase : parts (u "/") = [[], []] := by decide
    obtain ⟨first, rest, hparts⟩ := List.exists_cons_of_ne_nil (parts_ne_nil path)
    have hlast : ([[], []] : List Str).getLast? = some [] := rfl
    rw [hbase, if_pos hlast, hparts]
    rfl

theorem resolveSegments_plain {segments : List Str} (h : ∀ segment ∈ segments, isDots segment = false)
    (resolved : List Str) : segments.foldl (fun resolved segment => if segment = u ".." then resolved.dropLast
      else if segment = u "." then resolved else resolved ++ [segment]) resolved = resolved ++ segments := by
  induction segments generalizing resolved with
  | nil => rw [List.foldl_nil, List.append_nil]
  | cons segment segments ih =>
    have hdots := h segment List.mem_cons_self
    rw [isDots, Bool.or_eq_false_iff, decide_eq_false_iff_not, decide_eq_false_iff_not] at hdots
    rw [List.foldl_cons, if_neg hdots.2, if_neg hdots.1, ih (fun s hs => h s (List.mem_cons_of_mem _ hs)),
      List.append_assoc, List.singleton_append]

theorem innerParts_plain {segments : List Str} (h : ∀ segment ∈ segments.dropLast, segment ≠ []) :
    innerParts segments = segments := by
  rw [innerParts, List.filter_eq_self.mpr fun s hs => decide_eq_true (h s hs)]
  obtain rfl | ⟨front, last, rfl⟩ := List.eq_nil_or_concat' segments
  · rfl
  · rw [List.dropLast_concat, List.getLast?_concat]
    rfl

/-- A plain path is put below the root as it is. -/
theorem resolvePath_plain {basePath path : Str} (hbase : basePath = [] ∨ basePath = u "/")
    (hhead : path.head? ≠ some (ch '/')) (h : IsPlainPath path) : resolvePath basePath path = ch '/' :: path := by
  have hdots : ∀ segment ∈ [] :: parts path, isDots segment = false := fun segment hsegment => by
    obtain rfl | hin := List.mem_cons.mp hsegment
    · decide
    · exact h.2 segment hin
  have hlast : (([] :: parts path).getLast?.any isDots) = false := by
    obtain ⟨front, last, hparts⟩ := (List.eq_nil_or_concat' (parts path)).resolve_left (parts_ne_nil path)
    rw [hparts, ← List.cons_append, List.getLast?_concat]
    exact h.2 last (by rw [hparts]; exact List.mem_append_right _ (List.mem_singleton_self _))
  have hjoin : [ch '/'].intercalate ([] :: parts path) = ch '/' :: path := by
    obtain ⟨first, rest, hparts⟩ := List.exists_cons_of_ne_nil (parts_ne_nil path)
    have hpath : [ch '/'].intercalate (parts path) = path := List.intercalate_splitOn _
    rw [hparts, List.intercalate_cons_cons, ← hparts, hpath]
    rfl
  unfold resolvePath
  simp only [if_neg hhead, filterInner_base hbase, innerParts_plain h.1, hlast, Bool.false_eq_true, if_false]
  rw [resolveSegments, resolveSegments_plain hdots, List.nil_append, hjoin, if_neg (List.cons_ne_nil _ _)]

theorem lastPart_spec (path : Str) : path.take (path.length - (lastPart path).length) ++ lastPart path = path := by
  have hboth : path.reverse.takeWhile (fun c => decide (c ≠ ch '/')) ++ path.reverse.dropWhile (fun c => decide (c ≠ ch '/')) =
      path.reverse := List.takeWhile_append_dropWhile
  have hjoin := congrArg List.reverse hboth
  rw [List.reverse_append, List.reverse_reverse] at hjoin
  have hpath : (path.reverse.dropWhile fun c => decide (c ≠ ch '/')).reverse ++ lastPart path = path := hjoin
  have hlength := congrArg List.length hpath
  rw [List.length_append] at hlength
  have htake : path.take (path.length - (lastPart path).length) =
      (path.reverse.dropWhile fun c => decide (c ≠ ch '/')).reverse := by
    conv_lhs => rw [← hpath]
    rw [List.take_append_of_le_length (by rw [hpath]; omega), List.take_of_length_le (by rw [hpath]; omega)]
  rw [htake, hpath]

/-- The parameters are cut off a path at one semicolon, which is lost where none follow. -/
theorem splitParams_cases (path : Str) :
    (ch ';' ∉ lastPart path ∧ splitParams path = (path, [])) ∨
      (ch ';' ∈ lastPart path ∧ path = (splitParams path).1 ++ ch ';' :: (splitParams path).2) := by
  by_cases hmem : ch ';' ∈ lastPart path
  · refine .inr ⟨hmem, ?_⟩
    obtain ⟨hno, -⟩ | ⟨front, rest, hlast, -, hcut, hafter⟩ := cut_cases ';' (lastPart path)
    · exact absurd hmem hno
    · rw [splitParams, if_pos hmem, hcut, hafter, List.append_assoc, ← hlast, lastPart_spec]
  · exact .inl ⟨hmem, by rw [splitParams, if_neg hmem]⟩

/-! ## The requested URL -/

section Requests

variable {tables : UrlTables} {target : Target} {b : SplitUrl} {reference : Str}

theorem splitParams_base (h : BaseOf tables target b) : splitParams b.path = (b.path, []) := by
  obtain hpath | hpath := h.path
  · rw [hpath]
    rfl
  · rw [hpath]
    decide

theorem requestedUrl_reference (h : IsReference reference) :
    requestedUrl tables target (ch '/' :: reference) = urljoin tables (target.url ++ u "/") reference := by
  have hdrop : (ch '/' :: reference).dropWhile (fun c => decide (c = ch '/')) = reference := by
    rw [List.dropWhile_cons_of_pos (by simp)]
    cases reference with
    | nil => rfl
    | cons c rest =>
      refine List.dropWhile_cons_of_neg ?_
      intro hc
      exact h.head (congrArg some (of_decide_eq_true hc))
  rw [requestedUrl, hdrop]

/-- `urljoin` of a reference without a scheme of its own or a network location. -/
theorem urljoin_relative (hb : BaseOf tables target b) (hne : reference ≠ []) {r : SplitUrl}
    (hr : urlsplit tables reference b.scheme = some r) (hscheme : r.scheme = b.scheme) (hnetloc : r.netloc = []) :
    urljoin tables (target.url ++ u "/") reference =
      if (splitParams r.path).1 = [] ∧ (splitParams r.path).2 = [] then
        some (urlunparse b.scheme b.netloc b.path [] (if r.query = [] then b.query else r.query) r.fragment)
      else some (urlunparse b.scheme b.netloc (resolvePath b.path (splitParams r.path).1) (splitParams r.path).2 r.query
        r.fragment) := by
  rw [urljoin, if_neg hne]
  simp only [hb.base, hr, hscheme, hnetloc, splitParams_base hb, bind, Option.bind, ne_eq, not_true_eq_false, if_false]

/-- The URL `urljoin` writes is read back as the pieces it was written from. -/
theorem urlsplit_urlunparse (hb : BaseOf tables target b) {path params query : Str}
    (hpath : path = [] ∨ path.head? = some (ch '/')) (hroot : params ≠ [] → path ≠ [])
    (hsafe : ∀ c ∈ path ++ params ++ query, isUnsafePoint c = false)
    (hhash : ch '#' ∉ path ++ params ++ query) (hmark : ch '?' ∉ path ++ params) :
    urlsplit tables (urlunparse b.scheme b.netloc path params query []) [] = some
      { scheme := b.scheme, netloc := b.netloc, path := if params = [] then path else path ++ ch ';' :: params,
        query := query, fragment := [] } := by
  have hfull : (if params = [] then path else path ++ ch ';' :: params) = [] ∨
      (if params = [] then path else path ++ ch ';' :: params).head? = some (ch '/') := by
    split_ifs with hparams
    · exact hpath
    · obtain hnil | hhead := hpath
      · exact absurd hnil (hroot hparams)
      · obtain ⟨first, rest, rfl⟩ := List.exists_cons_of_ne_nil (hroot hparams)
        exact .inr hhead
  have hmem : ∀ c ∈ (if params = [] then path else path ++ ch ';' :: params), c ∈ path ++ params ∨ c = ch ';' := by
    intro c hc
    split_ifs at hc with hparams
    · exact .inl (List.mem_append_left _ hc)
    · obtain hin | hin := List.mem_append.mp hc
      · exact .inl (List.mem_append_left _ hin)
      · obtain rfl | hin := List.mem_cons.mp hin
        · exact .inr rfl
        · exact .inl (List.mem_append_right _ hin)
  generalize hfullEq : (if params = [] then path else path ++ ch ';' :: params) = full at hfull hmem ⊢
  have hfullMark : ch '?' ∉ full := fun hin => (hmem _ hin).elim hmark fun heq => absurd heq (by decide)
  have hfullHash : ch '#' ∉ full := fun hin =>
    (hmem _ hin).elim (fun hin => hhash (List.mem_append_left _ hin)) fun heq => absurd heq (by decide)
  have htailHash : ch '#' ∉ full ++ (if query = [] then [] else ch '?' :: query) := fun hin => by
    obtain hin | hin := List.mem_append.mp hin
    · exact hfullHash hin
    · split_ifs at hin
      · cases hin
      · obtain heq | hin := List.mem_cons.mp hin
        · exact absurd heq (by decide)
        · exact hhash (List.mem_append_right _ hin)
  have hunparse : urlunparse b.scheme b.netloc path params query [] =
      b.scheme ++ u "://" ++ b.netloc ++ (full ++ if query = [] then [] else ch '?' :: query) := by
    unfold urlunparse
    simp only [hfullEq]
    rw [if_neg, if_pos trivial, List.append_nil, List.append_assoc]
    rintro ⟨hne, hhead⟩
    exact hfull.elim hne hhead
  have htail : IsTail (full ++ if query = [] then [] else ch '?' :: query) := by
    intro c hc
    obtain hnil | hhead := hfull
    · rw [hnil, List.nil_append] at hc
      split_ifs at hc
      · cases hc
      · obtain rfl := Option.some.inj hc
        decide
    · cases full with
      | nil => cases hhead
      | cons first rest =>
        obtain rfl := Option.some.inj hhead
        obtain rfl := Option.some.inj hc
        decide
  have htailSafe : ∀ c ∈ full ++ (if query = [] then [] else ch '?' :: query), isUnsafePoint c = false := by
    intro c hc
    obtain hin | hin := List.mem_append.mp hc
    · obtain hin | rfl := hmem c hin
      · exact hsafe c (List.mem_append_left _ hin)
      · decide
    · split_ifs at hin
      · cases hin
      · obtain rfl | hin := List.mem_cons.mp hin
        · decide
        · exact hsafe c (List.mem_append_right _ hin)
  rw [hunparse, urlsplit_absolute hb.scheme hb.located htail htailSafe, (cut_of_notMem htailHash).1,
    (cut_of_notMem htailHash).2]
  by_cases hquery : query = []
  · rw [if_pos hquery, List.append_nil, (cut_of_notMem hfullMark).1, (cut_of_notMem hfullMark).2, hquery]
  · rw [if_neg hquery, (cut_append hfullMark).1, (cut_append hfullMark).2]

/-- A direct route is requested of the target itself. -/
theorem requests_direct (hb : BaseOf tables target b) (hreference : IsReference reference)
    (h : Direct target (ch '/' :: reference)) : RequestsOwn tables target (ch '/' :: reference) := by
  have hdrop : (ch '/' :: reference).drop 1 = reference := rfl
  unfold Direct at h
  rw [hdrop] at h
  dsimp only at h
  unfold RequestsOwn
  rw [requestedUrl_reference hreference]
  by_cases hne : reference = []
  · rw [if_pos hne] at h
    refine ⟨_, b, by rw [urljoin, if_pos hne], hb.base, hb.origin, ?_⟩
    rw [pathAndQuery, hb.noQuery.mpr h, if_pos rfl, List.append_nil, hne]
    obtain hpath | hpath := hb.path
    · rw [hpath, if_pos rfl]
      rfl
    · rw [hpath, if_neg (by decide)]
      rfl
  · rw [if_neg hne] at h
    obtain ⟨hhead, hscheme, hquery, hparams, hplain⟩ := h
    have hclean : cleanUrl reference = reference := cleanUrl_self hhead hreference.safe
    have hsplit : splitNetloc reference = ([], reference) := by
      rw [splitNetloc, if_neg]
      intro hstart
      obtain ⟨rest, hrest⟩ := List.isPrefixOf_iff_prefix.mp hstart
      rw [← hrest] at hreference
      exact hreference.head rfl
    have hfront : Posture.cut '#' reference = reference ∧ afterCut '#' reference = [] := cut_of_notMem hreference.noHash
    have hread : urlsplit tables reference b.scheme = some
        { scheme := b.scheme, netloc := [], path := Posture.cut '?' reference, query := afterCut '?' reference,
          fragment := [] } := by
      simp only [urlsplit, hclean, hscheme, Option.getD_none, hsplit, hfront.1, hfront.2, true_or, if_true]
    have hmark : ch '?' ∉ Posture.cut '?' reference := by
      obtain ⟨hno, hcut, -⟩ | ⟨front, rest, -, hfront, hcut, -⟩ := cut_cases '?' reference
      · rwa [hcut]
      · rwa [hcut]
    have hjoin : reference = Posture.cut '?' reference ++
        (if afterCut '?' reference = [] then [] else ch '?' :: afterCut '?' reference) := by
      obtain ⟨hno, hcut, hafter⟩ | ⟨front, rest, heq, hfront, hcut, hafter⟩ := cut_cases '?' reference
      · rw [hcut, hafter, if_pos rfl, List.append_nil]
      · rw [if_neg (hquery (by rw [heq]; exact List.mem_append_right _ List.mem_cons_self)), hcut, hafter]
        exact heq
    have hpathJoin : Posture.cut '?' reference = (if (splitParams (Posture.cut '?' reference)).2 = [] then
        (splitParams (Posture.cut '?' reference)).1 else (splitParams (Posture.cut '?' reference)).1 ++
          ch ';' :: (splitParams (Posture.cut '?' reference)).2) := by
      obtain ⟨-, hsame⟩ | ⟨hmem, heq⟩ := splitParams_cases (Posture.cut '?' reference)
      · rw [hsame, if_pos rfl]
      · rw [if_neg (hparams hmem)]
        exact heq
    rw [urljoin_relative hb hne hread rfl rfl]
    dsimp only
    generalize hsplitParams : splitParams (Posture.cut '?' reference) = split at hpathJoin hplain hparams ⊢
    generalize Posture.cut '?' reference = path at hmark hjoin hpathJoin hparams
    generalize afterCut '?' reference = query at hjoin ⊢
    have hkeptSafe : ∀ c ∈ split.1 ++ split.2 ++ query, isUnsafePoint c = false ∧ c ≠ ch '#' := by
      have hin : ∀ c ∈ split.1 ++ split.2 ++ query, c ∈ reference := by
        intro c hc
        rw [hjoin, hpathJoin]
        obtain hc | hc := List.mem_append.mp hc
        · refine List.mem_append_left _ ?_
          obtain hc | hc := List.mem_append.mp hc
          · split_ifs
            · exact hc
            · exact List.mem_append_left _ hc
          · rw [if_neg (List.ne_nil_of_mem hc)]
            exact List.mem_append_right _ (List.mem_cons_of_mem _ hc)
        · refine List.mem_append_right _ ?_
          rw [if_neg (List.ne_nil_of_mem hc)]
          exact List.mem_cons_of_mem _ hc
      exact fun c hc => ⟨hreference.safe c (hin c hc), fun heq => hreference.noHash (heq ▸ hin c hc)⟩
    have hnoMark : ch '?' ∉ split.1 ++ split.2 := fun hin => by
      refine hmark ?_
      rw [hpathJoin]
      obtain hin | hin := List.mem_append.mp hin
      · split_ifs
        · exact hin
        · exact List.mem_append_left _ hin
      · rw [if_neg (List.ne_nil_of_mem hin)]
        exact List.mem_append_right _ (List.mem_cons_of_mem _ hin)
    have hrootedHead : split.1.head? ≠ some (ch '/') := fun hfirst => by
      refine hreference.head ?_
      cases hs : split.1 with
      | nil =>
        rw [hs] at hfirst
        cases hfirst
      | cons first rest =>
        rw [hs] at hfirst hpathJoin
        rw [hjoin, hpathJoin]
        split_ifs <;> exact hfirst
    split_ifs with hempty hnoquery
    · have hpath : path = [] := by rw [hpathJoin, if_pos hempty.2, hempty.1]
      rw [hpath, hnoquery, if_pos rfl] at hjoin
      exact absurd hjoin hne
    · have hpath : path = [] := by rw [hpathJoin, if_pos hempty.2, hempty.1]
      rw [hpath, if_neg hnoquery, List.nil_append] at hjoin
      have hbasePath : ∀ c ∈ b.path, c = ch '/' := fun c hc => by
        obtain hnil | hslash := hb.path
        · rw [hnil] at hc
          cases hc
        · rw [hslash] at hc
          exact List.mem_singleton.mp hc
      have hbaseHead : b.path = [] ∨ b.path.head? = some (ch '/') := by
        obtain hnil | hslash := hb.path
        · exact .inl hnil
        · exact .inr (by rw [hslash]; rfl)
      refine ⟨_, _, rfl, urlsplit_urlunparse hb hbaseHead (fun hc => absurd rfl hc) ?_ ?_ ?_, hb.origin, ?_⟩
      · intro c hc
        rw [List.append_nil] at hc
        obtain hc | hc := List.mem_append.mp hc
        · rw [hbasePath c hc]
          decide
        · exact (hkeptSafe c (List.mem_append_right _ hc)).1
      · intro hc
        rw [List.append_nil] at hc
        obtain hc | hc := List.mem_append.mp hc
        · exact absurd (hbasePath _ hc) (by decide)
        · exact (hkeptSafe _ (List.mem_append_right _ hc)).2 rfl
      · rw [List.append_nil]
        exact fun hc => absurd (hbasePath _ hc) (by decide)
      · rw [pathAndQuery, if_pos rfl, if_neg hnoquery, hjoin]
        obtain hnil | hslash := hb.path
        · rw [hnil, if_pos rfl]
          rfl
        · rw [hslash, if_neg (by decide)]
          rfl
    · rw [resolvePath_plain hb.path hrootedHead hplain]
      have hslash : ∀ rest : Str, ∀ c ∈ ch '/' :: rest, c = ch '/' ∨ c ∈ rest := fun rest c hc => List.mem_cons.mp hc
      refine ⟨_, _, rfl, urlsplit_urlunparse hb (.inr rfl) (fun _ => List.cons_ne_nil _ _) ?_ ?_ ?_, hb.origin, ?_⟩
      · intro c hc
        rw [List.cons_append, List.cons_append] at hc
        obtain rfl | hc := hslash _ c hc
        · decide
        · exact (hkeptSafe c hc).1
      · intro hc
        rw [List.cons_append, List.cons_append] at hc
        obtain heq | hc := hslash _ _ hc
        · exact absurd heq (by decide)
        · exact (hkeptSafe _ hc).2 rfl
      · intro hc
        rw [List.cons_append] at hc
        obtain heq | hc := hslash _ _ hc
        · exact absurd heq (by decide)
        · exact hnoMark hc
      · have hpathFull : (if split.2 = [] then ch '/' :: split.1 else ch '/' :: split.1 ++ ch ';' :: split.2) = ch '/' :: path := by
          rw [hpathJoin]
          split_ifs <;> rfl
        rw [pathAndQuery]
        dsimp only
        rw [hpathFull, if_neg (List.cons_ne_nil _ _), List.cons_append, ← hjoin]

end Requests

/-- A direct route of an accepted target is requested of the target, under its own path and query. -/
theorem route_stays {tables : UrlTables} {raw : Str} {target : Target} {route : Str}
    (htarget : validateTargetUrl tables raw = .ok target) (hroute : isRoute route = true)
    (hdirect : Direct target route) : RequestsOwn tables target route := by
  obtain ⟨parsed, hchecked⟩ := validateTargetUrl_eq_ok htarget
  obtain ⟨b, hbase⟩ := hchecked.baseOf
  obtain ⟨reference, rfl, hreference⟩ := isRoute_spec hroute
  exact requests_direct hbase hreference hdirect

/-- Every network location allowed, and case as far as ASCII goes. -/
def plainTables : UrlTables := ⟨fun _ => true, lower, rfl⟩

def sampleTarget : Target := ⟨u "https://example.com", ⟨u "https", u "example.com", none⟩⟩

theorem sampleTarget_accepted : validateTargetUrl plainTables (u "https://example.com/") = .ok sampleTarget := by
  have hread : (validateTargetUrl plainTables (u "https://example.com/")).map (fun t => (t.url, t.origin)) =
      .ok (sampleTarget.url, sampleTarget.origin) := by decide +kernel
  cases htarget : validateTargetUrl plainTables (u "https://example.com/") with
  | error e =>
    rw [htarget] at hread
    cases hread
  | ok target =>
    rw [htarget] at hread
    obtain ⟨hurl, horigin⟩ := Prod.mk.inj (Except.ok.inj hread)
    cases target
    exact congrArg Except.ok (by rw [Target.mk.injEq]; exact ⟨hurl, horigin⟩)

theorem route_stays_sample : RequestsOwn plainTables sampleTarget (u "/docs?page=1") := by
  have hplain : ((parts (u "docs")).dropLast.all fun s => decide (s ≠ [])) = true ∧
      ((parts (u "docs")).all fun s => !isDots s) = true := by decide
  have hreference : (u "/docs?page=1").drop 1 = u "docs?page=1" := rfl
  refine route_stays sampleTarget_accepted (by decide) ?_
  unfold Direct
  rw [hreference]
  refine ⟨fun c hc => ?_, by decide, fun _ => by decide, fun hmem => absurd hmem (by decide), ?_⟩
  · obtain rfl := Option.some.inj hc
    decide
  · have hpath : (splitParams (Posture.cut '?' (u "docs?page=1"))).1 = u "docs" := by decide
    rw [hpath]
    refine ⟨fun s hs => of_decide_eq_true (List.all_eq_true.mp hplain.1 s hs), fun s hs => ?_⟩
    have hkept := List.all_eq_true.mp hplain.2 s hs
    simpa using hkept

/-- A route with a URL behind its slash is accepted, and requested of another host. -/
theorem route_leaves : isRoute (u "/http://evil.example/x") = true ∧
    requestedUrl plainTables sampleTarget (u "/http://evil.example/x") = some (u "http://evil.example/x") ∧
      ¬RequestsOwn plainTables sampleTarget (u "/http://evil.example/x") := by
  have hrequested : requestedUrl plainTables sampleTarget (u "/http://evil.example/x") =
      some (u "http://evil.example/x") := by decide +kernel
  refine ⟨by decide, hrequested, ?_⟩
  rintro ⟨url, parsed, hurl, hread, horigin, -⟩
  obtain rfl := Option.some.inj (hrequested.symm.trans hurl)
  have hforeign : (urlsplit plainTables (u "http://evil.example/x") []).map SplitUrl.scheme = some (u "http") := by
    decide +kernel
  rw [hread] at hforeign
  have hscheme : parsed.scheme = u "http" := Option.some.inj hforeign
  unfold originOf at horigin
  split at horigin
  · cases horigin
  · have hsame : parsed.scheme = u "https" := congrArg Origin.scheme (Except.ok.inj horigin)
    exact absurd (hscheme.symm.trans hsame) (by decide)

end McpTrust.Release
