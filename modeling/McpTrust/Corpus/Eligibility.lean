import McpTrust.Corpus.FirstBatch
import McpTrust.Refresh.LockPolicies
import McpTrust.Refresh.PythonPins

/-! # What an eligible candidate has

The selection policy of the manifest, stated of the server object itself, beside what
the planner checks before it calls a candidate eligible.
-/

namespace McpTrust.Corpus

set_option autoImplicit false

open Python
open Failure (bind_ok)

/-! ## The server object -/

/-- The status that the official metadata gives, and else the server object. -/
def statedStatus (server : Dict) : Option Str :=
  (string (Dict.get (officialMeta server) "status")).or (string (Dict.get server "status"))

def statedLatest (server : Dict) : Option Bool :=
  boolOrNone ((Dict.lookup (officialMeta server) (u "isLatest")).getD (Dict.get server "isLatest"))

/-- The time of the last update, and else of the publication. -/
def freshnessSource (server : Dict) : Option Str :=
  (string (pyOr (Dict.get (officialMeta server) "updatedAt") (Dict.get server "updatedAt"))).or
    (string (pyOr (Dict.get (officialMeta server) "publishedAt") (Dict.get server "publishedAt")))

/-- The environment variables and headers of the packages and remotes. -/
def environmentEntries (server : Dict) : List Dict :=
  (packages server ++ remotes server).flatMap fun holder =>
    envEntries (Dict.get holder "environmentVariables") ++ envEntries (Dict.get holder "headers")

def isMarkedSecret (entry : Dict) : Bool := truthy (pyOr (Dict.get entry "isSecret") (Dict.get entry "secret"))

def entryName (entry : Dict) : Option Str := string (pyOr (Dict.get entry "name") (Dict.get entry "key"))

/-- A field that declares remotes is a list of objects. -/
def ListsObjects : Json → Prop
  | .arr items => ∀ item ∈ items, (dictOf item).isSome = true
  | v => truthy v = false

/-! ## Exact versions -/

/-- Letters, digits and marks of a version behind a digit, with no part a wildcard. -/
def isReleaseText (text : Str) : Bool :=
  let release := if (u "v").isPrefixOf text then text.drop 1 else text
  release.head?.any isDigit && release.all (fun c => isAlnum c || decide (c ∈ u ".!+_-")) &&
    (Refresh.fields (ch '.') release).all fun part => decide (lower part ≠ u "x")

/-- One version, or the digest of one, and no range, wildcard or tag. -/
def isOneVersion (lib : Library) (registryType text : Str) : Bool :=
  if lib.lower registryType = u "npm" then Refresh.isExactSemver text else isReleaseText text || isKeyId text

/-- What an identifier says behind its separator. -/
def identifierVersion (lib : Library) (registryType identifier : Str) : Option Str :=
  if lib.lower registryType = u "pypi" then
    if isInfix (u "==") identifier then (Refresh.splitPin identifier).map fun pin => strip pin.2
    else if isInfix (u "@") identifier then some (afterFirst '@' identifier) else none
  else if lib.lower registryType = u "npm" then
    let name := if (u "@").isPrefixOf identifier && isInfix (u "/") identifier then afterFirst '/' identifier else identifier
    if isInfix (u "@") name then some (afterFirst '@' name) else none
  else none

/-- The version that a package reference pins. -/
def pinnedVersion (lib : Library) (ref : PackageRef) : Option Str :=
  ref.version.or (ref.identifier.bind (identifierVersion lib ref.registryType))

def PinsExactly (lib : Library) (server : Dict) : Prop :=
  ∃ package ∈ packages server, ∃ version, pinnedVersion lib (packageRef lib package) = some version ∧
    isOneVersion lib (packageRef lib package).registryType version = true

/-! ## The policy -/

/-- The time of a freshness timestamp that can be read. -/
def StatedTime (server : Dict) (time : DateTime) : Prop :=
  ∃ source, freshnessSource server = some source ∧ parseDatetime source = .ok (some time)

def maxAge : ℤ := 180 * microsPerDay

/-- What the policy asks of the server object. -/
structure MeetsPolicy (lib : Library) (generatedAt : DateTime) (server : Dict) : Prop where
  active : ∃ status, statedStatus server = some status ∧ lib.lower status = u "active"
  latest : statedLatest server ≠ some false
  current : ∀ time, StatedTime server time →
    time.instant ≤ generatedAt.instant ∧ generatedAt.instant - time.instant ≤ maxAge
  noSecret : ∀ entry ∈ environmentEntries server, isMarkedSecret entry = false
  noRemote : truthy (Dict.get server "remotes") = false
  source : ∃ url, (repository (Dict.get server "repository")).url = some url ∧ url ≠ []
  exact : PinsExactly lib server

/-- What the planner does not check. -/
structure Overlooked (lib : Library) (generatedAt : DateTime) (server : Dict) : Prop where
  named : ∀ entry ∈ environmentEntries server, isMarkedSecret entry = true → entryName entry ≠ none
  remotes : ListsObjects (Dict.get server "remotes")
  wholeDays : ∀ time, StatedTime server time →
    ¬(maxAge < generatedAt.instant - time.instant ∧ generatedAt.instant - time.instant < maxAge + microsPerDay)
  exact : PinsExactly lib server

/-! ## The environment summary -/

/-- A named secret is counted as one or as invalid. -/
theorem addEnvEntry_secret {summary : EnvironmentSummary} {entry : Dict × Bool} (hname : entryName entry.1 ≠ none)
    (hsecret : isMarkedSecret entry.1 = true) :
    (addEnvEntry summary entry).secretEnvKeyNames ≠ [] ∨ (addEnvEntry summary entry).invalidEnvKeyCount ≠ 0 := by
  obtain ⟨name, hname⟩ := Option.ne_none_iff_exists'.mp hname
  rw [entryName] at hname
  rw [isMarkedSecret] at hsecret
  simp only [addEnvEntry, hname, hsecret]
  by_cases hinvalid : 128 < name.length ∨ (if entry.2 then isHeaderName name else isEnvKey name) = false
  · rw [if_pos hinvalid]
    exact .inr (Nat.succ_ne_zero _)
  · rw [if_neg hinvalid]
    exact .inl (List.cons_ne_nil _ _)

/-- What is counted stays counted. -/
theorem addEnvEntry_kept {summary : EnvironmentSummary} (entry : Dict × Bool)
    (h : summary.secretEnvKeyNames ≠ [] ∨ summary.invalidEnvKeyCount ≠ 0) :
    (addEnvEntry summary entry).secretEnvKeyNames ≠ [] ∨ (addEnvEntry summary entry).invalidEnvKeyCount ≠ 0 := by
  rw [addEnvEntry]
  cases hname : string (pyOr (Dict.get entry.1 "name") (Dict.get entry.1 "key")) with
  | none => exact h
  | some name =>
    dsimp only
    by_cases hinvalid : 128 < name.length ∨ (if entry.2 then isHeaderName name else isEnvKey name) = false
    · rw [if_pos hinvalid]
      exact .inr (Nat.succ_ne_zero _)
    · rw [if_neg hinvalid]
      refine h.imp_left fun hne => ?_
      cases truthy (pyOr (Dict.get entry.1 "isSecret") (Dict.get entry.1 "secret")) with
      | true => exact List.cons_ne_nil _ _
      | false => exact hne

theorem foldl_addEnvEntry_kept (entries : List (Dict × Bool)) {summary : EnvironmentSummary}
    (h : summary.secretEnvKeyNames ≠ [] ∨ summary.invalidEnvKeyCount ≠ 0) :
    (entries.foldl addEnvEntry summary).secretEnvKeyNames ≠ [] ∨
      (entries.foldl addEnvEntry summary).invalidEnvKeyCount ≠ 0 := by
  induction entries generalizing summary with
  | nil => exact h
  | cons entry rest ih => exact ih (addEnvEntry_kept entry h)

theorem foldl_addEnvEntry_secret {entries : List (Dict × Bool)} {entry : Dict × Bool} (hmem : entry ∈ entries)
    (hname : entryName entry.1 ≠ none) (hsecret : isMarkedSecret entry.1 = true) (summary : EnvironmentSummary) :
    (entries.foldl addEnvEntry summary).secretEnvKeyNames ≠ [] ∨
      (entries.foldl addEnvEntry summary).invalidEnvKeyCount ≠ 0 := by
  obtain ⟨front, back, rfl⟩ := List.append_of_mem hmem
  rw [List.foldl_append, List.foldl_cons]
  exact foldl_addEnvEntry_kept back (addEnvEntry_secret hname hsecret)

/-- With no secret and no invalid name counted, a secret has no name. -/
theorem environmentSummary_secret {server : Dict}
    (hsecrets : (environmentSummary (packages server) (remotes server)).secretEnvKeyNames = [])
    (hinvalid : (environmentSummary (packages server) (remotes server)).invalidEnvKeyCount = 0) {entry : Dict}
    (hmem : entry ∈ environmentEntries server) (hsecret : isMarkedSecret entry = true) : entryName entry = none := by
  by_contra hname
  obtain ⟨holder, hholder, hentry⟩ := List.mem_flatMap.mp hmem
  rw [environmentSummary] at hsecrets hinvalid
  obtain ⟨isHeader, hloop⟩ : ∃ isHeader, (entry, isHeader) ∈ (packages server ++ remotes server).flatMap fun holder =>
      (envEntries (Dict.get holder "environmentVariables")).map (fun entry => (entry, false)) ++
        (envEntries (Dict.get holder "headers")).map fun entry => (entry, true) := by
    obtain hvariable | hheader := List.mem_append.mp hentry
    · exact ⟨false, List.mem_flatMap.mpr ⟨holder, hholder,
        List.mem_append_left _ (List.mem_map.mpr ⟨entry, hvariable, rfl⟩)⟩⟩
    · exact ⟨true, List.mem_flatMap.mpr ⟨holder, hholder,
        List.mem_append_right _ (List.mem_map.mpr ⟨entry, hheader, rfl⟩)⟩⟩
  obtain hcounted | hcounted := foldl_addEnvEntry_secret hloop hname hsecret {}
  · exact hcounted (sortedSet_eq_nil.mp hsecrets)
  · exact hcounted hinvalid

/-! ## The checks of the planner -/

/-- What is relied on of `str.lower`: ASCII text by its letters, and nothing lost. -/
structure Library.Lowers (lib : Library) : Prop where
  ascii : ∀ text : Str, text.all (fun c => decide (c.val < 128)) = true → lib.lower text = Python.lower text
  nonempty : ∀ text, lib.lower text = [] → text = []

theorem ne_nil_of_string {value : Json} {text : Str} (h : string value = some text) : text ≠ [] := by
  cases value with
  | str s =>
    rw [string] at h
    split at h
    · cases h
    · cases h
      assumption
  | _ => cases h

/-- A live status is a stated one that reads `active`. -/
theorem statedStatus_of_live {lib : Library} (hlib : lib.Lowers) {server : Dict}
    (h : lib.lower ((statedStatus server).getD (u "unknown")) ∈ activeStatuses.map u) :
    ∃ status, statedStatus server = some status ∧ lib.lower status = u "active" := by
  obtain ⟨listed, hlisted, heq⟩ := List.mem_map.mp h
  rw [activeStatuses, List.mem_cons, List.mem_singleton] at hlisted
  obtain hactive | hempty : lib.lower ((statedStatus server).getD (u "unknown")) = u "active" ∨
      lib.lower ((statedStatus server).getD (u "unknown")) = u "" :=
    hlisted.imp (fun h => by rw [← heq, h]) fun h => by rw [← heq, h]
  · cases hstated : statedStatus server with
    | some status =>
      rw [hstated] at hactive
      exact ⟨status, rfl, hactive⟩
    | none =>
      rw [hstated, Option.getD_none, hlib.ascii _ (by decide)] at hactive
      exact absurd hactive (by decide)
  · have hnil := hlib.nonempty _ hempty
    cases hstated : statedStatus server with
    | some status =>
      rw [hstated, Option.getD_some] at hnil
      obtain hofficial | ⟨-, hown⟩ := Option.or_eq_some_iff.mp hstated
      · exact absurd hnil (ne_nil_of_string hofficial)
      · exact absurd hnil (ne_nil_of_string hown)
    | none =>
      rw [hstated, Option.getD_none] at hnil
      exact absurd hnil (by decide)

/-- A candidate that is not stale, and not in the future, is less than 181 days old. -/
theorem age_of_freshness {status : Str} {server : Dict} {generatedAt time : DateTime} {f : Freshness}
    (hstatus : status ∈ activeStatuses.map u) (hfresh : freshness status (freshnessSource server) generatedAt = .ok f)
    (hlive : f ∈ [Freshness.fresh, .aging, .unknown])
    (hfuture : timestampIsFuture (freshnessSource server) generatedAt = .ok false) (htime : StatedTime server time) :
    time.instant ≤ generatedAt.instant ∧ generatedAt.instant - time.instant < maxAge + microsPerDay := by
  obtain ⟨source, hsource, hparse⟩ := htime
  have hpast : ¬generatedAt.instant < time.instant := by
    rw [hsource, timestampIsFuture] at hfuture
    obtain ⟨parsed, hparsed, hfuture⟩ := bind_ok.mp hfuture
    rw [hparse] at hparsed
    cases hparsed
    exact of_decide_eq_false (Except.ok.inj hfuture)
  have hnotDeleted : status ≠ u "deleted" := by
    rintro rfl
    exact absurd hstatus (by decide)
  have hnotDeprecated : status ≠ u "deprecated" := by
    rintro rfl
    exact absurd hstatus (by decide)
  refine ⟨not_lt.mp hpast, ?_⟩
  have hdays : (generatedAt.instant - time.instant) / microsPerDay ≤ 180 := by
    by_contra hold
    have hyoung : ¬(generatedAt.instant - time.instant) / microsPerDay ≤ 30 := fun h => hold (by omega)
    rw [hsource, freshness, if_neg hnotDeleted, if_neg hnotDeprecated] at hfresh
    obtain ⟨parsed, hparsed, hfresh⟩ := bind_ok.mp hfresh
    rw [hparse] at hparsed
    cases hparsed
    dsimp only at hfresh
    rw [if_neg hpast, if_neg hyoung, if_neg hold] at hfresh
    cases hfresh
    exact absurd hlive (by decide)
  have hbelow := Int.lt_mul_of_ediv_lt (show (0 : ℤ) < microsPerDay by decide) (Int.lt_add_one_iff.mpr hdays)
  rw [maxAge]
  linarith only [hbelow]

/-- No remote is read, and none that is no object is declared. -/
theorem noRemote_of_refs {lib : Library} {server : Dict} (hrefs : (remotes server).mapM (remoteRef lib) = .ok [])
    (hlists : ListsObjects (Dict.get server "remotes")) : truthy (Dict.get server "remotes") = false := by
  have hnone : remotes server = [] := by
    cases hremotes : remotes server with
    | nil => rfl
    | cons remote rest =>
      rw [hremotes, List.mapM_cons] at hrefs
      obtain ⟨ref, -, hrest⟩ := bind_ok.mp hrefs
      obtain ⟨refs, -, hcons⟩ := bind_ok.mp hrest
      cases hcons
  cases hvalue : Dict.get server "remotes" with
  | arr items =>
    rw [hvalue] at hlists
    rw [remotes, dictsAt, hvalue] at hnone
    have hempty : items.filterMap dictOf = [] := hnone
    cases items with
    | nil => rfl
    | cons item rest =>
      obtain ⟨remote, hremote⟩ := Option.isSome_iff_exists.mp (hlists item List.mem_cons_self)
      have hmem : remote ∈ (item :: rest).filterMap dictOf := List.mem_filterMap.mpr ⟨item, List.mem_cons_self, hremote⟩
      exact absurd (hempty ▸ hmem) List.not_mem_nil
  | _ =>
    rw [hvalue] at hlists
    exact hlists

theorem listsObjects_of_noRemote {value : Json} (h : truthy value = false) : ListsObjects value := by
  cases value with
  | arr items =>
    cases items with
    | nil => exact nofun
    | cons item rest => cases h
  | _ => exact h

/-! ## The eligible entries -/

/-- What the planner has checked of an eligible server object. -/
structure Checked (lib : Library) (generatedAt : DateTime) (server : Dict) : Prop where
  active : ∃ status, statedStatus server = some status ∧ lib.lower status = u "active"
  latest : statedLatest server ≠ some false
  age : ∀ time, StatedTime server time →
    time.instant ≤ generatedAt.instant ∧ generatedAt.instant - time.instant < maxAge + microsPerDay
  secretEnvKeyNames : (environmentSummary (packages server) (remotes server)).secretEnvKeyNames = []
  invalidEnvKeyCount : (environmentSummary (packages server) (remotes server)).invalidEnvKeyCount = 0
  remoteRefs : (remotes server).mapM (remoteRef lib) = .ok []
  source : ∃ url, (repository (Dict.get server "repository")).url = some url ∧ url ≠ []

theorem checked_of_eligible {lib : Library} (hlib : lib.Lowers) {generatedAt : DateTime} {server : Dict}
    {c : Candidate} (h : candidateFromServer lib generatedAt server = .ok c)
    (heligible : c.eligibleForFirstLiveBatch = true) : Checked lib generatedAt server := by
  rw [candidateFromServer] at h
  obtain ⟨freshState, hfresh, h⟩ := bind_ok.mp h
  obtain ⟨inFuture, hfuture, h⟩ := bind_ok.mp h
  obtain ⟨refs, hrefs, h⟩ := bind_ok.mp h
  obtain ⟨keys, -, h⟩ := bind_ok.mp h
  obtain ⟨id, -, h⟩ := bind_ok.mp h
  cases h
  simp only [isEligible, Bool.and_eq_true, decide_eq_true_eq, Bool.not_eq_true'] at heligible
  obtain ⟨⟨⟨⟨⟨⟨⟨⟨⟨⟨-, hstatus⟩, hlatest⟩, hlive⟩, rfl⟩, -⟩, hsecrets⟩, hinvalid⟩, -⟩, hsource⟩, rfl⟩ := heligible
  exact
    { active := statedStatus_of_live hlib hstatus
      latest := hlatest
      age := fun time htime => age_of_freshness hstatus hfresh hlive hfuture htime
      secretEnvKeyNames := hsecrets
      invalidEnvKeyCount := hinvalid
      remoteRefs := hrefs
      source := by
        rw [RepositoryRef.hasUrl, Option.any_eq_true] at hsource
        obtain ⟨url, hurl, hne⟩ := hsource
        exact ⟨url, hurl, of_decide_eq_true hne⟩ }

/-- An entry that the planner calls eligible meets the policy exactly when nothing it overlooks is there. -/
theorem eligible_meets_policy_iff (lib : Library) (hlib : lib.Lowers) (generatedAt : DateTime) (server : Dict)
    (c : Candidate) (h : candidateFromServer lib generatedAt server = .ok c)
    (heligible : c.eligibleForFirstLiveBatch = true) :
    MeetsPolicy lib generatedAt server ↔ Overlooked lib generatedAt server := by
  have hchecked := checked_of_eligible hlib h heligible
  constructor
  · intro hpolicy
    exact
      { named := fun entry hentry hsecret => absurd hsecret (by rw [hpolicy.noSecret entry hentry]; exact nofun)
        remotes := listsObjects_of_noRemote hpolicy.noRemote
        wholeDays := fun time htime hage => not_lt.mpr (hpolicy.current time htime).2 hage.1
        exact := hpolicy.exact }
  · intro hoverlooked
    exact
      { active := hchecked.active
        latest := hchecked.latest
        current := by
          intro time htime
          have hage := hchecked.age time htime
          exact ⟨hage.1, not_lt.mp fun hold => hoverlooked.wholeDays time htime ⟨hold, hage.2⟩⟩
        noSecret := by
          intro entry hentry
          by_contra hmarked
          have hsecret := Bool.of_not_eq_false hmarked
          exact hoverlooked.named entry hentry hsecret
            (environmentSummary_secret hchecked.secretEnvKeyNames hchecked.invalidEnvKeyCount hentry hsecret)
        noRemote := noRemote_of_refs hchecked.remoteRefs hoverlooked.remotes
        source := hchecked.source
        exact := hoverlooked.exact }

/-! ## A package at a moving tag -/

theorem asciiLibrary_lowers : asciiLibrary.Lowers where
  ascii := fun _ _ => rfl
  nonempty := fun _ h => List.map_eq_nil_iff.mp h

def packageAt (version : String) : Json :=
  .obj [(u "registryType", .str (u "npm")), (u "identifier", .str (u "demo")), (u "version", .str (u version))]

def serverAt (version : String) : Dict :=
  [(u "name", .str (u "io.example/demo")), (u "status", .str (u "active")),
    (u "repository", .str (u "https://example.test/demo")), (u "packages", .arr [packageAt version])]

theorem candidate_at :
    ((candidateFromServer asciiLibrary planTime (serverAt "1.0.0")).toOption.map
      Candidate.eligibleForFirstLiveBatch = some true) ∧
    ((candidateFromServer asciiLibrary planTime (serverAt "latest")).toOption.map
      Candidate.eligibleForFirstLiveBatch = some true) := by decide +kernel

theorem exists_eligible {lib : Library} {generatedAt : DateTime} {server : Dict}
    (h : (candidateFromServer lib generatedAt server).toOption.map Candidate.eligibleForFirstLiveBatch = some true) :
    ∃ c, candidateFromServer lib generatedAt server = .ok c ∧ c.eligibleForFirstLiveBatch = true := by
  cases hcandidate : candidateFromServer lib generatedAt server with
  | error e =>
    rw [hcandidate] at h
    cases h
  | ok c =>
    rw [hcandidate] at h
    exact ⟨c, rfl, Option.some.inj h⟩

theorem eligible_meets_policy_iff_exact :
    MeetsPolicy asciiLibrary planTime (serverAt "1.0.0") ↔ Overlooked asciiLibrary planTime (serverAt "1.0.0") := by
  obtain ⟨c, hcandidate, heligible⟩ := exists_eligible candidate_at.1
  exact eligible_meets_policy_iff asciiLibrary asciiLibrary_lowers planTime (serverAt "1.0.0") c hcandidate heligible

/-- The tag `latest` is taken for an exact version. -/
theorem moving_tag_eligible :
    ¬∀ (lib : Library) (generatedAt : DateTime) (server : Dict) (c : Candidate), lib.Lowers →
      candidateFromServer lib generatedAt server = .ok c → c.eligibleForFirstLiveBatch = true →
        MeetsPolicy lib generatedAt server := by
  intro h
  obtain ⟨c, hcandidate, heligible⟩ := exists_eligible candidate_at.2
  obtain ⟨package, hpackage, version, hversion, hone⟩ :=
    (h asciiLibrary planTime (serverAt "latest") c asciiLibrary_lowers hcandidate heligible).exact
  have hpackages : packages (serverAt "latest") =
      [[(u "registryType", .str (u "npm")), (u "identifier", .str (u "demo")), (u "version", .str (u "latest"))]] := by
    rfl
  rw [hpackages, List.mem_singleton] at hpackage
  subst hpackage
  have hpinned : some (u "latest") = some version := hversion
  cases hpinned
  exact absurd hone (by decide)

end McpTrust.Corpus
