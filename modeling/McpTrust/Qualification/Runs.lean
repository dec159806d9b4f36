import McpTrust.Refresh.FileRoundtrip
import McpTrust.Qualification.Operations

/-! # Runs of operations

Files are only added, so an attempt once resolved is never unresolved again; a
call begins an attempt only where the cohort has none unresolved.
-/

namespace McpTrust.Qualification

set_option autoImplicit false

open Python Refresh

variable {interp : Interpreter} {dir : SetDir} {manifest : Dict}

/-! ## Growth -/

/-- The other directory has the same files and maybe more. -/
structure Grows (dir dir' : SetDir) : Prop where
  name : dir'.name = dir.name
  entry : ∀ {name : Str}, name ∈ dir.names → dir'.entry name = dir.entry name
  names : ∀ {name : Str}, name ∈ dir.names → name ∈ dir'.names

theorem Grows.refl (dir : SetDir) : Grows dir dir := ⟨rfl, fun _ => rfl, id⟩

theorem Grows.trans {a b c : SetDir} (h : Grows a b) (h' : Grows b c) : Grows a c where
  name := h'.name.trans h.name
  entry hname := (h'.entry (h.names hname)).trans (h.entry hname)
  names hname := h'.names (h.names hname)

theorem create_names {dir dir' : SetDir} {name : Str} {content : Bytes}
    (h : dir.create name content = some dir') : dir'.names = dir.names ++ [name] ∧ name ∉ dir.names := by
  unfold SetDir.create at h
  split at h
  next => cases h
  next hfresh =>
    cases h
    exact ⟨List.map_append, hfresh⟩

theorem entry_isSome {name : Str} : (dir.entry name).isSome = true ↔ name ∈ dir.names := by
  unfold SetDir.entry SetDir.names
  rw [Option.isSome_map, List.find?_isSome, List.mem_map]
  simp only [decide_eq_true_eq]

theorem create_grows {dir dir' : SetDir} {name : Str} {content : Bytes}
    (h : dir.create name content = some dir') : Grows dir dir' := by
  obtain ⟨hnames, -⟩ := create_names h
  refine ⟨?_, fun {other} hother => ?_, fun {other} hother => ?_⟩
  · unfold SetDir.create at h
    split at h
    · cases h
    · cases h
      rfl
  · unfold SetDir.create at h
    split at h
    · cases h
    · cases h
      have hfound := entry_isSome.mpr hother
      unfold SetDir.entry at hfound ⊢
      rw [Option.isSome_map] at hfound
      rw [List.find?_append, Option.or_of_isSome hfound]
  · rw [hnames]
    exact List.mem_append_left _ hother

section

variable {dir' : SetDir} (hgrows : Grows dir dir')

include hgrows

theorem Grows.file {name : Str} (h : name ∈ dir.names) : dir'.file name = dir.file name := by
  unfold SetDir.file
  rw [hgrows.entry h]

theorem Grows.has {label : Label} (h : Has dir label) : Has dir' label := ⟨h.1, hgrows.names h.2⟩

theorem Grows.readBoundJson {name : Str} {schema : String} (h : name ∈ dir.names) :
    readBoundJson interp dir' name schema = readBoundJson interp dir name schema := by
  unfold Qualification.readBoundJson
  rw [hgrows.file h]

end

theorem name_of_file {name : Str} {content : Bytes} (h : dir.file name = some content) : name ∈ dir.names := by
  apply entry_isSome.mp
  unfold SetDir.file at h
  cases hentry : dir.entry name with
  | none =>
    rw [hentry] at h
    cases h
  | some _ => rfl

theorem name_of_read {name : Str} {schema : String} {payload : Dict}
    (h : readBoundJson interp dir name schema = .ok payload) : name ∈ dir.names := by
  unfold readBoundJson at h
  cases hfile : dir.file name with
  | none =>
    rw [hfile] at h
    cases h
  | some content => exact name_of_file hfile

/-! ## Resolutions stay -/

section

variable {dir' : SetDir} (hgrows : Grows dir dir') {attempt : Label} (hattempt : labelName attempt ∈ dir.names)

include hgrows

theorem cleanupCapacity_grows {name : Str} (h : name ∈ dir.names) :
    cleanupCapacity interp dir' attempt name = cleanupCapacity interp dir attempt name := by
  unfold cleanupCapacity
  rw [hgrows.readBoundJson h, hgrows.name]

include hattempt

theorem ownedFinalImageId_grows {owned owned' : Option Str}
    (h : ownedFinalImageId interp dir attempt = .ok owned)
    (h' : ownedFinalImageId interp dir' attempt = .ok owned') (hsome : owned.isSome = true) :
    owned'.isSome = true := by
  have hname : recordName .ownership attempt.cohort attempt.id ∈ dir.names := by
    apply entry_isSome.mp
    by_contra hentry
    unfold ownedFinalImageId at h
    rw [Bool.not_eq_true, Option.isSome_eq_false_iff] at hentry
    simp only [if_pos hentry] at h
    cases h
    cases hsome
  have hsame : ownedFinalImageId interp dir' attempt = ownedFinalImageId interp dir attempt := by
    unfold ownedFinalImageId
    simp only [hgrows.entry hname, hgrows.readBoundJson hname, hgrows.file hattempt]
  rw [hsame, h] at h'
  cases h'
  exact hsome

theorem cleanupBound_grows {cleanup capacity : Dict} {content : Bytes} :
    cleanupBound dir' attempt cleanup capacity content = cleanupBound dir attempt cleanup capacity content := by
  unfold cleanupBound
  rw [hgrows.file hattempt]

theorem cleanupResolves_grows (h : cleanupResolves interp dir attempt = .ok true) :
    cleanupResolves interp dir' attempt ≠ .ok false := by
  intro h'
  obtain ⟨cleanup, name, capacity, owned, hcleanup, hname, hcapacity, howned, haccepted⟩ :=
    cleanupResolves_eq_true h
  have hread := name_of_read (cleanupCapacity_eq_some hcapacity).1
  obtain ⟨cleanup', hcleanup', -, haccepted'⟩ := cleanupResolves_eq_ok h'
  rw [hgrows.readBoundJson (name_of_read hcleanup), hcleanup] at hcleanup'
  cases hcleanup'
  rw [← cleanupCapacity_grows hgrows hread] at hcapacity
  obtain ⟨owned', howned', haccepted'⟩ := haccepted' name capacity hname hcapacity
  have hsome := ownedFinalImageId_grows hgrows hattempt howned howned'
  rw [hgrows.file hread] at haccepted'
  have hbound := cleanupAccepted_bound haccepted
  unfold cleanupAccepted at haccepted haccepted'
  rw [cleanupBound_grows hgrows hattempt] at haccepted'
  simp only [hbound, Bool.not_true, Bool.false_eq_true, if_false] at haccepted haccepted'
  obtain ⟨known, hknown, haccepted⟩ := bind_eq_ok.mp haccepted
  obtain ⟨known', hknown', haccepted'⟩ := bind_eq_ok.mp haccepted'
  rw [hknown] at hknown'
  cases hknown'
  have hverdict := Except.ok.inj haccepted
  have hverdict' := Except.ok.inj haccepted'
  simp only [Bool.and_eq_true, Bool.or_eq_true] at hverdict
  obtain ⟨⟨hknown, hstate⟩, hreadback⟩ := hverdict
  rw [hknown, hreadback, Bool.and_true, Bool.true_and, Bool.or_eq_false_iff] at hverdict'
  obtain hstate | hstate := hstate
  · rw [hstate] at hverdict'
    cases hverdict'.1
  · rw [hsome hstate] at hverdict'
    cases hverdict'.2

theorem completionResolves_grows (h : completionResolves interp dir attempt = .ok true) :
    completionResolves interp dir' attempt = .ok true := by
  obtain ⟨content, completion, receipt, hfile, hcompletion, -⟩ := completionResolves_eq_true h
  rw [← h]
  unfold completionResolves
  rw [hgrows.file (name_of_file hfile), hgrows.readBoundJson (name_of_read hcompletion), hgrows.file hattempt]

theorem attemptResolved_grows {completions cleanups completions' cleanups' : List Str}
    (hcompletions : completions ⊆ completions') (hcleanups : cleanups ⊆ cleanups')
    (h : attemptResolved interp dir attempt completions cleanups = .ok true) :
    attemptResolved interp dir' attempt completions' cleanups' ≠ .ok false := by
  obtain ⟨-, hcleanup, hcompletion⟩ := attemptResolved_eq_true h
  unfold attemptResolved
  by_cases hboth : attempt.id ∈ completions' ∧ attempt.id ∈ cleanups'
  · rw [if_pos hboth]
    exact nofun
  · rw [if_neg hboth]
    by_cases hclean : attempt.id ∈ cleanups
    · rw [if_pos (hcleanups hclean)]
      exact cleanupResolves_grows hgrows hattempt (hcleanup hclean)
    · have hcomplete : attempt.id ∈ completions := by
        by_contra hcomplete
        unfold attemptResolved at h
        rw [if_neg fun hboth => hclean hboth.2, if_neg hclean, if_neg hcomplete] at h
        cases h
      have hcomplete' := hcompletions hcomplete
      rw [if_neg fun hclean' => hboth ⟨hcomplete', hclean'⟩, if_pos hcomplete',
        completionResolves_grows hgrows hattempt (hcompletion hcomplete)]
      exact nofun

end

/-! ## Unresolved attempts -/

/-- The identities of the records of a kind. -/
def idsIn (dir : SetDir) (kind : Kind) : List Str :=
  (dir.names.filterMap labelOf).filterMap fun label => if label.kind = kind then some label.id else none

theorem mem_idsIn {kind : Kind} {id : Str} : id ∈ idsIn dir kind ↔ ∃ cohort, Has dir ⟨kind, cohort, id⟩ := by
  unfold idsIn
  rw [List.mem_filterMap]
  constructor
  · rintro ⟨label, hlabel, hid⟩
    obtain ⟨name, hname, hlabel⟩ := List.mem_filterMap.mp hlabel
    obtain ⟨rfl, hsha⟩ := labelOf_eq_some.mp hlabel
    obtain ⟨hkind, hsome⟩ := Option.ite_none_right_eq_some.mp hid
    cases hsome
    rw [← hkind]
    exact ⟨label.cohort, hsha, hname⟩
  · rintro ⟨cohort, hsha, hname⟩
    refine ⟨⟨kind, cohort, id⟩, List.mem_filterMap.mpr ⟨_, hname, labelOf_eq_some.mpr ⟨rfl, hsha⟩⟩, ?_⟩
    exact if_pos rfl

/-- `_attempt_resolved` of an attempt, with the resolutions of the directory. -/
def resolution (interp : Interpreter) (dir : SetDir) (cohort : Cohort) (id : Str) : Except PyErr Bool :=
  attemptResolved interp dir ⟨.attempt, cohort, id⟩ (idsIn dir .complete) (idsIn dir .cleanup)

/-- An attempt the directory holds and does not resolve. -/
structure Unresolved (interp : Interpreter) (dir : SetDir) (cohort : Cohort) (id : Str) : Prop where
  has : Has dir ⟨.attempt, cohort, id⟩
  resolved : resolution interp dir cohort id = .ok false

/-- An attempt that was resolved in an earlier state of the directory. -/
def WasResolved (interp : Interpreter) (dir : SetDir) (cohort : Cohort) (id : Str) : Prop :=
  ∃ before, Grows before dir ∧ Has before ⟨.attempt, cohort, id⟩ ∧ resolution interp before cohort id = .ok true

theorem WasResolved.grows {dir' : SetDir} {cohort : Cohort} {id : Str} (h : WasResolved interp dir cohort id)
    (hgrows : Grows dir dir') : WasResolved interp dir' cohort id := by
  obtain ⟨before, hbefore, hhas, hresolved⟩ := h
  exact ⟨before, hbefore.trans hgrows, hhas, hresolved⟩

theorem WasResolved.not_unresolved {cohort : Cohort} {id : Str} (h : WasResolved interp dir cohort id) :
    ¬Unresolved interp dir cohort id := by
  intro hunresolved
  obtain ⟨before, hgrows, hhas, hresolved⟩ := h
  have hids : ∀ kind, idsIn before kind ⊆ idsIn dir kind := by
    intro kind other hother
    obtain ⟨otherCohort, hother⟩ := mem_idsIn.mp hother
    exact mem_idsIn.mpr ⟨otherCohort, hgrows.has hother⟩
  exact attemptResolved_grows hgrows hhas.2 (hids _) (hids _) hresolved hunresolved.resolved

/-! ## What a call may begin -/

theorem attemptResolved_congr {attempt : Label} {c d c' d' : List Str} (hc : ∀ id, id ∈ c ↔ id ∈ c')
    (hd : ∀ id, id ∈ d ↔ id ∈ d') :
    attemptResolved interp dir attempt c d = attemptResolved interp dir attempt c' d' := by
  unfold attemptResolved
  simp only [hc, hd]

theorem unresolvedOf_nil {found : Found} {attempts : List (Label × Dict)}
    (h : unresolvedOf interp dir found attempts = .ok []) :
    ∀ a ∈ attempts, attemptResolved interp dir a.1 found.completions found.cleanups = .ok true := by
  induction attempts with
  | nil => exact fun a ha => nomatch ha
  | cons attempt rest ih =>
    rw [unresolvedOf] at h
    obtain ⟨resolved, hresolved, h⟩ := bind_eq_ok.mp h
    obtain ⟨unresolved, hunresolved, h⟩ := bind_eq_ok.mp h
    cases resolved with
    | false => cases h
    | true =>
      cases h
      intro a ha
      obtain rfl | ha := List.mem_cons.mp ha
      · exact hresolved
      · exact ih hunresolved a ha

/-- Where a call may begin an attempt, every attempt of the cohort is resolved. -/
theorem unresolvedAttempts_nil {cohort : Cohort} (h : unresolvedAttempts interp dir manifest cohort = .ok [])
    {id : Str} (hhas : Has dir ⟨.attempt, cohort, id⟩) : WasResolved interp dir cohort id := by
  refine ⟨dir, Grows.refl dir, hhas, ?_⟩
  unfold unresolvedAttempts at h
  obtain ⟨found, hfound, h⟩ := bind_eq_ok.mp h
  obtain ⟨-, records, hscan, rfl⟩ := validatedSetAttempts_eq_ok.mp hfound
  have hmem : (⟨.attempt, cohort, id⟩, recordOf interp dir ⟨.attempt, cohort, id⟩) ∈
      (gathered records).attempts.filter fun a => decide (a.1.cohort = cohort) := by
    apply List.mem_filter.mpr
    exact ⟨mem_gathered_attempts.mpr ⟨hscan.mem_recordOf hhas, rfl⟩, decide_eq_true rfl⟩
  rw [← unresolvedOf_nil h _ hmem]
  apply attemptResolved_congr
  · intro other
    rw [mem_idsIn, ← hscan.mem_ids _ rfl]
    rfl
  · intro other
    rw [mem_idsIn, ← hscan.mem_ids _ rfl]
    rfl

/-- At most one attempt of each cohort was never resolved, the attempts still to be written included. -/
def Single (interp : Interpreter) (dir : SetDir) (writes : List Write) : Prop :=
  ∀ cohort, ∃ open_,
    (∀ id, Has dir ⟨.attempt, cohort, id⟩ → id ≠ open_ → WasResolved interp dir cohort id) ∧
      ∀ write ∈ writes, ∀ id, isSha256 id = true → write.name = labelName ⟨.attempt, cohort, id⟩ → id = open_

theorem Single.weaken {writes writes' : List Write} (h : Single interp dir writes)
    (hsub : ∀ write ∈ writes', write ∈ writes) : Single interp dir writes' := by
  intro cohort
  obtain ⟨id, hresolved, hwrites⟩ := h cohort
  exact ⟨id, hresolved, fun write hwrite => hwrites write (hsub write hwrite)⟩

/-- Writing the next file keeps the attempts to one. -/
theorem Single.create {dir' : SetDir} {write : Write} {writes : List Write} {content : Bytes}
    (h : Single interp dir (write :: writes)) (hcreate : dir.create write.name content = some dir') :
    Single interp dir' writes := by
  intro cohort
  obtain ⟨current, hresolved, hwrites⟩ := h cohort
  refine ⟨current, ?_, fun other hother => hwrites other (List.mem_cons_of_mem _ hother)⟩
  rintro id ⟨hsha, hname⟩ hne
  obtain ⟨hnames, -⟩ := create_names hcreate
  rw [hnames] at hname
  obtain hname | hname := List.mem_append.mp hname
  · exact (hresolved id ⟨hsha, hname⟩ hne).grows (create_grows hcreate)
  · exact absurd (hwrites write List.mem_cons_self id hsha (List.mem_singleton.mp hname).symm) hne

theorem Single.leaves {dir' : SetDir} {writes : List Write} (hleaves : Leaves dir writes dir')
    (h : Single interp dir writes) : Single interp dir' [] := by
  induction hleaves with
  | stop => exact h.weaken fun write hwrite => nomatch hwrite
  | short _ hcreate => exact (h.create hcreate).weaken fun write hwrite => nomatch hwrite
  | next hcreate _ ih => exact ih (h.create hcreate)

theorem removeDigestPrefix_digestBytes (content : Bytes) :
    removeDigestPrefix (digestBytes content) = sha256Hex content := by
  unfold removeDigestPrefix digestBytes
  have hlength : (u "sha256:").length = 7 := by decide
  rw [← hlength, List.take_left, if_pos rfl, List.drop_left]

theorem isSha256_attemptIdOf (setReceiptDigest cohort capacityReceiptDigest : Json) :
    isSha256 (attemptIdOf setReceiptDigest cohort capacityReceiptDigest) = true := by
  unfold attemptIdOf
  rw [removeDigestPrefix_digestBytes]
  exact isSha256_sha256Hex _

/-- Only an attempt has the name of an attempt. -/
theorem kind_of_name (label : Label) {attempt : Label} (hattempt : attempt.kind = .attempt)
    (h : labelName label = labelName attempt) : label.kind = .attempt := by
  have hheads := labelName_head label
  rw [h, labelName_head, hattempt] at hheads
  cases hkind : label.kind
  case attempt => rfl
  all_goals
    rw [hkind] at hheads
    exact absurd hheads (by decide)

/-- The names of the files `qualify` writes beside its attempt. -/
theorem buildWrites_names {attempt : Label} {attemptBytes : Bytes} {build : Build} {write : Write}
    (h : write ∈ buildWrites attempt attemptBytes build) {other : Label} (hother : other.kind = .attempt) :
    write.name ≠ labelName other := by
  have hownership : recordName .ownership attempt.cohort attempt.id ≠ labelName other := by
    intro hname
    have hkind := kind_of_name ⟨.ownership, attempt.cohort, attempt.id⟩ hother hname
    cases hkind
  have hcomplete : recordName .complete attempt.cohort attempt.id ≠ labelName other := by
    intro hname
    have hkind := kind_of_name ⟨.complete, attempt.cohort, attempt.id⟩ hother hname
    cases hkind
  have hreceipt : receiptName attempt.cohort ≠ labelName other := by
    intro hname
    have hplain := labelName_not_plain other
    rw [← hname] at hplain
    cases hcohort : attempt.cohort <;> rw [hcohort] at hplain <;> exact absurd hplain (by decide)
  unfold buildWrites at h
  split at h
  · cases h
  · split at h
    · rw [List.mem_singleton.mp h]
      exact hownership
    · simp only [List.mem_cons, List.not_mem_nil, or_false] at h
      obtain rfl | rfl | rfl := h
      · exact hownership
      · exact hcomplete
      · exact hreceipt

theorem capacitySnapshot_name {cohort : Cohort} {capacity : Dict} {write : Write}
    (h : capacitySnapshot dir cohort capacity = .ok write) :
    ∃ digest, write.name = recordName .capacity cohort digest := by
  unfold capacitySnapshot at h
  dsimp only at h
  split_ifs at h
  cases h
  exact ⟨_, rfl⟩

theorem beginAttempt_eq_ok {cohort : Cohort} {build : Build} {begun : Str × List Write}
    (h : beginAttempt interp dir manifest cohort build = .ok begun) :
    unresolvedAttempts interp dir manifest cohort = .ok [] ∧ isSha256 begun.1 = true ∧
      ∃ digest content content', begun.2 =
        [⟨recordName .capacity cohort digest, content⟩, ⟨recordName .attempt cohort begun.1, content'⟩] := by
  unfold beginAttempt at h
  split at h
  · cases h
  · obtain ⟨unresolved, hunresolved, h⟩ := bind_eq_ok.mp h
    cases unresolved with
    | cons _ _ => cases h
    | nil =>
      obtain ⟨capacity, hcapacity, h⟩ := bind_eq_ok.mp h
      obtain ⟨setDigest, -, h⟩ := bind_eq_ok.mp h
      obtain ⟨digest, hname⟩ := capacitySnapshot_name hcapacity
      have hsha := isSha256_attemptIdOf setDigest (.str (u cohort.text)) (Dict.get build.capacity "receipt_digest")
      obtain ⟨id, writes⟩ := begun
      simp only [Except.ok.injEq, Prod.mk.injEq] at h
      obtain ⟨hid, hwrites⟩ := h
      rw [hid] at hsha hwrites
      refine ⟨hunresolved, hsha, digest, capacity.content,
        fileBytes (attemptPayload setDigest cohort id build capacity), ?_⟩
      rw [← hwrites, ← hname]

theorem recordName_ne {kind : Kind} {cohort : Cohort} {id : Str} {attempt : Label} (hkind : kind ≠ .attempt)
    (hattempt : attempt.kind = .attempt) : recordName kind cohort id ≠ labelName attempt := by
  intro hname
  exact hkind (kind_of_name ⟨kind, cohort, id⟩ hattempt hname)

/-- `qualify` writes one attempt, where every attempt of the cohort is resolved. -/
theorem qualify_eq_ok {cohort : Cohort} {build : Build} {writes : List Write}
    (h : qualify interp dir manifest cohort build = .ok writes) :
    unresolvedAttempts interp dir manifest cohort = .ok [] ∧
      ∃ id, ∀ write ∈ writes, ∀ other : Label, other.kind = .attempt → isSha256 other.id = true →
        write.name = labelName other → other = ⟨.attempt, cohort, id⟩ := by
  unfold qualify at h
  split at h
  · cases h
  · obtain ⟨_, -, h⟩ := bind_eq_ok.mp h
    obtain ⟨⟨id, begun⟩, hbegun, h⟩ := bind_eq_ok.mp h
    obtain ⟨hunresolved, hsha, digest, content, content', hbegun⟩ := beginAttempt_eq_ok hbegun
    dsimp only at hbegun hsha h
    refine ⟨hunresolved, id, ?_⟩
    rw [← Except.ok.inj h, hbegun]
    intro write hwrite other hkind hother hname
    obtain hwrite | hwrite := List.mem_append.mp hwrite
    · simp only [List.mem_cons, List.not_mem_nil, or_false] at hwrite
      obtain rfl | rfl := hwrite
      · exact absurd hname (recordName_ne (by decide) hkind)
      · exact (labelName_injective (a := ⟨.attempt, cohort, id⟩) hsha hother hname).symm
    · exact absurd hname (buildWrites_names hwrite hkind)

/-- `cleanup_interrupted` writes no attempt. -/
theorem cleanupInterrupted_eq_ok {cohort : Cohort} {readback : Readback} {writes : List Write}
    (h : cleanupInterrupted interp dir manifest cohort readback = .ok writes) :
    ∀ write ∈ writes, ∀ other : Label, other.kind = .attempt → write.name ≠ labelName other := by
  unfold cleanupInterrupted at h
  obtain ⟨_, -, h⟩ := bind_eq_ok.mp h
  obtain ⟨unresolved, -, h⟩ := bind_eq_ok.mp h
  split at h
  · obtain ⟨_, -, h⟩ := bind_eq_ok.mp h
    obtain ⟨capacity, hcapacity, h⟩ := bind_eq_ok.mp h
    obtain ⟨digest, hcapacity⟩ := capacitySnapshot_name hcapacity
    rw [← Except.ok.inj h]
    intro write hwrite other hkind
    simp only [List.mem_cons, List.not_mem_nil, or_false] at hwrite
    obtain rfl | rfl := hwrite
    · rw [hcapacity]
      exact recordName_ne (by decide) hkind
    · exact recordName_ne (by decide) hkind
  · cases h

/-- A call starts with one attempt open in each cohort at most. -/
theorem call_single {call : Call} {writes : List Write} (h : Single interp dir [])
    (hcall : call.writes interp dir manifest = .ok writes) : Single interp dir writes := by
  cases call with
  | qualify cohort build =>
    obtain ⟨hunresolved, id, hwrites⟩ := qualify_eq_ok hcall
    intro other
    by_cases hother : other = cohort
    · cases hother
      refine ⟨id, fun id' hhas _ => unresolvedAttempts_nil hunresolved hhas, ?_⟩
      intro write hwrite id' hsha hname
      cases hwrites write hwrite _ rfl hsha hname
      rfl
    · obtain ⟨current, hresolved, -⟩ := h other
      refine ⟨current, hresolved, ?_⟩
      intro write hwrite id' hsha hname
      cases hwrites write hwrite _ rfl hsha hname
      exact absurd rfl hother
  | cleanup cohort readback =>
    intro other
    obtain ⟨current, hresolved, -⟩ := h other
    refine ⟨current, hresolved, ?_⟩
    intro write hwrite id' hsha hname
    exact absurd hname (cleanupInterrupted_eq_ok hcall write hwrite _ rfl)

theorem Run.single (h : Run interp manifest dir) : Single interp dir [] := by
  induction h with
  | start hempty =>
    intro cohort
    refine ⟨[], fun id hhas _ => ?_, fun write hwrite => nomatch hwrite⟩
    have hname := hhas.2
    rw [hempty] at hname
    have hplain := labelName_not_plain ⟨.attempt, cohort, id⟩
    rw [List.mem_singleton.mp hname] at hplain
    exact absurd hplain (by decide)
  | call _ hcall hleaves ih => exact (call_single ih hcall).leaves hleaves

/-- In every state of a run at most one attempt of each cohort is unresolved. -/
theorem Run.unresolved_unique (h : Run interp manifest dir) {cohort : Cohort} {id id' : Str}
    (hunresolved : Unresolved interp dir cohort id) (hunresolved' : Unresolved interp dir cohort id') :
    id = id' := by
  obtain ⟨current, hresolved, -⟩ := h.single cohort
  have hcurrent : ∀ {id : Str}, Unresolved interp dir cohort id → id = current := by
    intro id hid
    by_contra hne
    exact (hresolved id hid.has hne).not_unresolved hid
  rw [hcurrent hunresolved, hcurrent hunresolved']

/-- An accepted directory has a consistent history exactly where its records are linked, and in every
state of a run at most one attempt of each cohort is unresolved. -/
theorem set_history (interp : Interpreter) (manifest : Dict) (dir : SetDir) :
    (∀ digest, Dict.get manifest "receipt_digest" = .str digest →
      validateSetGraph interp dir manifest = .ok () → (Consistent interp dir ↔ Linked interp dir)) ∧
    (Run interp manifest dir → ∀ cohort id id', Unresolved interp dir cohort id →
      Unresolved interp dir cohort id' → id = id') := by
  constructor
  · intro digest hdigest haccepted
    obtain ⟨records, hgraph⟩ := validateSetGraph_eq_ok haccepted
    exact hgraph.consistent_iff hdigest
  · exact fun hrun cohort id id' hid hid' => hrun.unresolved_unique hid hid'

/-! ## Sealed files -/

theorem unsignedDigest_sealed {payload : Dict} (h : ∀ kv ∈ payload, kv.1 ≠ u "receipt_digest") :
    unsignedDigest (sealed payload) = unsignedDigest payload := by
  have hkept : (sealed payload).filter (fun kv => decide (kv.1 ≠ u "receipt_digest")) = payload := by
    rw [sealed, List.filter_append, List.filter_eq_self.mpr fun kv hkv => decide_eq_true (h kv hkv)]
    exact List.append_nil payload
  have hsame : payload.filter (fun kv => decide (kv.1 ≠ u "receipt_digest")) = payload :=
    List.filter_eq_self.mpr fun kv hkv => decide_eq_true (h kv hkv)
  unfold unsignedDigest
  rw [hkept, hsame]

theorem get_sealed {payload : Dict} (h : ∀ kv ∈ payload, kv.1 ≠ u "receipt_digest") :
    Dict.get (sealed payload) "receipt_digest" = .str (unsignedDigest payload) := by
  have hnone : payload.find? (fun kv => decide (kv.1 = u "receipt_digest")) = none :=
    List.find?_eq_none.mpr fun kv hkv => by simpa using h kv hkv
  rw [Dict.get, Dict.lookup, sealed, List.find?_append, hnone]
  rfl

theorem sealed_bound {payload : Dict} (h : ∀ kv ∈ payload, kv.1 ≠ u "receipt_digest") :
    Json.pyEq (Dict.get (sealed payload) "receipt_digest") (.str (unsignedDigest (sealed payload))) = true := by
  rw [get_sealed h, unsignedDigest_sealed h]
  exact Json.pyEq_str.mpr rfl

theorem ascii_sha256Hex (content : Bytes) : Ascii (sha256Hex content) := by
  intro c hc
  have hhex := sha256Hex_isHexLower content c hc
  simp only [isHexLower, isDigit, Bool.or_eq_true, Bool.and_eq_true, decide_eq_true_eq] at hhex
  omega

theorem ascii_digestBytes (content : Bytes) : Ascii (digestBytes content) :=
  Ascii.append (by decide) (ascii_sha256Hex content)

theorem removeDigestPrefix_unsignedDigest (payload : Dict) : ∃ content : Bytes,
    removeDigestPrefix (unsignedDigest payload) = sha256Hex content := ⟨_, removeDigestPrefix_digestBytes _⟩

/-- A document written as ASCII with its keys in place. -/
def inOrder : Style where
  ensureAscii := true
  indent := none
  itemPad := true
  keyPad := true
  sortKeys := false

def inOrderBytes (payload : Dict) : Bytes := (dumps inOrder (.obj payload) ++ [ch '\n']).flatMap encodeCodePoint

/-- A sealed payload is read back as it was written. -/
theorem readBoundJson_sealed {interp : Interpreter} {dir : SetDir} {name : Str} {schema : String} {payload : Dict}
    {depth : Nat} (hfile : dir.file name = some (inOrderBytes (sealed payload)))
    (hload : Loadable (.obj (sealed payload)) depth) (hdepth : depth ≤ 64)
    (hschema : (Dict.get (sealed payload) "schema").isStr schema = true)
    (hkeys : ∀ kv ∈ payload, kv.1 ≠ u "receipt_digest") :
    readBoundJson interp dir name schema = .ok (sealed payload) := by
  have hascii : inOrder.ensureAscii = true := rfl
  have hread : loadJson interp (some (inOrderBytes (sealed payload))) = .ok (.obj (sealed payload)) :=
    loadJson_dumps hascii hload hdepth
  rw [readBoundJson, hfile]
  refine bind_eq_ok.mpr ⟨.obj (sealed payload), ?_, ?_⟩
  · rw [hread]
    rfl
  · apply if_pos
    rw [hschema, sealed_bound hkeys]
    rfl

theorem loadable_sealed {payload : Dict} {depth : Nat} (hkeys : (Dict.keys payload).Nodup)
    (hfresh : ∀ kv ∈ payload, kv.1 ≠ u "receipt_digest") (h : ∀ kv ∈ payload, Ascii kv.1 ∧ Loadable kv.2 depth) :
    Loadable (.obj (sealed payload)) (depth + 1) := by
  apply loadable_obj
  · rw [sealed, Dict.keys, List.map_append, List.nodup_append]
    refine ⟨hkeys, List.nodup_singleton _, ?_⟩
    intro key hkey other hother
    obtain ⟨kv, hkv, rfl⟩ := List.mem_map.mp hkey
    rw [List.mem_singleton.mp hother]
    exact hfresh kv hkv
  · intro kv hkv
    obtain hkv | hkv := List.mem_append.mp hkv
    · exact h kv hkv
    · rw [List.mem_singleton.mp hkv]
      have hkey : Ascii (u "receipt_digest") := by decide
      exact ⟨hkey, loadable_str (ascii_digestBytes _) depth⟩

theorem safeSetChild_record (label : Label) (h : isSha256 label.id = true) :
    safeSetChild (.str (labelName label)) = .ok (labelName label) := by
  have hchars : ∀ c ∈ labelName label, c ≠ ch '/' ∧ c ≠ ch '\\' := by
    intro c hc
    obtain hc | hc := List.mem_append.mp hc
    · have hfront : (recordPrefix label.kind label.cohort).all (fun d => decide (d ≠ ch '/') && decide (d ≠ ch '\\')) =
          true := by
        cases label.kind <;> cases label.cohort <;> decide
      simpa using List.all_eq_true.mp hfront c hc
    obtain hc | hc := List.mem_append.mp hc
    · have hhex := List.all_eq_true.mp (Bool.and_eq_true_iff.mp h).2 c hc
      constructor
      · rintro rfl
        exact absurd hhex (by decide)
      · rintro rfl
        exact absurd hhex (by decide)
    · have hend : (u ".json").all (fun d => decide (d ≠ ch '/') && decide (d ≠ ch '\\')) = true := by decide
      simpa using List.all_eq_true.mp hend c hc
  have hlong : ∀ s, s.length < 5 → labelName label ≠ s := by
    rintro s hs rfl
    rw [labelName, recordName, List.length_append, List.length_append] at hs
    have hend : (u ".json").length = 5 := by decide
    omega
  refine if_neg ?_
  rintro (hname | hname | hname | hslash | hslash)
  · exact hlong [] (by decide) hname
  · exact hlong (u ".") (by decide) hname
  · exact hlong (u "..") (by decide) hname
  · exact (hchars _ hslash).1 rfl
  · exact (hchars _ hslash).2 rfl

theorem file_first {name : Str} {content : Bytes} {rest : List (Str × Entry)}
    (h : dir.entries = (name, .file content) :: rest) : dir.file name = some content := by
  simp [SetDir.file, SetDir.entry, h]

theorem file_second {other name : Str} {entry : Entry} {content : Bytes} {rest : List (Str × Entry)}
    (h : dir.entries = (other, entry) :: (name, .file content) :: rest) (hne : other ≠ name) :
    dir.file name = some content := by
  simp [SetDir.file, SetDir.entry, h, hne]

theorem nodup_names {names : List String} (h : names.Nodup) : (names.map u).Nodup :=
  h.map fun _ _ hsame => u_inj.mp hsame

theorem keysEq_names {payload : Dict} {names : List String} (h : Dict.keys payload = names.map u) :
    Dict.keysEq payload names = true := by
  rw [Dict.keysEq, h, Bool.and_eq_true, List.all_eq_true, List.all_eq_true]
  constructor
  · exact fun key hkey => decide_eq_true hkey
  · intro name hname
    have hmem : u name ∈ Dict.keys payload := h ▸ List.mem_map_of_mem hname
    obtain ⟨kv, hkv, hkey⟩ := List.mem_map.mp hmem
    exact List.any_eq_true.mpr ⟨kv, hkv, decide_eq_true hkey⟩

theorem toOption_eq_some {α : Type} {x : Except PyErr α} {a : α} (h : x.toOption = some a) : x = .ok a := by
  cases x with
  | error e => cases h
  | ok b =>
    cases h
    rfl

/-! ## An attempt under the receipt of a cleanup -/

def idleReading (sequence : ℤ) (observedAt : String) : Dict :=
  [(u "sequence", .int sequence), (u "observed_at", .str (u observedAt)), (u "device_id", .int 1),
    (u "total_bytes", .int 10737418240), (u "available_bytes", .int 10737418240), (u "used_bytes", .int 0),
    (u "capacity_percent", .int 0)]

def idleAnchor : Dict :=
  [(u "kind", .str (u "host-filesystem-device")), (u "device_id", .int 1), (u "total_bytes", .int 10737418240)]

def firstAt : String := "2026-01-01T00:00:00+00:00"

def secondAt : String := "2026-01-01T00:01:00+00:00"

/-- A capacity receipt of an idle host, without its digest. -/
def idleHost : Dict :=
  [(u "schema", .str (u "McpTrustHostCapacityReceiptV1")), (u "observed_at", .str (u secondAt)),
    (u "status", .str (u "READY")), (u "safe_to_start_runtime", .bool true),
    (u "exit_classification", .str (u "ready")), (u "policy", policy), (u "anchor", .obj idleAnchor),
    (u "readings", .arr [.obj (idleReading 1 firstAt), .obj (idleReading 2 secondAt)]), (u "reasons", .arr []),
    (u "authority", .obj authorityFields), (u "claim_ceiling", .str (u hostClaimCeiling))]

theorem idleReadings : ∃ first second,
    checkReading idleAnchor 1 (.obj (idleReading 1 firstAt)) = .ok first ∧
      checkReading idleAnchor 2 (.obj (idleReading 2 secondAt)) = .ok second ∧
        minIntervalSeconds ≤ DateTime.totalSeconds (second.micros - first.micros) := by
  have hpair : ((checkReading idleAnchor 1 (.obj (idleReading 1 firstAt))).toOption.bind fun first =>
      (checkReading idleAnchor 2 (.obj (idleReading 2 secondAt))).toOption.map fun second =>
        decide (minIntervalSeconds ≤ DateTime.totalSeconds (second.micros - first.micros))) = some true := by
    decide +kernel
  obtain ⟨first, hfirst, hpair⟩ := Option.bind_eq_some_iff.mp hpair
  obtain ⟨second, hsecond, hpair⟩ := Option.map_eq_some_iff.mp hpair
  exact ⟨first, second, toOption_eq_some hfirst, toOption_eq_some hsecond, of_decide_eq_true hpair⟩

theorem idleHost_valid : validateHostCapacityReceipt (.obj (sealed idleHost)) = .ok (sealed idleHost) := by
  obtain ⟨first, second, hfirst, hsecond, hinterval⟩ := idleReadings
  have hkeys : ∀ kv ∈ idleHost, kv.1 ≠ u "receipt_digest" := by decide
  rw [validateHostCapacityReceipt]
  apply bind_eq_ok.mpr ⟨(), refuse_eq_ok.mpr (by decide), _⟩
  apply bind_eq_ok.mpr ⟨(), refuse_eq_ok.mpr (Bool.and_eq_true_iff.mpr ⟨by decide, sealed_bound hkeys⟩), _⟩
  apply bind_eq_ok.mpr ⟨(), refuse_eq_ok.mpr (by decide), _⟩
  apply bind_eq_ok.mpr ⟨(), refuse_eq_ok.mpr (by decide +kernel), _⟩
  apply bind_eq_ok.mpr ⟨(), refuse_eq_ok.mpr (by decide), _⟩
  apply bind_eq_ok.mpr ⟨first, hfirst, _⟩
  apply bind_eq_ok.mpr ⟨second, hsecond, _⟩
  apply bind_eq_ok.mpr ⟨(), refuse_eq_ok.mpr (decide_eq_true hinterval), _⟩
  apply bind_eq_ok.mpr ⟨(), refuse_eq_ok.mpr (by decide), _⟩
  exact bind_eq_ok.mpr ⟨(), refuse_eq_ok.mpr (by decide), rfl⟩

/-- A receipt for a cleanup, without its digest. -/
def cleanupReceipt : Dict :=
  [(u "schema", .str (u Kind.capacity.schema)), (u "operation", .str (u "cleanup")), (u "receipt_set", .str (u "v1")),
    (u "cohort", .str (u "reference")), (u "host_capacity", .obj (sealed idleHost)),
    (u "authority", qualificationAuthority), (u "claim_ceiling", .str (u qualificationClaimCeiling))]

theorem cleanupReceipt_keys : ∀ kv ∈ cleanupReceipt, kv.1 ≠ u "receipt_digest" := by decide

theorem cleanupReceipt_valid : validateQualificationCapacityReceipt (.obj (sealed cleanupReceipt)) .cleanup (u "v1")
    .reference = .ok (sealed cleanupReceipt) := by
  have hkeys : ∀ kv ∈ cleanupReceipt, kv.1 ≠ u "receipt_digest" := by decide
  rw [validateQualificationCapacityReceipt]
  apply bind_eq_ok.mpr ⟨(), refuse_eq_ok.mpr (by decide), _⟩
  apply bind_eq_ok.mpr ⟨(), refuse_eq_ok.mpr (by decide), _⟩
  apply bind_eq_ok.mpr ⟨(), refuse_eq_ok.mpr (Bool.and_eq_true_iff.mpr ⟨by decide, sealed_bound hkeys⟩), _⟩
  apply bind_eq_ok.mpr ⟨(), refuse_eq_ok.mpr (by decide), _⟩
  apply bind_eq_ok.mpr ⟨(), refuse_eq_ok.mpr (by decide +kernel), _⟩
  exact bind_eq_ok.mpr ⟨sealed idleHost, idleHost_valid, rfl⟩

def cleanupLabel : Label := ⟨.capacity, .reference, removeDigestPrefix (unsignedDigest cleanupReceipt)⟩

def setManifest : Dict := [(u "receipt_digest", .str (u "set"))]

def openId : Str := attemptIdOf (.str (u "set")) (.str (u "reference")) (.str (unsignedDigest cleanupReceipt))

def openLabel : Label := ⟨.attempt, .reference, openId⟩

/-- An attempt bound to the receipt for a cleanup, without its digest. -/
def openAttempt : Dict :=
  [(u "schema", .str (u Kind.attempt.schema)), (u "attempt_id", .str openId), (u "set_receipt_digest", .str (u "set")),
    (u "cohort", .str (u "reference")), (u "capacity_receipt_digest", .str (unsignedDigest cleanupReceipt)),
    (u "image_reference", .null), (u "temporary_reference", .str (temporaryReference openId)),
    (u "previous_final_image_id", .null), (u "oci_outputs", ociOutputs .reference),
    (u "validation_receipt", .str (validationReceipt .reference)),
    (u "tool_snapshot", .obj (toolNames.map fun tool => (u tool, .obj
      [(u "path", .str (u "tmp/qualification/tools/" ++ u tool)), (u "sha256", .str (List.replicate 64 (ch '0')))]))),
    (u "capacity_receipt", .str (labelName cleanupLabel)),
    (u "capacity_receipt_sha256", .str (digestFile (inOrderBytes (sealed cleanupReceipt)))),
    (u "exit_classification", .str (u "PENDING_DOCKER_MUTATION_CLEANUP")), (u "claim_ceiling", .str [])]

theorem openAttempt_keys : Dict.keys (sealed openAttempt) = attemptKeys.map u := rfl

theorem labels_differ : labelName cleanupLabel ≠ labelName openLabel := recordName_ne (by decide) rfl

/-- The receipt and the attempt are the whole directory. -/
def openDir : SetDir where
  name := u "v1"
  isPrivate := true
  entries := [(labelName cleanupLabel, .file (inOrderBytes (sealed cleanupReceipt))),
    (labelName openLabel, .file (inOrderBytes (sealed openAttempt)))]
  distinct := by simpa using labels_differ

theorem idleHost_loadable : Loadable (.obj (sealed idleHost)) 4 :=
  loadable_sealed (by decide) (by decide) (loadable_plain_fields (by decide +kernel))

theorem cleanupReceipt_loadable : Loadable (.obj (sealed cleanupReceipt)) 5 := by
  apply loadable_sealed (by decide) (by decide)
  have hparts : cleanupReceipt = cleanupReceipt.take 4 ++ (u "host_capacity", .obj (sealed idleHost)) ::
    cleanupReceipt.drop 5 := rfl
  rw [hparts]
  intro kv hkv
  obtain hkv | hkv := List.mem_append.mp hkv
  · exact loadable_plain_fields (by decide +kernel) kv hkv
  obtain rfl | hkv := List.mem_cons.mp hkv
  · exact ⟨by decide, idleHost_loadable⟩
  · exact loadable_plain_fields (by decide +kernel) kv hkv

theorem openAttempt_loadable : Loadable (.obj (sealed openAttempt)) 4 := by
  have hid : Ascii openId := by
    unfold openId attemptIdOf
    rw [removeDigestPrefix_digestBytes]
    exact ascii_sha256Hex _
  have hlabel : Ascii (labelName cleanupLabel) := by
    obtain ⟨content, hcontent⟩ := removeDigestPrefix_unsignedDigest cleanupReceipt
    have hid : Ascii cleanupLabel.id := by
      simp only [cleanupLabel, hcontent]
      exact ascii_sha256Hex content
    exact Ascii.append (by decide) (Ascii.append hid (by decide))
  have htemporary : Ascii (temporaryReference openId) := Ascii.append (by decide) (hid.append (by decide))
  apply loadable_sealed (by decide) (by decide)
  simp only [openAttempt, List.forall_mem_cons]
  refine ⟨?_, ?_, ?_, ?_, ?_, ?_, ?_, ?_, ?_, ?_, ?_, ?_, ?_, ?_, ?_, fun _ h => nomatch h⟩
  all_goals refine ⟨by decide, ?_⟩
  · exact loadable_of_plain 3 _ (by decide +kernel)
  · exact loadable_str hid 3
  · exact loadable_of_plain 3 _ (by decide +kernel)
  · exact loadable_of_plain 3 _ (by decide +kernel)
  · exact loadable_str (ascii_digestBytes _) 3
  · exact loadable_null 3
  · exact loadable_str htemporary 3
  · exact loadable_null 3
  · exact loadable_of_plain 3 _ (by decide +kernel)
  · exact loadable_of_plain 3 _ (by decide +kernel)
  · exact loadable_of_plain 3 _ (by decide +kernel)
  · exact loadable_str hlabel 3
  · exact loadable_str (ascii_digestBytes _) 3
  · exact loadable_of_plain 3 _ (by decide +kernel)
  · exact loadable_of_plain 3 _ (by decide +kernel)

theorem cleanupLabel_id : isSha256 cleanupLabel.id = true := by
  obtain ⟨content, hcontent⟩ := removeDigestPrefix_unsignedDigest cleanupReceipt
  simp only [cleanupLabel, hcontent]
  exact isSha256_sha256Hex content

theorem openLabel_id : isSha256 openLabel.id = true := by
  simp only [openLabel, openId]
  exact isSha256_attemptIdOf _ _ _

theorem openDir_capacity : openDir.file (labelName cleanupLabel) = some (inOrderBytes (sealed cleanupReceipt)) :=
  file_first rfl

theorem openDir_attempt : openDir.file (labelName openLabel) = some (inOrderBytes (sealed openAttempt)) :=
  file_second rfl labels_differ

theorem read_cleanupReceipt :
    readBoundJson interp openDir (labelName cleanupLabel) Kind.capacity.schema = .ok (sealed cleanupReceipt) :=
  readBoundJson_sealed openDir_capacity cleanupReceipt_loadable (by omega) (by decide) (by decide)

theorem read_openAttempt :
    readBoundJson interp openDir (labelName openLabel) Kind.attempt.schema = .ok (sealed openAttempt) :=
  readBoundJson_sealed openDir_attempt openAttempt_loadable (by omega) (by decide) (by decide)

theorem reads_cleanupReceipt :
    Reads interp openDir setManifest (labelName cleanupLabel) (cleanupLabel, sealed cleanupReceipt) where
  label := labelOf_eq_some.mpr ⟨rfl, cleanupLabel_id⟩
  bound := read_cleanupReceipt
  cohort := by decide
  valid := by
    refine ⟨?_, .cleanup, sealed cleanupReceipt, by decide, cleanupReceipt_valid⟩
    rw [get_sealed (by decide)]
    simp only [strOf, cleanupLabel]

theorem reads_openAttempt :
    Reads interp openDir setManifest (labelName openLabel) (openLabel, sealed openAttempt) where
  label := labelOf_eq_some.mpr ⟨rfl, openLabel_id⟩
  bound := read_openAttempt
  cohort := by decide
  valid := by
    refine ⟨(labelName cleanupLabel, inOrderBytes (sealed cleanupReceipt), sealed cleanupReceipt), [], ?_, rfl, ?_⟩
    · have hname : Dict.get (sealed openAttempt) "capacity_receipt" = .str (labelName cleanupLabel) := rfl
      rw [hname, readCapacity, safeSetChild_record cleanupLabel cleanupLabel_id]
      apply bind_eq_ok.mpr ⟨_, rfl, _⟩
      apply bind_eq_ok.mpr ⟨_, read_cleanupReceipt, _⟩
      rw [openDir_capacity]
      rfl
    · have hdigest := get_sealed cleanupReceipt_keys
      have hget : ∀ (i : Nat) (name : String) (v : Json), openAttempt[i]? = some (u name, v) →
          Dict.get (sealed openAttempt) name = v := by
        intro i name v hentry
        have hnodup : (Dict.keys (sealed openAttempt)).Nodup := by
          rw [openAttempt_keys]
          exact nodup_names (by decide)
        exact Dict.get_of_mem hnodup (List.mem_append_left _ (List.mem_of_getElem? hentry))
      have hlabel : openLabel.id = openId := by simp only [openLabel]
      have hid : Json.str openId = .str openLabel.id := by rw [hlabel]
      simp only [validAttempt, hget 1 "attempt_id" _ rfl, hget 2 "set_receipt_digest" _ rfl, hget 3 "cohort" _ rfl,
        hget 4 "capacity_receipt_digest" _ rfl, hget 5 "image_reference" _ rfl, hget 6 "temporary_reference" _ rfl,
        hget 7 "previous_final_image_id" _ rfl, hget 8 "oci_outputs" _ rfl, hget 9 "validation_receipt" _ rfl,
        hget 12 "capacity_receipt_sha256" _ rfl, hdigest, Bool.and_eq_true, decide_eq_true_eq, Json.pyEq_str]
      refine ⟨⟨⟨⟨⟨⟨⟨⟨⟨⟨⟨⟨?_, hid⟩, ?_⟩, rfl⟩, rfl⟩, ?_⟩, ?_⟩, by decide⟩, rfl⟩, ?_⟩, by decide⟩, trivial⟩, trivial⟩
      · exact keysEq_names openAttempt_keys
      · simp only [openLabel, openId]
      · rw [hlabel]
      · change Json.pyEq (ociOutputs .reference) (ociOutputs .reference) = true
        decide
      · decide +kernel

theorem openDir_observations : (observations [(cleanupLabel, sealed cleanupReceipt), (openLabel, sealed openAttempt)]).Nodup :=
  List.nodup_singleton _

theorem openDir_scanned : Scanned interp openDir setManifest
    [(cleanupLabel, sealed cleanupReceipt), (openLabel, sealed openAttempt)] where
  reads := by
    have hnames : openDir.names.filter (fun n => !isPlainName n) = [labelName cleanupLabel, labelName openLabel] := by
      simp [SetDir.names, openDir, labelName_not_plain]
    rw [hnames]
    exact .cons reads_cleanupReceipt (.cons reads_openAttempt .nil)
  fresh := openDir_observations

theorem openDir_attempts (interp : Interpreter) (cohort : Cohort) : ∃ digests, validatedSetAttempts interp openDir setManifest cohort =
    .ok ⟨[(openLabel, sealed openAttempt)].filter fun a => decide (a.1.cohort = cohort), [], [], [], digests⟩ := by
  exact ⟨_, validatedSetAttempts_eq_ok.mpr ⟨rfl, _, openDir_scanned, rfl⟩⟩

theorem openDir_receipt (cohort : Cohort) : openDir.file (receiptName cohort) = none := by
  have hplain : ∀ label, labelName label ≠ receiptName cohort := by
    intro label hname
    have hnot := labelName_not_plain label
    rw [hname] at hnot
    cases cohort <;> exact absurd hnot (by decide)
  simp [SetDir.file, SetDir.entry, openDir, hplain]

theorem openDir_accepted : validateSetGraph interp openDir setManifest = .ok () := by
  obtain ⟨d₁, h₁⟩ := openDir_attempts interp .reference
  obtain ⟨d₂, h₂⟩ := openDir_attempts interp .liveBatch
  obtain ⟨d₃, h₃⟩ := openDir_attempts interp .batch3
  obtain ⟨d₄, h₄⟩ := openDir_attempts interp .batch4
  obtain ⟨d₅, h₅⟩ := openDir_attempts interp .basicMemory
  have hfound : attemptsById interp openDir setManifest cohorts .empty =
      .ok ⟨[(openLabel, sealed openAttempt)], [], [], [], d₅⟩ := by
    simp only [cohorts, attemptsById, h₁, h₂, h₃, h₄, h₅]
    rfl
  have hcapacity : strOf (Dict.get (sealed openAttempt) "capacity_receipt") = labelName cleanupLabel := rfl
  have hnames : openDir.names.filter isCapacityName = [labelName cleanupLabel] := by
    have hattempt : isCapacityName (labelName openLabel) = false := by
      apply Bool.eq_false_iff.mpr
      intro h
      cases (isCapacityName_label openLabel).mp h
    have hreceipt : isCapacityName (labelName cleanupLabel) = true := (isCapacityName_label cleanupLabel).mpr rfl
    simp [SetDir.names, openDir, hattempt, hreceipt]
  have hreceipts : ∀ cohorts, checkReceipts openDir ⟨[(openLabel, sealed openAttempt)], [], [], [], d₅⟩ cohorts = .ok () := by
    intro cohorts
    induction cohorts with
    | nil => rfl
    | cons cohort cohorts ih =>
      rw [checkReceipts, openDir_receipt, completedOf]
      simpa [demand, bind, Except.bind] using ih
  rw [validateSetGraph, hfound]
  apply bind_eq_ok.mpr ⟨_, rfl, _⟩
  apply bind_eq_ok.mpr ⟨(), rfl, _⟩
  apply bind_eq_ok.mpr ⟨(), rfl, _⟩
  apply bind_eq_ok.mpr ⟨(), rfl, _⟩
  apply bind_eq_ok.mpr ⟨(), rfl, _⟩
  apply bind_eq_ok.mpr ⟨(), rfl, _⟩
  apply bind_eq_ok.mpr ⟨(), rfl, _⟩
  apply bind_eq_ok.mpr ⟨(), hreceipts cohorts, _⟩
  apply bind_eq_ok.mpr ⟨[], rfl, _⟩
  apply demand_eq_ok.mpr
  rw [hnames]
  simp [hcapacity, sameSet, subset]

theorem set_history_open : Consistent ⟨1000, by decide⟩ openDir ↔ Linked ⟨1000, by decide⟩ openDir :=
  (set_history ⟨1000, by decide⟩ setManifest openDir).1 (u "set") rfl openDir_accepted

/-- An accepted directory whose attempt runs under the capacity receipt of a cleanup. -/
theorem open_history_inconsistent :
    validateSetGraph ⟨1000, by decide⟩ openDir setManifest = .ok () ∧ ¬Consistent ⟨1000, by decide⟩ openDir := by
  refine ⟨openDir_accepted, fun hconsistent => ?_⟩
  have hopen : Has openDir openLabel := ⟨openLabel_id, List.mem_cons_of_mem _ List.mem_cons_self⟩
  obtain ⟨capacity, hbound, hscope⟩ := hconsistent.attemptCapacity hopen
  have hname := hbound.name
  have hattempt : recordOf ⟨1000, by decide⟩ openDir openLabel = sealed openAttempt := recordOf_eq read_openAttempt
  have hcapacity : Dict.get (sealed openAttempt) "capacity_receipt" = .str (labelName cleanupLabel) := rfl
  change Dict.get (recordOf _ openDir openLabel) "capacity_receipt" = _ at hname
  rw [hattempt, hcapacity, Json.str.injEq] at hname
  have hlabel := labelName_injective cleanupLabel_id hbound.has.1 hname
  have hoperation := hscope.operation
  rw [← hlabel, field, recordOf_eq read_cleanupReceipt] at hoperation
  have hcleanup : Dict.get (sealed cleanupReceipt) "operation" = .str (u "cleanup") := rfl
  rw [hcleanup, Json.str.injEq] at hoperation
  exact absurd hoperation (by decide)

end McpTrust.Qualification
