import McpTrust.Qualification.Runs
import McpTrust.Python.JsonWritable
import McpTrust.Catalog.GradeOrder

/-! # What a bundle extracts to

The content digest lists the raw names of the members. It determines the files
that an extraction writes, unless two members name one destination.
-/

namespace Python

set_option autoImplicit false

open McpTrust.Receipt McpTrust.Refresh

/-! ## A text has one value -/

/-- Readers without any limit. -/
def exactHooks : Hooks where
  parseInt text := .ok (.int (readInt text))
  parseFloat text := .ok (.float (readFloat text))
  parseConstant _ := .error .valueError
  objectPairs pairs := .ok (.obj pairs)

theorem admits_exact {st : Style} {v : Json} (hfloats : ∀ x, .float x ∈ v.walk → x.isFinite = true) (htexts : Texts v) :
    Admits exactHooks st v := by
  intro w hw
  cases w with
  | int n =>
    change Except.ok (Json.int (readInt (intRepr n))) = .ok (.int n)
    rw [readInt_intRepr]
  | float x =>
    have hfinite := hfloats x hw
    obtain ⟨-, -, -, -, -, -, -, hread⟩ := floatRepr_text hfinite
    refine ⟨hfinite, ?_⟩
    change Except.ok (Json.float (readFloat (floatRepr x))) = .ok (.float x)
    rw [hread]
  | str s => exact fun _ => htexts s hw
  | obj fields => rfl
  | _ => trivial

/-- Values with one text are one value, up to the order of their keys. -/
theorem dumps_injective {st : Style} {v w : Json} {m n : Nat} (hv : Writable m v) (hw : Writable n w)
    (h : dumps st v = dumps st w) : st.arrange v = st.arrange w := by
  have hread : ∀ {k : Nat} {x : Json}, Writable k x →
      loads exactHooks (max (st.arrange v).depth (st.arrange w).depth) (dumps st x) = .ok (st.arrange x) ∨
        max (st.arrange v).depth (st.arrange w).depth < (st.arrange x).depth := by
    intro k x hx
    have harranged : Writable k (st.arrange x) := by
      rw [Style.arrange]
      split
      · exact hx.sortKeys
      · exact hx
    by_cases hdepth : (st.arrange x).depth ≤ max (st.arrange v).depth (st.arrange w).depth
    · left
      have hloads := @loads_dumps exactHooks st x _ [] (admits_exact harranged.floats harranged.texts) hdepth
        (fun _ hc => absurd hc List.not_mem_nil)
      rwa [List.append_nil] at hloads
    · exact .inr (not_le.mp hdepth)
  have hleft := (hread hv).resolve_right (not_lt.mpr (le_max_left _ _))
  have hright := (hread hw).resolve_right (not_lt.mpr (le_max_right _ _))
  rw [h, hright] at hleft
  exact (Except.ok.inj hleft).symm

end Python

namespace McpTrust.Refresh

set_option autoImplicit false

open Python McpTrust.Receipt

/-! ## Archives and their extraction -/

/-- What `tarfile` reads of an archive. It decodes names with `surrogateescape`, which yields no
high surrogate. -/
structure Archive where
  size : Nat
  members : List Member
  decoded : ∀ member ∈ members, ∀ c ∈ member.name, isHighSurrogate c = false

def Archive.metadata (archive : Archive) : Except PyErr BundleMetadata :=
  dependencyBundleMetadata archive.size archive.members

def Archive.Accepted (archive : Archive) : Prop := ∃ metadata, archive.metadata = .ok metadata

/-- The path below the directory of the extraction that a member is written to. -/
def destination (member : Member) : List Str := pathParts member.name

/-- A file stands where a directory is needed, or a directory where a file is. -/
def blocks (member earlier : Member) : Bool :=
  (decide (earlier.kind = .file) && (destination earlier).isPrefixOf (destination member) &&
    (decide (destination earlier ≠ destination member) || decide (member.kind ≠ .file))) ||
  (decide (member.kind = .file) && (destination member).isPrefixOf (destination earlier) &&
    (decide (destination earlier ≠ destination member) || decide (earlier.kind ≠ .file)))

/-- The members are extracted one after the other; a later file replaces an earlier one. -/
def extractFrom (earlier : List Member) (files : List Str → Option Bytes) :
    List Member → Option (List Str → Option Bytes)
  | [] => some files
  | member :: rest =>
    if earlier.any (blocks member) || (decide (member.kind = .file) && decide (destination member = [])) then none
    else
      extractFrom (member :: earlier)
        (if member.kind = .file then Function.update files (destination member) (some member.content) else files) rest

/-- The map from destinations to bytes, where nothing is in the way. -/
def Archive.extract (archive : Archive) : Option (List Str → Option Bytes) :=
  extractFrom [] (fun _ => none) archive.members

/-- No destination is written by two members. -/
def Archive.WrittenOnce (archive : Archive) : Prop :=
  archive.members.Pairwise fun a b => destination a ≠ destination b

instance (archive : Archive) : Decidable archive.WrittenOnce := inferInstanceAs (Decidable (List.Pairwise _ _))

/-- No two members have different names for one destination. -/
def Archive.Unaliased (archive : Archive) : Prop :=
  ∀ a ∈ archive.members, ∀ b ∈ archive.members, a.name ≠ b.name → pathParts a.name ≠ pathParts b.name

/-- One content digest has one extraction. -/
def Determined (archive other : Archive) : Prop :=
  ∀ metadata metadata', archive.metadata = .ok metadata → other.metadata = .ok metadata' →
    metadata.contentDigest = metadata'.contentDigest →
    ∀ files files', archive.extract = some files → other.extract = some files' → files = files'

/-! ## What is accepted -/

/-- The members that have rows. -/
def filesOf (members : List Member) : List Member := members.filter fun member => decide (member.kind ≠ .dir)

theorem filesOf_dir {member : Member} (h : member.kind = .dir) (rest : List Member) :
    filesOf (member :: rest) = filesOf rest := List.filter_cons_of_neg (by simp [h])

theorem filesOf_file {member : Member} (h : member.kind ≠ .dir) (rest : List Member) :
    filesOf (member :: rest) = member :: filesOf rest := List.filter_cons_of_pos (by simp [h])

theorem bundleRows_eq_ok {seen : List Str} {members : List Member} {rows : List Row}
    (h : bundleRows seen members = .ok rows) :
    rows = (filesOf members).map rowOf ∧ (members.map Member.name).Nodup ∧
      (∀ member ∈ members, member.name ∉ seen ∧ member.kind ≠ .other) := by
  induction members generalizing seen rows with
  | nil =>
    cases h
    exact ⟨rfl, List.nodup_nil, fun _ hmem => absurd hmem List.not_mem_nil⟩
  | cons member rest ih =>
    rw [bundleRows] at h
    split_ifs at h with hunsafe hdir hsize
    · simp only [unsafeMember, Bool.not_eq_true, Bool.or_eq_false_iff, decide_eq_false_iff_not] at hunsafe
      obtain ⟨⟨-, hfresh⟩, hkind⟩ := hunsafe
      obtain ⟨hrows, hnodup, hrest⟩ := ih h
      refine ⟨?_, ?_, List.forall_mem_cons.mpr ⟨⟨hfresh, hkind⟩, fun m hm => ?_⟩⟩
      · rw [hrows, filesOf_dir hdir]
      · rw [List.map_cons, List.nodup_cons]
        refine ⟨fun hmem => ?_, hnodup⟩
        obtain ⟨m, hm, hname⟩ := List.mem_map.mp hmem
        exact (hrest m hm).1 (hname ▸ List.mem_cons_self)
      · exact ⟨fun hseen => (hrest m hm).1 (List.mem_cons_of_mem _ hseen), (hrest m hm).2⟩
    · simp only [unsafeMember, Bool.not_eq_true, Bool.or_eq_false_iff, decide_eq_false_iff_not] at hunsafe
      obtain ⟨⟨-, hfresh⟩, hkind⟩ := hunsafe
      cases hread : bundleRows (member.name :: seen) rest with
      | error e =>
        rw [hread] at h
        cases h
      | ok rows' =>
        rw [hread] at h
        cases h
        obtain ⟨hrows, hnodup, hrest⟩ := ih hread
        refine ⟨?_, ?_, List.forall_mem_cons.mpr ⟨⟨hfresh, hkind⟩, fun m hm => ?_⟩⟩
        · rw [hrows, filesOf_file hdir, List.map_cons]
        · rw [List.map_cons, List.nodup_cons]
          refine ⟨fun hmem => ?_, hnodup⟩
          obtain ⟨m, hm, hname⟩ := List.mem_map.mp hmem
          exact (hrest m hm).1 (hname ▸ List.mem_cons_self)
        · exact ⟨fun hseen => (hrest m hm).1 (List.mem_cons_of_mem _ hseen), (hrest m hm).2⟩

/-- The rows of an accepted archive, in the order they are digested. -/
def Archive.sortedRows (archive : Archive) : List Row := ((filesOf archive.members).map rowOf).insertionSort RowLe

theorem Archive.metadata_eq_ok {archive : Archive} {metadata : BundleMetadata} (h : archive.metadata = .ok metadata) :
    metadata.contentDigest = digestBytes (inventory archive.sortedRows) ∧ (archive.members.map Member.name).Nodup ∧
      (∀ member ∈ archive.members, member.kind ≠ .other) := by
  rw [Archive.metadata, dependencyBundleMetadata] at h
  split_ifs at h with hsize
  cases hread : bundleRows [] archive.members with
  | error e =>
    rw [hread] at h
    cases h
  | ok rows =>
    rw [hread] at h
    obtain ⟨hrows, hnodup, hkinds⟩ := bundleRows_eq_ok hread
    change (if rows.isEmpty then _ else _) = _ at h
    split_ifs at h with hempty
    cases h
    refine ⟨?_, hnodup, fun m hm => (hkinds m hm).2⟩
    rw [hrows]
    rfl

theorem Archive.writtenOnce_iff {archive : Archive} (haccepted : archive.Accepted) :
    archive.WrittenOnce ↔ archive.Unaliased := by
  obtain ⟨metadata, hmetadata⟩ := haccepted
  have hnodup := (Archive.metadata_eq_ok hmetadata).2.1
  rw [List.Nodup, List.pairwise_map] at hnodup
  constructor
  · intro honce a ha b hb hname
    have hsymm : Std.Symm fun a b : Member => destination a ≠ destination b := ⟨fun _ _ h => h.symm⟩
    exact honce.forall ha hb fun hab => hname (congrArg Member.name hab)
  · intro hplain
    exact hnodup.imp_of_mem fun {a b} ha hb hne => hplain a ha b hb hne

/-! ## An inventory has one list of rows -/

theorem noPair_of_decoded {s : Str} (h : ∀ c ∈ s, isHighSurrogate c = false) : s.IsChain NoPair := by
  induction s with
  | nil => exact List.isChain_nil
  | cons a s ih =>
    have htail := ih fun c hc => h c (List.mem_cons_of_mem _ hc)
    cases s with
    | nil => exact List.isChain_singleton _
    | cons b s =>
      refine List.isChain_cons_cons.mpr ⟨fun hpair => ?_, htail⟩
      rw [h a List.mem_cons_self] at hpair
      cases hpair.1

theorem writable_rows {rows : List Row} (h : ∀ row ∈ rows, row.path.IsChain NoPair ∧ row.sha256.IsChain NoPair) :
    Writable 2 (.arr (rows.map Row.json)) := by
  apply writable_arr
  intro v hv
  obtain ⟨row, hrow, rfl⟩ := List.mem_map.mp hv
  obtain ⟨hpath, hsha⟩ := h row hrow
  have hnames : ["path", "size", "sha256"].Nodup := by decide
  refine @writable_named [("path", .str row.path), ("size", .int row.size), ("sha256", .str row.sha256)] 0 hnames
    fun p hp => ?_
  simp only [List.mem_cons, List.not_mem_nil, or_false] at hp
  obtain rfl | rfl | rfl := hp
  · exact writable_str hpath 0
  · exact writable_int _ 0
  · exact writable_str hsha 0

theorem Row.json_injective {row row' : Row} (h : row.json.sortKeys = row'.json.sortKeys) : row = row' := by
  have hsorted : ∀ r : Row, r.json.sortKeys =
      .obj [(u "path", .str r.path), (u "sha256", .str r.sha256), (u "size", .int r.size)] := by
    intro r
    rw [Row.json, Json.sortKeys, Json.sortFields_eq]
    rfl
  rw [hsorted, hsorted] at h
  obtain ⟨path, size, sha⟩ := row
  obtain ⟨path', size', sha'⟩ := row'
  simpa [and_comm] using h

theorem rows_of_inventory {rows rows' : List Row}
    (h : ∀ row ∈ rows, row.path.IsChain NoPair ∧ row.sha256.IsChain NoPair)
    (h' : ∀ row ∈ rows', row.path.IsChain NoPair ∧ row.sha256.IsChain NoPair)
    (hsame : inventory rows = inventory rows') : rows = rows' := by
  have harranged := dumps_injective (writable_rows h) (writable_rows h') (inventory_text hsame)
  have hsorted : ∀ rows : List Row, asciiStyle.arrange (.arr (rows.map Row.json)) =
      .arr (rows.map fun row => row.json.sortKeys) := by
    intro rows
    rw [arrange_arr, List.map_map]
    rfl
  rw [hsorted, hsorted, Json.arr.injEq] at harranged
  exact List.map_injective_iff.mpr (fun _ _ => Row.json_injective) harranged

/-! ## Extraction of an archive that writes each destination once -/

theorem extractFrom_eq_some {earlier : List Member} {files result : List Str → Option Bytes} {members : List Member}
    (honce : members.Pairwise fun a b => destination a ≠ destination b)
    (h : extractFrom earlier files members = some result) :
    (∀ member ∈ members, member.kind = .file → result (destination member) = some member.content) ∧
      ∀ path, (∀ member ∈ members, member.kind = .file → destination member ≠ path) → result path = files path := by
  induction members generalizing earlier files with
  | nil =>
    cases h
    exact ⟨fun _ hmem => absurd hmem List.not_mem_nil, fun _ _ => rfl⟩
  | cons member rest ih =>
    rw [extractFrom] at h
    split_ifs at h with hblocked hfile
    · obtain ⟨hhead, hrest⟩ := List.pairwise_cons.mp honce
      obtain ⟨hwritten, hkept⟩ := ih hrest h
      refine ⟨List.forall_mem_cons.mpr ⟨fun _ => ?_, hwritten⟩, fun path hpath => ?_⟩
      · rw [hkept _ fun other hother _ => (hhead other hother).symm, Function.update_self]
      · obtain ⟨hne, hothers⟩ := List.forall_mem_cons.mp hpath
        rw [hkept path hothers, Function.update_of_ne (hne hfile).symm]
    · obtain ⟨hhead, hrest⟩ := List.pairwise_cons.mp honce
      obtain ⟨hwritten, hkept⟩ := ih hrest h
      refine ⟨List.forall_mem_cons.mpr ⟨fun hkind => absurd hkind hfile, hwritten⟩, fun path hpath => ?_⟩
      exact hkept path (List.forall_mem_cons.mp hpath).2

/-- Two inventories, or the contents of two members, that SHA-256 does not tell apart. -/
def Archive.Collides (archive other : Archive) : Prop :=
  Collide (inventory archive.sortedRows) (inventory other.sortedRows) ∨
    ∃ a ∈ archive.members, ∃ b ∈ other.members, Collide a.content b.content

theorem Archive.mem_sortedRows {archive : Archive} {row : Row} : row ∈ archive.sortedRows ↔
    ∃ member ∈ archive.members, member.kind ≠ .dir ∧ rowOf member = row := by
  rw [Archive.sortedRows, List.mem_insertionSort, List.mem_map]
  simp only [filesOf, List.mem_filter, decide_eq_true_eq, and_assoc]

theorem Archive.sortedRows_texts (archive : Archive) :
    ∀ row ∈ archive.sortedRows, row.path.IsChain NoPair ∧ row.sha256.IsChain NoPair := by
  intro row hrow
  obtain ⟨member, hmember, -, rfl⟩ := Archive.mem_sortedRows.mp hrow
  refine ⟨noPair_of_decoded (archive.decoded member hmember), chain_of_ascii ?_⟩
  exact Qualification.ascii_digestBytes member.content

/-- A file of one archive is in every other one with its rows. -/
theorem mem_of_sortedRows {archive other : Archive} (hkinds : ∀ member ∈ other.members, member.kind ≠ .other)
    (hrows : archive.sortedRows = other.sortedRows) (hsafe : ¬archive.Collides other) {member : Member}
    (hmember : member ∈ archive.members) (hfile : member.kind = .file) :
    ∃ twin ∈ other.members, twin.kind = .file ∧ destination twin = destination member ∧ twin.content = member.content := by
  have hrow : rowOf member ∈ other.sortedRows := by
    rw [← hrows]
    exact Archive.mem_sortedRows.mpr ⟨member, hmember, by rw [hfile]; decide, rfl⟩
  obtain ⟨twin, htwin, hdir, hsame⟩ := Archive.mem_sortedRows.mp hrow
  simp only [rowOf, Row.mk.injEq] at hsame
  obtain ⟨hname, -, hdigest⟩ := hsame
  have hkind : twin.kind = .file := by
    have hother := hkinds twin htwin
    cases hk : twin.kind with
    | file => rfl
    | dir => exact absurd hk hdir
    | other => exact absurd hk hother
  refine ⟨twin, htwin, hkind, congrArg pathParts hname, ?_⟩
  obtain hcontent | hcollide := eq_or_collide (List.append_cancel_left hdigest)
  · exact hcontent
  · exact absurd (.inr ⟨member, hmember, twin, htwin, hcollide.1.symm, hcollide.2.symm⟩) hsafe

theorem Archive.Collides.symm {archive other : Archive} (h : archive.Collides other) : other.Collides archive := by
  obtain ⟨hne, hsame⟩ | ⟨a, ha, b, hb, hne, hsame⟩ := h
  · exact .inl ⟨hne.symm, hsame.symm⟩
  · exact .inr ⟨b, hb, a, ha, hne.symm, hsame.symm⟩

theorem determined_of_writtenOnce {archive other : Archive} (honce : archive.WrittenOnce) (honce' : other.WrittenOnce)
    (hsafe : ¬archive.Collides other) : Determined archive other := by
  intro metadata metadata' hmetadata hmetadata' hdigest files files' hfiles hfiles'
  obtain ⟨hcontent, -, hkinds⟩ := Archive.metadata_eq_ok hmetadata
  obtain ⟨hcontent', -, hkinds'⟩ := Archive.metadata_eq_ok hmetadata'
  rw [hcontent, hcontent'] at hdigest
  have hrows : archive.sortedRows = other.sortedRows := by
    obtain hinventory | hcollide := eq_or_collide (List.append_cancel_left hdigest)
    · exact rows_of_inventory archive.sortedRows_texts other.sortedRows_texts hinventory
    · exact absurd (.inl hcollide) hsafe
  obtain ⟨hwritten, hkept⟩ := extractFrom_eq_some honce hfiles
  obtain ⟨hwritten', hkept'⟩ := extractFrom_eq_some honce' hfiles'
  funext path
  by_cases hpath : ∃ member ∈ archive.members, member.kind = .file ∧ destination member = path
  · obtain ⟨member, hmember, hfile, rfl⟩ := hpath
    obtain ⟨twin, htwin, hkind, hdestination, hbytes⟩ := mem_of_sortedRows hkinds' hrows hsafe hmember hfile
    have htwinWritten := hwritten' twin htwin hkind
    rw [hdestination, hbytes] at htwinWritten
    rw [hwritten member hmember hfile, htwinWritten]
  · have habsent : ∀ member ∈ archive.members, member.kind = .file → destination member ≠ path :=
      fun member hmember hfile hsame => hpath ⟨member, hmember, hfile, hsame⟩
    have habsent' : ∀ member ∈ other.members, member.kind = .file → destination member ≠ path := by
      intro member hmember hfile hsame
      obtain ⟨twin, htwin, hkind, hdestination, -⟩ :=
        mem_of_sortedRows hkinds hrows.symm (fun h => hsafe h.symm) hmember hfile
      exact habsent twin htwin hkind (hdestination.trans hsame)
    rw [hkept path habsent, hkept' path habsent']

def plainMember (name content : String) : Member := ⟨u name, .file, content.length, utf8 content⟩

def archiveOf (members : List Member)
    (h : members.all (fun member => member.name.all fun c => !isHighSurrogate c) = true) : Archive where
  size := 10240
  members := members
  decoded member hmember c hc := by
    have hname := List.all_eq_true.mp h member hmember
    simpa using List.all_eq_true.mp hname c hc

/-- One file, without and with its directory. -/
def fileOnly : Archive := archiveOf [plainMember "d/a" "x"] (by decide)

def withDirectory : Archive := archiveOf [⟨u "d", .dir, 0, []⟩, plainMember "d/a" "x"] (by decide)

/-- Two names for one file, in both orders. -/
def dotLast : Archive := archiveOf [plainMember "a" "x", plainMember "./a" "y"] (by decide)

def dotFirst : Archive := archiveOf [plainMember "./a" "y", plainMember "a" "x"] (by decide)

end McpTrust.Refresh
