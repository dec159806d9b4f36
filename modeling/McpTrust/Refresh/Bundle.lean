import McpTrust.Python.PathOrder
import McpTrust.Refresh.FileRoundtrip
import McpTrust.Refresh.Policy

/-! # Offline dependency bundles

`_bundle_tree` orders the files of a tree as paths, `dependency_bundle_metadata`
the members of the archive as strings. They digest the same inventory where no
file lies below a directory whose name a sibling extends with a character before
the slash.
-/

namespace McpTrust.Refresh

set_option autoImplicit false

open Python

/-! ## Archives -/

inductive MemberKind
  | file
  | dir
  | other
  deriving DecidableEq

/-- A `TarInfo` and what `extractfile` reads of it. -/
structure Member where
  name : Str
  kind : MemberKind
  size : Nat
  content : Bytes
  deriving DecidableEq

/-- The size of the file `tarfile` writes of these members. A written archive holds at least its
end marker, and reading it gives back its members in their order. -/
structure TarFormat where
  size : List Member → Nat
  positive : ∀ members, 0 < size members

structure Row where
  path : Str
  size : Nat
  sha256 : Str
  deriving DecidableEq

def Row.json (row : Row) : Json :=
  .obj [(u "path", .str row.path), (u "size", .int row.size), (u "sha256", .str row.sha256)]

def rowOf (member : Member) : Row := ⟨member.name, member.size, digestBytes member.content⟩

def inventory (rows : List Row) : Bytes := canonicalBytes (.arr (rows.map Row.json))

structure BundleMetadata where
  bundleSize : Nat
  fileCount : Nat
  contentDigest : Str
  deriving DecidableEq

/-! ## Writing -/

structure TreeFile where
  path : List Str
  content : Bytes
  deriving DecidableEq

/-- The regular files below a directory. -/
structure FileTree where
  files : List TreeFile
  nonempty : files ≠ []
  named : ∀ file ∈ files, file.path ≠ [] ∧ ∀ s ∈ file.path, IsPart s ∧ ∀ c ∈ s, isSurrogate c = false ∧ c.val ≠ 0
  distinct : (files.map TreeFile.path).Nodup
  leaves : ∀ file ∈ files, ∀ other ∈ files, file.path <+: other.path → file = other

def PathLe (a b : TreeFile) : Prop := partsLe a.path b.path = true

instance : DecidableRel PathLe := fun a b => inferInstanceAs (Decidable (partsLe a.path b.path = true))

instance : Std.Total PathLe := ⟨fun a b => partsLe_total a.path b.path⟩

instance : IsTrans TreeFile PathLe := ⟨fun _ _ _ => partsLe_trans⟩

def memberOf (file : TreeFile) : Member := ⟨posix file.path, .file, file.content.length, file.content⟩

def preparationError (message : String) : PyErr := .app "PreparationError" message

/-- `_bundle_tree(source, target)`, with the members of the archive at `target`. -/
def bundleTree (tar : TarFormat) (files : List TreeFile) : Except PyErr (List Member × BundleMetadata) :=
  let members := (files.insertionSort PathLe).map memberOf
  let rows := members.map rowOf
  if rows.isEmpty then .error (preparationError "offline dependency tree is empty")
  else .ok (members, ⟨tar.size members, rows.length, digestBytes (inventory rows)⟩)

/-! ## Reading -/

def unsafeMember (seen : List Str) (member : Member) : Bool :=
  decide (member.name.head? = some (ch '/')) || decide (member.name = []) ||
    decide (u ".." ∈ pathParts member.name) || decide (member.name ∈ seen) || decide (member.kind = .other)

/-- The loop over the members. -/
def bundleRows (seen : List Str) : List Member → Except PyErr (List Row)
  | [] => .ok []
  | member :: rest =>
    if unsafeMember seen member then .error (refreshError "dependency artifact bundle is unsafe")
    else if member.kind = .dir then bundleRows (member.name :: seen) rest
    else if member.content.length ≠ member.size then
      .error (refreshError "dependency artifact member size mismatch")
    else do
      let rows ← bundleRows (member.name :: seen) rest
      .ok (rowOf member :: rows)

def RowLe (a b : Row) : Prop := StrLe a.path b.path

instance : DecidableRel RowLe := fun a b => inferInstanceAs (Decidable (StrLe a.path b.path))

instance : Std.Total RowLe := ⟨fun a b => strLe_total a.path b.path⟩

instance : IsTrans Row RowLe := ⟨fun _ _ _ => strLe_trans⟩

/-- `dependency_bundle_metadata(path)` of an archive of this size. -/
def dependencyBundleMetadata (bundleSize : Nat) (members : List Member) : Except PyErr BundleMetadata := do
  if bundleSize = 0 then .error (refreshError "dependency artifact bundle is empty")
  else do
    let rows ← bundleRows [] members
    if rows.isEmpty then .error (refreshError "dependency artifact bundle has no files")
    else .ok ⟨bundleSize, rows.length, digestBytes (inventory (rows.insertionSort RowLe))⟩

/-- The keys `**metadata` adds to a descriptor. -/
def BundleMetadata.items (metadata : BundleMetadata) : Dict :=
  [(u "bundle_size", .int metadata.bundleSize), (u "file_count", .int metadata.fileCount),
    (u "content_digest", .str metadata.contentDigest)]

/-- `_dependency_artifact` finds the metadata of the bundle in the descriptor. -/
def describes (descriptor : Dict) (metadata : BundleMetadata) : Bool :=
  metadata.items.all fun kv => Json.pyEq ((Dict.lookup descriptor kv.1).getD .null) kv.2

/-! ## The archive of a tree is read -/

def FileTree.rows (tree : FileTree) : List Row := ((tree.files.insertionSort PathLe).map memberOf).map rowOf

/-- A member of an archive that was written from a tree. -/
theorem safe_member {file : TreeFile} (hnamed : file.path ≠ [] ∧ ∀ s ∈ file.path, IsPart s) {seen : List Str}
    (hfresh : posix file.path ∉ seen) : unsafeMember seen (memberOf file) = false := by
  obtain ⟨hne, hparts⟩ := hnamed
  have hsplit := splitOnP_posix (fun s hs => (hparts s hs).plain) hne
  have hparent : u ".." ∉ pathParts (posix file.path) := by
    unfold pathParts
    rw [hsplit]
    intro hmem
    exact (hparts _ (List.mem_filter.mp hmem).1).parent rfl
  obtain ⟨part, rest, hpath⟩ := List.exists_cons_of_ne_nil hne
  have hpart := hparts part (hpath ▸ List.mem_cons_self)
  obtain ⟨c, cs, hchars⟩ := List.exists_cons_of_ne_nil hpart.nonempty
  have hjoined : posix file.path = c :: (cs ++ rest.flatMap fun p => ch '/' :: p) := by
    rw [hpath, posix, hchars, List.cons_append]
  have hslash : c ≠ ch '/' := by
    rintro rfl
    exact hpart.plain (hchars ▸ List.mem_cons_self)
  have hroot : (posix file.path).head? ≠ some (ch '/') := by
    rw [hjoined, List.head?_cons]
    exact fun h => hslash (Option.some.inj h)
  have hname : posix file.path ≠ [] := by
    rw [hjoined]
    exact List.cons_ne_nil _ _
  simp [unsafeMember, memberOf, hroot, hname, hparent, hfresh]

theorem bundleRows_files {files : List TreeFile} {seen : List Str}
    (hnamed : ∀ file ∈ files, file.path ≠ [] ∧ ∀ s ∈ file.path, IsPart s)
    (hdistinct : (files.map TreeFile.path).Nodup) (hfresh : ∀ file ∈ files, posix file.path ∉ seen) :
    bundleRows seen (files.map memberOf) = .ok ((files.map memberOf).map rowOf) := by
  induction files generalizing seen with
  | nil => rfl
  | cons file files ih =>
    obtain ⟨hfile, hfiles⟩ := List.forall_mem_cons.mp hnamed
    rw [List.map_cons, List.nodup_cons] at hdistinct
    have hrest : ∀ other ∈ files, posix other.path ∉ (memberOf file).name :: seen := by
      intro other hother hmem
      obtain hsame | hmem := List.mem_cons.mp hmem
      · have hpath := posix_injective (hfiles other hother).2 hfile.2 (hfiles other hother).1 hfile.1 hsame
        exact hdistinct.1 (hpath ▸ List.mem_map_of_mem hother)
      · exact hfresh other (List.mem_cons_of_mem _ hother) hmem
    have hread := ih hfiles hdistinct.2 hrest
    have hkind : (memberOf file).kind ≠ .dir := nofun
    have hsize : ¬(memberOf file).content.length ≠ (memberOf file).size := not_not.mpr rfl
    rw [List.map_cons, bundleRows, safe_member hfile (hfresh file List.mem_cons_self), if_neg Bool.false_ne_true,
      if_neg hkind, if_neg hsize, hread]
    rfl

namespace FileTree

variable (tree : FileTree)

theorem mem_sorted {file : TreeFile} : file ∈ tree.files.insertionSort PathLe ↔ file ∈ tree.files :=
  List.mem_insertionSort _

theorem sorted_nodup : ((tree.files.insertionSort PathLe).map TreeFile.path).Nodup :=
  ((List.perm_insertionSort _ _).map _).nodup_iff.mpr tree.distinct

theorem read_rows : bundleRows [] ((tree.files.insertionSort PathLe).map memberOf) = .ok tree.rows := by
  apply bundleRows_files
  · intro file hfile
    obtain ⟨hne, hparts⟩ := tree.named file (tree.mem_sorted.mp hfile)
    exact ⟨hne, fun s hs => (hparts s hs).1⟩
  · exact tree.sorted_nodup
  · exact fun _ _ h => nomatch h

theorem rows_nonempty : tree.rows.isEmpty = false := by
  rw [Bool.eq_false_iff, ne_eq, List.isEmpty_iff, rows, List.map_eq_nil_iff, List.map_eq_nil_iff]
  intro h
  have hlength := List.length_insertionSort PathLe tree.files
  rw [h] at hlength
  exact tree.nonempty (List.length_eq_zero_iff.mp hlength.symm)

/-- The inventory in the order of the writer and in the order of the reader. -/
def written : Bytes := inventory tree.rows

def read : Bytes := inventory (tree.rows.insertionSort RowLe)

end FileTree

/-- The reader accepts the archive of the tree with the metadata of the writer, and finds it in every
descriptor that has it. -/
def Agrees (tar : TarFormat) (tree : FileTree) : Prop :=
  ∃ members metadata, bundleTree tar tree.files = .ok (members, metadata) ∧
    dependencyBundleMetadata (tar.size members) members = .ok metadata ∧
    ∀ descriptor : Dict, (Dict.keys descriptor).all (fun key => !(metadata.items.any fun kv => kv.1 = key)) = true →
      describes (descriptor ++ metadata.items) metadata = true

theorem describes_items (descriptor : Dict) (metadata : BundleMetadata)
    (h : (Dict.keys descriptor).all (fun key => !(metadata.items.any fun kv => kv.1 = key)) = true) :
    describes (descriptor ++ metadata.items) metadata = true := by
  have hkeys : ∀ kv ∈ metadata.items, descriptor.find? (fun entry => decide (entry.1 = kv.1)) = none := by
    intro kv hkv
    rw [List.find?_eq_none]
    intro entry hentry hsame
    have hfree := List.all_eq_true.mp h entry.1 (List.mem_map_of_mem hentry)
    rw [Bool.not_eq_true', Bool.eq_false_iff] at hfree
    exact hfree (List.any_eq_true.mpr ⟨kv, hkv, decide_eq_true (of_decide_eq_true hsame).symm⟩)
  rw [describes, List.all_eq_true]
  intro kv hkv
  have hlookup : Dict.lookup (descriptor ++ metadata.items) kv.1 = some kv.2 := by
    rw [Dict.lookup, List.find?_append, hkeys kv hkv, Option.none_or]
    have hnodup : (Dict.keys metadata.items).Nodup := by
      change (["bundle_size", "file_count", "content_digest"].map u).Nodup
      exact List.Nodup.map (fun _ _ hsame => u_inj.mp hsame) (by decide)
    exact Dict.lookup_of_mem hnodup hkv
  rw [hlookup, Option.getD_some]
  simp only [BundleMetadata.items, List.mem_cons, List.not_mem_nil, or_false] at hkv
  obtain rfl | rfl | rfl := hkv
  · simp [Json.pyEq, Json.sameNumber, Json.number]
  · simp [Json.pyEq, Json.sameNumber, Json.number]
  · exact Json.pyEq_str.mpr rfl

/-- The two sides agree exactly when the two inventories have one digest. -/
theorem agrees_iff_digest (tar : TarFormat) (tree : FileTree) :
    Agrees tar tree ↔ digestBytes tree.written = digestBytes tree.read := by
  have hwritten : bundleTree tar tree.files =
      .ok ((tree.files.insertionSort PathLe).map memberOf,
        ⟨tar.size ((tree.files.insertionSort PathLe).map memberOf), tree.rows.length, digestBytes tree.written⟩) :=
    if_neg (Bool.eq_false_iff.mp tree.rows_nonempty)
  have hread : dependencyBundleMetadata (tar.size ((tree.files.insertionSort PathLe).map memberOf))
      ((tree.files.insertionSort PathLe).map memberOf) =
      .ok ⟨tar.size ((tree.files.insertionSort PathLe).map memberOf), tree.rows.length, digestBytes tree.read⟩ := by
    rw [dependencyBundleMetadata, if_neg (Nat.ne_of_gt (tar.positive _)), tree.read_rows]
    exact if_neg (Bool.eq_false_iff.mp tree.rows_nonempty)
  constructor
  · rintro ⟨members, metadata, hw, hr, -⟩
    rw [hwritten, Except.ok.injEq, Prod.mk.injEq] at hw
    obtain ⟨rfl, rfl⟩ := hw
    rw [hread] at hr
    simp only [Except.ok.injEq, BundleMetadata.mk.injEq, true_and] at hr
    exact hr.symm
  · intro h
    exact ⟨_, _, hwritten, by rw [hread, h], fun descriptor => describes_items descriptor _⟩

/-! ## The two orders -/

/-- A file lies below a directory, and the sibling of the directory extends its name below the slash. -/
def HasCrossing (tree : FileTree) : Prop :=
  ∃ file ∈ tree.files, ∃ other ∈ tree.files, Crossed file.path other.path

theorem crossed_le {p q : List Str} (h : Crossed p q) : partsLe p q = true ∧ p ≠ q := by
  obtain ⟨above, dir, c, r, below, rest, rfl, -, rfl, -⟩ := h
  have hne : dir ≠ dir ++ c :: r := by
    intro hsame
    have hlength := congrArg List.length hsame
    rw [List.length_append, List.length_cons] at hlength
    omega
  constructor
  · induction above with
    | nil =>
      rw [List.nil_append, List.nil_append, partsLe, if_neg hne]
      exact strLe_prefix dir (c :: r)
    | cons part above ih =>
      rw [List.cons_append, List.cons_append, partsLe, if_pos rfl]
      exact ih
  · intro hsame
    exact hne (List.cons.inj (List.append_cancel_left hsame)).1

namespace FileTree

variable {tree : FileTree}

theorem parts {file : TreeFile} (hfile : file ∈ tree.files) : ∀ s ∈ file.path, IsPart s :=
  fun s hs => ((tree.named file hfile).2 s hs).1

/-- The rows are in the reader's order exactly when no file is crossed. -/
theorem pairwise_rows : tree.rows.Pairwise RowLe ↔ ¬HasCrossing tree := by
  have hsorted : (tree.files.insertionSort PathLe).Pairwise PathLe := List.pairwise_insertionSort _ _
  unfold rows
  rw [List.map_map, List.pairwise_map]
  constructor
  · rintro hrows ⟨file, hfile, other, hother, hcrossed⟩
    obtain ⟨hle, hne⟩ := crossed_le hcrossed
    have hdistinct : file ≠ other := fun h => hne (congrArg TreeFile.path h)
    -- two different files of the sorted list are in the order of their paths, and so are their rows
    have hpair : (tree.files.insertionSort PathLe).Pairwise fun a b =>
        (PathLe a b → a.path ≠ b.path → RowLe (rowOf (memberOf a)) (rowOf (memberOf b))) ∧
          (PathLe b a → b.path ≠ a.path → RowLe (rowOf (memberOf b)) (rowOf (memberOf a))) := by
      refine (hrows.and hsorted).imp fun {a b} h => ⟨fun _ _ => h.1, fun hba hother => ?_⟩
      exact absurd (partsLe_antisymm hba h.2) hother
    have hsymm : Std.Symm fun a b : TreeFile =>
        (PathLe a b → a.path ≠ b.path → RowLe (rowOf (memberOf a)) (rowOf (memberOf b))) ∧
          (PathLe b a → b.path ≠ a.path → RowLe (rowOf (memberOf b)) (rowOf (memberOf a))) :=
      ⟨fun _ _ h => ⟨h.2, h.1⟩⟩
    have hrow := (hpair.forall (tree.mem_sorted.mpr hfile) (tree.mem_sorted.mpr hother) hdistinct).1 hle hne
    exact (strLe_posix (parts hother) hle).mp hrow hcrossed
  · intro hnone
    refine hsorted.imp_of_mem fun {file other} hfile hother hle => ?_
    apply (strLe_posix (parts (tree.mem_sorted.mp hother)) hle).mpr
    exact fun hcrossed => hnone ⟨file, tree.mem_sorted.mp hfile, other, tree.mem_sorted.mp hother, hcrossed⟩

end FileTree

/-! ## The text of an inventory -/

theorem escapable_of_scalars {s : Str} (h : ∀ c ∈ s, isSurrogate c = false) (st : Style) : Escapable st s := by
  intro _
  induction s with
  | nil => exact List.isChain_nil
  | cons a s ih =>
    have htail := ih fun c hc => h c (List.mem_cons_of_mem _ hc)
    cases s with
    | nil => exact List.isChain_singleton _
    | cons b s =>
      refine List.isChain_cons_cons.mpr ⟨fun hpair => ?_, htail⟩
      have ha := h a List.mem_cons_self
      have hhigh := hpair.1
      simp only [isSurrogate, Bool.and_eq_false_iff, decide_eq_false_iff_not] at ha
      simp only [isHighSurrogate, Bool.and_eq_true, decide_eq_true_eq] at hhigh
      omega

/-- A quoted text can be told from what follows it. -/
theorem quote_cancel {st : Style} {s t rest rest' : Str} (hs : Escapable st s) (ht : Escapable st t)
    (h : quote st s ++ rest = quote st t ++ rest') : s = t ∧ rest = rest' := by
  have htail : (quote st s).tail ++ rest = (quote st t).tail ++ rest' := by
    rw [quote, quote, List.cons_append, List.cons_append] at h
    exact (List.cons.inj h).2
  have hread := scanString_quote hs ((quote st s ++ rest).length) rest le_rfl
  rw [htail, h, scanString_quote ht _ rest' le_rfl, Except.ok.injEq, Prod.mk.injEq] at hread
  exact ⟨hread.1.symm, hread.2.symm⟩

/-- A row as it is written, after its path. -/
def rowTail (row : Row) : Str :=
  renderFields asciiStyle 2 [(u "sha256", .str row.sha256), (u "size", .int row.size)] ++ [ch '\x7d']

def rowText (row : Row) : Str :=
  ch '\x7b' :: (quote asciiStyle (u "path") ++ (ch ':' :: (quote asciiStyle row.path ++ rowTail row)))

theorem render_row (row : Row) : render asciiStyle 1 (Json.sortKeys row.json) = rowText row := by
  have hsorted : Json.sortKeys row.json =
      .obj [(u "path", .str row.path), (u "sha256", .str row.sha256), (u "size", .int row.size)] := by
    rw [Row.json, Json.sortKeys, Json.sortFields_eq]
    rfl
  rw [hsorted, render, render]
  simp [rowText, rowTail, Style.newline, Style.keySep, asciiStyle]

def rowsText (rows : List Row) : Str := rows.flatMap fun row => ch ',' :: rowText row

theorem renderItems_rows (rows : List Row) :
    renderItems asciiStyle 1 (Json.sortItems (rows.map Row.json)) = rowsText rows := by
  rw [Json.sortItems_eq, List.map_map]
  induction rows with
  | nil => rfl
  | cons row rows ih =>
    rw [List.map_cons, renderItems, ih, Function.comp_apply, render_row]
    rfl

theorem dumps_rows (rows : List Row) (hne : rows ≠ []) :
    ch ',' :: (dumps asciiStyle (.arr (rows.map Row.json))).tail = rowsText rows ++ [ch ']'] := by
  obtain ⟨row, rest, rfl⟩ := List.exists_cons_of_ne_nil hne
  have harrange : asciiStyle.arrange (.arr ((row :: rest).map Row.json)) =
      .arr (Json.sortKeys row.json :: Json.sortItems (rest.map Row.json)) := by
    rw [Style.arrange, List.map_cons]
    rfl
  rw [dumps, harrange, render, render_row, renderItems_rows]
  simp [rowsText, Style.newline, asciiStyle]

/-- Inventories with one text list one path after the other alike. -/
theorem rowsText_cancel {rows rows' : List Row} {rest rest' : Str} (hlength : rows.length = rows'.length)
    (hpath : ∀ row ∈ rows, ∀ c ∈ row.path, isSurrogate c = false)
    (hpath' : ∀ row ∈ rows', ∀ c ∈ row.path, isSurrogate c = false)
    (hsame : ∀ row ∈ rows, ∀ row' ∈ rows', row.path = row'.path → row = row')
    (h : rowsText rows ++ rest = rowsText rows' ++ rest') : rows = rows' := by
  induction rows generalizing rows' with
  | nil => exact (List.length_eq_zero_iff.mp hlength.symm).symm
  | cons row rows ih =>
    cases rows' with
    | nil => cases hlength
    | cons row' rows' =>
      simp only [rowsText, rowText, List.flatMap_cons, List.cons_append, List.append_assoc, List.cons.injEq,
        true_and] at h
      have hquoted := (List.cons.inj (List.append_cancel_left h)).2
      have hrow := hpath row List.mem_cons_self
      have hrow' := hpath' row' List.mem_cons_self
      obtain ⟨hname, htail⟩ := quote_cancel (escapable_of_scalars hrow _) (escapable_of_scalars hrow' _) hquoted
      obtain rfl := hsame row List.mem_cons_self row' List.mem_cons_self hname
      have hrest := ih (Nat.succ.inj hlength) (fun r hr => hpath r (List.mem_cons_of_mem _ hr))
        (fun r hr => hpath' r (List.mem_cons_of_mem _ hr))
        (fun r hr r' hr' => hsame r (List.mem_cons_of_mem _ hr) r' (List.mem_cons_of_mem _ hr'))
        (List.append_cancel_left htail)
      rw [hrest]

theorem inventory_text {rows rows' : List Row} (h : inventory rows = inventory rows') :
    dumps asciiStyle (.arr (rows.map Row.json)) = dumps asciiStyle (.arr (rows'.map Row.json)) := by
  have hst : asciiStyle.ensureAscii = true := rfl
  have hdecode : ∀ rows : List Row, decodeUtf8 (inventory rows) =
      .ok (dumps asciiStyle (.arr (rows.map Row.json)) ++ [ch '\n']) :=
    fun rows => decodeUtf8_ascii ((ascii_dumps hst _).append (by decide))
  have hboth := hdecode rows
  rw [h, hdecode rows', Except.ok.injEq] at hboth
  exact (List.append_cancel_right hboth).symm

namespace FileTree

variable {tree : FileTree}

theorem row_path {row : Row} (hrow : row ∈ tree.rows) : ∃ file ∈ tree.files, row = rowOf (memberOf file) := by
  obtain ⟨_, hmember, rfl⟩ := List.mem_map.mp hrow
  obtain ⟨file, hfile, rfl⟩ := List.mem_map.mp hmember
  exact ⟨file, tree.mem_sorted.mp hfile, rfl⟩

theorem row_scalars {row : Row} (hrow : row ∈ tree.rows) : ∀ c ∈ row.path, isSurrogate c = false := by
  obtain ⟨file, hfile, rfl⟩ := row_path hrow
  have hparts := (tree.named file hfile).2
  intro c hc
  change c ∈ posix file.path at hc
  cases hpath : file.path with
  | nil =>
    rw [hpath] at hc
    cases hc
  | cons part rest =>
    rw [hpath] at hc hparts
    obtain hc | hc := List.mem_append.mp hc
    · exact ((hparts part List.mem_cons_self).2 c hc).1
    · obtain ⟨s, hs, hc⟩ := List.mem_flatMap.mp hc
      obtain rfl | hc := List.mem_cons.mp hc
      · decide
      · exact ((hparts s (List.mem_cons_of_mem _ hs)).2 c hc).1

theorem row_unique {row row' : Row} (hrow : row ∈ tree.rows) (hrow' : row' ∈ tree.rows)
    (h : row.path = row'.path) : row = row' := by
  obtain ⟨file, hfile, rfl⟩ := row_path hrow
  obtain ⟨file', hfile', rfl⟩ := row_path hrow'
  have hpath := posix_injective (parts hfile) (parts hfile') (tree.named file hfile).1 (tree.named file' hfile').1 h
  rw [tree.leaves file hfile file' hfile' (hpath ▸ List.prefix_rfl)]

/-- The two inventories have one text exactly when no file is crossed. -/
theorem written_eq_read : tree.written = tree.read ↔ ¬HasCrossing tree := by
  rw [← pairwise_rows]
  constructor
  · intro h
    have htext := congrArg (fun s => ch ',' :: s.tail) (inventory_text h)
    have hne : tree.rows ≠ [] := by
      intro hnil
      have hempty := tree.rows_nonempty
      rw [hnil] at hempty
      cases hempty
    have hne' : tree.rows.insertionSort RowLe ≠ [] := by
      intro hnil
      apply hne
      rw [← List.length_eq_zero_iff, ← List.length_insertionSort RowLe, hnil]
      rfl
    rw [dumps_rows _ hne, dumps_rows _ hne'] at htext
    have hmem : ∀ {row}, row ∈ tree.rows.insertionSort RowLe → row ∈ tree.rows := (List.mem_insertionSort _).mp
    have hrows := rowsText_cancel (List.length_insertionSort _ _).symm (fun row hrow => row_scalars hrow)
      (fun row hrow => row_scalars (hmem hrow)) (fun row hrow row' hrow' => row_unique hrow (hmem hrow')) htext
    rw [hrows]
    exact List.pairwise_insertionSort _ _
  · intro h
    rw [written, read, h.insertionSort_eq]

end FileTree

/-- Two different inventories of the tree with one SHA-256. -/
def Collides (tree : FileTree) : Prop := tree.written ≠ tree.read ∧ sha256Hex tree.written = sha256Hex tree.read

/-- The reader accepts the bundle with the metadata of its writer exactly when no file of the tree is
crossed, short of a collision of SHA-256. -/
theorem bundle_agrees_iff (tar : TarFormat) (tree : FileTree) :
    Agrees tar tree ↔ ¬HasCrossing tree ∨ Collides tree := by
  have hdigest : digestBytes tree.written = digestBytes tree.read ↔ sha256Hex tree.written = sha256Hex tree.read :=
    ⟨fun h => List.append_cancel_left h, fun h => congrArg (u "sha256:" ++ ·) h⟩
  rw [agrees_iff_digest, hdigest, ← FileTree.written_eq_read, Collides]
  constructor
  · intro h
    by_cases hsame : tree.written = tree.read
    · exact .inl hsame
    · exact .inr ⟨hsame, h⟩
  · rintro (h | ⟨-, h⟩)
    · rw [h]
    · exact h

/-- A directory `a` with a file and a sibling `a-b`. -/
def siblingTree : FileTree where
  files := [⟨[u "a", u "x"], []⟩, ⟨[u "a-b"], []⟩]
  nonempty := List.cons_ne_nil _ _
  named := by
    have hnames : ["a", "x", "a-b"].all (fun s => decide (IsPart (u s)) &&
        (u s).all fun c => !isSurrogate c && decide (c.val ≠ 0)) = true := by decide
    have hname : ∀ s ∈ ["a", "x", "a-b"], IsPart (u s) ∧ ∀ c ∈ u s, isSurrogate c = false ∧ c.val ≠ 0 := by
      intro s hs
      obtain ⟨hpart, hchars⟩ := Bool.and_eq_true_iff.mp (List.all_eq_true.mp hnames s hs)
      refine ⟨of_decide_eq_true hpart, fun c hc => ?_⟩
      simpa using List.all_eq_true.mp hchars c hc
    intro file hfile
    simp only [List.mem_cons, List.not_mem_nil, or_false] at hfile
    obtain rfl | rfl := hfile
    · refine ⟨List.cons_ne_nil _ _, List.forall_mem_cons.mpr ⟨hname "a" (by simp), ?_⟩⟩
      exact List.forall_mem_cons.mpr ⟨hname "x" (by simp), fun _ h => nomatch h⟩
    · exact ⟨List.cons_ne_nil _ _, List.forall_mem_cons.mpr ⟨hname "a-b" (by simp), fun _ h => nomatch h⟩⟩
  distinct := by decide
  leaves := by decide

def blockTar : TarFormat := ⟨fun _ => 10240, fun _ => by decide⟩

theorem sibling_disagrees : ¬Agrees blockTar siblingTree := by
  rw [agrees_iff_digest]
  decide +kernel

end McpTrust.Refresh
