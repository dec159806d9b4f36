import McpTrust.Refresh.Bundle
import McpTrust.Python.Sha1
import McpTrust.Python.JsonLine

/-! # Normalised npm caches

`_normalize_npm_cache` rewrites the index logs of a cache so that a bundle of it can be
made again from another download. A normalised log is a function of the last entries.
-/

namespace McpTrust.Refresh

set_option autoImplicit false

open Python McpTrust.Receipt

/-! ## Entries -/

/-- What is kept of an entry. -/
structure IndexEntry where
  key : Str
  integrity : Str
  size : ℤ
  url : Str
  deriving DecidableEq

def requestCache : String := "make-fetch-happen:request-cache:https://registry.npmjs.org/"

def npmRegistry : String := "https://registry.npmjs.org/"

def invalidEntry : PyErr := preparationError "npm cache index entry is invalid"

def escapingEntry : PyErr := preparationError "npm cache index entry escapes the registry policy"

/-- `except (KeyError, TypeError, ValueError, json.JSONDecodeError)`. -/
def isEntryError (e : PyErr) : Bool := e.isValueError || decide (e = .keyError) || decide (e = .typeError)

/-- `entry[name]`. -/
def subscript (entry : Json) (name : String) : Except PyErr Json :=
  match entry with
  | .obj fields =>
    match Dict.lookup fields (u name) with
    | some v => .ok v
    | none => .error .keyError
  | _ => .error .typeError

/-- `_, raw = line.split("\t", 1)`. -/
def splitTab (line : Str) : Except PyErr Str :=
  match line.dropWhile fun c => decide (c ≠ ch '\t') with
  | [] => .error .valueError
  | _ :: raw => .ok raw

/-- The parts of a line that may be missing: the entry, its key, its integrity and its size. -/
def entryParts (interp : Interpreter) (line : Str) : Except PyErr (Json × Json × Json × Json) := do
  let raw ← splitTab line
  let entry ← jsonLoads interp raw
  let key ← subscript entry "key"
  let integrity ← subscript entry "integrity"
  let size ← subscript entry "size"
  .ok (entry, key, integrity, size)

/-- `metadata.get("url")` of an entry whose metadata is a dictionary. -/
def metadataUrl (entry : Json) : Json :=
  match entry with
  | .obj fields =>
    match Dict.get fields "metadata" with
    | .obj metadata => Dict.get metadata "url"
    | _ => .null
  | _ => .null

def withinPolicy (entry : IndexEntry) : Bool :=
  (u requestCache).isPrefixOf entry.key && (u "sha512-").isPrefixOf entry.integrity && decide (0 < entry.size) &&
    (u npmRegistry).isPrefixOf entry.url

def checkedEntry (key integrity size url : Json) : Except PyErr IndexEntry :=
  match key, integrity, size, url with
  | .str key, .str integrity, .int size, .str url =>
    if withinPolicy ⟨key, integrity, size, url⟩ then .ok ⟨key, integrity, size, url⟩ else .error escapingEntry
  | _, _, _, _ => .error escapingEntry

def readEntry (interp : Interpreter) (line : Str) : Except PyErr IndexEntry := do
  let parts ← catching (entryParts interp line) isEntryError (.error invalidEntry)
  checkedEntry parts.2.1 parts.2.2.1 parts.2.2.2 (metadataUrl parts.1)

/-- `normalized[key] = entry`. -/
def setEntry (normalized : List IndexEntry) (entry : IndexEntry) : List IndexEntry :=
  if normalized.any fun other => decide (other.key = entry.key) then
    normalized.map fun other => if other.key = entry.key then entry else other
  else normalized ++ [entry]

/-- The loop over the lines of a log. -/
def readEntries (interp : Interpreter) (normalized : List IndexEntry) : List Str → Except PyErr (List IndexEntry)
  | [] => .ok normalized
  | line :: rest =>
    if line = [] then readEntries interp normalized rest
    else do
      let entry ← readEntry interp line
      readEntries interp (setEntry normalized entry) rest

/-! ## Writing -/

def EntryLe (a b : IndexEntry) : Prop := strLe a.key b.key = true

instance : DecidableRel EntryLe := fun a b => inferInstanceAs (Decidable (strLe a.key b.key = true))

instance : Std.Total EntryLe := ⟨fun a b => strLe_total a.key b.key⟩

instance : IsTrans IndexEntry EntryLe := ⟨fun _ _ _ => strLe_trans⟩

def recordOf (milliseconds : ℤ) (entry : IndexEntry) : Json :=
  .obj
    [(u "key", .str entry.key), (u "integrity", .str entry.integrity), (u "time", .int milliseconds),
      (u "size", .int entry.size),
      (u "metadata", .obj
        [(u "time", .int milliseconds), (u "url", .str entry.url), (u "reqHeaders", .obj []),
          (u "resHeaders", .obj [(u "content-type", .str (u "application/octet-stream"))]),
          (u "options", .obj [(u "compress", .bool true)])])]

/-- `checksum + b"\t" + raw`. -/
def entryLine (milliseconds : ℤ) (entry : IndexEntry) : Str :=
  let raw := dumps asciiStyle (recordOf milliseconds entry)
  sha1Hex (raw.flatMap encodeCodePoint) ++ ch '\t' :: raw

def logText (milliseconds : ℤ) (entries : List IndexEntry) : Str :=
  (entries.map (entryLine milliseconds)).flatMap fun line => ch '\n' :: line

/-- One index file. Its lines are the same before and after the translation of newlines, and `json.dumps`
converts no integer of more than 4300 digits. -/
def normalizeIndex (interp : Interpreter) (milliseconds : ℤ) (content : Bytes) : Except PyErr Bytes := do
  let text ← catching (decodeUtf8 content) (fun e => decide (e = .unicodeError))
    (.error (preparationError "npm cache index is unreadable"))
  let normalized ← readEntries interp [] (splitLines text)
  if normalized = [] then .error (preparationError "npm cache index file has no entries")
  else if 4300 < (intRepr milliseconds).length then .error .valueError
  else .ok ((logText milliseconds (normalized.insertionSort EntryLe)).flatMap encodeCodePoint)

/-- The regular files below the cache, and whether `index-v5` is a directory. -/
structure NpmCache where
  files : List TreeFile
  indexed : Bool
  distinct : (files.map TreeFile.path).Nodup

def isIndexFile (file : TreeFile) : Bool := decide (file.path.head? = some (u "index-v5"))

/-- The bytes of a file afterwards; the files below `index-v5` are written again. -/
def normalizedContent (interp : Interpreter) (milliseconds : ℤ) (file : TreeFile) : Except PyErr Bytes :=
  if isIndexFile file then normalizeIndex interp milliseconds file.content else .ok file.content

/-- The loop over the files. -/
def normalizeFiles (interp : Interpreter) (milliseconds : ℤ) : List TreeFile → Except PyErr (List TreeFile)
  | [] => .ok []
  | file :: rest => do
    let content ← normalizedContent interp milliseconds file
    let files ← normalizeFiles interp milliseconds rest
    .ok (⟨file.path, content⟩ :: files)

/-- `_normalize_npm_cache(cache, source_date_epoch=…)`: the files of the tree afterwards, in their order. -/
def normalizeNpmCache (interp : Interpreter) (cache : NpmCache) (sourceDateEpoch : Nat) :
    Except PyErr (List TreeFile) :=
  if !cache.indexed then .error (preparationError "npm cache index is absent")
  else normalizeFiles interp (sourceDateEpoch * 1000) (cache.files.insertionSort PathLe)

/-! ## The last entries of a log -/

/-- The entries of a log, one for each line that is not empty. -/
def logEntries (interp : Interpreter) : List Str → Except PyErr (List IndexEntry)
  | [] => .ok []
  | line :: rest =>
    if line = [] then logEntries interp rest
    else do
      let entry ← readEntry interp line
      let entries ← logEntries interp rest
      .ok (entry :: entries)

/-- The log in a file. -/
def indexLog (interp : Interpreter) (content : Bytes) : Except PyErr (List IndexEntry) := do
  let text ← decodeUtf8 content
  logEntries interp (splitLines text)

def entryAt (entries : List IndexEntry) (key : Str) : Option IndexEntry :=
  entries.find? fun entry => decide (entry.key = key)

/-- The last entry of a key. -/
def lastEntry (log : List IndexEntry) (key : Str) : Option IndexEntry := entryAt log.reverse key

theorem readEntries_eq (interp : Interpreter) (lines : List Str) (normalized : List IndexEntry) :
    readEntries interp normalized lines = (logEntries interp lines).map fun log => log.foldl setEntry normalized := by
  induction lines generalizing normalized with
  | nil => rfl
  | cons line rest ih =>
    rw [readEntries, logEntries]
    split_ifs with hempty
    · exact ih normalized
    · cases hentry : readEntry interp line with
      | error e => rfl
      | ok entry =>
        change readEntries interp (setEntry normalized entry) rest = _
        rw [ih]
        cases logEntries interp rest <;> rfl

theorem entryAt_cons (entry : IndexEntry) (rest : List IndexEntry) (key : Str) :
    entryAt (entry :: rest) key = if entry.key = key then some entry else entryAt rest key := by
  rw [entryAt, List.find?_cons]
  by_cases h : entry.key = key
  · simp [h]
  · simp [h, entryAt]

theorem keys_setEntry (normalized : List IndexEntry) (entry : IndexEntry) :
    (setEntry normalized entry).map IndexEntry.key =
      if entry.key ∈ normalized.map IndexEntry.key then normalized.map IndexEntry.key
      else normalized.map IndexEntry.key ++ [entry.key] := by
  have hin : (normalized.any fun other => decide (other.key = entry.key)) = true ↔
      entry.key ∈ normalized.map IndexEntry.key := by
    simp only [List.any_eq_true, decide_eq_true_eq, List.mem_map]
  unfold setEntry
  by_cases h : entry.key ∈ normalized.map IndexEntry.key
  · rw [if_pos (hin.mpr h), if_pos h, List.map_map]
    apply List.map_congr_left
    intro other _
    rw [Function.comp_apply]
    split_ifs with hsame
    · exact hsame.symm
    · rfl
  · rw [if_neg (fun hany => h (hin.mp hany)), if_neg h, List.map_append]
    rfl

theorem nodup_setEntry {normalized : List IndexEntry} (h : (normalized.map IndexEntry.key).Nodup) (entry : IndexEntry) :
    ((setEntry normalized entry).map IndexEntry.key).Nodup := by
  rw [keys_setEntry]
  split_ifs with hin
  · exact h
  · exact List.nodup_append.mpr ⟨h, List.nodup_singleton _, fun a ha b hb hab =>
      hin (by rw [List.mem_singleton] at hb; rw [← hb, ← hab]; exact ha)⟩

theorem mem_setEntry {normalized : List IndexEntry} {entry other : IndexEntry} :
    other ∈ setEntry normalized entry ↔ other = entry ∨ other ∈ normalized ∧ other.key ≠ entry.key := by
  unfold setEntry
  split_ifs with hin
  · obtain ⟨present, hpresent, hkey⟩ := List.any_eq_true.mp hin
    rw [List.mem_map]
    constructor
    · rintro ⟨old, hold, rfl⟩
      split_ifs with hsame
      · exact .inl rfl
      · exact .inr ⟨hold, hsame⟩
    · rintro (rfl | ⟨hother, hne⟩)
      · exact ⟨present, hpresent, if_pos (of_decide_eq_true hkey)⟩
      · exact ⟨other, hother, if_neg hne⟩
  · rw [List.mem_append, List.mem_singleton]
    constructor
    · rintro (hother | rfl)
      · refine .inr ⟨hother, fun hsame => hin ?_⟩
        exact List.any_eq_true.mpr ⟨other, hother, decide_eq_true hsame⟩
      · exact .inl rfl
    · rintro (rfl | ⟨hother, -⟩)
      · exact .inr rfl
      · exact .inl hother

theorem key_of_entryAt {entries : List IndexEntry} {entry : IndexEntry} {key : Str} (h : entryAt entries key = some entry) :
    entry.key = key := by
  unfold entryAt at h
  simpa using List.find?_some h

theorem entryAt_eq_some {entries : List IndexEntry} (hnodup : (entries.map IndexEntry.key).Nodup) {entry : IndexEntry}
    {key : Str} : entryAt entries key = some entry ↔ entry ∈ entries ∧ entry.key = key := by
  induction entries with
  | nil => simp [entryAt]
  | cons first rest ih =>
    rw [List.map_cons, List.nodup_cons] at hnodup
    rw [entryAt_cons, List.mem_cons]
    split_ifs with hfirst
    · rw [Option.some.injEq]
      constructor
      · rintro rfl
        exact ⟨.inl rfl, hfirst⟩
      · rintro ⟨rfl | hmem, hkey⟩
        · rfl
        · exact absurd (List.mem_map.mpr ⟨entry, hmem, hkey.trans hfirst.symm⟩) hnodup.1
    · rw [ih hnodup.2]
      constructor
      · rintro ⟨hmem, hkey⟩
        exact ⟨.inr hmem, hkey⟩
      · rintro ⟨rfl | hmem, hkey⟩
        · exact absurd hkey hfirst
        · exact ⟨hmem, hkey⟩

/-- After the loop there is one entry for each key, the last one of the log. -/
theorem normalized_spec (log : List IndexEntry) :
    ((log.foldl setEntry []).map IndexEntry.key).Nodup ∧
      ∀ entry, entry ∈ log.foldl setEntry [] ↔ lastEntry log entry.key = some entry := by
  induction log using List.reverseRecOn with
  | nil => exact ⟨List.nodup_nil, fun entry => by simp [lastEntry, entryAt]⟩
  | append_singleton log last ih =>
    obtain ⟨hnodup, hmem⟩ := ih
    rw [List.foldl_append]
    refine ⟨nodup_setEntry hnodup last, fun entry => ?_⟩
    rw [List.foldl_cons, List.foldl_nil, mem_setEntry, lastEntry, List.reverse_append, List.reverse_singleton,
      List.singleton_append, entryAt_cons, hmem]
    split_ifs with hsame
    · rw [Option.some.injEq]
      constructor
      · rintro (rfl | ⟨-, hne⟩)
        · rfl
        · exact absurd hsame.symm hne
      · rintro rfl
        exact .inl rfl
    · constructor
      · rintro (rfl | ⟨hlast, -⟩)
        · exact absurd rfl hsame
        · exact hlast
      · exact fun hlast => .inr ⟨hlast, fun h => hsame h.symm⟩

theorem entryLe_antisymm {a b : IndexEntry} (hab : EntryLe a b) (hba : EntryLe b a) : a.key = b.key :=
  strLe_antisymm hab hba

theorem sorted_of_perm {entries others : List IndexEntry} (h : entries.Perm others)
    (hnodup : (entries.map IndexEntry.key).Nodup) :
    entries.insertionSort EntryLe = others.insertionSort EntryLe := by
  have hinjective : ∀ a ∈ entries, ∀ b ∈ entries, a.key = b.key → a = b := List.inj_on_of_nodup_map hnodup
  have hperm := ((List.perm_insertionSort EntryLe entries).trans h).trans (List.perm_insertionSort EntryLe others).symm
  refine List.Perm.eq_of_pairwise (fun a b ha hb hab hba => ?_) (List.pairwise_insertionSort EntryLe entries)
    (List.pairwise_insertionSort EntryLe others) hperm
  rw [List.mem_insertionSort] at ha hb
  exact hinjective a ha b (h.mem_iff.mpr hb) (entryLe_antisymm hab hba)

/-- The sorted entries are a function of the last entries. -/
theorem sorted_of_lastEntry {log log' : List IndexEntry} (h : ∀ key, lastEntry log key = lastEntry log' key) :
    (log.foldl setEntry []).insertionSort EntryLe = (log'.foldl setEntry []).insertionSort EntryLe := by
  obtain ⟨hnodup, hmem⟩ := normalized_spec log
  obtain ⟨hnodup', hmem'⟩ := normalized_spec log'
  refine sorted_of_perm ?_ hnodup
  refine (List.perm_ext_iff_of_nodup hnodup.of_map hnodup'.of_map).mpr fun entry => ?_
  rw [hmem, hmem', h]

/-! ## What an accepted line holds -/

/-- An entry that can be written and read again. -/
structure Kept (entry : IndexEntry) : Prop where
  policy : withinPolicy entry = true
  size : (intRepr entry.size).length ≤ 4300
  key : entry.key.IsChain NoPair
  integrity : entry.integrity.IsChain NoPair
  url : entry.url.IsChain NoPair

theorem subscript_mem {entry v : Json} {name : String} (h : subscript entry name = .ok v) : v ∈ entry.walk := by
  unfold subscript at h
  split at h
  · split at h
    · next hlookup =>
      cases h
      rw [Json.walk]
      exact List.mem_cons_of_mem _ (Json.mem_walkFields.mpr
        ⟨_, Dict.mem_of_lookup hlookup, .inr (Json.mem_walk_self _)⟩)
    · cases h
  · cases h

theorem metadataUrl_mem {entry : Json} {url : Str} (h : metadataUrl entry = .str url) : .str url ∈ entry.walk := by
  cases entry with
  | obj fields =>
    change (match Dict.get fields "metadata" with
      | .obj metadata => Dict.get metadata "url"
      | _ => .null) = _ at h
    cases hmetadata : Dict.get fields "metadata" with
    | obj metadata =>
      rw [hmetadata] at h
      have hurl : Dict.get metadata "url" = .str url := h
      have hinner : Dict.get metadata "url" ∈ (Json.obj metadata).walk := Json.get_mem_walk (by rw [hurl]; simp)
      have houter : Dict.get fields "metadata" ∈ (Json.obj fields).walk := Json.get_mem_walk (by rw [hmetadata]; simp)
      rw [hurl] at hinner
      rw [hmetadata] at houter
      exact Json.walk_trans houter hinner
    | _ =>
      rw [hmetadata] at h
      cases h
  | _ => cases h

theorem checkedEntry_eq_ok {key integrity size url : Json} {entry : IndexEntry} :
    checkedEntry key integrity size url = .ok entry ↔ key = .str entry.key ∧ integrity = .str entry.integrity ∧
      size = .int entry.size ∧ url = .str entry.url ∧ withinPolicy entry = true := by
  constructor
  · intro h
    unfold checkedEntry at h
    split at h
    · split_ifs at h with hpolicy
      cases h
      exact ⟨rfl, rfl, rfl, rfl, hpolicy⟩
    · cases h
  · rintro ⟨rfl, rfl, rfl, rfl, hpolicy⟩
    exact if_pos hpolicy

theorem splitTab_suffix {line raw : Str} (h : splitTab line = .ok raw) : raw <:+ line := by
  unfold splitTab at h
  split at h
  · cases h
  · next c tail hdrop =>
    cases h
    have hsuffix : c :: raw <:+ line := hdrop ▸ List.dropWhile_suffix _
    exact (List.suffix_cons c raw).trans hsuffix

theorem readEntry_kept {interp : Interpreter} {line : Str} {entry : IndexEntry} (hclean : Clean line)
    (h : readEntry interp line = .ok entry) : Kept entry := by
  obtain ⟨⟨value, key, integrity, size⟩, hparts, h⟩ := bind_eq_ok.mp h
  obtain ⟨raw, hraw, hparts⟩ := bind_eq_ok.mp (catching_eq_ok.mp hparts)
  obtain ⟨loaded, hload, hparts⟩ := bind_eq_ok.mp hparts
  obtain ⟨key', hkey, hparts⟩ := bind_eq_ok.mp hparts
  obtain ⟨integrity', hintegrity, hparts⟩ := bind_eq_ok.mp hparts
  obtain ⟨size', hsize, hparts⟩ := bind_eq_ok.mp hparts
  cases hparts
  have htexts := (loads_passed defaultHooks_retaining hload).2.2 (hclean.suffix (splitTab_suffix hraw))
  have hnodes := loads_nodes defaultHooks_ensures hload
  obtain ⟨rfl, rfl, rfl, hurl, hpolicy⟩ := checkedEntry_eq_ok.mp h
  have hpositive := hpolicy
  simp only [withinPolicy, Bool.and_eq_true, decide_eq_true_eq] at hpositive
  exact
    { policy := hpolicy
      size := hnodes _ (subscript_mem hsize) hpositive.1.2
      key := htexts _ (subscript_mem hkey)
      integrity := htexts _ (subscript_mem hintegrity)
      url := htexts _ (metadataUrl_mem hurl) }

theorem mem_splitLinesFrom {afterReturn : Bool} {before s line : Str} (h : line ∈ splitLinesFrom afterReturn before s)
    {c : CodePoint} (hc : c ∈ line) : c ∈ before ∨ c ∈ s := by
  induction s generalizing afterReturn before with
  | nil =>
    rw [splitLinesFrom] at h
    split_ifs at h with hempty
    · cases h
    · rw [List.mem_singleton.mp h, List.mem_reverse] at hc
      exact .inl hc
  | cons d s ih =>
    rw [splitLinesFrom] at h
    split_ifs at h with hreturn hend
    · exact (ih h).imp_right (List.mem_cons_of_mem _)
    · obtain rfl | h := List.mem_cons.mp h
      · exact .inl (List.mem_reverse.mp hc)
      · exact .inr (List.mem_cons_of_mem _ ((ih h).resolve_left List.not_mem_nil))
    · obtain hbefore | hs := ih h
      · obtain rfl | hbefore := List.mem_cons.mp hbefore
        · exact .inr List.mem_cons_self
        · exact .inl hbefore
      · exact .inr (List.mem_cons_of_mem _ hs)

theorem logEntries_kept {interp : Interpreter} {lines : List Str} (hclean : ∀ line ∈ lines, Clean line)
    {log : List IndexEntry} (h : logEntries interp lines = .ok log) : ∀ entry ∈ log, Kept entry := by
  induction lines generalizing log with
  | nil =>
    cases h
    exact fun _ hmem => absurd hmem List.not_mem_nil
  | cons line rest ih =>
    obtain ⟨hline, hrest⟩ := List.forall_mem_cons.mp hclean
    rw [logEntries] at h
    split_ifs at h with hempty
    · exact ih hrest h
    · obtain ⟨entry, hentry, h⟩ := bind_eq_ok.mp h
      obtain ⟨entries, hentries, h⟩ := bind_eq_ok.mp h
      cases h
      exact List.forall_mem_cons.mpr ⟨readEntry_kept hline hentry, ih hrest hentries⟩

theorem indexLog_kept {interp : Interpreter} {content : Bytes} {log : List IndexEntry}
    (h : indexLog interp content = .ok log) : ∀ entry ∈ log, Kept entry := by
  obtain ⟨text, htext, h⟩ := bind_eq_ok.mp h
  refine logEntries_kept (fun line hline c hc => ?_) h
  exact decodeUtf8_clean content text htext c ((mem_splitLinesFrom hline hc).resolve_left List.not_mem_nil)

/-! ## A normalised line is read as its entry -/

/-- A record with its keys in order. -/
def storedRecord (milliseconds : ℤ) (entry : IndexEntry) : Json :=
  .obj
    [(u "integrity", .str entry.integrity), (u "key", .str entry.key),
      (u "metadata", .obj
        [(u "options", .obj [(u "compress", .bool true)]), (u "reqHeaders", .obj []),
          (u "resHeaders", .obj [(u "content-type", .str (u "application/octet-stream"))]),
          (u "time", .int milliseconds), (u "url", .str entry.url)]),
      (u "size", .int entry.size), (u "time", .int milliseconds)]

theorem arrange_record (milliseconds : ℤ) (entry : IndexEntry) :
    asciiStyle.arrange (recordOf milliseconds entry) = storedRecord milliseconds entry := by
  rfl

theorem walk_record {milliseconds : ℤ} {entry : IndexEntry} {w : Json} (h : w ∈ (recordOf milliseconds entry).walk) :
    (∀ n, w = .int n → n = milliseconds ∨ n = entry.size) ∧ ∀ x, w ≠ .float x := by
  simp only [recordOf, Json.walk, Json.walkFields, List.mem_cons, List.mem_append, List.not_mem_nil, or_false,
    List.append_nil] at h
  constructor
  · rintro n rfl
    simpa [or_comm, or_left_comm] using h
  · rintro x rfl
    simp at h

theorem writable_metadata (milliseconds : ℤ) {url : Str} (hurl : url.IsChain NoPair) : Writable 2
    (.obj ([("time", .int milliseconds), ("url", .str url), ("reqHeaders", .obj []),
      ("resHeaders", .obj [(u "content-type", .str (u "application/octet-stream"))]),
      ("options", .obj [(u "compress", .bool true)])].map fun p : String × Json => (u p.1, p.2))) := by
  have hempty : Writable 1 (.obj []) := writable_obj List.nodup_nil fun kv hkv => absurd hkv List.not_mem_nil
  have hheaders : Writable 1 (.obj [(u "content-type", .str (u "application/octet-stream"))]) :=
    writable_obj (List.nodup_singleton _) fun kv hkv => by
      rw [List.mem_singleton.mp hkv]
      exact ⟨chain_u "content-type", writable_str (chain_u _) 0⟩
  have hoptions : Writable 1 (.obj [(u "compress", .bool true)]) :=
    writable_obj (List.nodup_singleton _) fun kv hkv => by
      rw [List.mem_singleton.mp hkv]
      exact ⟨chain_u "compress", writable_bool true 0⟩
  have hnames : ["time", "url", "reqHeaders", "resHeaders", "options"].Nodup := by decide
  refine writable_named hnames fun p hp => ?_
  simp only [List.mem_cons, List.not_mem_nil, or_false] at hp
  obtain rfl | rfl | rfl | rfl | rfl := hp
  · exact writable_int _ 1
  · exact writable_str hurl 1
  · exact hempty
  · exact hheaders
  · exact hoptions

theorem writable_record (milliseconds : ℤ) {entry : IndexEntry} (h : Kept entry) :
    Writable 64 (recordOf milliseconds entry) := by
  have hnames : ["key", "integrity", "time", "size", "metadata"].Nodup := by decide
  have hmetadata := writable_metadata milliseconds h.url
  have hrecord : Writable 3 (recordOf milliseconds entry) := by
    refine @writable_named
      [("key", .str entry.key), ("integrity", .str entry.integrity), ("time", .int milliseconds),
        ("size", .int entry.size), ("metadata", _)] 2 hnames fun p hp => ?_
    simp only [List.mem_cons, List.not_mem_nil, or_false] at hp
    obtain rfl | rfl | rfl | rfl | rfl := hp
    · exact writable_str h.key 2
    · exact writable_str h.integrity 2
    · exact writable_int _ 2
    · exact writable_int _ 2
    · exact hmetadata
  exact ⟨hrecord.shallow.trans (by decide), hrecord.unique, hrecord.floats, hrecord.texts⟩

theorem loads_record (interp : Interpreter) {milliseconds : ℤ} (hshort : (intRepr milliseconds).length ≤ 4300)
    {entry : IndexEntry} (h : Kept entry) :
    jsonLoads interp (dumps asciiStyle (recordOf milliseconds entry)) = .ok (storedRecord milliseconds entry) := by
  rw [← arrange_record]
  refine jsonLoads_dumps interp asciiStyle (writable_record milliseconds h) fun n hn => ?_
  obtain rfl | rfl := (walk_record hn).1 n rfl
  · exact hshort
  · exact h.size

theorem splitTab_line (milliseconds : ℤ) (entry : IndexEntry) :
    splitTab (entryLine milliseconds entry) = .ok (dumps asciiStyle (recordOf milliseconds entry)) := by
  have hsum : ∀ c ∈ sha1Hex ((dumps asciiStyle (recordOf milliseconds entry)).flatMap encodeCodePoint),
      decide (c ≠ ch '\t') = true := by
    intro c hc
    have hprinted := noControl_hexLower (sha1Hex_isHexLower _) c hc
    have htab : (ch '\t').val = 9 := rfl
    refine decide_eq_true fun h => ?_
    rw [h] at hprinted
    omega
  rw [splitTab, entryLine, List.dropWhile_append_of_pos hsum, List.dropWhile_cons_of_neg (by simp)]

theorem readEntry_line (interp : Interpreter) {milliseconds : ℤ} (hshort : (intRepr milliseconds).length ≤ 4300)
    {entry : IndexEntry} (h : Kept entry) : readEntry interp (entryLine milliseconds entry) = .ok entry := by
  have hparts : entryParts interp (entryLine milliseconds entry) =
      .ok (storedRecord milliseconds entry, .str entry.key, .str entry.integrity, .int entry.size) := by
    rw [entryParts, splitTab_line]
    change (jsonLoads interp (dumps asciiStyle (recordOf milliseconds entry)) >>= _) = _
    rw [loads_record interp hshort h]
    rfl
  rw [readEntry, hparts]
  exact checkedEntry_eq_ok.mpr ⟨rfl, rfl, rfl, rfl, h.policy⟩

theorem ascii_line (milliseconds : ℤ) (entry : IndexEntry) : Ascii (entryLine milliseconds entry) := by
  refine Ascii.append (fun c hc => ?_) (.cons (by decide) (ascii_dumps rfl _))
  have hhex := sha1Hex_isHexLower _ c hc
  simp only [isHexLower, isDigit, Bool.or_eq_true, Bool.and_eq_true, decide_eq_true_eq] at hhex
  omega

theorem oneLine_line (milliseconds : ℤ) (entry : IndexEntry) :
    OneLine (entryLine milliseconds entry) ∧ entryLine milliseconds entry ≠ [] := by
  constructor
  · refine oneLine_of_ascii (fun c hc => ?_) (ascii_line milliseconds entry)
    obtain hc | hc := List.mem_append.mp hc
    · exact .inl (noControl_hexLower (sha1Hex_isHexLower _) c hc)
    · obtain rfl | hc := List.mem_cons.mp hc
      · exact .inr rfl
      · refine .inl (noControl_render rfl 0 _ (fun x hx => ?_) c hc)
        obtain ⟨y, hy, hsame⟩ := Json.walk_sortKeys hx
        cases y with
        | float z => exact (walk_record hy).2 z rfl
        | _ => cases hsame
  · rw [entryLine]
    exact List.append_ne_nil_of_right_ne_nil _ (List.cons_ne_nil _ _)

theorem logEntries_lines (interp : Interpreter) {milliseconds : ℤ} (hshort : (intRepr milliseconds).length ≤ 4300)
    {entries : List IndexEntry} (h : ∀ entry ∈ entries, Kept entry) :
    logEntries interp (entries.map (entryLine milliseconds)) = .ok entries := by
  induction entries with
  | nil => rfl
  | cons entry rest ih =>
    obtain ⟨hentry, hrest⟩ := List.forall_mem_cons.mp h
    rw [List.map_cons, logEntries, if_neg (oneLine_line milliseconds entry).2, readEntry_line interp hshort hentry, ih hrest]
    rfl

theorem logText_lines (milliseconds : ℤ) {entries : List IndexEntry} (hne : entries ≠ []) :
    decodeUtf8 ((logText milliseconds entries).flatMap encodeCodePoint) = .ok (logText milliseconds entries) ∧
      splitLines (logText milliseconds entries) = [] :: entries.map (entryLine milliseconds) := by
  constructor
  · apply decodeUtf8_ascii
    intro c hc
    obtain ⟨line, hline, hc⟩ := List.mem_flatMap.mp hc
    obtain ⟨entry, -, rfl⟩ := List.mem_map.mp hline
    obtain rfl | hc := List.mem_cons.mp hc
    · decide
    · exact ascii_line milliseconds entry c hc
  · apply splitLines_log
    · intro line hline
      obtain ⟨entry, -, rfl⟩ := List.mem_map.mp hline
      exact oneLine_line milliseconds entry
    · simpa using hne

theorem indexLog_logText (interp : Interpreter) {milliseconds : ℤ} (hshort : (intRepr milliseconds).length ≤ 4300)
    {entries : List IndexEntry} (hne : entries ≠ []) (h : ∀ entry ∈ entries, Kept entry) :
    indexLog interp ((logText milliseconds entries).flatMap encodeCodePoint) = .ok entries := by
  obtain ⟨hdecoded, hlines⟩ := logText_lines milliseconds hne
  rw [indexLog, hdecoded]
  change logEntries interp (splitLines (logText milliseconds entries)) = _
  rw [hlines, logEntries, if_pos rfl]
  exact logEntries_lines interp hshort h

/-! ## Normalised files -/

theorem normalized_ne_nil {log : List IndexEntry} : log.foldl setEntry [] ≠ [] ↔ log ≠ [] := by
  constructor
  · rintro h rfl
    exact h rfl
  · intro hne hempty
    obtain ⟨front, last, rfl⟩ : ∃ front last, log = front ++ [last] :=
      ⟨log.dropLast, log.getLast hne, (List.dropLast_append_getLast hne).symm⟩
    have hlast : lastEntry (front ++ [last]) last.key = some last := by
      rw [lastEntry, List.reverse_append, List.reverse_singleton, List.singleton_append, entryAt_cons, if_pos rfl]
    have hmem := ((normalized_spec (front ++ [last])).2 last).mpr hlast
    rw [hempty] at hmem
    cases hmem

theorem normalizeIndex_eq_ok {interp : Interpreter} {milliseconds : ℤ} {content out : Bytes} :
    normalizeIndex interp milliseconds content = .ok out ↔ ∃ log, indexLog interp content = .ok log ∧ log ≠ [] ∧
      (intRepr milliseconds).length ≤ 4300 ∧
      out = (logText milliseconds ((log.foldl setEntry []).insertionSort EntryLe)).flatMap encodeCodePoint := by
  have hread : ∀ text log, logEntries interp (splitLines text) = .ok log →
      readEntries interp [] (splitLines text) = .ok (log.foldl setEntry []) := by
    intro text log hlog
    rw [readEntries_eq, hlog]
    rfl
  constructor
  · intro h
    obtain ⟨text, htext, h⟩ := bind_eq_ok.mp h
    obtain ⟨normalized, hnormalized, h⟩ := bind_eq_ok.mp h
    rw [readEntries_eq] at hnormalized
    cases hlog : logEntries interp (splitLines text) with
    | error e =>
      rw [hlog] at hnormalized
      cases hnormalized
    | ok log =>
      rw [hlog] at hnormalized
      cases hnormalized
      split_ifs at h with hempty hlong
      cases h
      refine ⟨log, bind_eq_ok.mpr ⟨text, catching_eq_ok.mp htext, hlog⟩, normalized_ne_nil.mp hempty, not_lt.mp hlong, rfl⟩
  · rintro ⟨log, hlog, hne, hshort, rfl⟩
    obtain ⟨text, htext, hlog⟩ := bind_eq_ok.mp hlog
    refine bind_eq_ok.mpr ⟨text, catching_eq_ok.mpr htext, bind_eq_ok.mpr ⟨_, hread text log hlog, ?_⟩⟩
    rw [if_neg (normalized_ne_nil.mpr hne), if_neg (not_lt.mpr hshort)]

theorem sorted_spec (log : List IndexEntry) :
    (((log.foldl setEntry []).insertionSort EntryLe).map IndexEntry.key).Nodup ∧
      ∀ entry, entry ∈ (log.foldl setEntry []).insertionSort EntryLe ↔ lastEntry log entry.key = some entry := by
  obtain ⟨hnodup, hmem⟩ := normalized_spec log
  refine ⟨((List.perm_insertionSort _ _).map _).nodup_iff.mpr hnodup, fun entry => ?_⟩
  rw [List.mem_insertionSort, hmem]

theorem foldl_setEntry {before entries : List IndexEntry} (h : ((before ++ entries).map IndexEntry.key).Nodup) :
    entries.foldl setEntry before = before ++ entries := by
  induction entries generalizing before with
  | nil => exact (List.append_nil before).symm
  | cons entry rest ih =>
    have hfresh : ¬(before.any fun other => decide (other.key = entry.key)) = true := by
      intro hany
      obtain ⟨other, hother, hkey⟩ := List.any_eq_true.mp hany
      rw [List.map_append, List.map_cons] at h
      exact (List.nodup_append.mp h).2.2 _ (List.mem_map_of_mem hother) _ List.mem_cons_self (of_decide_eq_true hkey)
    have hset : setEntry before entry = before ++ [entry] := if_neg hfresh
    rw [List.foldl_cons, hset, ih (by rwa [List.append_assoc]), List.append_assoc]
    rfl

/-- A log without repeated keys has the entry of each key. -/
theorem lastEntry_of_nodup {entries : List IndexEntry} (h : (entries.map IndexEntry.key).Nodup) (key : Str) :
    lastEntry entries key = entryAt entries key := by
  have hreversed : ((entries.reverse).map IndexEntry.key).Nodup := by
    rw [List.map_reverse]
    exact List.nodup_reverse.mpr h
  apply Option.ext
  intro entry
  rw [lastEntry, entryAt_eq_some hreversed, entryAt_eq_some h, List.mem_reverse]

/-- The normalised file of a log: it has the last entries, and it is its own normalised file. -/
theorem normalizeIndex_spec {interp : Interpreter} {milliseconds : ℤ} {content out : Bytes} {log : List IndexEntry}
    (hlog : indexLog interp content = .ok log) (h : normalizeIndex interp milliseconds content = .ok out) :
    normalizeIndex interp milliseconds out = .ok out ∧
      ∃ entries text, indexLog interp out = .ok entries ∧ (∀ key, lastEntry entries key = lastEntry log key) ∧
        decodeUtf8 out = .ok text ∧ ∀ line ∈ splitLines text, line ≠ [] →
          ∃ raw record, line = sha1Hex (raw.flatMap encodeCodePoint) ++ ch '\t' :: raw ∧
            jsonLoads interp raw = .ok record := by
  obtain ⟨log', hlog', hne, hshort, rfl⟩ := normalizeIndex_eq_ok.mp h
  rw [hlog, Except.ok.injEq] at hlog'
  subst hlog'
  obtain ⟨hnodup, hmem⟩ := sorted_spec log
  have hsorted : ((log.foldl setEntry []).insertionSort EntryLe).Pairwise EntryLe := List.pairwise_insertionSort _ _
  have hsize := List.length_insertionSort EntryLe (log.foldl setEntry [])
  have hnonempty : (log.foldl setEntry []).insertionSort EntryLe ≠ [] := by
    intro hempty
    rw [hempty] at hsize
    exact normalized_ne_nil.mpr hne (List.length_eq_zero_iff.mp hsize.symm)
  have hkept : ∀ entry ∈ (log.foldl setEntry []).insertionSort EntryLe, Kept entry := by
    intro entry hentry
    have hlast := List.mem_of_find?_eq_some ((hmem entry).mp hentry)
    exact indexLog_kept hlog entry (List.mem_reverse.mp hlast)
  generalize (log.foldl setEntry []).insertionSort EntryLe = entries at hnodup hmem hsorted hnonempty hkept
  have hread := indexLog_logText interp hshort hnonempty hkept
  obtain ⟨hdecoded, hlines⟩ := logText_lines milliseconds hnonempty
  refine ⟨normalizeIndex_eq_ok.mpr ⟨entries, hread, hnonempty, hshort, ?_⟩, entries, _, hread, fun key => ?_, hdecoded, ?_⟩
  · rw [@foldl_setEntry [] entries (by simpa using hnodup), List.nil_append, hsorted.insertionSort_eq]
  · rw [lastEntry_of_nodup hnodup]
    apply Option.ext
    intro entry
    rw [entryAt_eq_some hnodup, hmem]
    constructor
    · rintro ⟨hlast, rfl⟩
      exact hlast
    · intro hlast
      have hkey : entry.key = key := key_of_entryAt hlast
      exact ⟨hkey ▸ hlast, hkey⟩
  · intro line hline hfull
    rw [hlines] at hline
    obtain rfl | hline := List.mem_cons.mp hline
    · exact absurd rfl hfull
    · obtain ⟨entry, hentry, rfl⟩ := List.mem_map.mp hline
      exact ⟨_, _, rfl, loads_record interp hshort (hkept entry hentry)⟩

/-! ## Normalised trees -/

/-- Two caches with the same content files, whose index logs have the same last entries. -/
structure SameDownload (interp : Interpreter) (cache other : NpmCache) : Prop where
  paths : (cache.files.map TreeFile.path).Perm (other.files.map TreeFile.path)
  content : ∀ file ∈ cache.files, ∀ twin ∈ other.files, file.path = twin.path → isIndexFile file = false →
    file.content = twin.content
  index : ∀ file ∈ cache.files, ∀ twin ∈ other.files, file.path = twin.path → isIndexFile file = true →
    ∀ log log', indexLog interp file.content = .ok log → indexLog interp twin.content = .ok log' →
      ∀ key, lastEntry log key = lastEntry log' key

theorem normalizeFiles_cons_eq_ok {interp : Interpreter} {milliseconds : ℤ} {file : TreeFile} {rest out : List TreeFile}
    (h : normalizeFiles interp milliseconds (file :: rest) = .ok out) : ∃ content files,
      normalizedContent interp milliseconds file = .ok content ∧ normalizeFiles interp milliseconds rest = .ok files ∧
        out = ⟨file.path, content⟩ :: files := by
  obtain ⟨content, hcontent, h⟩ := bind_eq_ok.mp h
  obtain ⟨files, hfiles, h⟩ := bind_eq_ok.mp h
  cases h
  exact ⟨content, files, hcontent, hfiles, rfl⟩

theorem normalizeFiles_agree {interp : Interpreter} {milliseconds : ℤ} {files others out out' : List TreeFile}
    (hpaths : files.map TreeFile.path = others.map TreeFile.path)
    (hsame : ∀ file ∈ files, ∀ twin ∈ others, file.path = twin.path → ∀ content content',
      normalizedContent interp milliseconds file = .ok content →
      normalizedContent interp milliseconds twin = .ok content' → content = content')
    (h : normalizeFiles interp milliseconds files = .ok out) (h' : normalizeFiles interp milliseconds others = .ok out') :
    out = out' := by
  induction files generalizing others out out' with
  | nil =>
    obtain rfl := List.map_eq_nil_iff.mp hpaths.symm
    rw [h] at h'
    exact Except.ok.inj h'
  | cons file rest ih =>
    cases others with
    | nil => cases hpaths
    | cons twin others =>
      rw [List.map_cons, List.map_cons, List.cons.injEq] at hpaths
      obtain ⟨content, files, hcontent, hfiles, rfl⟩ := normalizeFiles_cons_eq_ok h
      obtain ⟨content', files', hcontent', hfiles', rfl⟩ := normalizeFiles_cons_eq_ok h'
      rw [hpaths.1, hsame file List.mem_cons_self twin List.mem_cons_self hpaths.1 content content' hcontent hcontent',
        ih hpaths.2 (fun f hf t ht => hsame f (List.mem_cons_of_mem _ hf) t (List.mem_cons_of_mem _ ht)) hfiles hfiles']

/-- The files of a normalised tree, one for each file of the tree. -/
theorem normalizeFiles_spec {interp : Interpreter} {milliseconds : ℤ} {files out : List TreeFile}
    (h : normalizeFiles interp milliseconds files = .ok out) :
    out.map TreeFile.path = files.map TreeFile.path ∧ normalizeFiles interp milliseconds out = .ok out ∧
      ∀ file ∈ files, ∃ content, ⟨file.path, content⟩ ∈ out ∧
        normalizedContent interp milliseconds file = .ok content := by
  induction files generalizing out with
  | nil =>
    cases h
    exact ⟨rfl, rfl, fun _ hmem => absurd hmem List.not_mem_nil⟩
  | cons file rest ih =>
    obtain ⟨content, files, hcontent, hfiles, rfl⟩ := normalizeFiles_cons_eq_ok h
    obtain ⟨hpaths, hagain, hmem⟩ := ih hfiles
    refine ⟨by rw [List.map_cons, List.map_cons, hpaths], ?_, List.forall_mem_cons.mpr ⟨⟨content, List.mem_cons_self, hcontent⟩, ?_⟩⟩
    · have hwritten : normalizedContent interp milliseconds ⟨file.path, content⟩ = .ok content := by
        change (if isIndexFile file then normalizeIndex interp milliseconds content else .ok content) = _
        unfold normalizedContent at hcontent
        split_ifs at hcontent ⊢ with hindex
        · obtain ⟨log, hlog, -⟩ := normalizeIndex_eq_ok.mp hcontent
          exact (normalizeIndex_spec hlog hcontent).1
        · rfl
      rw [normalizeFiles]
      exact bind_eq_ok.mpr ⟨content, hwritten, bind_eq_ok.mpr ⟨files, hagain, rfl⟩⟩
    · intro other hother
      obtain ⟨content', hin, hother'⟩ := hmem other hother
      exact ⟨content', List.mem_cons_of_mem _ hin, hother'⟩

theorem sorted_paths {files others : List TreeFile} (h : (files.map TreeFile.path).Perm (others.map TreeFile.path)) :
    (files.insertionSort PathLe).map TreeFile.path = (others.insertionSort PathLe).map TreeFile.path := by
  have hsorted : ∀ files : List TreeFile,
      ((files.insertionSort PathLe).map TreeFile.path).Pairwise fun p q => partsLe p q = true :=
    fun files => List.pairwise_map.mpr (List.pairwise_insertionSort PathLe files)
  have hperm : ∀ files : List TreeFile, ((files.insertionSort PathLe).map TreeFile.path).Perm (files.map TreeFile.path) :=
    fun files => (List.perm_insertionSort PathLe files).map _
  refine List.Perm.eq_of_pairwise (fun _ _ _ _ hab hba => partsLe_antisymm hab hba) (hsorted _) (hsorted _) ?_
  exact ((hperm files).trans h).trans (hperm others).symm

theorem normalizeNpmCache_eq_ok {interp : Interpreter} {cache : NpmCache} {sourceDateEpoch : Nat} {files : List TreeFile} :
    normalizeNpmCache interp cache sourceDateEpoch = .ok files ↔ cache.indexed = true ∧
      normalizeFiles interp (sourceDateEpoch * 1000) (cache.files.insertionSort PathLe) = .ok files := by
  unfold normalizeNpmCache
  cases cache.indexed <;> simp

theorem normalizedContent_agree {interp : Interpreter} {milliseconds : ℤ} {cache other : NpmCache}
    (hsame : SameDownload interp cache other) {file twin : TreeFile} (hfile : file ∈ cache.files)
    (htwin : twin ∈ other.files) (hpath : file.path = twin.path) {content content' : Bytes}
    (h : normalizedContent interp milliseconds file = .ok content)
    (h' : normalizedContent interp milliseconds twin = .ok content') : content = content' := by
  have hindex : isIndexFile file = isIndexFile twin := by rw [isIndexFile, isIndexFile, hpath]
  unfold normalizedContent at h h'
  rw [← hindex] at h'
  split_ifs at h h' with hi
  · obtain ⟨log, hlog, -, -, rfl⟩ := normalizeIndex_eq_ok.mp h
    obtain ⟨log', hlog', -, -, rfl⟩ := normalizeIndex_eq_ok.mp h'
    rw [sorted_of_lastEntry (hsame.index file hfile twin htwin hpath hi log log' hlog hlog')]
  · cases h
    cases h'
    exact hsame.content file hfile twin htwin hpath (Bool.eq_false_iff.mpr hi)

/-- The log that a normalised index file holds, each line with the checksum of its value. -/
def HoldsLastEntries (interp : Interpreter) (log : List IndexEntry) (out : Bytes) : Prop :=
  ∃ entries text, indexLog interp out = .ok entries ∧ (∀ key, lastEntry entries key = lastEntry log key) ∧
    decodeUtf8 out = .ok text ∧ ∀ line ∈ splitLines text, line ≠ [] →
      ∃ raw record, line = sha1Hex (raw.flatMap encodeCodePoint) ++ ch '\t' :: raw ∧ jsonLoads interp raw = .ok record

/-- Two downloads with the same last entries have one normalised tree and one archive. A normalised tree has
the files of the cache, its index files the last entries of theirs, and it is its own normalised tree. -/
theorem npm_bundle_reproducible (interp : Interpreter) (sourceDateEpoch : Nat) :
    (∀ cache other files files', SameDownload interp cache other →
      normalizeNpmCache interp cache sourceDateEpoch = .ok files →
      normalizeNpmCache interp other sourceDateEpoch = .ok files' →
      files = files' ∧ ∀ tar, bundleTree tar files = bundleTree tar files') ∧
    ∀ cache files, normalizeNpmCache interp cache sourceDateEpoch = .ok files →
      (files.map TreeFile.path).Perm (cache.files.map TreeFile.path) ∧
      (∀ file ∈ cache.files, isIndexFile file = false → file ∈ files) ∧
      (∀ file ∈ cache.files, isIndexFile file = true → ∃ log out, indexLog interp file.content = .ok log ∧
        ⟨file.path, out⟩ ∈ files ∧ HoldsLastEntries interp log out) ∧
      ∀ again : NpmCache, again.indexed = true → again.files = files →
        normalizeNpmCache interp again sourceDateEpoch = .ok files := by
  constructor
  · intro cache other files files' hsame h h'
    have hfiles := (normalizeNpmCache_eq_ok.mp h).2
    have hfiles' := (normalizeNpmCache_eq_ok.mp h').2
    have hequal : files = files' := by
      refine normalizeFiles_agree (sorted_paths hsame.paths) (fun file hfile twin htwin hpath content content' => ?_) hfiles hfiles'
      rw [List.mem_insertionSort] at hfile htwin
      exact normalizedContent_agree hsame hfile htwin hpath
    exact ⟨hequal, fun tar => by rw [hequal]⟩
  · intro cache files h
    have hfiles := (normalizeNpmCache_eq_ok.mp h).2
    obtain ⟨hpaths, hagain, hwritten⟩ := normalizeFiles_spec hfiles
    have hperm := (List.perm_insertionSort PathLe cache.files).map TreeFile.path
    refine ⟨hpaths ▸ hperm, fun file hfile hindex => ?_, fun file hfile hindex => ?_, fun again hindexed hsame => ?_⟩
    · obtain ⟨content, hmem, hcontent⟩ := hwritten file ((List.mem_insertionSort PathLe).mpr hfile)
      rw [normalizedContent, hindex] at hcontent
      cases hcontent
      exact hmem
    · obtain ⟨out, hmem, hout⟩ := hwritten file ((List.mem_insertionSort PathLe).mpr hfile)
      rw [normalizedContent, hindex, if_pos rfl] at hout
      obtain ⟨log, hlog, -⟩ := normalizeIndex_eq_ok.mp hout
      exact ⟨log, out, hlog, hmem, (normalizeIndex_spec hlog hout).2⟩
    · have hsorted : files.Pairwise PathLe := by
        have hpairwise : ((cache.files.insertionSort PathLe).map TreeFile.path).Pairwise fun p q => partsLe p q = true :=
          List.pairwise_map.mpr (List.pairwise_insertionSort PathLe cache.files)
        rw [← hpaths, List.pairwise_map] at hpairwise
        exact hpairwise
      refine normalizeNpmCache_eq_ok.mpr ⟨hindexed, ?_⟩
      rw [hsame, hsorted.insertionSort_eq]
      exact hagain

/-! ## Two downloads of one package -/

def packageIndex (lines : String) : NpmCache where
  files := [⟨[u "index-v5", u "00", u "ab"], utf8 lines⟩]
  indexed := true
  distinct := List.nodup_singleton _

def packageEntry (integrity : String) : IndexEntry :=
  ⟨u "make-fetch-happen:request-cache:https://registry.npmjs.org/a", u integrity, 7, u "https://registry.npmjs.org/a"⟩

def retriedLines : String :=
  "\n00\t\x7b\"key\":\"make-fetch-happen:request-cache:https://registry.npmjs.org/a\",\"integrity\":\"sha512-b\",\"size\":7,\"metadata\":\x7b\"url\":\"https://registry.npmjs.org/a\"\x7d\x7d\n00\t\x7b\"integrity\":\"sha512-c\",\"time\":5,\"key\":\"make-fetch-happen:request-cache:https://registry.npmjs.org/a\",\"size\":7,\"metadata\":\x7b\"url\":\"https://registry.npmjs.org/a\"\x7d\x7d"

def singleLine : String :=
  "\n00\t\x7b\"key\":\"make-fetch-happen:request-cache:https://registry.npmjs.org/a\",\"integrity\":\"sha512-c\",\"size\":7,\"metadata\":\x7b\"url\":\"https://registry.npmjs.org/a\",\"time\":9\x7d\x7d"

def initialInterpreter : Interpreter := ⟨1000, initialLimit_deep⟩

theorem retried_log : indexLog initialInterpreter (utf8 retriedLines) = .ok [packageEntry "sha512-b", packageEntry "sha512-c"] := by
  decide +kernel

theorem single_log : indexLog initialInterpreter (utf8 singleLine) = .ok [packageEntry "sha512-c"] := by
  decide +kernel

theorem normalize_package {lines : String} {log : List IndexEntry} (hlog : indexLog initialInterpreter (utf8 lines) = .ok log)
    (hne : log ≠ []) : ∃ files, normalizeNpmCache initialInterpreter (packageIndex lines) 1 = .ok files := by
  have hshort : (intRepr ((1 : Nat) * 1000)).length ≤ 4300 := by decide +kernel
  have hcontent := normalizeIndex_eq_ok.mpr ⟨log, hlog, hne, hshort, rfl⟩
  exact ⟨_, normalizeNpmCache_eq_ok.mpr ⟨rfl, bind_eq_ok.mpr ⟨_, hcontent, bind_eq_ok.mpr ⟨[], rfl, rfl⟩⟩⟩⟩

theorem lastEntry_retried (key : Str) :
    lastEntry [packageEntry "sha512-b", packageEntry "sha512-c"] key = lastEntry [packageEntry "sha512-c"] key := by
  have hkey : (packageEntry "sha512-b").key = (packageEntry "sha512-c").key := rfl
  rw [lastEntry, lastEntry, List.reverse_cons, List.reverse_singleton, List.singleton_append, entryAt_cons, entryAt_cons,
    entryAt_cons, hkey]
  split_ifs <;> rfl

theorem isIndexFile_package {lines : String} {file : TreeFile} (h : file ∈ (packageIndex lines).files) :
    isIndexFile file = true := by
  rw [List.mem_singleton.mp h]
  exact decide_eq_true rfl

theorem content_package {lines : String} {file : TreeFile} (h : file ∈ (packageIndex lines).files) :
    file.content = utf8 lines := by
  rw [List.mem_singleton.mp h]

theorem paths_package (lines : String) :
    (packageIndex lines).files.map TreeFile.path = [[u "index-v5", u "00", u "ab"]] := rfl

theorem same_download : SameDownload initialInterpreter (packageIndex retriedLines) (packageIndex singleLine) where
  paths := by rw [paths_package, paths_package]
  content file hfile twin _ _ hindex := by
    rw [isIndexFile_package hfile] at hindex
    cases hindex
  index file hfile twin htwin _ _ log log' hlog hlog' key := by
    rw [content_package hfile, retried_log] at hlog
    rw [content_package htwin, single_log] at hlog'
    rw [← Except.ok.inj hlog, ← Except.ok.inj hlog']
    exact lastEntry_retried key

theorem npm_bundle_reproducible_package : ∃ files files',
    normalizeNpmCache initialInterpreter (packageIndex retriedLines) 1 = .ok files ∧
      normalizeNpmCache initialInterpreter (packageIndex singleLine) 1 = .ok files' ∧ files = files' := by
  obtain ⟨files, hfiles⟩ := normalize_package retried_log (List.cons_ne_nil _ _)
  obtain ⟨files', hfiles'⟩ := normalize_package single_log (List.cons_ne_nil _ _)
  have hequal := (npm_bundle_reproducible initialInterpreter 1).1 _ _ _ _ same_download hfiles hfiles'
  exact ⟨files, files', hfiles, hfiles', hequal.1⟩

end McpTrust.Refresh
