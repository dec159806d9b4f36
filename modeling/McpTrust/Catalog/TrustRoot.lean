import McpTrust.Catalog.StrictJson

/-! # Validated trust roots

What `_validate_root` establishes of a root, field by field, and that it reads the
same root from the value with its keys sorted.
-/

namespace McpTrust.SnapshotTrust

set_option autoImplicit false

open Python

/-! ## Readers -/

theorem isInt_eq_some {minimum n : ℤ} {v : Json} :
    isInt minimum v = some n ↔ v = .int n ∧ minimum ≤ n := by
  cases v with
  | int k =>
    simp only [isInt, Json.int.injEq]
    split_ifs with h
    · constructor
      · rintro heq
        cases heq
        exact ⟨rfl, h⟩
      · rintro ⟨rfl, -⟩
        rfl
    · constructor
      · intro heq
        cases heq
      · rintro ⟨rfl, hle⟩
        exact absurd hle h
  | _ => simp [isInt]

theorem matching_eq_some {pattern : Str → Bool} {v : Json} {s : Str} :
    matching pattern v = some s ↔ v = .str s ∧ pattern s = true := by
  cases v with
  | str t =>
    simp only [matching, Json.str.injEq]
    split_ifs with h
    · constructor
      · rintro heq
        cases heq
        exact ⟨rfl, h⟩
      · rintro ⟨rfl, -⟩
        rfl
    · constructor
      · intro heq
        cases heq
      · rintro ⟨rfl, hp⟩
        exact absurd hp h
  | _ => simp [matching]

theorem decodeBase64url_eq_some {n : Nat} {v : Json} {b : Bytes} (h : decodeBase64url n v = some b) :
    (∃ s, v = .str s) ∧ b.length = n := by
  cases v with
  | str s =>
    simp only [decodeBase64url] at h
    split_ifs at h
    exact ⟨⟨s, rfl⟩, of_decide_eq_true (Option.filter_eq_some_iff.mp h).2⟩
  | _ => simp [decodeBase64url] at h

theorem roleOf_eq_ok {v : Json} {role : Role} :
    roleOf v = .ok (some role) ↔ v = .str (u role.name) := by
  unfold roleOf
  constructor
  · intro h
    split_ifs at h with h1 h2 h3
    · cases h
      exact Json.isStr_eq_true.mp h2
    · cases h
      exact Json.isStr_eq_true.mp h3
    · cases h
  · rintro rfl
    cases role <;> simp [Json.hashable, Role.name, Json.isStr]

@[simp] theorem isInt_sortKeys (minimum : ℤ) (v : Json) : isInt minimum v.sortKeys = isInt minimum v := by
  cases v <;> rfl

@[simp] theorem matching_sortKeys (pattern : Str → Bool) (v : Json) :
    matching pattern v.sortKeys = matching pattern v := by
  cases v <;> rfl

@[simp] theorem decodeBase64url_sortKeys (n : Nat) (v : Json) :
    decodeBase64url n v.sortKeys = decodeBase64url n v := by
  cases v <;> rfl

@[simp] theorem isStr_sortKeys (v : Json) (s : String) : v.sortKeys.isStr s = v.isStr s := by
  cases v <;> rfl

@[simp] theorem isNull_sortKeys (v : Json) : v.sortKeys.isNull = v.isNull := by
  cases v <;> rfl

@[simp] theorem roleOf_sortKeys (v : Json) : roleOf v.sortKeys = roleOf v := by
  unfold roleOf
  rw [isStr_sortKeys, isStr_sortKeys, show v.sortKeys.hashable = v.hashable by cases v <;> rfl]

/-! ## Keys -/

/-- An inclusive upper bound as the key object states it. -/
def boundJson : Option ℤ → Json
  | none => .null
  | some last => .int last

/-- `key` is what the validator read from the fields of one key object. -/
structure ReadsKey (fields : Dict) (key : RootKey) : Prop where
  keys : Dict.keysEq fields rootKeyKeys = true
  keyId : Dict.get fields "key_id" = .str key.keyId
  pattern : isKeyId key.keyId = true
  algorithm : Dict.get fields "algorithm" = .str (u SnapshotTrust.algorithm)
  publicKey : decodeBase64url 32 (Dict.get fields "public_key") = some key.publicKey
  digest : key.keyId = u "sha256:" ++ sha256Hex key.publicKey
  role : Dict.get fields "roles" = .arr [.str (u key.role.name)]
  validFrom : Dict.get fields "valid_from_publication_id" = .int key.validFrom
  positive : 1 ≤ key.validFrom
  validThrough : Dict.get fields "valid_through_publication_id" = boundJson key.validThrough
  ordered : ∀ last, key.validThrough = some last → key.validFrom ≤ last

theorem validThroughOf_eq_some {validFrom : ℤ} {v : Json} {last : Option ℤ}
    (h : validThroughOf validFrom v = some last) :
    v = boundJson last ∧ ∀ n, last = some n → validFrom ≤ n := by
  unfold validThroughOf at h
  split_ifs at h with hnull
  · cases h
    exact ⟨Json.isNull_eq_true.mp hnull, by simp⟩
  · obtain ⟨n, hn, rfl⟩ := Option.map_eq_some_iff.mp h
    obtain ⟨rfl, hle⟩ := isInt_eq_some.mp hn
    refine ⟨rfl, fun m hm => ?_⟩
    cases hm
    exact hle

theorem validateRootKey_eq_ok {seen : List Str} {v : Json} {key : RootKey}
    (h : validateRootKey seen v = .ok (some key)) :
    ∃ fields, v = .obj fields ∧ ReadsKey fields key ∧ key.keyId ∉ seen := by
  cases v with
  | obj fields =>
    simp only [validateRootKey] at h
    split at h
    · cases h
    rename_i hkeys
    split at h
    · rename_i keyId publicKey role hid hpublic hroles
      split at h
      · cases h
      rename_i halgorithm
      split at h
      · cases h
      rename_i hdigest
      obtain ⟨roleOption, hrole, h⟩ := bind_eq_ok.mp h
      split at h
      · rename_i role' validFrom hfrom
        split at h
        · rename_i validThrough hthrough
          split at h
          · cases h
          · rename_i hseen
            cases h
            obtain ⟨hidValue, hpattern⟩ := matching_eq_some.mp hid
            obtain ⟨hfromValue, hpositive⟩ := isInt_eq_some.mp hfrom
            obtain ⟨hthroughValue, hordered⟩ := validThroughOf_eq_some hthrough
            refine ⟨fields, rfl, ?_, hseen⟩
            exact
              { keys := by simpa using hkeys
                keyId := hidValue
                pattern := hpattern
                algorithm := Json.isStr_eq_true.mp (by simpa using halgorithm)
                publicKey := hpublic
                digest := not_not.mp hdigest
                role := by rw [hroles, roleOf_eq_ok.mp hrole]
                validFrom := hfromValue
                positive := hpositive
                validThrough := hthroughValue
                ordered := hordered }
        · cases h
      · cases h
    · cases h
  | _ => simp [validateRootKey] at h

/-- `keys` are what the validator read from the list of key objects. -/
structure ReadsKeys (values : List Json) (keys : List RootKey) : Prop where
  reads : List.Forall₂ (fun v key => ∃ fields, v = .obj fields ∧ ReadsKey fields key) values keys
  distinct : (keys.map RootKey.keyId).Nodup

theorem ReadsKeys.exists_key {values : List Json} {keys : List RootKey} (h : ReadsKeys values keys)
    {v : Json} (hv : v ∈ values) : ∃ fields key, v = .obj fields ∧ ReadsKey fields key := by
  obtain ⟨hreads, -⟩ := h
  induction hreads with
  | nil => cases hv
  | cons hread _ ih =>
    rcases List.mem_cons.mp hv with rfl | hv
    · obtain ⟨fields, heq, hread⟩ := hread
      exact ⟨fields, _, heq, hread⟩
    · exact ih hv

theorem ReadsKeys.exists_value {values : List Json} {keys : List RootKey} (h : ReadsKeys values keys)
    {key : RootKey} (hkey : key ∈ keys) : ∃ fields, .obj fields ∈ values ∧ ReadsKey fields key := by
  obtain ⟨hreads, -⟩ := h
  induction hreads with
  | nil => cases hkey
  | cons hread _ ih =>
    rcases List.mem_cons.mp hkey with rfl | hkey
    · obtain ⟨fields, rfl, hread⟩ := hread
      exact ⟨fields, List.mem_cons_self, hread⟩
    · obtain ⟨fields, hmem, hread⟩ := ih hkey
      exact ⟨fields, List.mem_cons_of_mem _ hmem, hread⟩

theorem validateRootKeys_eq_ok {seen : List Str} {values : List Json} {keys : List RootKey}
    (h : validateRootKeys seen values = .ok (some keys)) :
    ReadsKeys values keys ∧ ∀ key ∈ keys, key.keyId ∉ seen := by
  induction values generalizing seen keys with
  | nil =>
    cases h
    exact ⟨⟨.nil, List.nodup_nil⟩, by simp⟩
  | cons v rest ih =>
    rw [validateRootKeys] at h
    obtain ⟨keyOption, hkey, h⟩ := bind_eq_ok.mp h
    cases keyOption with
    | none => cases h
    | some key =>
      dsimp only at h
      cases hrest : validateRootKeys (key.keyId :: seen) rest with
      | error e => rw [hrest] at h; cases h
      | ok keysOption =>
        rw [hrest] at h
        cases keysOption with
        | none => cases h
        | some restKeys =>
          cases h
          obtain ⟨⟨hreads, hdistinct⟩, hfresh⟩ := ih hrest
          obtain ⟨fields, hv, hread, hseen⟩ := validateRootKey_eq_ok hkey
          refine ⟨⟨.cons ⟨fields, hv, hread⟩ hreads, ?_⟩, ?_⟩
          · rw [List.map_cons, List.nodup_cons]
            refine ⟨fun hmem => ?_, hdistinct⟩
            obtain ⟨other, hother, heq⟩ := List.mem_map.mp hmem
            exact hfresh other hother (heq ▸ List.mem_cons_self)
          · intro other hother
            rcases List.mem_cons.mp hother with rfl | hother
            · exact hseen
            · exact fun hmem => hfresh other hother (List.mem_cons_of_mem _ hmem)

/-! ## Roots -/

/-- `root` is what the validator read from the fields of a root object. -/
structure ReadsRoot (fields : Dict) (root : Root) : Prop where
  value : root.value = fields
  keys : Dict.keysEq fields rootKeys = true
  schema : Dict.get fields "schema" = .str (u rootSchema)
  rootVersion : Dict.get fields "root_version" = .int root.rootVersion
  versionPositive : 1 ≤ root.rootVersion
  publisher : publisherIdOf (Dict.get fields "publisher") = some root.publisherId
  minimum : Dict.get fields "minimum_publication_id" = .int root.minimumPublicationId
  lifetime : Dict.get fields "max_snapshot_lifetime_seconds" = .int root.maxSnapshotLifetimeSeconds
  skew : Dict.get fields "max_clock_skew_seconds" = .int root.maxClockSkewSeconds
  snapshotThreshold : Dict.get fields "snapshot_threshold" = .int root.snapshotThreshold
  recoveryThreshold : Dict.get fields "recovery_threshold" = .int root.recoveryThreshold
  thresholdPositive : ∀ role, 1 ≤ root.threshold role
  thresholdMet : ∀ role, root.threshold role ≤ countRole role root.keys
  keyList : ∃ values, Dict.get fields "keys" = .arr values ∧ ReadsKeys values root.keys

theorem validateRoot_eq_ok {v : Json} {root : Root} (h : validateRoot v = .ok (some root)) :
    ∃ fields, v = .obj fields ∧ ReadsRoot fields root := by
  cases v with
  | obj fields =>
    refine ⟨fields, rfl, ?_⟩
    simp only [validateRoot] at h
    cases hfields : rootFields fields with
    | none => rw [hfields] at h; cases h
    | some p =>
      obtain ⟨partialRoot, values⟩ := p
      rw [hfields] at h
      dsimp only at h
      obtain ⟨keysOption, hkeys, h⟩ := bind_eq_ok.mp h
      cases keysOption with
      | none => cases h
      | some keys =>
        dsimp only at h
        split at h
        · cases h
        · rename_i hthreshold
          cases h
          simp only [rootFields, Option.bind_eq_bind, Option.bind_eq_some_iff, guard_eq_some]
            at hfields
          obtain ⟨-, hset, -, hschema, version, hversion, publisher, hpublisher, minimum, hminimum,
            lifetime, hlifetime, -, -, skew, hskew, -, -, snapshot, hsnapshot, recovery, hrecovery,
            hlist⟩ := hfields
          split at hlist
          · rename_i hkeyValues
            split at hlist
            · cases hlist
              rw [not_or, not_lt, not_lt] at hthreshold
              exact
                { value := rfl
                  keys := hset
                  schema := Json.isStr_eq_true.mp hschema
                  rootVersion := (isInt_eq_some.mp hversion).1
                  versionPositive := (isInt_eq_some.mp hversion).2
                  publisher := hpublisher
                  minimum := (isInt_eq_some.mp hminimum).1
                  lifetime := (isInt_eq_some.mp hlifetime).1
                  skew := (isInt_eq_some.mp hskew).1
                  snapshotThreshold := (isInt_eq_some.mp hsnapshot).1
                  recoveryThreshold := (isInt_eq_some.mp hrecovery).1
                  thresholdPositive := fun role => by
                    cases role
                    · exact (isInt_eq_some.mp hsnapshot).2
                    · exact (isInt_eq_some.mp hrecovery).2
                  thresholdMet := fun role => by
                    cases role
                    · exact hthreshold.1
                    · exact hthreshold.2
                  keyList := ⟨values, hkeyValues, (validateRootKeys_eq_ok hkeys).1⟩ }
            · cases hlist
          · cases hlist
  | _ => cases h

theorem publisherIdOf_eq_some {v : Json} {id : Str} (h : publisherIdOf v = some id) :
    ∃ fields name, v = .obj fields ∧ Dict.keysEq fields ["id", "name"] = true ∧
      Dict.get fields "id" = .str id ∧ isPublisherId id = true ∧
      Dict.get fields "name" = .str name := by
  cases v with
  | obj fields =>
    simp only [publisherIdOf] at h
    split at h
    · rename_i hkeys
      simp only [Option.bind_eq_bind, Option.bind_eq_some_iff, Option.some.injEq] at h
      obtain ⟨id', hid, name, hname, rfl⟩ := h
      obtain ⟨hidValue, hpattern⟩ := matching_eq_some.mp hid
      exact ⟨fields, name, rfl, hkeys, hidValue, hpattern, (matching_eq_some.mp hname).1⟩
    · cases h
  | _ => cases h

theorem ReadsRoot.publisherId {fields : Dict} {root : Root} (h : ReadsRoot fields root) :
    isPublisherId root.publisherId = true := by
  obtain ⟨_, _, -, -, -, hpattern, -⟩ := publisherIdOf_eq_some h.publisher
  exact hpattern

/-! ## No floats, and four levels at most -/

theorem uniqueKeys_get {fields : Dict} (h : (Json.obj fields).UniqueKeys) (name : String) :
    (Dict.get fields name).UniqueKeys := by
  by_cases hnull : Dict.get fields name = .null
  · rw [hnull]
    intro d hd
    simp [Json.walk] at hd
  · obtain ⟨kv, hkv, heq⟩ := Dict.get_mem_walk hnull
    exact heq ▸ (Json.uniqueKeys_obj.mp h).2 kv hkv

theorem ReadsKey.plain {fields : Dict} {key : RootKey} (h : ReadsKey fields key)
    (hnodup : (Dict.keys fields).Nodup) : (Json.obj fields).Plain 2 := by
  apply Json.plain_of_keysEq h.keys hnodup
  obtain ⟨⟨text, hpublic⟩, -⟩ := decodeBase64url_eq_some h.publicKey
  intro name hname
  simp only [rootKeyKeys, List.mem_cons, List.not_mem_nil, or_false] at hname
  rcases hname with rfl | rfl | rfl | rfl | rfl | rfl
  · rw [h.keyId]
    exact Json.plain_str _ _
  · rw [h.algorithm]
    exact Json.plain_str _ _
  · rw [hpublic]
    exact Json.plain_str _ _
  · rw [h.role]
    exact Json.plain_arr (by simp [Json.plain_str])
  · rw [h.validFrom]
    exact Json.plain_int _ _
  · rw [h.validThrough]
    cases key.validThrough
    · exact Json.plain_null _
    · exact Json.plain_int _ _

theorem ReadsRoot.plain {fields : Dict} {root : Root} (h : ReadsRoot fields root)
    (hunique : (Json.obj fields).UniqueKeys) : (Json.obj fields).Plain 4 := by
  obtain ⟨hnodup, hparts⟩ := Json.uniqueKeys_obj.mp hunique
  have hpart : ∀ name, (Dict.get fields name).UniqueKeys := uniqueKeys_get hunique
  apply Json.plain_of_keysEq h.keys hnodup
  intro name hname
  simp only [rootKeys, List.mem_cons, List.not_mem_nil, or_false] at hname
  rcases hname with rfl | rfl | rfl | rfl | rfl | rfl | rfl | rfl | rfl
  · rw [h.schema]
    exact Json.plain_str _ _
  · rw [h.rootVersion]
    exact Json.plain_int _ _
  · have hu := hpart "publisher"
    obtain ⟨publisher, publisherName, hpublisher, hkeys, hid, -, hpublisherName⟩ :=
      publisherIdOf_eq_some h.publisher
    rw [hpublisher] at hu ⊢
    apply Json.plain_of_keysEq hkeys (Json.uniqueKeys_obj.mp hu).1
    intro field hfield
    simp only [List.mem_cons, List.not_mem_nil, or_false] at hfield
    rcases hfield with rfl | rfl
    · rw [hid]
      exact Json.plain_str _ _
    · rw [hpublisherName]
      exact Json.plain_str _ _
  · rw [h.minimum]
    exact Json.plain_int _ _
  · rw [h.lifetime]
    exact Json.plain_int _ _
  · rw [h.skew]
    exact Json.plain_int _ _
  · rw [h.snapshotThreshold]
    exact Json.plain_int _ _
  · rw [h.recoveryThreshold]
    exact Json.plain_int _ _
  · have hu := hpart "keys"
    obtain ⟨values, hvalues, hread⟩ := h.keyList
    rw [hvalues] at hu ⊢
    apply Json.plain_arr
    intro v hv
    obtain ⟨keyFields, key, rfl, hkey⟩ := hread.exists_key hv
    have hkeyUnique := Json.uniqueKeys_arr.mp hu _ hv
    exact hkey.plain (Json.uniqueKeys_obj.mp hkeyUnique).1

/-! ## Sorting the keys -/

theorem validThroughOf_sortKeys (validFrom : ℤ) (v : Json) :
    validThroughOf validFrom v.sortKeys = validThroughOf validFrom v := by
  unfold validThroughOf
  rw [isNull_sortKeys, isInt_sortKeys]

theorem validateRootKey_sortKeys (seen : List Str) {v : Json} (h : v.UniqueKeys) :
    validateRootKey seen v.sortKeys = validateRootKey seen v := by
  cases v with
  | obj fields =>
    have hnodup := (Json.uniqueKeys_obj.mp h).1
    simp only [Json.sortKeys, validateRootKey, Json.keysEq_sortKeys, Json.get_sortKeys hnodup,
      matching_sortKeys, decodeBase64url_sortKeys, isStr_sortKeys, isInt_sortKeys,
      validThroughOf_sortKeys]
    cases matching isKeyId (Dict.get fields "key_id") with
    | none => rfl
    | some keyId =>
      cases decodeBase64url 32 (Dict.get fields "public_key") with
      | none => rfl
      | some publicKey =>
        cases Dict.get fields "roles" with
        | arr roles =>
          rw [Json.sortKeys, Json.sortItems_eq]
          cases roles with
          | nil => rfl
          | cons role rest =>
            cases rest with
            | nil => simp only [List.map_cons, List.map_nil, roleOf_sortKeys]
            | cons _ _ => rfl
        | _ => rfl
  | _ => rfl

theorem validateRootKeys_sortKeys (seen : List Str) {values : List Json}
    (h : ∀ v ∈ values, v.UniqueKeys) :
    validateRootKeys seen (values.map Json.sortKeys) = validateRootKeys seen values := by
  induction values generalizing seen with
  | nil => rfl
  | cons v rest ih =>
    rw [List.map_cons, validateRootKeys, validateRootKeys,
      validateRootKey_sortKeys seen (h v List.mem_cons_self)]
    congr 1
    funext key
    cases key with
    | none => rfl
    | some key =>
      dsimp only
      rw [ih _ fun w hw => h w (List.mem_cons_of_mem _ hw)]

theorem publisherIdOf_sortKeys {v : Json} (h : v.UniqueKeys) :
    publisherIdOf v.sortKeys = publisherIdOf v := by
  cases v with
  | obj fields =>
    have hnodup := (Json.uniqueKeys_obj.mp h).1
    simp only [Json.sortKeys, publisherIdOf, Json.keysEq_sortKeys, Json.get_sortKeys hnodup,
      matching_sortKeys]
  | _ => rfl

/-- The parts of a root are read in the same way from two objects that agree on every member; `g`
relates their lists of keys. -/
theorem rootFields_congr {d e : Dict} {g : List Json → List Json}
    (hlength : ∀ values, (g values).length = values.length)
    (hkeys : Dict.keysEq d rootKeys = Dict.keysEq e rootKeys)
    (hschema : (Dict.get d "schema").isStr rootSchema = (Dict.get e "schema").isStr rootSchema)
    (hint : ∀ name, name ≠ "publisher" → ∀ least,
      isInt least (Dict.get d name) = isInt least (Dict.get e name))
    (hpublisher : publisherIdOf (Dict.get d "publisher") = publisherIdOf (Dict.get e "publisher"))
    (harray : ∀ values, Dict.get e "keys" = .arr values → Dict.get d "keys" = .arr (g values))
    (hother : (∀ values, Dict.get e "keys" ≠ .arr values) → ∀ values, Dict.get d "keys" ≠ .arr values) :
    rootFields d = (rootFields e).map fun p => ({ p.1 with value := d }, g p.2) := by
  simp only [rootFields, hkeys, hschema, hpublisher, hint "root_version" (by decide),
    hint "minimum_publication_id" (by decide), hint "max_snapshot_lifetime_seconds" (by decide),
    hint "max_clock_skew_seconds" (by decide), hint "snapshot_threshold" (by decide),
    hint "recovery_threshold" (by decide), Option.bind_eq_bind, Option.map_bind, Function.comp_def]
  iterate 11
    congr 1
    funext _
  by_cases h : ∃ values, Dict.get e "keys" = .arr values
  · obtain ⟨values, hvalues⟩ := h
    rw [hvalues, harray values hvalues]
    dsimp only
    rw [hlength]
    split_ifs <;> rfl
  · have hd := hother fun values hvalues => h ⟨values, hvalues⟩
    have he : ∀ values, Dict.get e "keys" ≠ .arr values := fun values hvalues => h ⟨values, hvalues⟩
    cases hdkeys : Dict.get d "keys" with
    | arr values => exact absurd hdkeys (hd values)
    | _ =>
      cases hekeys : Dict.get e "keys" with
      | arr values => exact absurd hekeys (he values)
      | _ => rfl

/-- The same root is read from the value with its keys sorted. -/
theorem validateRoot_sortKeys {fields : Dict} (hunique : (Json.obj fields).UniqueKeys) :
    validateRoot (Json.obj fields).sortKeys = (validateRoot (.obj fields)).map fun root =>
      root.map fun root => { root with value := (Json.sortFields fields).insertionSort KeyLe } := by
  obtain ⟨hnodup, hparts⟩ := Json.uniqueKeys_obj.mp hunique
  have hpart : ∀ name, (Dict.get fields name).UniqueKeys := uniqueKeys_get hunique
  have hfields := rootFields_congr (d := (Json.sortFields fields).insertionSort KeyLe) (e := fields)
    (g := List.map Json.sortKeys) (fun values => List.length_map _) (Json.keysEq_sortKeys fields _)
    (by rw [Json.get_sortKeys hnodup, isStr_sortKeys])
    (fun name _ least => by rw [Json.get_sortKeys hnodup, isInt_sortKeys])
    (by rw [Json.get_sortKeys hnodup, publisherIdOf_sortKeys (hpart "publisher")])
    (fun values h => by rw [Json.get_sortKeys hnodup, h, Json.sortKeys, Json.sortItems_eq])
    (fun h values hvalues => by
      rw [Json.get_sortKeys hnodup] at hvalues
      cases hkeys : Dict.get fields "keys" with
      | arr ks => exact h ks hkeys
      | _ => simp [hkeys, Json.sortKeys] at hvalues)
  simp only [Json.sortKeys, validateRoot]
  rw [hfields]
  cases hread : rootFields fields with
  | none => rfl
  | some p =>
    obtain ⟨root, values⟩ := p
    have hvalues : Dict.get fields "keys" = .arr values := by
      simp only [rootFields, Option.bind_eq_bind, Option.bind_eq_some_iff, guard_eq_some] at hread
      obtain ⟨_, _, _, _, _, _, _, _, _, _, _, _, _, _, _, _, _, _, _, _, _, _, hlist⟩ := hread
      split at hlist
      · rename_i hkeys
        split at hlist
        · cases hlist
          exact hkeys
        · cases hlist
      · cases hlist
    have hkeys := hpart "keys"
    rw [hvalues] at hkeys
    simp only [Option.map_some]
    rw [validateRootKeys_sortKeys [] (Json.uniqueKeys_arr.mp hkeys)]
    cases validateRootKeys [] values with
    | error e => rfl
    | ok keysOption =>
      cases keysOption with
      | none => rfl
      | some keys =>
        simp only [bind, Except.bind]
        split_ifs <;> rfl

end McpTrust.SnapshotTrust
