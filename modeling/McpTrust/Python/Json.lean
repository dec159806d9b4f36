import McpTrust.Python.PyFloat
import McpTrust.Python.IsoFormat

/-! # JSON values

A decoded value is a `Json`; an object keeps its keys in insertion order, and the
decoder guarantees that they are distinct. `pyEq` is `==`, which ignores that
order and compares numbers across `bool`, `int` and `float`.
-/

namespace Python

set_option autoImplicit false

inductive Json
  | null
  | bool (b : Bool)
  | int (n : ℤ)
  | float (x : PyFloat)
  | str (s : Str)
  | arr (items : List Json)
  | obj (fields : List (Str × Json))

abbrev Dict := List (Str × Json)

namespace Json

/-- Induction with a hypothesis for each item and each field. -/
@[elab_as_elim]
theorem induct {motive : Json → Prop} (null : motive .null) (bool : ∀ b, motive (.bool b))
    (int : ∀ n, motive (.int n)) (float : ∀ x, motive (.float x)) (str : ∀ s, motive (.str s))
    (arr : ∀ items, (∀ v ∈ items, motive v) → motive (.arr items))
    (obj : ∀ fields, (∀ kv ∈ fields, motive kv.2) → motive (.obj fields)) (v : Json) : motive v :=
  @Json.rec motive (fun items => ∀ v ∈ items, motive v) (fun fields => ∀ kv ∈ fields, motive kv.2)
    (fun kv => motive kv.2)
    null bool int float str (fun _ ih => arr _ ih) (fun _ ih => obj _ ih)
    (by simp) (fun _ _ hv hvs => by
      intro w hw
      rcases List.mem_cons.mp hw with rfl | hw
      · exact hv
      · exact hvs w hw)
    (by simp) (fun _ _ hkv hkvs => by
      intro w hw
      rcases List.mem_cons.mp hw with rfl | hw
      · exact hkv
      · exact hkvs w hw)
    (fun _ _ hv => hv) v

/-- `{}`, `[]` and the scalars a `set` refuses are the containers. -/
def hashable : Json → Bool
  | arr _ | obj _ => false
  | _ => true

def isStr (v : Json) (s : String) : Bool :=
  match v with
  | .str t => decide (t = u s)
  | _ => false

@[simp] theorem isStr_eq_true {v : Json} {s : String} : v.isStr s = true ↔ v = .str (u s) := by
  cases v <;> simp [isStr]

def isNull : Json → Bool
  | null => true
  | _ => false

@[simp] theorem isNull_eq_true {v : Json} : v.isNull = true ↔ v = .null := by
  cases v <;> simp [isNull]

end Json

/-! ## Dictionaries -/

namespace Dict

def keys (d : Dict) : List Str := d.map Prod.fst

def lookup (d : Dict) (key : Str) : Option Json := (d.find? fun kv => decide (kv.1 = key)).map Prod.snd

/-- `d.get(key)`. -/
def get (d : Dict) (key : String) : Json := (lookup d (u key)).getD .null

def contains (d : Dict) (key : Str) : Bool := d.any fun kv => decide (kv.1 = key)

/-- `set(d) == names`. -/
def keysEq (d : Dict) (names : List String) : Bool :=
  (keys d).all (fun key => decide (key ∈ names.map u)) && names.all (fun name => contains d (u name))

/-- `d[key] = value`. -/
def set (d : Dict) (key : Str) (value : Json) : Dict :=
  if contains d key then d.map fun kv => if kv.1 = key then (key, value) else kv
  else d ++ [(key, value)]

theorem lookup_cons (key key' : Str) (value : Json) (d : Dict) :
    lookup ((key, value) :: d) key' = if key = key' then some value else lookup d key' := by
  unfold lookup
  by_cases h : key = key' <;> simp [h]

@[simp] theorem lookup_nil (key : Str) : lookup [] key = none := rfl

theorem get_cons (key name : String) (value : Json) (d : Dict) :
    get ((u key, value) :: d) name = if key = name then value else get d name := by
  unfold get
  rw [lookup_cons]
  by_cases h : key = name <;> simp [h]

theorem contains_eq_true {d : Dict} {key : Str} : contains d key = true ↔ key ∈ keys d := by
  simp [contains, keys]

theorem lookup_eq_none {d : Dict} {key : Str} : lookup d key = none ↔ key ∉ keys d := by
  simp [lookup, keys]
  grind

theorem mem_of_lookup {d : Dict} {key : Str} {value : Json} (h : lookup d key = some value) :
    (key, value) ∈ d := by
  unfold lookup at h
  obtain ⟨kv, hfind, rfl⟩ := Option.map_eq_some_iff.mp h
  have hkey : kv.1 = key := by simpa using List.find?_some hfind
  have hmem := List.mem_of_find?_eq_some hfind
  rw [← hkey]
  exact hmem

theorem lookup_of_mem {d : Dict} (hnodup : (keys d).Nodup) {key : Str} {value : Json}
    (h : (key, value) ∈ d) : lookup d key = some value := by
  induction d with
  | nil => cases h
  | cons kv d ih =>
    obtain ⟨k, v⟩ := kv
    rw [lookup_cons]
    simp only [keys, List.map_cons, List.nodup_cons] at hnodup
    rcases List.mem_cons.mp h with heq | h
    · cases heq
      simp
    · have hne : k ≠ key := by
        rintro rfl
        exact hnodup.1 (List.mem_map.mpr ⟨_, h, rfl⟩)
      rw [if_neg hne]
      exact ih hnodup.2 h

theorem get_of_mem {d : Dict} (hnodup : (keys d).Nodup) {name : String} {value : Json}
    (h : (u name, value) ∈ d) : get d name = value := by
  rw [get, lookup_of_mem hnodup h]
  rfl

/-- The fields of a dictionary whose key set is known. -/
theorem fields_of_keysEq {d : Dict} {names : List String} (hkeys : keysEq d names = true)
    (hnodup : (keys d).Nodup) {kv : Str × Json} (h : kv ∈ d) :
    ∃ name ∈ names, kv = (u name, get d name) := by
  have hmem : kv.1 ∈ names.map u := by
    have hall := (Bool.and_eq_true_iff.mp hkeys).1
    exact of_decide_eq_true (List.all_eq_true.mp hall kv.1 (List.mem_map_of_mem h))
  obtain ⟨name, hname, heq⟩ := List.mem_map.mp hmem
  refine ⟨name, hname, ?_⟩
  have hget : get d name = kv.2 := get_of_mem hnodup (by rw [heq]; exact h)
  rw [hget, heq]

theorem get_mem_walk {d : Dict} {name : String} (h : get d name ≠ .null) :
    ∃ kv ∈ d, kv.2 = get d name := by
  unfold get at h ⊢
  cases hlookup : lookup d (u name) with
  | none => simp [hlookup] at h
  | some value => exact ⟨_, mem_of_lookup hlookup, rfl⟩

theorem lookup_perm {d e : Dict} (h : d.Perm e) (hnodup : (keys d).Nodup) (key : Str) :
    lookup d key = lookup e key := by
  have hnodup' : (keys e).Nodup := (h.map Prod.fst).nodup_iff.mp hnodup
  cases hd : lookup d key with
  | none =>
    refine (lookup_eq_none.mpr fun hmem => ?_).symm
    exact lookup_eq_none.mp hd ((h.map Prod.fst).mem_iff.mpr hmem)
  | some value => exact (lookup_of_mem hnodup' (h.mem_iff.mp (mem_of_lookup hd))).symm

end Dict

/-! ## Equality -/

namespace Json

/-- The number a `bool`, `int` or `float` compares as; infinities and NaN have none. -/
def number : Json → Option ℚ
  | .bool b => some (if b then 1 else 0)
  | .int n => some n
  | .float x => x.value?
  | _ => none

def sameNumber (v w : Json) : Bool :=
  match v, w with
  | .float (.inf a), .float (.inf b) => a == b
  | v, w =>
    match v.number, w.number with
    | some p, some q => decide (p = q)
    | _, _ => false

mutual
/-- `v == w`. -/
def pyEq : Json → Json → Bool
  | .null, .null => true
  | .str s, .str t => decide (s = t)
  | .arr xs, .arr ys => pyEqItems xs ys
  | .obj fs, .obj gs => decide (fs.length = gs.length) && pyEqFields fs gs
  | v, w => sameNumber v w

def pyEqItems : List Json → List Json → Bool
  | [], [] => true
  | v :: vs, w :: ws => pyEq v w && pyEqItems vs ws
  | _, _ => false

def pyEqFields : List (Str × Json) → List (Str × Json) → Bool
  | [], _ => true
  | (key, v) :: rest, gs =>
    (match Dict.lookup gs key with
      | some w => pyEq v w
      | none => false) && pyEqFields rest gs
end

@[simp] theorem pyEq_str {v : Json} {t : Str} : pyEq v (.str t) = true ↔ v = .str t := by
  cases v <;> simp [pyEq, sameNumber, number]

@[simp] theorem pyEq_null {v : Json} : pyEq v .null = true ↔ v = .null := by
  cases v <;> simp [pyEq, sameNumber, number]

end Json

/-! ## Key order -/

def KeyLe (a b : Str × Json) : Prop := strLe a.1 b.1 = true

instance : DecidableRel KeyLe := fun a b => inferInstanceAs (Decidable (strLe a.1 b.1 = true))

instance : Std.Total KeyLe := ⟨fun a b => strLe_total a.1 b.1⟩

instance : IsTrans (Str × Json) KeyLe := ⟨fun _ _ _ => strLe_trans⟩

namespace Json

mutual
/-- The value with the keys of every object in `sorted` order. -/
def sortKeys : Json → Json
  | .arr items => .arr (sortItems items)
  | .obj fields => .obj ((sortFields fields).insertionSort KeyLe)
  | v => v

def sortItems : List Json → List Json
  | [] => []
  | v :: rest => sortKeys v :: sortItems rest

def sortFields : List (Str × Json) → List (Str × Json)
  | [] => []
  | (key, v) :: rest => (key, sortKeys v) :: sortFields rest
end

theorem sortItems_eq (items : List Json) : sortItems items = items.map sortKeys := by
  induction items with
  | nil => rfl
  | cons v rest ih => rw [sortItems, ih, List.map_cons]

theorem sortFields_eq (fields : Dict) :
    sortFields fields = fields.map fun kv => (kv.1, sortKeys kv.2) := by
  induction fields with
  | nil => rfl
  | cons kv rest ih => rw [sortFields, ih, List.map_cons]

theorem keys_sortFields (fields : Dict) : Dict.keys (sortFields fields) = Dict.keys fields := by
  simp [sortFields_eq, Dict.keys]

/-! ## The nodes of a value -/

mutual
/-- The value, its keys and its parts, the outer ones first. -/
def walk : Json → List Json
  | .arr items => .arr items :: walkItems items
  | .obj fields => .obj fields :: walkFields fields
  | v => [v]

def walkItems : List Json → List Json
  | [] => []
  | v :: rest => walk v ++ walkItems rest

def walkFields : List (Str × Json) → List Json
  | [] => []
  | (key, v) :: rest => .str key :: (walk v ++ walkFields rest)
end

mutual
/-- How many containers enclose the innermost part. -/
def depth : Json → Nat
  | .arr items => depthItems items + 1
  | .obj fields => depthFields fields + 1
  | _ => 0

def depthItems : List Json → Nat
  | [] => 0
  | v :: rest => max (depth v) (depthItems rest)

def depthFields : List (Str × Json) → Nat
  | [] => 0
  | (_, v) :: rest => max (depth v) (depthFields rest)
end

theorem mem_walk_self (v : Json) : v ∈ v.walk := by
  cases v <;> simp [walk]

theorem mem_walkItems {w : Json} {items : List Json} :
    w ∈ walkItems items ↔ ∃ v ∈ items, w ∈ v.walk := by
  induction items with
  | nil => simp [walkItems]
  | cons v rest ih => simp [walkItems, ih]

theorem mem_walkFields {w : Json} {fields : Dict} :
    w ∈ walkFields fields ↔ ∃ kv ∈ fields, w = .str kv.1 ∨ w ∈ kv.2.walk := by
  induction fields with
  | nil => simp [walkFields]
  | cons kv rest ih => simp [walkFields, ih, or_assoc]

/-- Every object in the value has distinct keys. -/
def UniqueKeys (v : Json) : Prop := ∀ fields, .obj fields ∈ v.walk → (Dict.keys fields).Nodup

theorem uniqueKeys_arr {items : List Json} :
    UniqueKeys (.arr items) ↔ ∀ v ∈ items, UniqueKeys v := by
  simp only [UniqueKeys, walk, List.mem_cons, reduceCtorEq, false_or, mem_walkItems]
  constructor
  · exact fun h v hv fields hf => h fields ⟨v, hv, hf⟩
  · rintro h fields ⟨v, hv, hf⟩
    exact h v hv fields hf

theorem uniqueKeys_obj {fields : Dict} :
    UniqueKeys (.obj fields) ↔ (Dict.keys fields).Nodup ∧ ∀ kv ∈ fields, UniqueKeys kv.2 := by
  simp only [UniqueKeys, walk, List.mem_cons, mem_walkFields]
  constructor
  · refine fun h => ⟨h fields (.inl rfl), fun kv hkv fields' hf => h fields' (.inr ⟨kv, hkv, .inr hf⟩)⟩
  · rintro ⟨hkeys, h⟩ fields' (heq | ⟨kv, hkv, heq | hf⟩)
    · cases heq
      exact hkeys
    · cases heq
    · exact h kv hkv fields' hf

theorem walk_trans {v w x : Json} (hw : w ∈ v.walk) (hx : x ∈ w.walk) : x ∈ v.walk := by
  induction v using Json.induct with
  | arr items ih =>
    simp only [walk, List.mem_cons, mem_walkItems] at hw ⊢
    rcases hw with rfl | ⟨v, hv, hw⟩
    · simpa only [walk, List.mem_cons, mem_walkItems] using hx
    · exact .inr ⟨v, hv, ih v hv hw⟩
  | obj fields ih =>
    simp only [walk, List.mem_cons, mem_walkFields] at hw ⊢
    rcases hw with rfl | ⟨kv, hkv, rfl | hw⟩
    · simpa only [walk, List.mem_cons, mem_walkFields] using hx
    · exact .inr ⟨kv, hkv, .inl (by simpa [walk] using hx)⟩
    · exact .inr ⟨kv, hkv, .inr (ih kv hkv hw)⟩
  | _ =>
    simp only [walk, List.mem_singleton] at hw
    subst hw
    exact hx

theorem depth_le_items {v : Json} {items : List Json} (h : v ∈ items) :
    depth v ≤ depthItems items := by
  induction items with
  | nil => cases h
  | cons w rest ih =>
    rcases List.mem_cons.mp h with rfl | h
    · exact le_max_left _ _
    · exact (ih h).trans (le_max_right _ _)

theorem depth_le_fields {kv : Str × Json} {fields : Dict} (h : kv ∈ fields) :
    depth kv.2 ≤ depthFields fields := by
  induction fields with
  | nil => cases h
  | cons w rest ih =>
    rcases List.mem_cons.mp h with rfl | h
    · exact le_max_left _ _
    · exact (ih h).trans (le_max_right _ _)

/-! ## Sorting keeps the nodes -/

theorem mem_sortFields {kv : Str × Json} {fields : Dict} :
    kv ∈ (sortFields fields).insertionSort KeyLe ↔ ∃ kw ∈ fields, kv = (kw.1, sortKeys kw.2) := by
  rw [List.mem_insertionSort, sortFields_eq, List.mem_map]
  simp only [eq_comm]

theorem walk_sortKeys {v w : Json} (h : w ∈ (sortKeys v).walk) : ∃ x ∈ v.walk, w = sortKeys x := by
  induction v using Json.induct with
  | arr items ih =>
    rw [sortKeys, walk, List.mem_cons, mem_walkItems] at h
    rcases h with rfl | ⟨v, hv, hw⟩
    · exact ⟨_, mem_walk_self _, by rw [sortKeys]⟩
    · rw [sortItems_eq] at hv
      obtain ⟨v', hv', rfl⟩ := List.mem_map.mp hv
      obtain ⟨x, hx, rfl⟩ := ih v' hv' hw
      exact ⟨x, List.mem_cons_of_mem _ (mem_walkItems.mpr ⟨v', hv', hx⟩), rfl⟩
  | obj fields ih =>
    rw [sortKeys, walk, List.mem_cons, mem_walkFields] at h
    rcases h with rfl | ⟨kv, hkv, hw⟩
    · exact ⟨_, mem_walk_self _, by rw [sortKeys]⟩
    · obtain ⟨kw, hkw, rfl⟩ := mem_sortFields.mp hkv
      rcases hw with rfl | hw
      · exact ⟨.str kw.1, List.mem_cons_of_mem _ (mem_walkFields.mpr ⟨kw, hkw, .inl rfl⟩), rfl⟩
      · obtain ⟨x, hx, rfl⟩ := ih kw hkw hw
        exact ⟨x, List.mem_cons_of_mem _ (mem_walkFields.mpr ⟨kw, hkw, .inr hx⟩), rfl⟩
  | _ => exact ⟨w, h, by simp_all [walk, sortKeys]⟩

theorem get_mem_walk {fields : Dict} {name : String} (h : Dict.get fields name ≠ .null) :
    Dict.get fields name ∈ (Json.obj fields).walk := by
  obtain ⟨kv, hkv, heq⟩ := Dict.get_mem_walk h
  rw [walk]
  exact List.mem_cons_of_mem _ (mem_walkFields.mpr ⟨kv, hkv, .inr (heq ▸ mem_walk_self _)⟩)

theorem walkFields_perm (fields : Dict) : (walkFields fields).Perm
    ((fields.map Prod.snd).flatMap walk ++ fields.map fun kv => .str kv.1) := by
  induction fields with
  | nil => exact .nil
  | cons kv rest ih =>
    obtain ⟨key, v⟩ := kv
    simp only [walkFields, List.map_cons, List.flatMap_cons]
    refine (List.Perm.cons _ (ih.append_left _)).trans ?_
    rw [List.append_assoc, ← List.append_assoc, ← List.append_assoc]
    exact List.perm_middle.symm

theorem walkItems_eq (items : List Json) : walkItems items = items.flatMap walk := by
  induction items with
  | nil => rfl
  | cons v rest ih => rw [walkItems, ih, List.flatMap_cons]

/-! ## Values without floats -/

theorem depthItems_le {items : List Json} {n : Nat} :
    depthItems items ≤ n ↔ ∀ v ∈ items, depth v ≤ n := by
  induction items with
  | nil => simp [depthItems]
  | cons v rest ih => simp [depthItems, ih]

theorem depthFields_le {fields : Dict} {n : Nat} :
    depthFields fields ≤ n ↔ ∀ kv ∈ fields, depth kv.2 ≤ n := by
  induction fields with
  | nil => simp [depthFields]
  | cons kv rest ih => simp [depthFields, ih]

/-- `v` holds no float and at most `n` containers are nested. -/
def Plain (n : Nat) (v : Json) : Prop := v.depth ≤ n ∧ ∀ x, .float x ∉ v.walk

def isFloat : Json → Bool
  | .float _ => true
  | _ => false

theorem plain_of_walk {n : Nat} {v : Json} (hdepth : v.depth ≤ n) (hwalk : v.walk.all (fun x => !x.isFloat) = true) :
    Plain n v := by
  refine ⟨hdepth, ?_⟩
  intro x hx
  have hfloat := List.all_eq_true.mp hwalk _ hx
  rw [isFloat, Bool.not_true] at hfloat
  cases hfloat

theorem Plain.mono {m n : Nat} {v : Json} (h : Plain m v) (hmn : m ≤ n) : Plain n v :=
  ⟨h.1.trans hmn, h.2⟩

theorem plain_null (n : Nat) : Plain n .null := ⟨Nat.zero_le _, by simp [walk]⟩

theorem plain_int (n : Nat) (k : ℤ) : Plain n (.int k) := ⟨Nat.zero_le _, by simp [walk]⟩

theorem plain_str (n : Nat) (s : Str) : Plain n (.str s) := ⟨Nat.zero_le _, by simp [walk]⟩

theorem plain_arr {n : Nat} {items : List Json} (h : ∀ v ∈ items, Plain n v) :
    Plain (n + 1) (.arr items) := by
  constructor
  · rw [depth, Nat.succ_le_succ_iff, depthItems_le]
    exact fun v hv => (h v hv).1
  · intro x hx
    rw [walk, List.mem_cons, mem_walkItems] at hx
    rcases hx with hx | ⟨v, hv, hx⟩
    · cases hx
    · exact (h v hv).2 x hx

theorem plain_obj {n : Nat} {fields : Dict} (h : ∀ kv ∈ fields, Plain n kv.2) :
    Plain (n + 1) (.obj fields) := by
  constructor
  · rw [depth, Nat.succ_le_succ_iff, depthFields_le]
    exact fun kv hkv => (h kv hkv).1
  · intro x hx
    rw [walk, List.mem_cons, mem_walkFields] at hx
    rcases hx with hx | ⟨kv, hkv, hx | hx⟩
    · cases hx
    · cases hx
    · exact (h kv hkv).2 x hx

/-- A dictionary with known keys is plain when the value at each of them is. -/
theorem plain_of_keysEq {n : Nat} {fields : Dict} {names : List String}
    (hkeys : Dict.keysEq fields names = true) (hnodup : (Dict.keys fields).Nodup)
    (h : ∀ name ∈ names, Plain n (Dict.get fields name)) : Plain (n + 1) (.obj fields) := by
  apply plain_obj
  intro kv hkv
  obtain ⟨name, hname, rfl⟩ := Dict.fields_of_keysEq hkeys hnodup hkv
  exact h name hname

theorem length_walkItems (items : List Json) :
    (walkItems items).length = (items.map fun v => v.walk.length).sum := by
  induction items with
  | nil => rfl
  | cons v rest ih => simp [walkItems, ih]

theorem length_walkFields (fields : Dict) :
    (walkFields fields).length = (fields.map fun kv => kv.2.walk.length + 1).sum := by
  induction fields with
  | nil => rfl
  | cons kv rest ih => simp [walkFields, ih]; omega

theorem length_walk_le {v w : Json} (hw : w ∈ v.walk) : w.walk.length ≤ v.walk.length := by
  induction v using Json.induct with
  | arr items ih =>
    rw [walk, List.mem_cons, mem_walkItems] at hw
    rcases hw with rfl | ⟨v, hv, hw⟩
    · exact le_rfl
    · rw [walk, List.length_cons, length_walkItems]
      have hsum := List.single_le_sum (by simp) _
        (List.mem_map_of_mem (f := fun v : Json => v.walk.length) hv)
      have hle := ih v hv hw
      omega
  | obj fields ih =>
    rw [walk, List.mem_cons, mem_walkFields] at hw
    rcases hw with rfl | ⟨kv, hkv, hw⟩
    · exact le_rfl
    · rw [walk, List.length_cons, length_walkFields]
      have hsum := List.single_le_sum (by simp) _
        (List.mem_map_of_mem (f := fun kv : Str × Json => kv.2.walk.length + 1) hkv)
      rcases hw with rfl | hw
      · simp only [walk, List.length_singleton]
        omega
      · have hle := ih kv hkv hw
        omega
  | _ =>
    simp only [walk, List.mem_singleton] at hw
    subst hw
    exact le_rfl

theorem length_walk_sortKeys (v : Json) : (sortKeys v).walk.length = v.walk.length := by
  induction v using Json.induct with
  | arr items ih =>
    rw [sortKeys, walk, walk, List.length_cons, List.length_cons, length_walkItems,
      length_walkItems, sortItems_eq, List.map_map]
    congr 2
    exact List.map_congr_left ih
  | obj fields ih =>
    rw [sortKeys, walk, walk, List.length_cons, List.length_cons, length_walkFields,
      length_walkFields, ((List.perm_insertionSort KeyLe (sortFields fields)).map _).sum_eq,
      sortFields_eq, List.map_map]
    congr 2
    exact List.map_congr_left fun kv hkv => congrArg (· + 1) (ih kv hkv)
  | _ => rfl

theorem depth_sortKeys_le (v : Json) : (sortKeys v).depth ≤ v.depth := by
  induction v using Json.induct with
  | arr items ih =>
    rw [sortKeys, depth, depth, Nat.succ_le_succ_iff, depthItems_le, sortItems_eq]
    intro w hw
    obtain ⟨v, hv, rfl⟩ := List.mem_map.mp hw
    exact (ih v hv).trans (depth_le_items hv)
  | obj fields ih =>
    rw [sortKeys, depth, depth, Nat.succ_le_succ_iff, depthFields_le]
    intro kw hkw
    obtain ⟨kv, hkv, rfl⟩ := mem_sortFields.mp hkw
    exact (ih kv hkv).trans (depth_le_fields hkv)
  | _ => exact le_rfl

theorem UniqueKeys.sortKeys {v : Json} (h : UniqueKeys v) : UniqueKeys (sortKeys v) := by
  intro fields hfields
  obtain ⟨x, hx, heq⟩ := walk_sortKeys hfields
  cases x with
  | obj fields' =>
    rw [Json.sortKeys] at heq
    cases heq
    have hnodup := h fields' hx
    rw [← keys_sortFields] at hnodup
    exact ((List.perm_insertionSort KeyLe _).map Prod.fst).nodup_iff.mpr hnodup
  | _ => simp [Json.sortKeys] at heq

theorem Plain.sortKeys {n : Nat} {v : Json} (h : Plain n v) : Plain n (sortKeys v) := by
  refine ⟨(depth_sortKeys_le v).trans h.1, fun x hx => ?_⟩
  obtain ⟨w, hw, heq⟩ := walk_sortKeys hx
  cases w with
  | float y =>
    cases heq
    exact h.2 x hw
  | _ => simp [Json.sortKeys] at heq

theorem pyEqFields_iff {fs gs : Dict} : pyEqFields fs gs = true ↔
    ∀ kv ∈ fs, ∃ w, Dict.lookup gs kv.1 = some w ∧ pyEq kv.2 w = true := by
  induction fs with
  | nil => simp [pyEqFields]
  | cons kv rest ih =>
    rw [pyEqFields, Bool.and_eq_true, ih, List.forall_mem_cons]
    cases Dict.lookup gs kv.1 <;> simp

/-- Sorting the keys does not change the value `==` sees. -/
theorem pyEq_sortKeys {n : Nat} {v : Json} (hunique : UniqueKeys v) (hplain : Plain n v) :
    pyEq (sortKeys v) v = true := by
  induction v using Json.induct generalizing n with
  | float x => exact absurd (mem_walk_self _) (hplain.2 x)
  | arr items ih =>
    rw [sortKeys, pyEq, sortItems_eq]
    have hitems : ∀ v ∈ items, pyEq (sortKeys v) v = true := fun v hv =>
      ih v hv (uniqueKeys_arr.mp hunique v hv) (n := (Json.arr items).depth)
        ⟨(depth_le_items hv).trans (Nat.le_succ _), fun x hx => hplain.2 x
          (List.mem_cons_of_mem _ (mem_walkItems.mpr ⟨v, hv, hx⟩))⟩
    clear ih hunique hplain
    induction items with
    | nil => rfl
    | cons v rest ih =>
      rw [List.map_cons, pyEqItems, hitems v List.mem_cons_self,
        ih fun w hw => hitems w (List.mem_cons_of_mem _ hw)]
      rfl
  | obj fields ih =>
    obtain ⟨hkeys, hfields⟩ := uniqueKeys_obj.mp hunique
    rw [sortKeys, pyEq, Bool.and_eq_true, decide_eq_true_eq, pyEqFields_iff]
    constructor
    · rw [List.length_insertionSort, sortFields_eq, List.length_map]
    · intro kw hkw
      obtain ⟨kv, hkv, rfl⟩ := mem_sortFields.mp hkw
      refine ⟨kv.2, Dict.lookup_of_mem hkeys hkv, ih kv hkv (hfields kv hkv)
        (n := (Json.obj fields).depth) ⟨(depth_le_fields hkv).trans (Nat.le_succ _), fun x hx => ?_⟩⟩
      exact hplain.2 x (List.mem_cons_of_mem _ (mem_walkFields.mpr ⟨kv, hkv, .inr hx⟩))
  | null => rfl
  | bool b => cases b <;> rfl
  | int n => simp [sortKeys, pyEq, sameNumber, number]
  | str s => simp [sortKeys]

theorem lookup_map_sortKeys (fields : Dict) (key : Str) :
    Dict.lookup (sortFields fields) key = (Dict.lookup fields key).map sortKeys := by
  induction fields with
  | nil => rfl
  | cons kv rest ih =>
    obtain ⟨k, v⟩ := kv
    rw [sortFields, Dict.lookup_cons, Dict.lookup_cons, ih]
    split_ifs <;> rfl

/-- Reading a key of a sorted object. -/
theorem get_sortKeys {fields : Dict} (h : (Dict.keys fields).Nodup) (name : String) :
    Dict.get ((sortFields fields).insertionSort KeyLe) name = sortKeys (Dict.get fields name) := by
  have hnodup : (Dict.keys (sortFields fields)).Nodup := by
    rw [keys_sortFields]
    exact h
  unfold Dict.get
  rw [← Dict.lookup_perm (List.perm_insertionSort KeyLe _).symm hnodup, lookup_map_sortKeys]
  cases Dict.lookup fields (u name) <;> rfl

theorem keysEq_sortKeys (fields : Dict) (names : List String) :
    Dict.keysEq ((sortFields fields).insertionSort KeyLe) names = Dict.keysEq fields names := by
  have hmem : ∀ key, key ∈ Dict.keys ((sortFields fields).insertionSort KeyLe) ↔
      key ∈ Dict.keys fields := by
    intro key
    rw [← keys_sortFields fields]
    exact ((List.perm_insertionSort KeyLe _).map Prod.fst).mem_iff
  rw [Bool.eq_iff_iff]
  simp only [Dict.keysEq, Bool.and_eq_true, List.all_eq_true, Dict.contains_eq_true, hmem]

end Json

end Python
