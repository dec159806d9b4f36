import McpTrust.Python.Json

/-! # `dict.update`

Two dictionaries with the same keys in the same order that differ only under the
keys of an update are the same dictionary after it.
-/

namespace Python.Dict

set_option autoImplicit false

/-- `d.update(entries)`. -/
def update (d entries : Dict) : Dict := entries.foldl (fun d kv => d.set kv.1 kv.2) d

theorem lookup_append (d e : Dict) (key : Str) : lookup (d ++ e) key = (lookup d key).or (lookup e key) := by
  unfold lookup
  rw [List.find?_append]
  cases d.find? fun kv => decide (kv.1 = key) <;> rfl

theorem lookup_replace (d : Dict) (key : Str) (value : Json) (other : Str) :
    lookup (d.map fun kv => if kv.1 = key then (key, value) else kv) other =
      if key = other ∧ key ∈ keys d then some value else lookup d other := by
  induction d with
  | nil => rw [if_neg fun h => List.not_mem_nil h.2, List.map_nil]
  | cons kv d ih =>
    obtain ⟨k, v⟩ := kv
    have hmem : key ∈ keys ((k, v) :: d) ↔ key = k ∨ key ∈ keys d := List.mem_cons
    simp only [List.map_cons, hmem]
    by_cases hk : k = key
    · subst hk
      rw [if_pos rfl, lookup_cons, lookup_cons, ih]
      by_cases hother : k = other
      · rw [if_pos hother, if_pos ⟨hother, .inl rfl⟩]
      · rw [if_neg hother, if_neg fun h => hother h.1, if_neg fun h => hother h.1, if_neg hother]
    · rw [if_neg hk, lookup_cons, lookup_cons, ih]
      by_cases hother : k = other
      · rw [if_pos hother, if_neg fun h => hk (hother.trans h.1.symm), if_pos hother]
      · simp only [if_neg hother, Ne.symm hk, false_or]

theorem lookup_set (d : Dict) (key : Str) (value : Json) (other : Str) :
    lookup (d.set key value) other = if key = other then some value else lookup d other := by
  unfold Dict.set
  by_cases hin : contains d key = true
  · have hkey := contains_eq_true.mp hin
    rw [if_pos hin, lookup_replace]
    by_cases hother : key = other
    · rw [if_pos ⟨hother, hkey⟩, if_pos hother]
    · rw [if_neg fun h => hother h.1, if_neg hother]
  · have hnone : lookup d key = none := lookup_eq_none.mpr fun h => hin (contains_eq_true.mpr h)
    rw [if_neg hin, lookup_append, lookup_cons, lookup_nil]
    by_cases hother : key = other
    · rw [if_pos hother, if_pos hother, ← hother, hnone]
      rfl
    · rw [if_neg hother, if_neg hother, Option.or_none]

theorem lookup_update {entries : Dict} (hnodup : (keys entries).Nodup) (d : Dict) (key : Str) :
    lookup (d.update entries) key = (lookup entries key).or (lookup d key) := by
  induction entries generalizing d with
  | nil => rfl
  | cons kv entries ih =>
    obtain ⟨k, v⟩ := kv
    obtain ⟨hk, hrest⟩ := List.nodup_cons.mp hnodup
    rw [update, List.foldl_cons]
    refine (ih hrest (d.set k v)).trans ?_
    rw [lookup_set, lookup_cons]
    by_cases hkey : k = key
    · subst hkey
      rw [if_pos rfl, if_pos rfl, lookup_eq_none.mpr hk]
      rfl
    · rw [if_neg hkey, if_neg hkey]

theorem mem_keys_set {d : Dict} {key other : Str} {value : Json} :
    other ∈ keys (d.set key value) ↔ other ∈ keys d ∨ other = key := by
  have hlookup := lookup_set d key value other
  have hmem : ∀ d : Dict, other ∈ keys d ↔ lookup d other ≠ none := by
    intro d
    rw [ne_eq, lookup_eq_none, not_not]
  rw [hmem, hmem, hlookup]
  split_ifs with hsame
  · simp [hsame]
  · simp [Ne.symm hsame]

theorem mem_keys_update {entries : Dict} {other : Str} : ∀ {d : Dict},
    other ∈ keys (d.update entries) ↔ other ∈ keys d ∨ other ∈ keys entries := by
  induction entries with
  | nil =>
    intro d
    simp [update, keys]
  | cons kv entries ih =>
    intro d
    have hstep : d.update (kv :: entries) = (d.set kv.1 kv.2).update entries := rfl
    have hkeys : keys (kv :: entries) = kv.1 :: keys entries := rfl
    rw [hstep, ih, mem_keys_set, hkeys, List.mem_cons, or_assoc]

/-- The same keys in the same order, with the same values outside `names`. -/
def AgreeOff (names : Str → Prop) (d e : Dict) : Prop :=
  List.Forall₂ (fun a b => a.1 = b.1 ∧ (¬names a.1 → a.2 = b.2)) d e

variable {names : Str → Prop} {d e : Dict}

theorem AgreeOff.keys_eq (h : AgreeOff names d e) : keys d = keys e := by
  induction h with
  | nil => rfl
  | cons hab _ ih =>
    rw [keys, List.map_cons, hab.1]
    exact congrArg _ ih

theorem AgreeOff.eq (h : AgreeOff (fun _ => False) d e) : d = e := by
  induction h with
  | nil => rfl
  | cons hab _ ih =>
    rw [ih, Prod.ext hab.1 (hab.2 not_false)]

theorem AgreeOff.mono {names' : Str → Prop} (h : AgreeOff names d e)
    (hnames : ∀ key, names key → names' key) : AgreeOff names' d e :=
  h.imp fun _ _ hab => ⟨hab.1, fun hn => hab.2 fun hk => hn (hnames _ hk)⟩

/-- An absent key goes to the end of both. -/
theorem AgreeOff.append (h : AgreeOff names d e) {key : Str} (habsent : key ∉ keys d) (value : Json) :
    AgreeOff (fun k => names k ∧ k ≠ key) (d ++ [(key, value)]) (e ++ [(key, value)]) := by
  induction h with
  | nil => exact .cons ⟨rfl, fun _ => rfl⟩ .nil
  | @cons a b d e hab _ ih =>
    rw [keys, List.map_cons, List.mem_cons, not_or] at habsent
    exact .cons ⟨hab.1, fun hn => hab.2 fun hk => hn ⟨hk, habsent.1 ∘ Eq.symm⟩⟩ (ih habsent.2)

theorem AgreeOff.set (h : AgreeOff names d e) (key : Str) (value : Json) :
    AgreeOff (fun k => names k ∧ k ≠ key) (d.set key value) (e.set key value) := by
  have hkeys : contains d key = contains e key := by
    rw [Bool.eq_iff_iff, contains_eq_true, contains_eq_true, h.keys_eq]
  unfold Dict.set
  rw [hkeys]
  by_cases hin : contains e key = true
  · rw [if_pos hin, if_pos hin]
    apply List.forall₂_map_left_iff.mpr
    apply List.forall₂_map_right_iff.mpr
    refine h.imp fun a b hab => ?_
    by_cases hkey : a.1 = key
    · rw [if_pos hkey, if_pos (hab.1 ▸ hkey)]
      exact ⟨rfl, fun _ => rfl⟩
    · rw [if_neg hkey, if_neg (hab.1 ▸ hkey)]
      exact ⟨hab.1, fun hn => hab.2 fun hk => hn ⟨hk, hkey⟩⟩
  · rw [if_neg hin, if_neg hin]
    apply h.append
    rw [← contains_eq_true, hkeys]
    exact hin

theorem AgreeOff.update (h : AgreeOff names d e) (entries : Dict) :
    AgreeOff (fun k => names k ∧ k ∉ keys entries) (update d entries) (update e entries) := by
  induction entries generalizing names d e with
  | nil => exact h.mono fun key hkey => ⟨hkey, List.not_mem_nil⟩
  | cons kv entries ih =>
    refine (ih (h.set kv.1 kv.2)).mono fun key hkey => ⟨hkey.1.1, ?_⟩
    rw [keys, List.map_cons, List.mem_cons, not_or]
    exact ⟨hkey.1.2, hkey.2⟩

/-- An update that covers the difference removes it. -/
theorem AgreeOff.update_eq (h : AgreeOff names d e) {entries : Dict}
    (hcover : ∀ key, names key → key ∈ keys entries) : Dict.update d entries = Dict.update e entries :=
  ((h.update entries).mono fun key hkey => hkey.2 (hcover key hkey.1)).eq

end Python.Dict
