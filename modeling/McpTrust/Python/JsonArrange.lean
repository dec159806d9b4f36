import McpTrust.Refresh.Codec
import McpTrust.Python.IsoRoundtrip

/-! # Reading an arranged object

Arranging an object moves its members; what is read of it by name stays, arranged
in turn.
-/

namespace Python

set_option autoImplicit false

open McpTrust.Receipt

/-- Two orders of the same members sort into one. -/
theorem insertionSort_eq_of_perm {d e : Dict} (h : d.Perm e) (hnodup : (Dict.keys d).Nodup) :
    d.insertionSort KeyLe = e.insertionSort KeyLe := by
  have hperm : (d.insertionSort KeyLe).Perm (e.insertionSort KeyLe) :=
    (List.perm_insertionSort KeyLe d).trans (h.trans (List.perm_insertionSort KeyLe e).symm)
  apply hperm.eq_of_pairwise _ (List.pairwise_insertionSort KeyLe d) (List.pairwise_insertionSort KeyLe e)
  intro a b ha hb hab hba
  have hkey : a.1 = b.1 := strLe_antisymm hab hba
  have ha' : (a.1, a.2) ∈ d := (List.mem_insertionSort KeyLe).mp ha
  have hb' : (b.1, b.2) ∈ d := h.mem_iff.mpr ((List.mem_insertionSort KeyLe).mp hb)
  have hleft := Dict.lookup_of_mem hnodup ha'
  rw [hkey, Dict.lookup_of_mem hnodup hb'] at hleft
  exact Prod.ext hkey (Option.some.inj hleft).symm

theorem sortKeys_sortKeys {v : Json} (hv : v.UniqueKeys) : v.sortKeys.sortKeys = v.sortKeys := by
  induction v using Json.induct with
  | arr items ih =>
    rw [Json.sortKeys, Json.sortKeys, Json.sortItems_eq, Json.sortItems_eq, List.map_map]
    congr 1
    exact List.map_congr_left fun v hv' => ih v hv' (Json.uniqueKeys_arr.mp hv v hv')
  | obj fields ih =>
    obtain ⟨hnodup, hfields⟩ := Json.uniqueKeys_obj.mp hv
    rw [Json.sortKeys, Json.sortKeys]
    congr 1
    have hmembers : Json.sortFields (Json.sortFields fields) = Json.sortFields fields := by
      rw [Json.sortFields_eq, Json.sortFields_eq, List.map_map]
      exact List.map_congr_left fun kv hkv => by rw [Function.comp_apply, ih kv hkv (hfields kv hkv)]
    have hperm : (Json.sortFields ((Json.sortFields fields).insertionSort KeyLe)).Perm (Json.sortFields fields) := by
      conv_rhs => rw [← hmembers]
      rw [Json.sortFields_eq, Json.sortFields_eq (Json.sortFields fields)]
      exact (List.perm_insertionSort KeyLe _).map _
    apply insertionSort_eq_of_perm hperm
    rw [Dict.keys, (hperm.map Prod.fst).nodup_iff, ← Dict.keys, Json.keys_sortFields]
    exact hnodup
  | _ => rfl

/-- The members in the order the style writes them. -/
def arrangeFields (st : Style) (fields : Dict) : Dict :=
  if st.sortKeys then (Json.sortFields fields).insertionSort KeyLe else fields

theorem arrange_obj (st : Style) (fields : Dict) : st.arrange (.obj fields) = .obj (arrangeFields st fields) := by
  rw [Style.arrange, arrangeFields]
  split
  · rw [Json.sortKeys]
  · rfl

theorem arrange_arr (st : Style) (items : List Json) : st.arrange (.arr items) = .arr (items.map st.arrange) := by
  unfold Style.arrange
  split
  · rw [Json.sortKeys, Json.sortItems_eq]
  · rw [List.map_id']

theorem arrange_scalar (st : Style) {v : Json} (h : v.sortKeys = v) : st.arrange v = v := by
  rw [Style.arrange, h, ite_self]

theorem get_arrangeFields (st : Style) {fields : Dict} (hnodup : (Dict.keys fields).Nodup) (name : String) :
    Dict.get (arrangeFields st fields) name = st.arrange (Dict.get fields name) := by
  rw [arrangeFields, Style.arrange]
  split
  · exact Json.get_sortKeys hnodup name
  · rfl

theorem keysEq_arrangeFields (st : Style) (fields : Dict) (names : List String) :
    Dict.keysEq (arrangeFields st fields) names = Dict.keysEq fields names := by
  rw [arrangeFields]
  split
  · exact Json.keysEq_sortKeys fields names
  · rfl

/-- Leaving members out by name before or after arranging. -/
theorem sortKeys_filter_arrange (st : Style) {fields : Dict} (hv : (Json.obj fields).UniqueKeys) (keep : Str → Bool) :
    (Json.obj ((arrangeFields st fields).filter fun kv => keep kv.1)).sortKeys =
      (Json.obj (fields.filter fun kv => keep kv.1)).sortKeys := by
  rw [arrangeFields]
  split
  · obtain ⟨hnodup, hfields⟩ := Json.uniqueKeys_obj.mp hv
    have hkept : (Json.sortFields fields).filter (fun kv => keep kv.1) =
        Json.sortFields (fields.filter fun kv => keep kv.1) := by
      rw [Json.sortFields_eq, Json.sortFields_eq, List.filter_map]
      rfl
    have hmembers : Json.sortFields (Json.sortFields (fields.filter fun kv => keep kv.1)) =
        Json.sortFields (fields.filter fun kv => keep kv.1) := by
      rw [Json.sortFields_eq, Json.sortFields_eq, List.map_map]
      refine List.map_congr_left fun kv hkv => ?_
      rw [Function.comp_apply, sortKeys_sortKeys (hfields kv (List.mem_filter.mp hkv).1)]
    rw [Json.sortKeys, Json.sortKeys]
    congr 1
    have hperm : (Json.sortFields (((Json.sortFields fields).insertionSort KeyLe).filter fun kv => keep kv.1)).Perm
        (Json.sortFields (fields.filter fun kv => keep kv.1)) := by
      have hmap := ((List.perm_insertionSort KeyLe (Json.sortFields fields)).filter fun kv => keep kv.1).map
        fun kv => (kv.1, kv.2.sortKeys)
      rwa [← Json.sortFields_eq, ← Json.sortFields_eq, hkept, hmembers] at hmap
    apply insertionSort_eq_of_perm hperm
    rw [Dict.keys, (hperm.map Prod.fst).nodup_iff, ← Dict.keys, Json.keys_sortFields]
    exact hnodup.sublist (List.filter_sublist.map Prod.fst)
  · rfl

/-- Equality with types is `==` where no float is a NaN. -/
theorem pyEq_of_exactEq {v w : Json} (h : exactEq v w = true) (hfinite : ∀ x, .float x ∈ v.walk → x.isFinite = true) :
    Json.pyEq v w = true := by
  induction v using Json.induct generalizing w with
  | arr items ih =>
    cases w with
    | arr items' =>
      rw [exactEq] at h
      rw [Json.pyEq]
      have hitems : ∀ v ∈ items, ∀ x, .float x ∈ v.walk → x.isFinite = true := fun v hv x hx =>
        hfinite x (List.mem_cons_of_mem _ (Json.mem_walkItems.mpr ⟨v, hv, hx⟩))
      clear hfinite
      induction items generalizing items' with
      | nil =>
        cases items' with
        | nil => rfl
        | cons w rest' => simp [exactItems] at h
      | cons v rest ihRest =>
        cases items' with
        | nil => simp [exactItems] at h
        | cons w rest' =>
          rw [exactItems, Bool.and_eq_true] at h
          rw [Json.pyEqItems, ih v List.mem_cons_self h.1 (hitems v List.mem_cons_self),
            ihRest (fun x hx => ih x (List.mem_cons_of_mem _ hx)) rest' h.2
              (fun x hx => hitems x (List.mem_cons_of_mem _ hx))]
          rfl
    | _ => simp [exactEq] at h
  | obj fields ih =>
    cases w with
    | obj fields' =>
      rw [exactEq, Bool.and_eq_true, exactFields_iff] at h
      rw [Json.pyEq, Bool.and_eq_true, Json.pyEqFields_iff]
      refine ⟨h.1, fun kv hkv => ?_⟩
      obtain ⟨w, hlookup, heq⟩ := h.2 kv hkv
      exact ⟨w, hlookup, ih kv hkv heq fun x hx =>
        hfinite x (List.mem_cons_of_mem _ (Json.mem_walkFields.mpr ⟨kv, hkv, .inr hx⟩))⟩
    | _ => simp [exactEq] at h
  | float x =>
    cases w with
    | float y =>
      rw [exactEq, decide_eq_true_eq] at h
      subst h
      have hx := hfinite x (Json.mem_walk_self _)
      cases x with
      | finite x => simp [Json.pyEq, Json.sameNumber, Json.number, PyFloat.value?]
      | negZero => simp [Json.pyEq, Json.sameNumber, Json.number, PyFloat.value?]
      | inf negative => cases hx
      | nan => cases hx
    | _ => simp [exactEq] at h
  | null => cases w <;> simp_all [exactEq]
  | bool b => cases w <;> simp_all [exactEq, Json.pyEq, Json.sameNumber, Json.number]
  | int n => cases w <;> simp_all [exactEq, Json.pyEq, Json.sameNumber, Json.number]
  | str s => cases w <;> simp_all [exactEq]

/-- `==` does not see the arrangement. -/
theorem pyEq_arrange (st : Style) {v : Json} (hv : v.UniqueKeys) (hfinite : ∀ x, .float x ∈ v.walk → x.isFinite = true) :
    Json.pyEq (st.arrange v) v = true := by
  rw [Style.arrange]
  split
  · exact pyEq_of_exactEq (exactEq_sortKeys hv) fun x hx => hfinite x (mem_walk_sortKeys hx (float_not_container x).1 (float_not_container x).2)
  · exact pyEq_of_exactEq (exactEq_of_sortKeys hv rfl) hfinite

end Python
