import McpTrust.Python.FloatRepr
import McpTrust.Python.JsonLoads
import McpTrust.Refresh.FileRoundtrip
import McpTrust.Refresh.Bundle
import McpTrust.Refresh.Codec
import McpTrust.Python.JsonArrange

/-! # Values that can be written and read back

Closed under the constructors of a value: what is writable part by part is read back
from any text `json.dumps` gives it.
-/

namespace Python

set_option autoImplicit false

open McpTrust.Refresh McpTrust.Receipt

theorem isSurrogate_ch (c : Char) : isSurrogate (ch c) = false := by
  have hvalid := c.valid
  simp only [isSurrogate, Bool.and_eq_false_iff, decide_eq_false_iff_not]
  change ¬0xD800 ≤ c.toNat ∨ ¬c.toNat ≤ 0xDFFF
  obtain hlow | hhigh := hvalid
  · exact .inl (by change c.toNat < 0xD800 at hlow; omega)
  · exact .inr (by have := hhigh.1; change 0xDFFF < c.toNat at this; omega)

theorem chain_of_scalars {s : Str} (h : ∀ c ∈ s, isSurrogate c = false) : s.IsChain NoPair :=
  escapable_of_scalars h asciiStyle rfl

theorem chain_of_ascii {s : Str} (h : Ascii s) : s.IsChain NoPair := escapable_of_ascii h asciiStyle rfl

theorem chain_u (s : String) : (u s).IsChain NoPair := by
  apply chain_of_scalars
  intro c hc
  rw [u_eq_map] at hc
  obtain ⟨d, -, rfl⟩ := List.mem_map.mp hc
  exact isSurrogate_ch d

/-- A value that any `json.dumps` writes so that it reads back, its integers apart. -/
structure Writable (depth : Nat) (v : Json) : Prop where
  shallow : v.depth ≤ depth
  unique : v.UniqueKeys
  floats : ∀ x, .float x ∈ v.walk → x.isFinite = true
  texts : Texts v

theorem writable_leaf {v : Json} (hwalk : v.walk = [v]) (hdepth : v.depth = 0) (hobj : ∀ fields, v ≠ .obj fields)
    (hfloat : ∀ x, v = .float x → x.isFinite = true) (hstr : ∀ s, v = .str s → s.IsChain NoPair) (depth : Nat) :
    Writable depth v where
  shallow := by omega
  unique fields hfields := by
    rw [hwalk, List.mem_singleton] at hfields
    exact absurd hfields.symm (hobj fields)
  floats x hx := by
    rw [hwalk, List.mem_singleton] at hx
    exact hfloat x hx.symm
  texts s hs := by
    rw [hwalk, List.mem_singleton] at hs
    exact hstr s hs.symm

theorem writable_null (depth : Nat) : Writable depth .null :=
  @writable_leaf .null (by simp [Json.walk]) rfl (by simp) (by simp) (by simp) depth

theorem writable_bool (b : Bool) (depth : Nat) : Writable depth (.bool b) :=
  @writable_leaf (.bool b) (by simp [Json.walk]) rfl (by simp) (by simp) (by simp) depth

theorem writable_int (n : ℤ) (depth : Nat) : Writable depth (.int n) :=
  @writable_leaf (.int n) (by simp [Json.walk]) rfl (by simp) (by simp) (by simp) depth

theorem writable_float {x : PyFloat} (hx : x.isFinite = true) (depth : Nat) : Writable depth (.float x) := by
  refine @writable_leaf (.float x) (by simp [Json.walk]) rfl (by simp) (fun y hy => ?_) (by simp) depth
  cases hy
  exact hx

theorem writable_str {s : Str} (hs : s.IsChain NoPair) (depth : Nat) : Writable depth (.str s) := by
  refine @writable_leaf (.str s) (by simp [Json.walk]) rfl (by simp) (by simp) (fun t ht => ?_) depth
  cases ht
  exact hs

theorem writable_arr {items : List Json} {depth : Nat} (h : ∀ v ∈ items, Writable depth v) :
    Writable (depth + 1) (.arr items) where
  shallow := by
    rw [Json.depth, Nat.succ_le_succ_iff, Json.depthItems_le]
    exact fun v hv => (h v hv).shallow
  unique := Json.uniqueKeys_arr.mpr fun v hv => (h v hv).unique
  floats x hx := by
    rw [Json.walk, List.mem_cons, Json.mem_walkItems] at hx
    obtain hx | ⟨v, hv, hx⟩ := hx
    · cases hx
    · exact (h v hv).floats x hx
  texts s hs := by
    rw [Json.walk, List.mem_cons, Json.mem_walkItems] at hs
    obtain hs | ⟨v, hv, hs⟩ := hs
    · cases hs
    · exact (h v hv).texts s hs

theorem writable_obj {fields : Dict} {depth : Nat} (hkeys : (Dict.keys fields).Nodup)
    (h : ∀ kv ∈ fields, kv.1.IsChain NoPair ∧ Writable depth kv.2) : Writable (depth + 1) (.obj fields) where
  shallow := by
    rw [Json.depth, Nat.succ_le_succ_iff, Json.depthFields_le]
    exact fun kv hkv => (h kv hkv).2.shallow
  unique := Json.uniqueKeys_obj.mpr ⟨hkeys, fun kv hkv => (h kv hkv).2.unique⟩
  floats x hx := by
    rw [Json.walk, List.mem_cons, Json.mem_walkFields] at hx
    obtain hx | ⟨kv, hkv, hx | hx⟩ := hx
    · cases hx
    · cases hx
    · exact (h kv hkv).2.floats x hx
  texts s hs := by
    rw [Json.walk, List.mem_cons, Json.mem_walkFields] at hs
    obtain hs | ⟨kv, hkv, hs | hs⟩ := hs
    · cases hs
    · cases hs
      exact (h kv hkv).1
    · exact (h kv hkv).2.texts s hs

theorem Writable.sortKeys {depth : Nat} {v : Json} (h : Writable depth v) : Writable depth v.sortKeys where
  shallow := (Json.depth_sortKeys_le v).trans h.shallow
  unique := h.unique.sortKeys
  floats x hx := h.floats x (mem_walk_sortKeys hx (float_not_container x).1 (float_not_container x).2)
  texts s hs := h.texts s (mem_walk_sortKeys hs (str_not_container s).1 (str_not_container s).2)

/-- Integers short enough to be written. -/
def Printable (v : Json) : Prop := ∀ n, .int n ∈ v.walk → (intRepr n).length ≤ 4300

theorem admits_of_writable {depth : Nat} {v : Json} (h : Writable depth v) (hints : Printable v) (st : Style) :
    Admits defaultHooks st v := by
  intro w hw
  cases w with
  | int n =>
    change (pyInt (intRepr n)).map Json.int = .ok (.int n)
    rw [pyInt_intRepr (hints n hw)]
    rfl
  | float x =>
    have hfinite := h.floats x hw
    obtain ⟨-, -, -, -, -, -, -, hread⟩ := floatRepr_text hfinite
    refine ⟨hfinite, ?_⟩
    change Except.ok (Json.float (readFloat (floatRepr x))) = .ok (.float x)
    rw [hread]
  | str s => exact fun _ => h.texts s hw
  | obj fields =>
    change Except.ok (Json.obj (dictOfPairs fields)) = .ok (.obj fields)
    rw [dictOfPairs_nodup (h.unique fields hw)]
  | _ => trivial

/-- `json.loads(json.dumps(v))` of a value that can be written. -/
theorem jsonLoads_dumps (interp : Interpreter) (st : Style) {v : Json} (h : Writable 64 v) (hints : Printable v) :
    jsonLoads interp (dumps st v) = .ok (st.arrange v) := by
  have harranged : Writable 64 (st.arrange v) ∧ Printable (st.arrange v) := by
    rw [Style.arrange]
    split
    · exact ⟨h.sortKeys, fun n hn => hints n (mem_walk_sortKeys hn (int_not_container n).1 (int_not_container n).2)⟩
    · exact ⟨h, hints⟩
  have hread := @loads_dumps defaultHooks st v interp.recursionLimit [] (admits_of_writable harranged.1 harranged.2 st)
    (harranged.1.shallow.trans interp.deep) (fun _ hc => absurd hc List.not_mem_nil)
  rwa [List.append_nil] at hread

/-- An object of named values. -/
theorem writable_named {fields : List (String × Json)} {depth : Nat} (hnames : (fields.map Prod.fst).Nodup)
    (h : ∀ p ∈ fields, Writable depth p.2) : Writable (depth + 1) (.obj (fields.map fun p => (u p.1, p.2))) := by
  apply writable_obj
  · have hkeys : ((fields.map Prod.fst).map u).Nodup := hnames.map fun _ _ hsame => u_inj.mp hsame
    rw [List.map_map] at hkeys
    rwa [Dict.keys, List.map_map]
  · intro kv hkv
    obtain ⟨p, hp, rfl⟩ := List.mem_map.mp hkv
    exact ⟨chain_u _, h p hp⟩

end Python
