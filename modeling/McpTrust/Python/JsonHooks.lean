import McpTrust.Python.JsonLoads

/-! # Stricter hooks

Hooks that refuse more and otherwise build the same values read the same document
from every text they accept.
-/

namespace Python

set_option autoImplicit false

/-- `y` returns whatever `x` returns. -/
def Returns {α : Type} (x y : Except PyErr α) : Prop := ∀ a, x = .ok a → y = .ok a

theorem Returns.refl {α : Type} (x : Except PyErr α) : Returns x x := fun _ h => h

theorem Returns.bind {α β : Type} {x y : Except PyErr α} {f g : α → Except PyErr β} (h : Returns x y)
    (hf : ∀ a, Returns (f a) (g a)) : Returns (x >>= f) (y >>= g) := by
  intro b hb
  obtain ⟨a, ha, hb⟩ := bind_eq_ok.mp hb
  exact bind_eq_ok.mpr ⟨a, h a ha, hf a b hb⟩

structure Hooks.Refines (h h' : Hooks) : Prop where
  parseInt : h.parseInt = h'.parseInt
  parseFloat : h.parseFloat = h'.parseFloat
  parseConstant : h.parseConstant = h'.parseConstant
  objectPairs : ∀ pairs, Returns (h.objectPairs pairs) (h'.objectPairs pairs)

variable {h h' : Hooks}

theorem scanScalar_refines (hr : h.Refines h') (s : Str) : scanScalar h s = scanScalar h' s := by
  unfold scanScalar
  rw [hr.parseInt, hr.parseFloat, hr.parseConstant]

theorem scan_refines (hr : h.Refines h') (fuel : Nat) :
    (∀ depth s, Returns (scanValue h fuel depth s) (scanValue h' fuel depth s)) ∧
      (∀ depth start s, Returns (scanItems h fuel depth start s) (scanItems h' fuel depth start s)) ∧
        ∀ depth start s, Returns (scanMembers h fuel depth start s) (scanMembers h' fuel depth start s) := by
  induction fuel with
  | zero => simp [scanValue, scanItems, scanMembers, Returns]
  | succ fuel ih =>
    obtain ⟨ihValue, ihItems, ihMembers⟩ := ih
    refine ⟨?_, ?_, ?_⟩
    · intro depth s
      cases s with
      | nil => simp [scanValue, Returns]
      | cons c rest =>
        rw [scanValue_cons, scanValue_cons, scanScalar_refines hr]
        split_ifs
        · exact .refl _
        · cases depth with
          | zero => exact .refl _
          | succ depth =>
            apply (ihMembers depth true (skipSpace rest)).bind
            rintro ⟨fields, rest⟩
            exact (hr.objectPairs fields).bind fun v => .refl _
        · cases depth with
          | zero => exact .refl _
          | succ depth => exact (ihItems depth true (skipSpace rest)).bind fun p => .refl _
        · exact .refl _
    · intro depth start s
      rw [scanItems, scanItems]
      split_ifs
      · exact .refl _
      · apply (ihValue depth s).bind
        rintro ⟨v, rest⟩
        dsimp only
        cases skipSpace rest with
        | nil => exact .refl _
        | cons c rest =>
          dsimp only
          split_ifs
          · exact .refl _
          · exact (ihItems depth false (skipSpace rest)).bind fun p => .refl _
          · exact .refl _
    · intro depth start s
      cases s with
      | nil => simp [scanMembers, Returns]
      | cons c rest =>
        rw [scanMembers, scanMembers]
        split_ifs
        · exact .refl _
        · apply (Returns.refl (scanString fuel rest)).bind
          rintro ⟨key, rest⟩
          dsimp only
          cases skipSpace rest with
          | nil => exact .refl _
          | cons c rest =>
            dsimp only
            split_ifs
            · apply (ihValue depth (skipSpace rest)).bind
              rintro ⟨v, rest⟩
              dsimp only
              cases skipSpace rest with
              | nil => exact .refl _
              | cons c rest =>
                dsimp only
                split_ifs
                · exact .refl _
                · exact (ihMembers depth false (skipSpace rest)).bind fun p => .refl _
                · exact .refl _
            · exact .refl _
        · exact .refl _

theorem loads_refines (hr : h.Refines h') (limit : Nat) (s : Str) : Returns (loads h limit s) (loads h' limit s) := by
  unfold loads
  split_ifs
  · exact .refl _
  · exact ((scan_refines hr _).1 limit (skipSpace s)).bind fun p => .refl _

/-- Members with distinct names are a dictionary already. -/
theorem dictOfPairs_nodup {pairs : Dict} (h : (Dict.keys pairs).Nodup) : dictOfPairs pairs = pairs := by
  have hfold : ∀ (rest before : Dict), (Dict.keys (before ++ rest)).Nodup →
      rest.foldl (fun d kv => d.set kv.1 kv.2) before = before ++ rest := by
    intro rest
    induction rest with
    | nil => exact fun before _ => (List.append_nil before).symm
    | cons kv rest ih =>
      intro before hnodup
      have habsent : kv.1 ∉ Dict.keys before := by
        intro hmem
        rw [Dict.keys, List.map_append, List.map_cons] at hnodup
        exact (List.nodup_append.mp hnodup).2.2 kv.1 hmem kv.1 List.mem_cons_self rfl
      have hset : Dict.set before kv.1 kv.2 = before ++ [kv] := by
        unfold Dict.set
        rw [if_neg fun hin => habsent (Dict.contains_eq_true.mp hin)]
      rw [List.foldl_cons, hset, ih (before ++ [kv]) (by rwa [List.append_assoc]), List.append_assoc]
      rfl
  exact hfold pairs [] h

end Python
