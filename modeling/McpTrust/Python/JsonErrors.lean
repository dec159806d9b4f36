import McpTrust.Python.JsonDecode
import McpTrust.Python.JsonEncode

/-! # What `json.loads` raises

Fuel above twice the length of the text is never exhausted, so `loads` raises a
decoding error, a recursion error, or what its hooks raise.
-/

namespace Python

set_option autoImplicit false

variable {h : Hooks}

/-! ## Every step consumes text -/

theorem skipSpace_length (s : Str) : (skipSpace s).length ≤ s.length :=
  (List.dropWhile_suffix _).length_le

theorem hex4_length {s rest : Str} {n : Nat} (h : hex4 s = some (n, rest)) :
    rest.length < s.length := by
  unfold hex4 at h
  split at h
  · split at h
    · cases h
      simp only [List.length_cons]
      omega
    · cases h
  · cases h

theorem lowEscape_length {s rest : Str} {n : Nat} (h : lowEscape s = some (n, rest)) :
    rest.length < s.length := by
  unfold lowEscape at h
  split at h
  · split at h
    · have hlt := hex4_length (Option.filter_eq_some_iff.mp h).1
      simp only [List.length_cons]
      omega
    · cases h
  · cases h

theorem readEscape_length {s rest : Str} {c : CodePoint} (h : readEscape s = .ok (c, rest)) :
    rest.length < s.length := by
  cases s with
  | nil => cases h
  | cons e s =>
    rw [readEscape] at h
    rw [List.length_cons]
    split at h
    · split at h
      · cases h
      · rename_i high rest' hhex
        have hlt := hex4_length hhex
        split at h
        · split at h
          · rename_i hlow
            have hlt' := lowEscape_length hlow
            rw [← (Prod.mk.inj (Except.ok.inj h)).2]
            omega
          · rw [← (Prod.mk.inj (Except.ok.inj h)).2]
            omega
        · rw [← (Prod.mk.inj (Except.ok.inj h)).2]
          omega
    · split at h
      · cases h
        omega
      · cases h

theorem scanString_length {fuel : Nat} {s : Str} {p : Str × Str} (h : scanString fuel s = .ok p) :
    p.2.length < s.length := by
  induction fuel generalizing s p with
  | zero => cases h
  | succ fuel ih =>
    cases s with
    | nil => cases h
    | cons c s =>
      rw [scanString] at h
      rw [List.length_cons]
      split at h
      · cases h
        exact Nat.lt_succ_self _
      split at h
      · obtain ⟨q, hescape, h⟩ := bind_eq_ok.mp h
        obtain ⟨r, hrest, h⟩ := bind_eq_ok.mp h
        cases h
        have h1 := readEscape_length hescape
        have h2 := ih hrest
        dsimp only
        omega
      split at h
      · cases h
      · obtain ⟨r, hrest, h⟩ := bind_eq_ok.mp h
        cases h
        have h2 := ih hrest
        dsimp only
        omega

theorem stripPrefix_length {literal : String} {s rest : Str} (hne : u literal ≠ [])
    (h : stripPrefix literal s = some rest) : rest.length < s.length := by
  unfold stripPrefix at h
  split at h
  · rename_i hfront
    cases h
    have hle := (List.isPrefixOf_iff_prefix.mp hfront).length_le
    have hpos := List.length_pos_iff.mpr hne
    rw [List.length_drop]
    omega
  · cases h

theorem scanNumber_length {s whole tail rest : Str} (h : scanNumber s = some (whole, tail, rest)) :
    rest.length < s.length := by
  have hsign : (scanSign s).2.length ≤ s.length := by
    unfold scanSign
    split
    · split
      · exact Nat.le_succ _
      · exact le_rfl
    · exact le_rfl
  have hinteger : ∀ (t : Str) p, scanInteger t = some p → p.2.length < t.length := by
    intro t p hp
    unfold scanInteger at hp
    split at hp
    · rename_i c t
      have hle := (List.dropWhile_suffix isDigit (l := t)).length_le
      split at hp
      · cases hp
        exact Nat.lt_succ_self _
      split at hp
      · cases hp
        exact Nat.lt_succ_of_le hle
      · cases hp
    · cases hp
  have hfraction : ∀ t : Str, (scanFraction t).2.length ≤ t.length := by
    intro t
    unfold scanFraction
    split
    · rename_i c d t
      have hle := (List.dropWhile_suffix isDigit (l := t)).length_le
      split
      · simp only [List.length_cons]
        omega
      · exact le_rfl
    · exact le_rfl
  have hexponent : ∀ t : Str, (scanExponent t).2.length ≤ t.length := by
    intro t
    unfold scanExponent
    split
    · split
      · dsimp only
        split
        · exact le_rfl
        · simp only [List.length_drop, List.length_cons]
          omega
      · exact le_rfl
    · exact le_rfl
  unfold scanNumber at h
  obtain ⟨p, hp, h⟩ := Option.bind_eq_some_iff.mp h
  have hrest : rest = (scanExponent (scanFraction p.2).2).2 := by
    cases h
    rfl
  have h1 : p.2.length < (scanSign s).2.length := hinteger _ p hp
  have h2 := hfraction p.2
  have h3 := hexponent (scanFraction p.2).2
  rw [hrest]
  omega

theorem scanScalar_length {s : Str} {p : Json × Str} (hscan : scanScalar h s = .ok p) :
    p.2.length < s.length := by
  have hliterals : ∀ literal ∈ ["null", "true", "false", "NaN", "Infinity", "-Infinity"],
      u literal ≠ [] := by decide
  unfold scanScalar at hscan
  split at hscan
  · rename_i hstrip
    cases hscan
    exact stripPrefix_length (hliterals _ (by simp)) hstrip
  split at hscan
  · rename_i hstrip
    cases hscan
    exact stripPrefix_length (hliterals _ (by simp)) hstrip
  split at hscan
  · rename_i hstrip
    cases hscan
    exact stripPrefix_length (hliterals _ (by simp)) hstrip
  split at hscan
  · rename_i hfind
    obtain ⟨_, hp⟩ := map_pair_eq_ok.mp hscan
    obtain ⟨literal, hmem, hstrip⟩ := List.exists_of_findSome?_eq_some hfind
    obtain ⟨r, hr, heq⟩ := Option.map_eq_some_iff.mp hstrip
    cases heq
    rw [hp]
    exact stripPrefix_length (hliterals _ (by simp at hmem ⊢; tauto)) hr
  split at hscan
  · cases hscan
  · rename_i hnumber
    obtain ⟨_, heq⟩ := map_pair_eq_ok.mp hscan
    exact heq ▸ scanNumber_length hnumber
  · rename_i hnumber
    obtain ⟨_, heq⟩ := map_pair_eq_ok.mp hscan
    exact heq ▸ scanNumber_length hnumber

theorem scan_length (fuel : Nat) :
    (∀ depth s p, scanValue h fuel depth s = .ok p → p.2.length < s.length) ∧
    (∀ depth start s p, scanItems h fuel depth start s = .ok p → p.2.length < s.length) ∧
    (∀ depth start s p, scanMembers h fuel depth start s = .ok p → p.2.length < s.length) := by
  induction fuel with
  | zero => simp [scanValue, scanItems, scanMembers]
  | succ fuel ih =>
    obtain ⟨ihValue, ihItems, ihMembers⟩ := ih
    refine ⟨?_, ?_, ?_⟩
    · intro depth s p hscan
      cases s with
      | nil => simp [scanValue] at hscan
      | cons c rest =>
        have hskip := skipSpace_length rest
        rw [scanValue_cons] at hscan
        rw [List.length_cons]
        split at hscan
        · cases hstr : scanString fuel rest with
          | error e => simp [hstr, Except.map] at hscan
          | ok q =>
            have hq := scanString_length hstr
            rw [hstr] at hscan
            cases hscan
            dsimp only
            omega
        split at hscan
        · cases depth with
          | zero => cases hscan
          | succ depth =>
            obtain ⟨q, hmembers, hscan⟩ := bind_eq_ok.mp hscan
            obtain ⟨v, -, hscan⟩ := bind_eq_ok.mp hscan
            cases hscan
            have hq := ihMembers _ _ _ _ hmembers
            dsimp only
            omega
        split at hscan
        · cases depth with
          | zero => cases hscan
          | succ depth =>
            obtain ⟨q, hitems, hscan⟩ := bind_eq_ok.mp hscan
            cases hscan
            have hq := ihItems _ _ _ _ hitems
            dsimp only
            omega
        · exact scanScalar_length hscan
    · intro depth start s p hscan
      rw [scanItems] at hscan
      split at hscan
      · rename_i hstart
        cases hscan
        cases s with
        | nil => simp at hstart
        | cons c s => simp
      · obtain ⟨q, hvalue, hscan⟩ := bind_eq_ok.mp hscan
        have hq := ihValue _ _ _ hvalue
        have hskip := skipSpace_length q.2
        dsimp only at hscan
        split at hscan
        · cases hscan
        rename_i c rest heq
        rw [heq, List.length_cons] at hskip
        have hskip' := skipSpace_length rest
        split at hscan
        · cases hscan
          dsimp only
          omega
        split at hscan
        · obtain ⟨r, hitems, hscan⟩ := bind_eq_ok.mp hscan
          cases hscan
          have hr := ihItems _ _ _ _ hitems
          dsimp only
          omega
        · cases hscan
    · intro depth start s p hscan
      cases s with
      | nil => simp [scanMembers] at hscan
      | cons c rest =>
        rw [scanMembers] at hscan
        rw [List.length_cons]
        split at hscan
        · cases hscan
          exact Nat.lt_succ_self _
        split at hscan
        · obtain ⟨q, hkey, hscan⟩ := bind_eq_ok.mp hscan
          have hq := scanString_length hkey
          have hskip := skipSpace_length q.2
          dsimp only at hscan
          split at hscan
          · cases hscan
          rename_i c' rest' heq
          rw [heq, List.length_cons] at hskip
          have hskip' := skipSpace_length rest'
          split at hscan
          · obtain ⟨r, hvalue, hscan⟩ := bind_eq_ok.mp hscan
            have hr := ihValue _ _ _ hvalue
            have hskip'' := skipSpace_length r.2
            split at hscan
            · cases hscan
            rename_i c'' rest'' heq''
            rw [heq'', List.length_cons] at hskip''
            have hskip3 := skipSpace_length rest''
            split at hscan
            · cases hscan
              dsimp only
              omega
            split at hscan
            · obtain ⟨t, hmembers, hscan⟩ := bind_eq_ok.mp hscan
              cases hscan
              have ht := ihMembers _ _ _ _ hmembers
              dsimp only
              omega
            · cases hscan
          · cases hscan
        · cases hscan

/-! ## The errors -/

section Errors

variable {handled : PyErr → Bool}

/-- The hooks raise only errors the caller handles, and the scanner's own two are among them. -/
structure Hooks.Raises (h : Hooks) (handled : PyErr → Bool) : Prop where
  decode : handled .jsonDecodeError = true
  recursion : handled .recursionError = true
  int : ∀ text, RaisesOnly handled (h.parseInt text)
  float : ∀ text, RaisesOnly handled (h.parseFloat text)
  constant : ∀ text, RaisesOnly handled (h.parseConstant text)
  obj : ∀ fields, RaisesOnly handled (h.objectPairs fields)

theorem readEscape_raises (hdecode : handled .jsonDecodeError = true) (s : Str) :
    RaisesOnly handled (readEscape s) := by
  unfold readEscape
  repeat' split
  all_goals first
    | exact raisesOnly_error hdecode
    | exact raisesOnly_ok _

theorem scanString_raises (hdecode : handled .jsonDecodeError = true) {fuel : Nat} {s : Str}
    (hlen : s.length < fuel) : RaisesOnly handled (scanString fuel s) := by
  induction fuel generalizing s with
  | zero => omega
  | succ fuel ih =>
    cases s with
    | nil => exact raisesOnly_error hdecode
    | cons c s =>
      rw [List.length_cons] at hlen
      rw [scanString]
      split
      · exact raisesOnly_ok _
      split
      · refine (readEscape_raises hdecode s).bind fun q hq => ?_
        have hlt : q.2.length < s.length := readEscape_length hq
        exact (ih (by omega)).bind fun _ _ => raisesOnly_ok _
      split
      · exact raisesOnly_error hdecode
      · exact (ih (by omega)).bind fun _ _ => raisesOnly_ok _

theorem scanScalar_raises (hh : h.Raises handled) (s : Str) : RaisesOnly handled (scanScalar h s) := by
  unfold scanScalar
  repeat' split
  all_goals first
    | exact raisesOnly_ok _
    | exact raisesOnly_error hh.decode
    | exact (hh.constant _).map
    | exact (hh.int _).map
    | exact (hh.float _).map

theorem scan_raises (hh : h.Raises handled) (fuel : Nat) :
    (∀ depth s, 2 * s.length < fuel → RaisesOnly handled (scanValue h fuel depth s)) ∧
    (∀ depth start s, 2 * s.length + 1 < fuel →
      RaisesOnly handled (scanItems h fuel depth start s)) ∧
    (∀ depth start s, 2 * s.length + 1 < fuel →
      RaisesOnly handled (scanMembers h fuel depth start s)) := by
  induction fuel with
  | zero => simp
  | succ fuel ih =>
    obtain ⟨ihValue, ihItems, ihMembers⟩ := ih
    refine ⟨?_, ?_, ?_⟩
    · intro depth s hlen
      cases s with
      | nil =>
        rw [scanValue.eq_def]
        exact raisesOnly_error hh.decode
      | cons c rest =>
        have hskip := skipSpace_length rest
        rw [List.length_cons] at hlen
        rw [scanValue_cons]
        split
        · exact (scanString_raises hh.decode (by omega)).map
        split
        · cases depth with
          | zero => exact raisesOnly_error hh.recursion
          | succ depth =>
            refine (ihMembers _ _ _ (by omega)).bind fun q _ => ?_
            exact (hh.obj _).bind fun _ _ => raisesOnly_ok _
        split
        · cases depth with
          | zero => exact raisesOnly_error hh.recursion
          | succ depth => exact (ihItems _ _ _ (by omega)).bind fun _ _ => raisesOnly_ok _
        · exact scanScalar_raises hh _
    · intro depth start s hlen
      rw [scanItems]
      split
      · exact raisesOnly_ok _
      · refine (ihValue _ _ (by omega)).bind fun q hq => ?_
        have hlt := (scan_length fuel).1 _ _ _ hq
        have hskip := skipSpace_length q.2
        dsimp only
        split
        · exact raisesOnly_error hh.decode
        rename_i c rest heq
        rw [heq, List.length_cons] at hskip
        have hskip' := skipSpace_length rest
        split
        · exact raisesOnly_ok _
        split
        · exact (ihItems _ _ _ (by omega)).bind fun _ _ => raisesOnly_ok _
        · exact raisesOnly_error hh.decode
    · intro depth start s hlen
      cases s with
      | nil =>
        rw [scanMembers.eq_def]
        exact raisesOnly_error hh.decode
      | cons c rest =>
        rw [List.length_cons] at hlen
        rw [scanMembers]
        split
        · exact raisesOnly_ok _
        split
        · refine (scanString_raises hh.decode (by omega)).bind fun q hq => ?_
          have hlt := scanString_length hq
          have hskip := skipSpace_length q.2
          dsimp only
          split
          · exact raisesOnly_error hh.decode
          rename_i c' rest' heq
          rw [heq, List.length_cons] at hskip
          have hskip' := skipSpace_length rest'
          split
          · refine (ihValue _ _ (by omega)).bind fun r hr => ?_
            have hlt' := (scan_length fuel).1 _ _ _ hr
            have hskip'' := skipSpace_length r.2
            split
            · exact raisesOnly_error hh.decode
            rename_i c'' rest'' heq''
            rw [heq'', List.length_cons] at hskip''
            have hskip3 := skipSpace_length rest''
            split
            · exact raisesOnly_ok _
            split
            · exact (ihMembers _ _ _ (by omega)).bind fun _ _ => raisesOnly_ok _
            · exact raisesOnly_error hh.decode
          · exact raisesOnly_error hh.decode
        · exact raisesOnly_error hh.decode

/-- The fuel `loads` gives the scanner is never exhausted: only handled errors are raised. -/
theorem loads_raises (hh : h.Raises handled) (limit : Nat) (s : Str) :
    RaisesOnly handled (loads h limit s) := by
  unfold loads
  split
  · exact raisesOnly_error hh.decode
  · have hskip := skipSpace_length s
    refine ((scan_raises hh _).1 _ _ (by omega)).bind fun p _ => ?_
    dsimp only
    split
    · exact raisesOnly_ok _
    · exact raisesOnly_error hh.decode

end Errors

end Python
