import McpTrust.Portability.Redaction
import McpTrust.Refresh.Dockerfile

/-! # Redacting twice

A second pass over the arguments finds no probable secret. It takes what stands
behind a flag for one again, and counts its placeholders from one again.
-/

namespace McpTrust.Portability

set_option autoImplicit false

open Python

section Twice

variable (table : WordTable)

/-- No argument behind a flag comes after a probable secret that stands elsewhere; `after` is
whether the first one is behind a flag, and `elsewhere` whether such a secret came before it. -/
def FlagsFirst : Bool → Bool → List Str → Prop
  | _, _, [] => True
  | after, elsewhere, text :: rest =>
    (after = true → elsewhere = false) ∧
      FlagsFirst (!after && isSecretFlag text) (elsewhere || (!after && isProbableSecret table text)) rest

/-- Which arguments one pass replaces. -/
def replaced : Bool → List Str → List Bool
  | _, [] => []
  | after, text :: rest =>
    (after || isProbableSecret table text) :: replaced (!after && isSecretFlag text) rest

/-- The values at the positions marked. -/
def introduced (marks : List Bool) (values : List Str) : List Str :=
  ((marks.zip values).filter Prod.fst).map Prod.snd

variable {table}

theorem placeholderArg_injective : Function.Injective placeholderArg := by
  intro m n h
  have hrepr : natRepr m = natRepr n := by
    simp only [placeholderArg, redactedArg, if_true] at h
    exact List.append_cancel_left (List.append_cancel_right h)
  rw [← readNat_natRepr m, hrepr, readNat_natRepr]

/-- The flag that a pass sees behind an argument is the one of the argument it keeps. -/
theorem isSecretFlag_redactedArg (after : Bool) (index : Nat) (text : Str) :
    isSecretFlag (redactedArg (after || isProbableSecret table text) index text) =
      (!after && isSecretFlag text) := by
  cases after with
  | true => exact placeholder_not_flag index
  | false =>
    cases hsecret : isProbableSecret table text with
    | true =>
      have hflag : isSecretFlag text = false := by
        refine Bool.eq_false_iff.mpr fun hf => ?_
        exact Bool.false_ne_true ((flag_not_secret table hf).symm.trans hsecret)
      rw [hflag]
      exact placeholder_not_flag index
    | false => rfl

/-- What a pass keeps is no probable secret. -/
theorem redactedArg_not_secret (after : Bool) (index : Nat) (text : Str) :
    isProbableSecret table (redactedArg (after || isProbableSecret table text) index text) = false := by
  cases hredact : after || isProbableSecret table text with
  | true => exact placeholder_not_secret table index
  | false => exact (Bool.or_eq_false_iff.mp hredact).2

/-- The second pass, counting from `again` where the first counted from `index`. -/
theorem redactTexts_twice_iff {after : Bool} {again index : Nat} (hle : again ≤ index) (texts : List Str) :
    redactTexts table after again (redactTexts table after index texts) = redactTexts table after index texts ↔
      FlagsFirst table after (decide (again < index)) texts := by
  induction texts generalizing after again index with
  | nil => exact iff_of_true rfl trivial
  | cons text rest ih =>
    rw [redactTexts, redactTexts, isSecretFlag_redactedArg, FlagsFirst, List.cons.injEq,
      redactedArg_not_secret, Bool.or_false]
    cases after with
    | true =>
      have hhead : placeholderArg again = placeholderArg index ↔ decide (again < index) = false := by
        rw [placeholderArg_injective.eq_iff, decide_eq_false_iff_not]
        omega
      have hnext : decide (again + 1 < index + 1) = decide (again < index) := by simp
      have hrest := @ih false _ _ (Nat.succ_le_succ hle)
      rw [Nat.succ_eq_add_one, Nat.succ_eq_add_one, hnext] at hrest
      simpa [redactedArg_true, placeholder_not_flag, hhead] using fun _ => hrest
    | false =>
      simp only [redactedArg_false, Bool.false_or, Bool.not_false, Bool.true_and,
        Bool.false_eq_true, if_false, false_implies, true_and]
      have hflag := @isSecretFlag_redactedArg table false index text
      simp only [Bool.false_or, Bool.not_false, Bool.true_and] at hflag
      rw [hflag]
      cases hsecret : isProbableSecret table text with
      | true =>
        have hlt : decide (again < index + 1) = true := decide_eq_true (Nat.lt_succ_of_le hle)
        have hrest := @ih (isSecretFlag text) _ _ (Nat.le_succ_of_le hle)
        rw [Nat.succ_eq_add_one, hlt] at hrest
        simpa using hrest
      | false => simpa using @ih (isSecretFlag text) _ _ hle

/-- One pass numbers its placeholders in a row. -/
theorem introduced_redactTexts (after : Bool) (index : Nat) (texts : List Str) :
    ∃ count, introduced (replaced table after texts) (redactTexts table after index texts) =
      (List.range' index count).map placeholderArg := by
  induction texts generalizing after index with
  | nil => exact ⟨0, rfl⟩
  | cons text rest ih =>
    rw [redactTexts, replaced, isSecretFlag_redactedArg]
    cases hredact : after || isProbableSecret table text with
    | true =>
      obtain ⟨count, hcount⟩ := ih (!after && isSecretFlag text) (index + 1)
      refine ⟨count + 1, ?_⟩
      rw [List.range'_succ, List.map_cons, ← hcount]
      rfl
    | false =>
      obtain ⟨count, hcount⟩ := ih (!after && isSecretFlag text) index
      exact ⟨count, hcount⟩

theorem introduced_nodup (texts : List Str) :
    (introduced (replaced table false texts) (redactTexts table false 1 texts)).Nodup := by
  obtain ⟨count, hcount⟩ := @introduced_redactTexts table false 1 texts
  rw [hcount]
  exact List.Nodup.map placeholderArg_injective List.nodup_range'

end Twice

/-! ## Host arguments, inspected again -/

/-- Arguments that one pass accepts are accepted again. -/
theorem redactFrom_again {layer : Layer} {table : WordTable} (hlayer : layer.HasPatterns table)
    (htext : ∀ s, layer.text (.str s) = .ok s) {server : Str} {values : List HostValue} {after : Bool}
    {index : Nat} {changes : Changes} {output : List Str}
    (h : redactFrom layer server after index values = .ok (changes, output)) (again : Nat) :
    ∃ more, redactFrom layer server after again (output.map .str) = .ok (more, redactTexts table after again output) := by
  induction values generalizing after index again changes output with
  | nil =>
    obtain rfl := (Prod.mk.inj (Except.ok.inj h)).2
    exact ⟨[], rfl⟩
  | cons raw rest ih =>
    obtain ⟨text, -, h⟩ := Failure.bind_ok.mp h
    obtain ⟨change, hchange, h⟩ := Failure.bind_ok.mp h
    obtain ⟨⟨later, kept⟩, hrest, h⟩ := Failure.bind_ok.mp h
    obtain rfl := (Prod.mk.inj (Except.ok.inj h)).2
    rw [hlayer.probableSecret, hlayer.secretFlag] at hrest
    rw [hlayer.probableSecret] at hchange ⊢
    have hsecret := @redactedArg_not_secret table after index text
    have hkept : after = true → isSecretFlag (redactedArg (after || isProbableSecret table text) index text) = false := by
      rintro rfl
      exact placeholder_not_flag index
    generalize redactedArg (after || isProbableSecret table text) index text = value at *
    have hflag : isSecretFlag (redactedArg after again value) = isSecretFlag value := by
      cases after with
      | true => exact (placeholder_not_flag again).trans (hkept rfl).symm
      | false => rfl
    obtain ⟨more, hmore⟩ := ih hrest (if after then again + 1 else again)
    obtain ⟨first, hfirst⟩ : ∃ first, noted layer (if after then [redaction server] else []) = .ok first := by
      cases after with
      | true => exact ⟨change, hchange⟩
      | false => exact ⟨[], rfl⟩
    refine ⟨first ++ more, ?_⟩
    rw [List.map_cons, redactTexts, hsecret, Bool.or_false, hflag]
    refine Failure.bind_ok.mpr ⟨value, by rw [htext]; rfl, Failure.bind_ok.mpr ⟨first, ?_,
      Failure.bind_ok.mpr
        ⟨(more, redactTexts table (isSecretFlag value) (if after then again + 1 else again) kept), ?_, ?_⟩⟩⟩
    · rw [hlayer.probableSecret, hsecret, Bool.or_false]
      exact hfirst
    · rw [hlayer.probableSecret, hlayer.secretFlag, hsecret, Bool.or_false, hflag]
      exact hmore
    · rw [hlayer.probableSecret, hsecret, Bool.or_false]

/-- Inspecting what was kept changes no argument again, and tells the placeholders apart, if and
only if the arguments behind flags come first. -/
theorem redactHostArgs_stable_iff {layer : Layer} {table : WordTable} (hlayer : layer.HasPatterns table)
    (htext : ∀ s, layer.text (.str s) = .ok s) {server : Str} {values : List HostValue} {changes : Changes}
    {output : List Str} (h : redactHostArgs layer values server = .ok (changes, output)) :
    ∃ texts, values.mapM layer.text = .ok texts ∧ ∃ more second,
      redactHostArgs layer (output.map .str) server = .ok (more, second) ∧
        (second = output ∧ (introduced (replaced table false texts) second).Nodup ↔
          FlagsFirst table false false texts) := by
  obtain ⟨texts, htexts, rfl⟩ := redactFrom_eq_ok hlayer h
  obtain ⟨more, hmore⟩ := redactFrom_again hlayer htext h 1
  refine ⟨texts, htexts, more, _, hmore, ?_⟩
  have htwice : redactTexts table false 1 (redactTexts table false 1 texts) = redactTexts table false 1 texts ↔
      FlagsFirst table false false texts := redactTexts_twice_iff (le_refl 1) texts
  constructor
  · exact fun h => htwice.mp h.1
  · intro h
    have hsame := htwice.mpr h
    exact ⟨hsame, by rw [hsame]; exact introduced_nodup texts⟩

theorem redactHostArgs_stable_sample : ∃ changes output,
    redactHostArgs patternLayer (flaggedArgs ["--token", "hunter2"]) (u "server") = .ok (changes, output) ∧
      ∃ texts, (flaggedArgs ["--token", "hunter2"]).mapM patternLayer.text = .ok texts ∧ ∃ more second,
        redactHostArgs patternLayer (output.map .str) (u "server") = .ok (more, second) ∧
          (second = output ∧ (introduced (replaced asciiTable false texts) second).Nodup ↔
            FlagsFirst asciiTable false false texts) := by
  have h : redactHostArgs patternLayer (flaggedArgs ["--token", "hunter2"]) (u "server") =
      .ok ([redaction (u "server")], [u "--token", placeholderArg 1]) := rfl
  exact ⟨_, _, h, redactHostArgs_stable_iff ⟨rfl, rfl⟩ (fun _ => rfl) h⟩

/-- A credential before `--token`: both are the first secret after the second pass. -/
theorem placeholders_merged : ∃ changes more,
    redactHostArgs patternLayer (flaggedArgs ["sk-abcdefgh", "--token", "hunter2"]) (u "server") =
        .ok (changes, [placeholderArg 1, u "--token", placeholderArg 2]) ∧
      redactHostArgs patternLayer ([placeholderArg 1, u "--token", placeholderArg 2].map .str) (u "server") =
        .ok (more, [placeholderArg 1, u "--token", placeholderArg 1]) ∧
      placeholderArg 1 ≠ placeholderArg 2 := by
  refine ⟨_, _, rfl, rfl, fun h => absurd (placeholderArg_injective h) (by decide)⟩

end McpTrust.Portability
