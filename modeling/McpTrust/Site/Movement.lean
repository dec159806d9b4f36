import McpTrust.Site.Surfaces

/-! # The movement card tells the counts apart

Two methodology pages with the same servers, scans and dates are equal only if
all their counts are.
-/

namespace McpTrust.Site

set_option autoImplicit false

open Python

/-! ## Numerals in a text -/

def StartsBlank (s : Str) : Prop := s.head? = some (ch ' ')

theorem takeDigits_natRepr (n : Nat) {x : Str} (hx : StartsBlank x) :
    (natRepr n ++ x).takeWhile isDigit = natRepr n := by
  rw [List.takeWhile_append_of_pos (natRepr_digits n)]
  cases x with
  | nil => cases hx
  | cons c x =>
    cases hx
    exact List.append_nil _

theorem natRepr_append_cancel {a b : Nat} {x y : Str} (hx : StartsBlank x) (hy : StartsBlank y)
    (h : natRepr a ++ x = natRepr b ++ y) : a = b ∧ x = y := by
  have htake := congrArg (List.takeWhile isDigit) h
  rw [takeDigits_natRepr a hx, takeDigits_natRepr b hy] at htake
  have hab : a = b := by rw [← readNat_natRepr a, htake, readNat_natRepr]
  subst hab
  exact ⟨rfl, List.append_cancel_left h⟩

/-- A numeral and a text that starts with a letter. -/
theorem natRepr_append_ne {n : Nat} {x y : Str} {c : CodePoint} (hc : y.head? = some c)
    (hdigit : isDigit c = false) : natRepr n ++ x ≠ y := by
  intro h
  obtain ⟨d, rest, hrepr, hd, -⟩ := natRepr_eq_cons n
  rw [← h, hrepr] at hc
  cases hc
  rw [hd] at hdigit
  cases hdigit

/-! ## Sentences -/

theorem surfaceSentence_inj {a b s t : Nat} (h : surfaceSentence a s = surfaceSentence b t) :
    a = b ∧ s = t := by
  unfold surfaceSentence at h
  have hblank : ∀ n, StartsBlank (u " scan-to-scan " ++ comparisonNoun n ++
      u " where evidence was recorded on both sides.") := fun n => rfl
  have hdeclared : ∀ n, StartsBlank (u " declared tool-surface changes were recorded across the " ++
      (natRepr n ++ (u " scan-to-scan " ++ comparisonNoun n ++
        u " where evidence was recorded on both sides."))) := fun n => rfl
  by_cases hs : s = 0 <;> by_cases ht : t = 0
  · rw [if_pos hs, if_pos ht] at h
    simp only [List.append_assoc, List.append_cancel_left_eq] at h hblank
    exact ⟨(natRepr_append_cancel (hblank a) (hblank b) h).1, hs.trans ht.symm⟩
  · rw [if_pos hs, if_neg ht] at h
    simp only [List.append_assoc] at h
    exact absurd (@List.append_cancel_left _ (u " ") _ _ h).symm (natRepr_append_ne rfl rfl)
  · rw [if_neg hs, if_pos ht] at h
    simp only [List.append_assoc] at h
    exact absurd (@List.append_cancel_left _ (u " ") _ _ h) (natRepr_append_ne rfl rfl)
  · rw [if_neg hs, if_neg ht] at h
    simp only [List.append_assoc, List.append_cancel_left_eq] at h hblank hdeclared
    obtain ⟨hst, h⟩ := natRepr_append_cancel (hdeclared a) (hdeclared b) h
    exact ⟨(natRepr_append_cancel (hblank a) (hblank b) (List.append_cancel_left h)).1, hst⟩

theorem engineSentence_inj {changes v w : Nat} (hv : v ≤ changes) (hw : w ≤ changes) {x y : Str}
    (h : engineSentence changes v ++ x = engineSentence changes w ++ y) : v = w ∧ x = y := by
  unfold engineSentence at h
  by_cases h0 : changes = 0
  · rw [if_pos h0, if_pos h0] at h
    exact ⟨by omega, h⟩
  · rw [if_neg h0, if_neg h0] at h
    by_cases h1 : changes = 1
    · rw [if_pos h1, if_pos h1] at h
      by_cases hv0 : v = 0 <;> by_cases hw0 : w = 0
      · rw [if_pos hv0, if_pos hw0] at h
        exact ⟨hv0.trans hw0.symm, List.append_cancel_left h⟩
      · rw [if_pos hv0, if_neg hw0] at h
        have hletter : u " It d" = u " It c" := congrArg (List.take 5) h
        exact absurd hletter (by decide)
      · rw [if_neg hv0, if_pos hw0] at h
        have hletter : u " It c" = u " It d" := congrArg (List.take 5) h
        exact absurd hletter (by decide)
      · rw [if_neg hv0, if_neg hw0] at h
        exact ⟨by omega, List.append_cancel_left h⟩
    · rw [if_neg h1, if_neg h1] at h
      have hof : ∀ z : Str, StartsBlank (u " of " ++ z) := fun z => rfl
      by_cases hvc : v = changes <;> by_cases hwc : w = changes
      · rw [if_pos hvc, if_pos hwc] at h
        exact ⟨hvc.trans hwc.symm, List.append_cancel_left h⟩
      · rw [if_pos hvc, if_neg hwc] at h
        simp only [List.append_assoc] at h
        exact absurd (@List.append_cancel_left _ (u " ") _ _ h).symm (natRepr_append_ne rfl rfl)
      · rw [if_neg hvc, if_pos hwc] at h
        simp only [List.append_assoc] at h
        exact absurd (@List.append_cancel_left _ (u " ") _ _ h) (natRepr_append_ne rfl rfl)
      · rw [if_neg hvc, if_neg hwc] at h
        simp only [List.append_assoc, List.append_cancel_left_eq] at h
        obtain ⟨hvw, h⟩ := natRepr_append_cancel (hof _) (hof _) h
        exact ⟨hvw, by simpa only [List.append_cancel_left_eq] using h⟩

theorem countedChanges_inj {a b v w : Nat} {x y : Str}
    (h : countedChanges a ++ (engineSentence a v ++ x) = countedChanges b ++ (engineSentence b w ++ y)) :
    a = b ∧ engineSentence a v ++ x = engineSentence b w ++ y := by
  have hblank : ∀ n : Nat, ∀ z : Str,
      StartsBlank (u (if n = 1 then " grade change." else " grade changes.") ++ z) := by
    intro n z
    by_cases hn : n = 1
    · rw [if_pos hn]
      rfl
    · rw [if_neg hn]
      rfl
  unfold countedChanges at h
  by_cases ha : a = 0 <;> by_cases hb : b = 0
  · rw [if_pos ha, if_pos hb] at h
    exact ⟨ha.trans hb.symm, List.append_cancel_left h⟩
  · rw [if_pos ha, if_neg hb, List.append_assoc] at h
    exact absurd h.symm (natRepr_append_ne rfl rfl)
  · rw [if_neg ha, if_pos hb, List.append_assoc] at h
    exact absurd h (natRepr_append_ne rfl rfl)
  · rw [if_neg ha, if_neg hb, List.append_assoc, List.append_assoc] at h
    obtain ⟨rfl, h⟩ := natRepr_append_cancel (hblank a _) (hblank b _) h
    exact ⟨rfl, List.append_cancel_left h⟩

/-! ## Escaping -/

/-- No character that `html.escape` replaces. -/
def Plain (s : Str) : Prop := (s.all fun c => decide (c ∉ u "&<>\"'")) = true

instance (s : Str) : Decidable (Plain s) := inferInstanceAs (Decidable (_ = true))

theorem Plain.append {s t : Str} (hs : Plain s) (ht : Plain t) : Plain (s ++ t) := by
  unfold Plain at *
  rw [List.all_append, hs, ht]
  rfl

theorem Plain.not_mem {s : Str} (h : Plain s) {c : CodePoint} (hc : c ∈ s) :
    c ∉ [ch '&', ch '<', ch '>', ch '"', ch '\''] := of_decide_eq_true (List.all_eq_true.mp h c hc)

theorem plain_natRepr (n : Nat) : Plain (natRepr n) := by
  apply List.all_eq_true.mpr
  intro c hc
  apply decide_eq_true
  intro hspecial
  have hnone : (u "&<>\"'").all (fun c => !isDigit c) = true := by decide
  have hdigit := List.all_eq_true.mp hnone c hspecial
  rw [natRepr_digits n c hc] at hdigit
  cases hdigit

theorem escapeHtml_append (s t : Str) : escapeHtml (s ++ t) = escapeHtml s ++ escapeHtml t :=
  List.flatMap_append

theorem escapeHtml_plain {s : Str} (h : Plain s) : escapeHtml s = s := by
  induction s with
  | nil => rfl
  | cons c s ih =>
    have hc := h.not_mem List.mem_cons_self
    simp only [List.mem_cons, List.not_mem_nil, or_false, not_or] at hc
    have hplain : Plain s := List.all_eq_true.mpr fun d hd => decide_eq_true (h.not_mem (.tail c hd))
    have hrest := ih hplain
    unfold escapeHtml at hrest ⊢
    rw [List.flatMap_cons, hrest, if_neg hc.1, if_neg hc.2.1, if_neg hc.2.2.1, if_neg hc.2.2.2.1,
      if_neg hc.2.2.2.2]
    rfl

theorem plain_countedChanges (changes : Nat) : Plain (countedChanges changes) := by
  unfold countedChanges
  by_cases h0 : changes = 0
  · rw [if_pos h0]
    decide +kernel
  · rw [if_neg h0]
    apply (plain_natRepr changes).append
    by_cases h1 : changes = 1
    · rw [if_pos h1]
      decide +kernel
    · rw [if_neg h1]
      decide +kernel

theorem plain_engineSentence (changes withEngine : Nat) : Plain (engineSentence changes withEngine) := by
  have hversion : Plain (u " coincided with a change of scanner engine version.") := by decide +kernel
  unfold engineSentence
  by_cases h0 : changes = 0
  · rw [if_pos h0]
    decide
  by_cases h1 : changes = 1
  · rw [if_neg h0, if_pos h1]
    by_cases hw : withEngine = 0
    · rw [if_pos hw]
      decide +kernel
    · rw [if_neg hw]
      decide +kernel
  · rw [if_neg h0, if_neg h1]
    by_cases hall : withEngine = changes
    · rw [if_pos hall]
      exact (Plain.append (by decide) (plain_natRepr changes)).append hversion
    · rw [if_neg hall]
      exact (((Plain.append (by decide) (plain_natRepr withEngine)).append (by decide)).append
        (plain_natRepr changes)).append hversion

theorem plain_surfaceSentence (comparisons surfaceChanges : Nat) :
    Plain (surfaceSentence comparisons surfaceChanges) := by
  have hnoun : Plain (comparisonNoun comparisons) := by
    unfold comparisonNoun
    by_cases h : comparisons = 1
    · rw [if_pos h]
      decide
    · rw [if_neg h]
      decide
  have hscan : Plain (u " scan-to-scan ") := by decide
  have hsides : Plain (u " where evidence was recorded on both sides.") := by decide +kernel
  unfold surfaceSentence
  by_cases h : surfaceChanges = 0
  · rw [if_pos h]
    exact ((((Plain.append (by decide +kernel) (plain_natRepr comparisons)).append hscan).append
      hnoun).append hsides)
  · rw [if_neg h]
    exact (((((Plain.append (by decide) (plain_natRepr surfaceChanges)).append
      (by decide +kernel)).append (plain_natRepr comparisons)).append hscan).append hnoun).append hsides

/-! ## Cards -/

theorem movement_inj {a b : HistoryTotals} (hframe : SameFrame a b)
    (ha : a.gradeChangesWithEngineChange ≤ a.gradeChanges)
    (hb : b.gradeChangesWithEngineChange ≤ b.gradeChanges)
    (hspoken : a.Spoken) (h : gradeMovementSentences a = gradeMovementSentences b) : a.counts = b.counts := by
  obtain ⟨hfirst, hlast, hne⟩ := hspoken
  obtain ⟨first, hfirst⟩ := Option.isSome_iff_exists.mp hfirst
  obtain ⟨last, hlast⟩ := Option.isSome_iff_exists.mp hlast
  unfold gradeMovementSentences at h
  rw [← hframe.firstScannedAt, ← hframe.lastScannedAt, ← hframe.servers, ← hframe.scans, hfirst,
    hlast] at h
  simp only [if_neg hne, escapeHtml_append, List.append_cancel_left_eq,
    escapeHtml_plain (plain_countedChanges _), escapeHtml_plain (plain_engineSentence _ _),
    escapeHtml_plain (plain_surfaceSentence _ _)] at h
  obtain ⟨hchanges, h⟩ := countedChanges_inj h
  rw [← hchanges] at h hb
  obtain ⟨hengine, h⟩ := engineSentence_inj ha hb h
  obtain ⟨hcomparable, hsurface⟩ := surfaceSentence_inj h
  rw [HistoryTotals.counts, HistoryTotals.counts, hchanges, hengine, hcomparable, hsurface]

/-- The card shows the counts and nothing else that looks at verdicts. -/
theorem movement_eq_of_counts {a b : HistoryTotals} (hframe : SameFrame a b) (h : a.counts = b.counts) :
    gradeMovementSentences a = gradeMovementSentences b := by
  obtain ⟨hcomparable, hsurface, hchanges, hengine⟩ := StepCounts.mk.inj h
  unfold gradeMovementSentences
  rw [hframe.firstScannedAt, hframe.lastScannedAt, hframe.servers, hframe.scans, hcomparable, hsurface,
    hchanges, hengine]

theorem movementCard_inj {m n : Str} (h : movementCard m = movementCard n) : m = n := by
  unfold movementCard at h
  by_cases hm : m = [] <;> by_cases hn : n = []
  · exact hm.trans hn.symm
  · rw [if_pos hm, if_neg hn] at h
    cases h
  · rw [if_neg hm, if_pos hn] at h
    cases h
  · rw [if_neg hm, if_neg hn] at h
    simpa only [List.append_assoc, List.append_cancel_left_eq, List.append_cancel_right_eq] using h

theorem renderMethodology_eq_iff (templates : Templates) {a b : HistoryTotals} (hframe : SameFrame a b)
    (ha : a.gradeChangesWithEngineChange ≤ a.gradeChanges)
    (hb : b.gradeChangesWithEngineChange ≤ b.gradeChanges)
    (hspoken : a.Spoken ∨ a.counts = b.counts) :
    renderMethodology templates a = renderMethodology templates b ↔ a.counts = b.counts := by
  constructor
  · intro h
    obtain hspoken | hcounts := hspoken
    · unfold renderMethodology at h
      rw [List.append_cancel_right_eq, List.append_cancel_left_eq] at h
      exact movement_inj hframe ha hb hspoken (movementCard_inj h)
    · exact hcounts
  · intro h
    unfold renderMethodology
    rw [movement_eq_of_counts hframe h]

end McpTrust.Site
