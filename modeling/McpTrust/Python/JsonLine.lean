import McpTrust.Python.JsonWritable
import McpTrust.Python.Sha1

/-! # Logs of one value a line

The compact text of a value has no control character, so `str.splitlines` finds the
values of a log again. What `json.loads` reads of such a line can be written again.
-/

namespace Python

set_option autoImplicit false

open McpTrust.Refresh McpTrust.Receipt

/-! ## The text has no control character -/

def NoControl (s : Str) : Prop := ∀ c ∈ s, 32 ≤ c.val

instance (s : Str) : Decidable (NoControl s) :=
  decidable_of_iff (s.all (fun c => decide (32 ≤ c.val)) = true) (by simp [NoControl])

theorem NoControl.append {s t : Str} (hs : NoControl s) (ht : NoControl t) : NoControl (s ++ t) := by
  intro c hc
  obtain hc | hc := List.mem_append.mp hc
  · exact hs c hc
  · exact ht c hc

theorem NoControl.cons {c : CodePoint} {s : Str} (hc : 32 ≤ c.val) (hs : NoControl s) : NoControl (c :: s) :=
  List.forall_mem_cons.mpr ⟨hc, hs⟩

theorem noControl_nil : NoControl [] := fun _ hc => absurd hc List.not_mem_nil

theorem noControl_natRepr (n : Nat) : NoControl (natRepr n) := by
  intro c hc
  have hdigit := natRepr_digits n c hc
  simp only [isDigit, Bool.and_eq_true, decide_eq_true_eq] at hdigit
  omega

theorem noControl_intRepr (n : ℤ) : NoControl (intRepr n) := by
  unfold intRepr
  split_ifs
  · exact .cons (by decide) (noControl_natRepr _)
  · exact noControl_natRepr _

theorem noControl_hexLower {s : Str} (h : ∀ c ∈ s, isHexLower c = true) : NoControl s := by
  intro c hc
  have hhex := h c hc
  simp only [isHexLower, isDigit, Bool.or_eq_true, Bool.and_eq_true, decide_eq_true_eq] at hhex
  omega

theorem noControl_escapeCode (n : Nat) : NoControl (escapeCode n) := by
  have hhex : ∀ d, 32 ≤ (hexChar d).val := by
    intro d
    unfold hexChar
    split <;> dsimp only <;> omega
  exact .cons (by decide) (.cons (by decide)
    (.cons (hhex _) (.cons (hhex _) (.cons (hhex _) (.cons (hhex _) noControl_nil)))))

theorem noControl_escapeChar (st : Style) (c : CodePoint) : NoControl (escapeChar st c) := by
  unfold escapeChar
  cases hshort : shortEscape c with
  | some e =>
    have he : 32 ≤ e.val := by
      unfold shortEscape at hshort
      split_ifs at hshort <;> cases hshort <;> decide
    exact .cons (by decide) (.cons he noControl_nil)
  | none =>
    dsimp only
    split_ifs with hctl hplain hbmp
    · exact noControl_escapeCode _
    · exact .cons (not_lt.mp hctl) noControl_nil
    · exact noControl_escapeCode _
    · exact (noControl_escapeCode _).append (noControl_escapeCode _)

theorem noControl_quote (st : Style) (s : Str) : NoControl (quote st s) := by
  refine .cons (by decide) (.append (fun c hc => ?_) (by decide))
  obtain ⟨d, -, hc⟩ := List.mem_flatMap.mp hc
  exact noControl_escapeChar st d c hc

theorem noControl_render {st : Style} (hst : st.indent = none) (level : Nat) (v : Json)
    (hfloats : ∀ x, .float x ∉ v.walk) : NoControl (render st level v) := by
  have hnewline : ∀ level, st.newline level = [] := fun level => by rw [Style.newline, hst]
  have hitem : ∀ level, NoControl (st.itemSep level) := by
    intro level
    rw [Style.itemSep, hnewline, List.append_nil]
    refine .cons (by decide) ?_
    split <;> decide
  have hkey : NoControl st.keySep := by
    refine .cons (by decide) ?_
    split <;> decide
  induction v using Json.induct generalizing level with
  | null =>
    rw [render]
    decide
  | bool b =>
    rw [render]
    cases b <;> decide
  | int n =>
    rw [render]
    exact noControl_intRepr n
  | float x => exact absurd (Json.mem_walk_self _) (hfloats x)
  | str s =>
    rw [render]
    exact noControl_quote st s
  | arr items ih =>
    have hparts : ∀ v ∈ items, ∀ level, NoControl (render st level v) := by
      intro v hv level
      refine ih v hv level fun x hx => hfloats x ?_
      rw [Json.walk]
      exact List.mem_cons_of_mem _ (Json.mem_walkItems.mpr ⟨v, hv, hx⟩)
    have hrest : ∀ level, ∀ rest : List Json, (∀ v ∈ rest, v ∈ items) → NoControl (renderItems st level rest) := by
      intro level rest hsub
      induction rest with
      | nil =>
        rw [renderItems]
        exact noControl_nil
      | cons v rest ihrest =>
        rw [renderItems]
        exact (hitem level).append ((hparts v (hsub v List.mem_cons_self) level).append
          (ihrest fun w hw => hsub w (List.mem_cons_of_mem _ hw)))
    cases items with
    | nil =>
      rw [render]
      decide
    | cons v rest =>
      rw [render, hnewline, hnewline]
      exact .cons (by decide) (noControl_nil.append ((hparts v List.mem_cons_self _).append
        ((hrest _ rest fun w hw => List.mem_cons_of_mem _ hw).append (by decide))))
  | obj fields ih =>
    have hparts : ∀ kv ∈ fields, ∀ level, NoControl (render st level kv.2) := by
      intro kv hkv level
      refine ih kv hkv level fun x hx => hfloats x ?_
      rw [Json.walk]
      exact List.mem_cons_of_mem _ (Json.mem_walkFields.mpr ⟨kv, hkv, .inr hx⟩)
    have hrest : ∀ level, ∀ rest : Dict, (∀ kv ∈ rest, kv ∈ fields) → NoControl (renderFields st level rest) := by
      intro level rest hsub
      induction rest with
      | nil =>
        rw [renderFields]
        exact noControl_nil
      | cons kv rest ihrest =>
        obtain ⟨key, v⟩ := kv
        rw [renderFields]
        exact (hitem level).append ((noControl_quote st key).append (hkey.append
          ((hparts (key, v) (hsub _ List.mem_cons_self) level).append
            (ihrest fun w hw => hsub w (List.mem_cons_of_mem _ hw)))))
    cases fields with
    | nil =>
      rw [render]
      decide
    | cons kv rest =>
      obtain ⟨key, v⟩ := kv
      rw [render, hnewline, hnewline]
      exact .cons (by decide) (noControl_nil.append ((noControl_quote st key).append (hkey.append
        ((hparts (key, v) List.mem_cons_self _).append
          ((hrest _ rest fun w hw => List.mem_cons_of_mem _ hw).append (by decide))))))

/-! ## Lines -/

/-- The text holds no boundary of `str.splitlines`. -/
def OneLine (s : Str) : Prop := ∀ c ∈ s, isLineEnd c = false

theorem oneLine_of_ascii {s : Str} (hcontrol : ∀ c ∈ s, 32 ≤ c.val ∨ c = ch '\t') (hascii : Ascii s) : OneLine s := by
  intro c hc
  have hlow := hascii c hc
  have htab : (ch '\t').val = 9 := rfl
  obtain h | rfl := hcontrol c hc
  · simp only [isLineEnd, Bool.or_eq_false_iff, decide_eq_false_iff_not, List.mem_cons, List.not_mem_nil, or_false]
    omega
  · decide

theorem splitLinesFrom_append {body : Str} (hbody : OneLine body) (line rest : Str) :
    splitLinesFrom false line (body ++ rest) = splitLinesFrom false (body.reverse ++ line) rest := by
  induction body generalizing line with
  | nil => rfl
  | cons c body ih =>
    obtain ⟨hc, hbody⟩ := List.forall_mem_cons.mp hbody
    rw [List.cons_append, splitLinesFrom, if_neg (fun h => Bool.false_ne_true h.1), hc, if_neg Bool.false_ne_true,
      ih hbody, List.reverse_cons, List.append_assoc]
    rfl

/-- A log writes a newline before each of its lines. -/
theorem splitLinesFrom_log {lines : List Str} (hlines : ∀ line ∈ lines, OneLine line ∧ line ≠ []) {before : Str}
    (hbefore : before ≠ []) :
    splitLinesFrom false before (lines.flatMap fun line => ch '\n' :: line) = before.reverse :: lines := by
  induction lines generalizing before with
  | nil =>
    rw [List.flatMap_nil, splitLinesFrom, if_neg hbefore]
  | cons line rest ih =>
    obtain ⟨⟨hline, hne⟩, hrest⟩ := List.forall_mem_cons.mp hlines
    have hend : isLineEnd (ch '\n') = true := by decide
    have hreturn : decide ((ch '\n').val = 13) = false := by decide
    rw [List.flatMap_cons, List.cons_append, splitLinesFrom, if_neg (fun h => Bool.false_ne_true h.1), hend, if_pos rfl,
      hreturn, splitLinesFrom_append hline, List.append_nil, ih hrest (by simpa using hne), List.reverse_reverse]

theorem splitLines_log {lines : List Str} (hlines : ∀ line ∈ lines, OneLine line ∧ line ≠ []) (hne : lines ≠ []) :
    splitLines (lines.flatMap fun line => ch '\n' :: line) = [] :: lines := by
  obtain ⟨line, rest, rfl⟩ := List.exists_cons_of_ne_nil hne
  obtain ⟨⟨hline, hline'⟩, hrest⟩ := List.forall_mem_cons.mp hlines
  have hend : isLineEnd (ch '\n') = true := by decide
  have hreturn : decide ((ch '\n').val = 13) = false := by decide
  rw [splitLines, List.flatMap_cons, List.cons_append, splitLinesFrom, if_neg (fun h => Bool.false_ne_true h.1), hend,
    if_pos rfl, hreturn, splitLinesFrom_append hline, List.append_nil, splitLinesFrom_log hrest (by simpa using hline'),
    List.reverse_reverse]
  rfl

/-! ## What `json.loads` returns -/

theorem mem_set {d : Dict} {key : Str} {value : Json} {kv : Str × Json} (h : kv ∈ Dict.set d key value) :
    kv = (key, value) ∨ kv ∈ d := by
  unfold Dict.set at h
  split_ifs at h with hin
  · obtain ⟨other, hother, rfl⟩ := List.mem_map.mp h
    split_ifs
    · exact .inl rfl
    · exact .inr hother
  · obtain h | h := List.mem_append.mp h
    · exact .inr h
    · exact .inl (List.mem_singleton.mp h)

theorem dictOfPairs_subset (pairs : Dict) : dictOfPairs pairs ⊆ pairs := by
  have hfold : ∀ (rest before : Dict), rest.foldl (fun d kv => d.set kv.1 kv.2) before ⊆ before ++ rest := by
    intro rest
    induction rest with
    | nil => exact fun before => by rw [List.append_nil]; exact List.Subset.refl _
    | cons kv rest ih =>
      intro before other hother
      have hmem := ih _ hother
      rw [List.mem_append] at hmem
      obtain hset | hrest := hmem
      · obtain rfl | hbefore := mem_set hset
        · exact List.mem_append_right _ List.mem_cons_self
        · exact List.mem_append_left _ hbefore
      · exact List.mem_append_right _ (List.mem_cons_of_mem _ hrest)
  exact hfold pairs []

theorem defaultHooks_int {text : Str} {v : Json} (h : defaultHooks.parseInt text = .ok v) :
    ∃ n, v = .int n ∧ pyInt text = .ok n := by
  change (pyInt text).map Json.int = .ok v at h
  cases hint : pyInt text with
  | error e =>
    rw [hint] at h
    cases h
  | ok n =>
    rw [hint] at h
    cases h
    exact ⟨n, rfl, rfl⟩

theorem defaultHooks_retaining : Retaining defaultHooks where
  int text v h := by
    obtain ⟨n, rfl, -⟩ := defaultHooks_int h
    exact isNumeric_int n
  float text v h := by
    cases h
    exact isNumeric_float _
  constant text v h := by
    cases h
    exact isNumeric_float _
  obj fields v h := by
    cases h
    exact ⟨_, rfl, dictOfPairs_subset fields⟩

/-- A positive integer that is read has at most the digits the interpreter converts. -/
def ShortInt : Json → Prop
  | .int n => 0 < n → (intRepr n).length ≤ 4300
  | _ => True

theorem short_of_pyInt {text : Str} {n : ℤ} (h : pyInt text = .ok n) (hpos : 0 < n) : (intRepr n).length ≤ 4300 := by
  have hlength := length_intRepr_le h
  unfold pyInt at h
  split_ifs at h with hcond
  obtain ⟨htext, hdigits⟩ := Bool.and_eq_true_iff.mp hcond
  cases h
  cases text with
  | nil => cases hpos
  | cons c rest =>
    by_cases hsign : c = ch '-'
    · have hneg : readInt (c :: rest) = -(readNat rest : ℤ) := if_pos hsign
      rw [hneg] at hpos
      omega
    · rw [isIntegerText, if_neg hsign] at htext
      have hall : ∀ d ∈ c :: rest, isDigit d = true := by
        simpa [Bool.and_eq_true, List.all_eq_true] using htext
      rw [List.filter_eq_self.mpr hall] at hdigits
      exact hlength.trans (of_decide_eq_true hdigits)

theorem defaultHooks_ensures : defaultHooks.Ensures ShortInt where
  null := trivial
  bool _ := trivial
  str _ := trivial
  arr _ := trivial
  int text v h w hw := by
    obtain ⟨n, rfl, hint⟩ := defaultHooks_int h
    rw [Json.walk, List.mem_singleton] at hw
    · rw [hw]
      exact short_of_pyInt hint
    all_goals simp
  float text v h w hw := by
    cases h
    rw [Json.walk, List.mem_singleton] at hw
    · rw [hw]
      trivial
    all_goals simp
  constant text v h w hw := by
    cases h
    rw [Json.walk, List.mem_singleton] at hw
    · rw [hw]
      trivial
    all_goals simp
  obj fields v h hparts w hw := by
    cases h
    rw [Json.walk, List.mem_cons, Json.mem_walkFields] at hw
    obtain rfl | ⟨kv, hkv, rfl | hw⟩ := hw
    · trivial
    · trivial
    · exact hparts kv (dictOfPairs_subset fields hkv) w hw

end Python
