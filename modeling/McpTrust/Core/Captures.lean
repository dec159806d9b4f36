import McpTrust.Core.Drift

/-! # What an unchanged surface says

The comparison looks up each tool by its name, so of tools that share a name only
the last is seen. Two captures compare unchanged exactly when what is seen agrees.
-/

namespace McpTrust

set_option autoImplicit false

open Python

/-! ## Seen and shadowed tools -/

/-- The tools a later tool of the same name hides. -/
def shadowed : List ToolEvidence → List ToolEvidence
  | [] => []
  | tool :: rest => if tool.name ∈ rest.map ToolEvidence.name then tool :: shadowed rest else shadowed rest

/-- The last tool of each name. -/
def seen : List ToolEvidence → List ToolEvidence
  | [] => []
  | tool :: rest => if tool.name ∈ rest.map ToolEvidence.name then seen rest else tool :: seen rest

theorem perm_seen_shadowed (tools : List ToolEvidence) : tools.Perm (seen tools ++ shadowed tools) := by
  induction tools with
  | nil => exact .nil
  | cons tool rest ih =>
    rw [seen, shadowed]
    by_cases hname : tool.name ∈ rest.map ToolEvidence.name
    · rw [if_pos hname, if_pos hname]
      exact (ih.cons tool).trans List.perm_middle.symm
    · rw [if_neg hname, if_neg hname]
      exact ih.cons tool

theorem toolNamed_cons (tool : ToolEvidence) (rest : List ToolEvidence) (name : Str) :
    toolNamed (tool :: rest) name =
      (toolNamed rest name).or (if tool.name = name then some tool else none) := by
  unfold toolNamed
  rw [List.reverse_cons, List.find?_append, List.find?_singleton]
  simp only [decide_eq_true_eq]

theorem toolNamed_eq_none {tools : List ToolEvidence} {name : Str} :
    toolNamed tools name = none ↔ name ∉ tools.map ToolEvidence.name := by
  unfold toolNamed
  rw [List.find?_eq_none, List.mem_map]
  simp only [List.mem_reverse, decide_eq_true_eq]
  constructor
  · rintro h ⟨tool, htool, hname⟩
    exact h tool htool hname
  · exact fun h tool htool hname => h ⟨tool, htool, hname⟩

/-- A tool is seen when it is the one found under its name. -/
theorem mem_seen {tools : List ToolEvidence} {tool : ToolEvidence} :
    tool ∈ seen tools ↔ toolNamed tools tool.name = some tool := by
  induction tools with
  | nil => exact iff_of_false List.not_mem_nil nofun
  | cons first rest ih =>
    rw [seen, toolNamed_cons]
    by_cases hfirst : first.name ∈ rest.map ToolEvidence.name
    · rw [if_pos hfirst, ih]
      cases hrest : toolNamed rest tool.name with
      | some other => rfl
      | none =>
        have hne : first.name ≠ tool.name := by
          intro hname
          exact toolNamed_eq_none.mp hrest (hname ▸ hfirst)
        rw [if_neg hne]
        rfl
    · rw [if_neg hfirst, List.mem_cons, ih]
      by_cases hname : first.name = tool.name
      · rw [toolNamed_eq_none.mpr (hname ▸ hfirst), if_pos hname, Option.none_or, Option.some.injEq]
        constructor
        · rintro (rfl | h)
          · rfl
          · cases h
        · exact fun h => .inl h.symm
      · rw [if_neg hname, Option.or_none]
        exact or_iff_right fun h => hname (h ▸ rfl)

theorem seen_nodup (tools : List ToolEvidence) : (seen tools).Nodup := by
  induction tools with
  | nil => exact List.nodup_nil
  | cons tool rest ih =>
    rw [seen]
    by_cases hname : tool.name ∈ rest.map ToolEvidence.name
    · rw [if_pos hname]
      exact ih
    · rw [if_neg hname]
      refine List.nodup_cons.mpr ⟨fun hmem => ?_, ih⟩
      have hfound := mem_seen.mp hmem
      rw [toolNamed_eq_none.mpr hname] at hfound
      cases hfound

/-- What the comparison sees of two captures agrees. -/
structure SeenAlike (previous current : ScanEvidence) : Prop where
  tools : ∀ name, toolNamed previous.tools name = toolNamed current.tools name
  promptCount : previous.promptCount = current.promptCount
  resourceCount : previous.resourceCount = current.resourceCount

theorem seen_perm {a b : List ToolEvidence} (h : ∀ name, toolNamed a name = toolNamed b name) :
    (seen a).Perm (seen b) := by
  apply (List.perm_ext_iff_of_nodup (seen_nodup a) (seen_nodup b)).mpr
  intro tool
  rw [mem_seen, mem_seen, h]

/-- With the seen tools alike, the captures declare the same tools when they hide the same ones. -/
theorem tools_perm_iff {a b : List ToolEvidence} (h : ∀ name, toolNamed a name = toolNamed b name) :
    a.Perm b ↔ (shadowed a).Perm (shadowed b) := by
  have hparts : (seen a ++ shadowed a).Perm (seen b ++ shadowed b) ↔ (shadowed a).Perm (shadowed b) :=
    ⟨fun hperm => (List.perm_append_left_iff _).mp (((seen_perm h).symm.append_right _).trans hperm),
      fun hperm => (seen_perm h).append hperm⟩
  rw [← hparts]
  constructor
  · exact fun hperm => ((perm_seen_shadowed a).symm.trans hperm).trans (perm_seen_shadowed b)
  · exact fun hperm => ((perm_seen_shadowed a).trans hperm).trans (perm_seen_shadowed b).symm

/-! ## The comparison -/

theorem toolDiffers_eq_false {a b : ToolEvidence} (hname : a.name = b.name) :
    toolDiffers a b = false ↔ a = b := by
  obtain ⟨aName, aSchema, aHash, aFlag⟩ := a
  obtain ⟨bName, bSchema, bHash, bFlag⟩ := b
  cases hname
  simp only [toolDiffers, Bool.or_eq_false_iff, decide_eq_false_iff_not, not_not, ToolEvidence.mk.injEq, true_and]
  tauto

theorem toolDiffers_comm (a b : ToolEvidence) : toolDiffers a b = toolDiffers b a := by
  simp only [toolDiffers, ne_comm]

theorem name_of_toolNamed {tools : List ToolEvidence} {name : Str} {tool : ToolEvidence}
    (h : toolNamed tools name = some tool) : tool.name = name := by
  have hname := List.find?_some h
  exact of_decide_eq_true hname

/-- The tools of two captures under one name differ. -/
def differsAt (previous current : ScanEvidence) (name : Str) : Bool :=
  match toolNamed previous.tools name, toolNamed current.tools name with
  | some a, some b => toolDiffers a b
  | _, _ => false

theorem differsAt_comm (previous current : ScanEvidence) (name : Str) :
    differsAt previous current name = differsAt current previous name := by
  unfold differsAt
  cases toolNamed previous.tools name <;> cases toolNamed current.tools name
  case some.some a b => exact toolDiffers_comm a b
  all_goals rfl

theorem mem_toolsChanged {previous current : ScanEvidence} {name : Str} :
    name ∈ (surfaceDelta previous current).toolsChanged ↔ differsAt previous current name = true := by
  change name ∈ (toolNames previous.tools).filter (differsAt previous current) ↔ _
  rw [List.mem_filter, toolNames, mem_sortedSet]
  apply and_iff_right_of_imp
  intro hdiffers
  by_contra hname
  rw [differsAt, toolNamed_eq_none.mpr hname] at hdiffers
  cases hdiffers

theorem mem_toolsAdded {previous current : ScanEvidence} {name : Str} :
    name ∈ (surfaceDelta previous current).toolsAdded ↔
      toolNamed current.tools name ≠ none ∧ toolNamed previous.tools name = none := by
  change name ∈ (toolNames current.tools).filter _ ↔ _
  rw [List.mem_filter, toolNames, mem_sortedSet, Option.isNone_iff_eq_none]
  simp only [ne_eq, toolNamed_eq_none, not_not]

theorem mem_toolsRemoved {previous current : ScanEvidence} {name : Str} :
    name ∈ (surfaceDelta previous current).toolsRemoved ↔
      toolNamed previous.tools name ≠ none ∧ toolNamed current.tools name = none := by
  change name ∈ (toolNames previous.tools).filter _ ↔ _
  rw [List.mem_filter, toolNames, mem_sortedSet, Option.isNone_iff_eq_none]
  simp only [ne_eq, toolNamed_eq_none, not_not]

theorem anyChange_eq_false {delta : ToolSurfaceDelta} : delta.anyChange = false ↔
    (delta.toolsAdded = [] ∧ delta.toolsRemoved = [] ∧ delta.toolsChanged = []) ∧
      delta.promptCountDelta = 0 ∧ delta.resourceCountDelta = 0 := by
  simp only [ToolSurfaceDelta.anyChange, Bool.or_eq_false_iff, Bool.not_eq_false', List.isEmpty_iff,
    decide_eq_false_iff_not, not_not, and_assoc]

theorem unchanged_iff {previous current : ScanEvidence} :
    (surfaceDelta previous current).anyChange = false ↔ SeenAlike previous current := by
  have hpoint : ∀ name, toolNamed previous.tools name = toolNamed current.tools name ↔
      name ∉ (surfaceDelta previous current).toolsAdded ∧
        name ∉ (surfaceDelta previous current).toolsRemoved ∧
          name ∉ (surfaceDelta previous current).toolsChanged := by
    intro name
    rw [mem_toolsAdded, mem_toolsRemoved, mem_toolsChanged, differsAt]
    cases hp : toolNamed previous.tools name with
    | none => cases hc : toolNamed current.tools name <;> simp
    | some a =>
      cases hc : toolNamed current.tools name with
      | none => simp
      | some b =>
        have hname := (name_of_toolNamed hp).trans (name_of_toolNamed hc).symm
        rw [Bool.not_eq_true, toolDiffers_eq_false hname]
        simp
  rw [anyChange_eq_false]
  have hcounts : (surfaceDelta previous current).promptCountDelta = 0 ∧
      (surfaceDelta previous current).resourceCountDelta = 0 ↔
        previous.promptCount = current.promptCount ∧ previous.resourceCount = current.resourceCount := by
    simp only [surfaceDelta, sub_eq_zero]
    exact and_congr eq_comm eq_comm
  rw [hcounts]
  simp only [List.eq_nil_iff_forall_not_mem]
  constructor
  · rintro ⟨⟨hadded, hremoved, hchanged⟩, hprompt, hresource⟩
    exact ⟨fun name => (hpoint name).mpr ⟨hadded name, hremoved name, hchanged name⟩, hprompt, hresource⟩
  · intro h
    have hnames := fun name => (hpoint name).mp (h.tools name)
    exact ⟨⟨fun name => (hnames name).1, fun name => (hnames name).2.1, fun name => (hnames name).2.2⟩,
      h.promptCount, h.resourceCount⟩

/-! ## Both directions -/

/-- The two comparisons of a pair mirror each other. -/
structure Mirrored (forward backward : ScanDrift) : Prop where
  comparison : forward.surfaceComparison = backward.surfaceComparison
  delta : ∃ there back, forward.surfaceDelta = some there ∧ backward.surfaceDelta = some back ∧
    there.toolsAdded = back.toolsRemoved ∧ there.toolsRemoved = back.toolsAdded ∧
      there.toolsChanged = back.toolsChanged ∧ there.promptCountDelta = -back.promptCountDelta ∧
        there.resourceCountDelta = -back.resourceCountDelta

theorem toolsChanged_comm (previous current : ScanEvidence) :
    (surfaceDelta previous current).toolsChanged = (surfaceDelta current previous).toolsChanged := by
  have hsorted : ∀ a b : ScanEvidence, (surfaceDelta a b).toolsChanged.Pairwise StrLe :=
    fun a b => (sortedSet_pairwise _).filter _
  have hnodup : ∀ a b : ScanEvidence, (surfaceDelta a b).toolsChanged.Nodup :=
    fun a b => (sortedSet_nodup _).filter _
  have hperm : (surfaceDelta previous current).toolsChanged.Perm (surfaceDelta current previous).toolsChanged := by
    apply (List.perm_ext_iff_of_nodup (hnodup _ _) (hnodup _ _)).mpr
    intro name
    rw [mem_toolsChanged, mem_toolsChanged, differsAt_comm]
  exact hperm.eq_of_pairwise (fun _ _ _ _ => strLe_antisymm) (hsorted _ _) (hsorted _ _)

theorem anyChange_comm (previous current : ScanEvidence) :
    (surfaceDelta previous current).anyChange = (surfaceDelta current previous).anyChange := by
  rw [Bool.eq_iff_iff, ← not_iff_not, Bool.not_eq_true, Bool.not_eq_true, unchanged_iff, unchanged_iff]
  constructor
  · exact fun h => ⟨fun name => (h.tools name).symm, h.promptCount.symm, h.resourceCount.symm⟩
  · exact fun h => ⟨fun name => (h.tools name).symm, h.promptCount.symm, h.resourceCount.symm⟩

/-- The captures declare the same tools and the same prompt and resource counts. -/
structure SameSurface (previous current : ScanEvidence) : Prop where
  tools : previous.tools.Perm current.tools
  promptCount : previous.promptCount = current.promptCount
  resourceCount : previous.resourceCount = current.resourceCount

/-- The two comparisons of a pair mirror each other, and an unchanged surface is the same surface
exactly when captures that look alike hide the same tools behind repeated names. -/
theorem unchanged_surface_iff {previous current : ScanRecord} {before after : ScanEvidence}
    (hslug : previous.serverSlug = current.serverSlug) (hbefore : previous.evidence = some before)
    (hafter : current.evidence = some after) :
    ∃ forward backward, diff previous current = .ok forward ∧ diff current previous = .ok backward ∧
      Mirrored forward backward ∧
        ((forward.surfaceComparison = .unchanged → SameSurface before after) ↔
          (SeenAlike before after → (shadowed before.tools).Perm (shadowed after.tools))) := by
  have hforward : compareSurfaces previous.evidence current.evidence =
      (if (surfaceDelta before after).anyChange then .changed else .unchanged, some (surfaceDelta before after)) := by
    rw [hbefore, hafter]
    rfl
  have hbackward : compareSurfaces current.evidence previous.evidence =
      (if (surfaceDelta after before).anyChange then .changed else .unchanged, some (surfaceDelta after before)) := by
    rw [hbefore, hafter]
    rfl
  have hunchanged : (if (surfaceDelta before after).anyChange then SurfaceComparison.changed else .unchanged) =
      .unchanged ↔ SeenAlike before after := by
    rw [← unchanged_iff]
    cases (surfaceDelta before after).anyChange <;> simp
  unfold diff
  rw [if_neg (not_not.mpr hslug), if_neg (not_not.mpr hslug.symm), hforward, hbackward]
  refine ⟨_, _, rfl, rfl, ⟨?_, _, _, rfl, rfl, rfl, rfl, toolsChanged_comm _ _, ?_, ?_⟩, ?_⟩
  · dsimp only
    rw [anyChange_comm]
  · exact (neg_sub _ _).symm
  · exact (neg_sub _ _).symm
  · dsimp only
    rw [hunchanged]
    refine forall_congr' fun hseen => ?_
    rw [← tools_perm_iff hseen.tools]
    exact ⟨fun h => h.tools, fun h => ⟨h, hseen.promptCount, hseen.resourceCount⟩⟩

/-! ## A shadowed tool -/

def surfaceRisk : RiskSummary :=
  ⟨.ofRat 0, .ofRat 0, .ofRat 0, .ofRat 0, .ofRat 0, .ofRat 0, [], .ofRat 0⟩

def surfaceTool (hash : Str) : ToolEvidence := ⟨u "run", true, some hash, false⟩

def surfaceScan (tools : List ToolEvidence) : ScanRecord where
  id := u "scan"
  serverSlug := u "server"
  engineName := u "mcpaudit"
  engineVersion := u "1"
  grade := .A
  transparency := .high
  risk := surfaceRisk
  findings := []
  evidence := some ⟨tools.length, tools, 0, 0, u "sha256"⟩
  scannedAt := ⟨0, some 0, by decide⟩
  sandboxImage := none
  reportRef := none

/-- A second tool of one name is not seen: the surface it is removed from compares unchanged. -/
theorem unchanged_surface_hides :
    ∃ previous current before after, previous.serverSlug = current.serverSlug ∧
      previous.evidence = some before ∧ current.evidence = some after ∧
        ∃ forward, diff previous current = .ok forward ∧ forward.surfaceComparison = .unchanged ∧
          ¬SameSurface before after := by
  refine ⟨surfaceScan [surfaceTool (u "a"), surfaceTool (u "b")], surfaceScan [surfaceTool (u "b")],
    _, _, rfl, rfl, rfl, _, rfl, by decide, fun h => ?_⟩
  have hlength := h.tools.length_eq
  exact absurd hlength (by decide)

theorem unchanged_surface_sample :
    ∃ forward backward, diff (surfaceScan [surfaceTool (u "a")]) (surfaceScan [surfaceTool (u "b")]) = .ok forward ∧
      diff (surfaceScan [surfaceTool (u "b")]) (surfaceScan [surfaceTool (u "a")]) = .ok backward ∧
        Mirrored forward backward := by
  obtain ⟨forward, backward, hforward, hbackward, hmirrored, -⟩ :=
    @unchanged_surface_iff (surfaceScan [surfaceTool (u "a")]) (surfaceScan [surfaceTool (u "b")]) _ _ rfl rfl rfl
  exact ⟨forward, backward, hforward, hbackward, hmirrored⟩

end McpTrust
