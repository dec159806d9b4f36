import McpTrust.Portability.Compare
import McpTrust.Portability.Redaction

/-! # Comparing two server intents

The semantic views of two intents are comparable, so no difference between them is lost,
and a permission that only the second intent grants is reported as widened.
-/

namespace McpTrust.Portability

set_option autoImplicit false

open Python

/-! ## Views are comparable -/

theorem Comparable.leaves {before after : Dict} (names : ∀ key ∈ Dict.keys before ++ Dict.keys after, ch '.' ∉ key)
    (hbefore : ∀ kv ∈ before, IsLeaf kv.2) (hafter : ∀ kv ∈ after, IsLeaf kv.2) :
    Comparable (.obj before) (.obj after) := by
  apply Comparable.dict names
  · intro key x hx _
    exact hbefore _ (Dict.mem_of_lookup hx)
  · intro key y _ hy
    exact hafter _ (Dict.mem_of_lookup hy)
  · intro key x y hx _
    exact .leaf (.inl (hbefore _ (Dict.mem_of_lookup hx)))

/-- Two records with the same keys, field by field. -/
def SameShape (before after : Dict) : Prop :=
  List.Forall₂ (fun p q => p.1 = q.1 ∧ Comparable p.2 q.2) before after

theorem SameShape.lookup {before after : Dict} (h : SameShape before after) (key : Str) :
    Dict.lookup before key = none ∧ Dict.lookup after key = none ∨
      ∃ x y, Dict.lookup before key = some x ∧ Dict.lookup after key = some y ∧ Comparable x y := by
  unfold SameShape at h
  induction h with
  | nil => exact .inl ⟨rfl, rfl⟩
  | @cons p q before after hpq hrest ih =>
    obtain ⟨name, x⟩ := p
    obtain ⟨name', y⟩ := q
    obtain ⟨hname, hxy⟩ := hpq
    dsimp only at hname hxy
    subst hname
    rw [Dict.lookup_cons, Dict.lookup_cons]
    by_cases hkey : name = key
    · rw [if_pos hkey, if_pos hkey]
      exact .inr ⟨x, y, rfl, rfl, hxy⟩
    · rw [if_neg hkey, if_neg hkey]
      exact ih

theorem Comparable.record {before after : Dict} (names : ∀ key ∈ Dict.keys before ++ Dict.keys after, ch '.' ∉ key)
    (h : SameShape before after) : Comparable (.obj before) (.obj after) := by
  apply Comparable.dict names
  · intro key x hx hy
    obtain ⟨hnone, -⟩ | ⟨x', y, -, hy', -⟩ := h.lookup key
    · rw [hnone] at hx
      cases hx
    · rw [hy] at hy'
      cases hy'
  · intro key y hx hy
    obtain ⟨-, hnone⟩ | ⟨x, y', hx', -, -⟩ := h.lookup key
    · rw [hnone] at hy
      cases hy
    · rw [hx] at hx'
      cases hx'
  · intro key x y hx hy
    obtain ⟨hnone, -⟩ | ⟨x', y', hx', hy', hxy⟩ := h.lookup key
    · rw [hnone] at hx
      cases hx
    · rw [hx] at hx'
      rw [hy] at hy'
      cases hx'
      cases hy'
      exact hxy

theorem isLeaf_null : IsLeaf .null := by
  intro h
  cases h

theorem isLeaf_str (s : Str) : IsLeaf (.str s) := by
  intro h
  cases h

theorem isLeaf_textJson (s : String) : IsLeaf (textJson s) := isLeaf_str _

theorem isLeaf_bool (b : Bool) : IsLeaf (.bool b) := by
  intro h
  cases h

theorem isLeaf_arr (items : List Json) : IsLeaf (.arr items) := by
  intro h
  cases h

theorem isLeaf_optionJson {α : Type} {dump : α → Json} (hdump : ∀ a, IsLeaf (dump a)) (o : Option α) :
    IsLeaf (optionJson dump o) := by
  cases o with
  | none => exact isLeaf_null
  | some a => exact hdump a

theorem isLeaf_float (x : PyFloat) : IsLeaf (.float x) := by
  intro h
  cases h

theorem transport_fields (transport : Transport) :
    ∃ fields : Dict, transport.dump = .obj fields ∧ (∀ key ∈ Dict.keys fields, ch '.' ∉ key) ∧
      ∀ kv ∈ fields, IsLeaf kv.2 := by
  cases transport with
  | stdio command args cwd =>
    refine ⟨_, rfl, by simp only [Dict.keys, List.map_cons, List.map_nil]; decide, ?_⟩
    simp only [List.forall_mem_cons, List.not_mem_nil, false_implies, implies_true, and_true]
    exact ⟨isLeaf_textJson _, isLeaf_str _, isLeaf_arr _, isLeaf_optionJson isLeaf_str _⟩
  | http url headers =>
    refine ⟨_, rfl, by simp only [Dict.keys, List.map_cons, List.map_nil]; decide, ?_⟩
    simp only [List.forall_mem_cons, List.not_mem_nil, false_implies, implies_true, and_true]
    exact ⟨isLeaf_textJson _, isLeaf_str _, isLeaf_arr _⟩

theorem comparable_transport (first second : Transport) : Comparable first.dump second.dump := by
  obtain ⟨before, hbefore, hnames, hleaves⟩ := transport_fields first
  obtain ⟨after, hafter, hnames', hleaves'⟩ := transport_fields second
  rw [hbefore, hafter]
  apply Comparable.leaves _ hleaves hleaves'
  intro key hkey
  exact (List.mem_append.mp hkey).elim (hnames key) (hnames' key)

theorem comparable_source (first second : ValueSource) : Comparable first.dump second.dump := by
  apply Comparable.leaves (by simp only [Dict.keys, List.map_cons, List.map_nil]; decide)
  · simp only [List.forall_mem_cons, List.not_mem_nil, false_implies, implies_true, and_true]
    exact ⟨isLeaf_textJson _, isLeaf_str _, isLeaf_bool _, isLeaf_bool _⟩
  · simp only [List.forall_mem_cons, List.not_mem_nil, false_implies, implies_true, and_true]
    exact ⟨isLeaf_textJson _, isLeaf_str _, isLeaf_bool _, isLeaf_bool _⟩

theorem comparable_token (first second : Option ValueSource) :
    Comparable (optionJson ValueSource.dump first) (optionJson ValueSource.dump second) := by
  cases first with
  | none => exact .leaf (.inl isLeaf_null)
  | some first =>
    cases second with
    | none => exact .leaf (.inr isLeaf_null)
    | some second => exact comparable_source first second

theorem comparable_auth (first second : AuthRequirement) : Comparable first.dump second.dump := by
  apply Comparable.record (by simp only [Dict.keys, List.map_cons, List.map_nil]; decide)
  exact .cons ⟨rfl, .leaf (.inl (isLeaf_textJson _))⟩ <| .cons ⟨rfl, .leaf (.inl (isLeaf_bool _))⟩ <|
    .cons ⟨rfl, comparable_token _ _⟩ <| .cons ⟨rfl, .leaf (.inl (isLeaf_arr _))⟩ .nil

theorem comparable_policy (first second : ScopePolicy) : Comparable first.dump second.dump := by
  apply Comparable.record (by simp only [Dict.keys, List.map_cons, List.map_nil]; decide)
  exact .cons ⟨rfl, .leaf (.inl (isLeaf_arr _))⟩ <| .cons ⟨rfl, .leaf (.inl (isLeaf_arr _))⟩ .nil

theorem comparable_startup (first second : StartupPolicy) : Comparable first.dump second.dump := by
  apply Comparable.record (by simp only [Dict.keys, List.map_cons, List.map_nil]; decide)
  exact .cons ⟨rfl, .leaf (.inl (isLeaf_optionJson isLeaf_float _))⟩ <|
    .cons ⟨rfl, .leaf (.inl (isLeaf_optionJson isLeaf_float _))⟩ <|
      .cons ⟨rfl, .leaf (.inl (isLeaf_optionJson isLeaf_bool _))⟩ .nil

theorem comparable_view (first second : ServerIntent) : Comparable first.view second.view := by
  apply Comparable.record (by simp only [Dict.keys, List.map_cons, List.map_nil]; decide)
  exact .cons ⟨rfl, comparable_transport _ _⟩ <| .cons ⟨rfl, .leaf (.inl (isLeaf_arr _))⟩ <|
    .cons ⟨rfl, comparable_auth _ _⟩ <| .cons ⟨rfl, .leaf (.inl (isLeaf_bool _))⟩ <|
      .cons ⟨rfl, comparable_policy _ _⟩ <| .cons ⟨rfl, comparable_policy _ _⟩ <|
        .cons ⟨rfl, comparable_startup _ _⟩ .nil

/-! ## Widening -/

/-- An empty allowlist allows every name. -/
def ScopePolicy.Allows (policy : ScopePolicy) (name : Str) : Prop := policy.allow = [] ∨ name ∈ policy.allow

def ScopePolicy.Permits (policy : ScopePolicy) (name : Str) : Prop := policy.Allows name ∧ name ∉ policy.deny

def WidenedAt (changes : List SemanticChange) (path : String) : Prop :=
  ∃ c ∈ changes, c.state = .widened ∧ c.path = u path

theorem not_scopeSubset {xs ys : List Str} {name : Str} (h : name ∈ xs) (hnot : name ∉ ys) :
    scopeSubset (xs.map Json.str) (ys.map Json.str) = false := by
  rw [← Bool.not_eq_true, scopeSubset, List.all_eq_true]
  intro hall
  have hmem := hall _ (List.mem_map_of_mem h)
  rw [List.any_eq_true] at hmem
  obtain ⟨y, hy, heq⟩ := hmem
  obtain ⟨z, hz, rfl⟩ := List.mem_map.mp hy
  have hname : name = z := by simpa [Json.pyEq] using heq
  exact hnot (hname ▸ hz)

theorem compareScopeCollection_widened {before after : List Json} {server path : Str}
    (hsets : (scopeSubset before after && scopeSubset after before) = false)
    (h : widensScope (leafName path) before after = true) :
    ∃ c ∈ compareScopeCollection before after server path, c.state = .widened ∧ c.path = path := by
  rw [compareScopeCollection, hsets, h]
  exact ⟨_, List.mem_singleton_self _, rfl, rfl⟩

theorem compare_texts (first second : List Str) {server path : Str} (hpath : leafName path ∈ scopeLeaves.map u) :
    compare (textsJson first) (textsJson second) server path =
      compareScopeCollection (first.map Json.str) (second.map Json.str) server path := by
  have htypes : ¬pyType (textsJson first) ≠ pyType (textsJson second) := not_not.mpr rfl
  rw [compare.eq_def, if_neg htypes]
  exact if_pos hpath

/-- A name that the allowlist of the second policy lets in, and that of the first does not. -/
theorem allow_widened {first second : ScopePolicy} {name : Str} (hsecond : second.Allows name)
    (hfirst : ¬first.Allows name) (server : Str) {path : Str} (hpath : leafName path = u "allow") :
    ∃ c ∈ compare (textsJson first.allow) (textsJson second.allow) server path, c.state = .widened ∧ c.path = path := by
  unfold ScopePolicy.Allows at hsecond hfirst
  obtain ⟨hne, hnot⟩ := not_or.mp hfirst
  have hbefore : (first.allow.map Json.str).isEmpty = false := by
    rw [List.isEmpty_map]
    simpa using hne
  have hwidens : ((second.allow.map Json.str).isEmpty ||
      !scopeSubset (second.allow.map Json.str) (first.allow.map Json.str)) = true := by
    rw [Bool.or_eq_true]
    obtain hempty | hmem := hsecond
    · left
      rw [hempty]
      rfl
    · right
      rw [not_scopeSubset hmem hnot]
      rfl
  have hsets : (scopeSubset (first.allow.map Json.str) (second.allow.map Json.str) &&
      scopeSubset (second.allow.map Json.str) (first.allow.map Json.str)) = false := by
    obtain hempty | hmem := hsecond
    · obtain ⟨head, hhead⟩ := List.exists_mem_of_ne_nil _ hne
      have hout : head ∉ second.allow := by
        rw [hempty]
        exact List.not_mem_nil
      rw [not_scopeSubset hhead hout, Bool.false_and]
    · rw [not_scopeSubset hmem hnot, Bool.and_false]
  rw [compare_texts _ _ (by rw [hpath]; decide)]
  apply compareScopeCollection_widened hsets
  rw [hpath, widensScope, if_pos rfl, hbefore, hwidens]
  rfl

theorem deny_widened {first second : ScopePolicy} {name : Str} (hfirst : name ∈ first.deny)
    (hsecond : name ∉ second.deny) (server : Str) {path : Str} (hpath : leafName path = u "deny") :
    ∃ c ∈ compare (textsJson first.deny) (textsJson second.deny) server path, c.state = .widened ∧ c.path = path := by
  have hnot := not_scopeSubset hfirst hsecond
  rw [compare_texts _ _ (by rw [hpath]; decide)]
  apply compareScopeCollection_widened
  · rw [hnot, Bool.false_and]
  · rw [hpath, widensScope, if_neg (by decide), if_pos rfl, hnot]
    rfl

theorem scopes_widened {first second : List Str} {scope : Str} (hsecond : scope ∈ second) (hfirst : scope ∉ first)
    (server : Str) {path : Str} (hpath : leafName path = u "scopes") :
    ∃ c ∈ compare (textsJson first) (textsJson second) server path, c.state = .widened ∧ c.path = path := by
  have hnot := not_scopeSubset hsecond hfirst
  rw [compare_texts _ _ (by rw [hpath]; decide)]
  apply compareScopeCollection_widened
  · rw [hnot, Bool.and_false]
  · rw [hpath, widensScope, if_neg (by decide), if_neg (by decide), hnot]
    rfl

/-- A change two levels down is a change of the whole comparison. -/
theorem mem_compare_two {before after before' after' : Dict} {server path : Str} (outer inner : Str) {x y : Json}
    (hbefore : Dict.lookup before outer = some (.obj before')) (hafter : Dict.lookup after outer = some (.obj after'))
    (hx : Dict.lookup before' inner = some x) (hy : Dict.lookup after' inner = some y)
    (hpath : nextPath (nextPath [] outer) inner = path) {c : SemanticChange} (hc : c ∈ compare x y server path) :
    c ∈ compare (.obj before) (.obj after) server [] := by
  apply mem_compare_common hbefore hafter
  apply mem_compare_common hx hy
  rw [hpath]
  exact hc

theorem policy_widened {first second : ServerIntent} {server : Str} (field : String) {p q : ScopePolicy}
    {before after : Dict} (hfirst : first.view = .obj before) (hsecond : second.view = .obj after)
    (hp : Dict.lookup before (u field) = some p.dump) (hq : Dict.lookup after (u field) = some q.dump)
    {allowPath denyPath : String}
    (hallow : nextPath (nextPath [] (u field)) (u "allow") = u allowPath)
    (hdeny : nextPath (nextPath [] (u field)) (u "deny") = u denyPath) {name : Str} (hname : q.Permits name)
    (hnot : ¬p.Permits name) :
    ¬p.Allows name ∧ WidenedAt (compare first.view second.view server []) allowPath ∨
      name ∈ p.deny ∧ WidenedAt (compare first.view second.view server []) denyPath := by
  rw [hfirst, hsecond]
  obtain ⟨hallows, hout⟩ := hname
  by_cases hp' : p.Allows name
  · right
    have hmem : name ∈ p.deny := by
      by_contra hmem
      exact hnot ⟨hp', hmem⟩
    have hleaf : leafName (u denyPath) = u "deny" := by
      rw [← hdeny]
      exact leafName_nextPath _ (by decide)
    obtain ⟨c, hc, hstate, hpath⟩ := deny_widened hmem hout server hleaf
    exact ⟨hmem, c, mem_compare_two _ _ hp hq rfl rfl hdeny hc, hstate, hpath⟩
  · left
    have hleaf : leafName (u allowPath) = u "allow" := by
      rw [← hallow]
      exact leafName_nextPath _ (by decide)
    obtain ⟨c, hc, hstate, hpath⟩ := allow_widened hallows hp' server hleaf
    exact ⟨hp', c, mem_compare_two _ _ hp hq rfl rfl hallow hc, hstate, hpath⟩

/-- The comparison of two intents reports every leaf that differs and every widening. -/
theorem compare_views (first second : ServerIntent) (server : Str) :
    (∀ keys, LeafDiffers (lastKey keys) first.view second.view keys →
      ∃ c ∈ compare first.view second.view server [], Reported first.view second.view [] keys c) ∧
    (∀ name, second.tools.Permits name → ¬first.tools.Permits name →
      ¬first.tools.Allows name ∧ WidenedAt (compare first.view second.view server []) "tools.allow" ∨
        name ∈ first.tools.deny ∧ WidenedAt (compare first.view second.view server []) "tools.deny") ∧
    (∀ name, second.resources.Permits name → ¬first.resources.Permits name →
      ¬first.resources.Allows name ∧ WidenedAt (compare first.view second.view server []) "resources.allow" ∨
        name ∈ first.resources.deny ∧ WidenedAt (compare first.view second.view server []) "resources.deny") ∧
    ∀ scope ∈ second.auth.scopes, scope ∉ first.auth.scopes →
      WidenedAt (compare first.view second.view server []) "auth.scopes" := by
  refine ⟨?_, ?_, ?_, ?_⟩
  · intro keys h
    have houter : leafName (pathText []) = lastKey [] := rfl
    exact compare_complete (comparable_view first second) server houter h
  · intro name hsecond hfirst
    exact policy_widened "tools" rfl rfl rfl rfl (by decide) (by decide) hsecond hfirst
  · intro name hsecond hfirst
    exact policy_widened "resources" rfl rfl rfl rfl (by decide) (by decide) hsecond hfirst
  · intro scope hsecond hfirst
    have hleaf : leafName (u "auth.scopes") = u "scopes" := by decide
    obtain ⟨c, hc, hstate, hpath⟩ := scopes_widened hsecond hfirst server hleaf
    exact ⟨c, mem_compare_two (u "auth") (u "scopes") rfl rfl rfl rfl (by decide) hc, hstate, hpath⟩

end McpTrust.Portability
