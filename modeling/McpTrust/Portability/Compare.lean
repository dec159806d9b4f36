import Mathlib.Data.List.TakeWhile
import McpTrust.Portability.Models
import McpTrust.Catalog.Replay

/-! # The round-trip comparison

`_compare` walks two views together and reports what it finds at each path. Every leaf at
which they differ is reported, and access that only the second view grants is reported as
widened.
-/

namespace McpTrust.Portability

set_option autoImplicit false

open Python

/-- `type(value)`. -/
inductive PyType
  | none
  | bool
  | int
  | float
  | str
  | list
  | dict
  deriving DecidableEq

def pyType : Json → PyType
  | .null => .none
  | .bool _ => .bool
  | .int _ => .int
  | .float _ => .float
  | .str _ => .str
  | .arr _ => .list
  | .obj _ => .dict

def change (server path : Str) (state : ChangeState) (explanation : String) : SemanticChange :=
  { server := server, path := path, state := state, explanation := explanation }

/-- `f"{path}.{key}" if path else key`. -/
def nextPath (path key : Str) : Str := if path = [] then key else path ++ ch '.' :: key

/-- `path.rsplit(".", 1)[-1]`. -/
def leafName (path : Str) : Str := (path.reverse.takeWhile fun c => decide (c ≠ ch '.')).reverse

/-- `set(xs) <= set(ys)` of strings. -/
def scopeSubset (xs ys : List Json) : Bool := xs.all fun x => ys.any fun y => x.pyEq y

/-- `widened` in `_compare_scope_collection`. -/
def widensScope (leaf : Str) (before after : List Json) : Bool :=
  if leaf = u "allow" then !before.isEmpty && (after.isEmpty || !scopeSubset after before)
  else if leaf = u "deny" then !scopeSubset before after
  else !scopeSubset after before

/-- `_compare_scope_collection`; its lists hold strings. -/
def compareScopeCollection (before after : List Json) (server path : Str) : List SemanticChange :=
  if scopeSubset before after && scopeSubset after before then
    if Json.pyEqItems before after then []
    else
      [change server path .preserved
        "Semantic scope set preserved; ordering and duplicate entries are non-semantic."]
  else if widensScope (leafName path) before after then
    [change server path .widened "Semantic scope set changed in a direction that may widen access."]
  else [change server path .transformed "Semantic scope set narrowed without widening access."]

def scopeLeaves : List String := ["allow", "deny", "scopes"]

theorem depth_lookup_lt {fields : Dict} {key : Str} {x : Json} (h : Dict.lookup fields key = some x) :
    x.depth < (Json.obj fields).depth := by
  rw [Json.depth]
  exact Nat.lt_succ_of_le (Json.depth_le_fields (Dict.mem_of_lookup h))

/-- `_compare`; the changes it appends, in order. -/
def compare (before after : Json) (server path : Str) : List SemanticChange :=
  if pyType before ≠ pyType after then [change server path .transformed "Round-trip value type changed."]
  else
    match before, after with
    | .obj before, .obj after =>
      (sortedSet (Dict.keys before ++ Dict.keys after)).flatMap fun key =>
        match _hbefore : Dict.lookup before key, Dict.lookup after key with
        | none, none => []
        | some _, none =>
          [change server (nextPath path key)
            (if key = u "allow" ∨ key = u "deny" then .widened else .dropped)
            "Semantic value was not present after round-trip."]
        | none, some _ =>
          [change server (nextPath path key) .defaulted "Host inspection introduced a default semantic value."]
        | some x, some y => compare x y server (nextPath path key)
    | .arr before, .arr after =>
      if leafName path ∈ scopeLeaves.map u then compareScopeCollection before after server path
      else if !Json.pyEqItems before after then
        [change server path .transformed "Ordered semantic collection changed during round-trip."]
      else []
    | before, after =>
      if !before.pyEq after then
        [change server path .transformed "Semantic value changed during round-trip."]
      else [change server path .preserved "Semantic value survived round-trip."]
termination_by before.depth
decreasing_by exact depth_lookup_lt _hbefore

/-! ## Leaves -/

def valueAt : Json → List Str → Option Json
  | v, [] => some v
  | .obj fields, key :: rest => (Dict.lookup fields key).bind fun x => valueAt x rest
  | _, _ :: _ => none

def pathText (keys : List Str) : Str := keys.foldl nextPath []

def lastKey (keys : List Str) : Str := keys.getLast?.getD []

def IsLeaf (v : Json) : Prop := pyType v ≠ .dict

/-- Equality of two leaves called `name`: scope collections are sets. -/
def SameLeaf (name : Str) (x y : Json) : Prop :=
  match x, y with
  | .arr xs, .arr ys =>
    if name ∈ scopeLeaves.map u then scopeSubset xs ys = true ∧ scopeSubset ys xs = true
    else Json.pyEqItems xs ys = true
  | x, y => x.pyEq y = true

/-- One of the two values has a leaf at the keys that the other does not have there. -/
def LeafDiffers (name : Str) (before after : Json) (keys : List Str) : Prop :=
  (∃ x, valueAt before keys = some x ∧ IsLeaf x ∧ ∀ y, valueAt after keys = some y → ¬SameLeaf name x y) ∨
    ∃ y, valueAt after keys = some y ∧ IsLeaf y ∧ ∀ x, valueAt before keys = some x → ¬SameLeaf name x y

/-- A change that is not PRESERVED stands at the keys, or at keys before them where the types differ. -/
structure Reported (before after : Json) (outer keys : List Str) (c : SemanticChange) : Prop where
  state : c.state ≠ .preserved
  path : c.path = pathText (outer ++ keys) ∨
    ∃ front x y, front <+: keys ∧ valueAt before front = some x ∧ valueAt after front = some y ∧
      pyType x ≠ pyType y ∧ c.path = pathText (outer ++ front)

/-- Two values whose objects stand at the same keys, or whose types differ. -/
inductive Comparable : Json → Json → Prop
  | leaf {x y : Json} (h : IsLeaf x ∨ IsLeaf y) : Comparable x y
  | dict {before after : Dict} (names : ∀ key ∈ Dict.keys before ++ Dict.keys after, ch '.' ∉ key)
      (dropped : ∀ key x, Dict.lookup before key = some x → Dict.lookup after key = none → IsLeaf x)
      (introduced : ∀ key y, Dict.lookup before key = none → Dict.lookup after key = some y → IsLeaf y)
      (common : ∀ key x y, Dict.lookup before key = some x → Dict.lookup after key = some y → Comparable x y) :
      Comparable (.obj before) (.obj after)

theorem pathText_snoc (keys : List Str) (key : Str) : pathText (keys ++ [key]) = nextPath (pathText keys) key := by
  rw [pathText, List.foldl_append]
  rfl

theorem leafName_nextPath (path : Str) {key : Str} (h : ch '.' ∉ key) : leafName (nextPath path key) = key := by
  have hkey : ∀ c ∈ key.reverse, decide (c ≠ ch '.') = true := by
    intro c hc
    rw [decide_eq_true_eq]
    rintro rfl
    exact h (List.mem_reverse.mp hc)
  unfold leafName nextPath
  split_ifs
  · rw [List.takeWhile_eq_self_iff.2 hkey, List.reverse_reverse]
  · have hsplit : (path ++ ch '.' :: key).reverse = key.reverse ++ ch '.' :: path.reverse := by simp
    rw [hsplit, List.takeWhile_append_of_pos hkey]
    simp

theorem lastKey_snoc (keys : List Str) (key : Str) : lastKey (keys ++ [key]) = key := by
  rw [lastKey, List.getLast?_append]
  rfl

theorem valueAt_leaf {v : Json} (h : IsLeaf v) {keys : List Str} {x : Json} (hx : valueAt v keys = some x) :
    keys = [] ∧ x = v := by
  cases keys with
  | nil =>
    rw [valueAt, Option.some.injEq] at hx
    exact ⟨rfl, hx.symm⟩
  | cons key rest =>
    cases v with
    | obj fields => exact absurd rfl h
    | _ => cases hx

/-! ## One level -/

theorem change_state_ne {server path : Str} {state : ChangeState} {explanation : String} (h : state ≠ .preserved) :
    (change server path state explanation).state ≠ .preserved := h

theorem compare_types {before after : Json} {server path : Str} (h : pyType before ≠ pyType after) :
    compare before after server path = [change server path .transformed "Round-trip value type changed."] := by
  rw [compare.eq_def, if_pos h]

theorem compare_leaf {before after : Json} (server : Str) {path : Str} (htypes : pyType before = pyType after)
    (hleaf : IsLeaf before) (h : ¬SameLeaf (leafName path) before after) :
    ∃ c ∈ compare before after server path, c.path = path ∧ c.state ≠ .preserved := by
  have hnot : ¬pyType before ≠ pyType after := not_not.mpr htypes
  cases before with
  | obj fields => exact absurd rfl hleaf
  | arr xs =>
    cases after with
    | arr ys =>
      rw [compare.eq_def, if_neg hnot]
      dsimp only
      unfold SameLeaf at h
      dsimp only at h
      by_cases hname : leafName path ∈ scopeLeaves.map u
      · rw [if_pos hname] at h ⊢
        have hsets : ¬(scopeSubset xs ys && scopeSubset ys xs) = true := by
          rw [Bool.and_eq_true]
          exact h
        rw [compareScopeCollection, if_neg hsets]
        split_ifs
        · exact ⟨_, List.mem_singleton_self _, rfl, change_state_ne (by decide)⟩
        · exact ⟨_, List.mem_singleton_self _, rfl, change_state_ne (by decide)⟩
      · rw [if_neg hname] at h ⊢
        rw [Bool.not_eq_true] at h
        rw [h]
        exact ⟨_, List.mem_singleton_self _, rfl, change_state_ne (by decide)⟩
    | _ => cases htypes
  | _ =>
    cases after with
    | obj fields => cases htypes
    | arr ys => cases htypes
    | _ =>
      rw [compare.eq_def, if_neg hnot]
      unfold SameLeaf at h
      rw [Bool.not_eq_true] at h
      simp only [h]
      exact ⟨_, List.mem_singleton_self _, rfl, change_state_ne (by decide)⟩

/-- What one key contributes. -/
def compareKey (before after : Dict) (server path key : Str) : List SemanticChange :=
  match Dict.lookup before key, Dict.lookup after key with
  | none, none => []
  | some _, none =>
    [change server (nextPath path key) (if key = u "allow" ∨ key = u "deny" then .widened else .dropped)
      "Semantic value was not present after round-trip."]
  | none, some _ =>
    [change server (nextPath path key) .defaulted "Host inspection introduced a default semantic value."]
  | some x, some y => compare x y server (nextPath path key)

theorem compare_dict (before after : Dict) (server path : Str) :
    compare (.obj before) (.obj after) server path =
      (sortedSet (Dict.keys before ++ Dict.keys after)).flatMap (compareKey before after server path) := by
  rw [compare.eq_def, if_neg (show ¬pyType (.obj before) ≠ pyType (.obj after) from not_not.mpr rfl)]
  dsimp only
  congr 1
  funext key
  unfold compareKey
  cases hbefore : Dict.lookup before key <;> cases hafter : Dict.lookup after key <;> rfl

theorem mem_compare_dict {before after : Dict} {server path key : Str}
    (hkey : key ∈ Dict.keys before ∨ key ∈ Dict.keys after) {c : SemanticChange}
    (hc : c ∈ compareKey before after server path key) : c ∈ compare (.obj before) (.obj after) server path := by
  rw [compare_dict, List.mem_flatMap]
  exact ⟨key, mem_sortedSet.mpr (List.mem_append.mpr hkey), hc⟩

theorem mem_keys_of_lookup {fields : Dict} {key : Str} {x : Json} (h : Dict.lookup fields key = some x) :
    key ∈ Dict.keys fields := List.mem_map.mpr ⟨_, Dict.mem_of_lookup h, rfl⟩

theorem mem_compare_common {before after : Dict} {server path key : Str} {x y : Json}
    (hx : Dict.lookup before key = some x) (hy : Dict.lookup after key = some y) {c : SemanticChange}
    (hc : c ∈ compare x y server (nextPath path key)) : c ∈ compare (.obj before) (.obj after) server path := by
  apply mem_compare_dict (.inl (mem_keys_of_lookup hx))
  rw [compareKey, hx, hy]
  exact hc

/-! ## Completeness -/

/-- Every leaf at which two comparable values differ is reported. -/
theorem compare_complete {before after : Json} (h : Comparable before after) (server : Str) :
    ∀ {outer keys : List Str}, leafName (pathText outer) = lastKey outer →
      LeafDiffers (lastKey (outer ++ keys)) before after keys →
        ∃ c ∈ compare before after server (pathText outer), Reported before after outer keys c := by
  induction h with
  | @leaf before after hleaf =>
    intro outer keys hname hdiffers
    by_cases htypes : pyType before = pyType after
    · have hboth : IsLeaf before ∧ IsLeaf after := by
        unfold IsLeaf at hleaf ⊢
        rw [htypes] at hleaf ⊢
        exact ⟨hleaf.elim id id, hleaf.elim id id⟩
      have hnil : keys = [] ∧ ¬SameLeaf (lastKey (outer ++ keys)) before after := by
        obtain ⟨x, hx, -, hnot⟩ | ⟨y, hy, -, hnot⟩ := hdiffers
        · obtain ⟨rfl, rfl⟩ := valueAt_leaf hboth.1 hx
          exact ⟨rfl, hnot after rfl⟩
        · obtain ⟨rfl, rfl⟩ := valueAt_leaf hboth.2 hy
          exact ⟨rfl, hnot before rfl⟩
      obtain ⟨rfl, hnot⟩ := hnil
      rw [List.append_nil, ← hname] at hnot
      obtain ⟨c, hc, hpath, hstate⟩ := compare_leaf server htypes hboth.1 hnot
      refine ⟨c, hc, hstate, .inl ?_⟩
      rw [List.append_nil, hpath]
    · rw [compare_types htypes]
      refine ⟨_, List.mem_singleton_self _, change_state_ne (by decide), .inr ?_⟩
      refine ⟨[], before, after, List.nil_prefix, rfl, rfl, htypes, ?_⟩
      rw [List.append_nil]
      rfl
  | @dict before after names dropped introduced common ih =>
    intro outer keys hname hdiffers
    cases keys with
    | nil =>
      obtain ⟨x, hx, hleaf, -⟩ | ⟨y, hy, hleaf, -⟩ := hdiffers
      · cases hx
        exact absurd rfl hleaf
      · cases hy
        exact absurd rfl hleaf
    | cons key rest =>
      have hone : pathText (outer ++ [key]) = nextPath (pathText outer) key := pathText_snoc outer key
      have hsplit : outer ++ key :: rest = outer ++ [key] ++ rest := by simp
      cases hbefore : Dict.lookup before key with
      | none =>
        cases hafter : Dict.lookup after key with
        | none =>
          unfold LeafDiffers valueAt at hdiffers
          simp [hbefore, hafter] at hdiffers
        | some y =>
          have hleaf := introduced key y hbefore hafter
          have hrest : rest = [] := by
            obtain ⟨x, hx, -⟩ | ⟨z, hz, -⟩ := hdiffers
            · rw [valueAt, hbefore] at hx
              cases hx
            · rw [valueAt, hafter, Option.bind_some] at hz
              exact (valueAt_leaf hleaf hz).1
          subst hrest
          refine ⟨change server (nextPath (pathText outer) key) .defaulted
            "Host inspection introduced a default semantic value.", ?_, change_state_ne (by decide), .inl hone.symm⟩
          apply mem_compare_dict (.inr (mem_keys_of_lookup hafter))
          rw [compareKey, hbefore, hafter]
          exact List.mem_singleton_self _
      | some x =>
        cases hafter : Dict.lookup after key with
        | none =>
          have hleaf := dropped key x hbefore hafter
          have hrest : rest = [] := by
            obtain ⟨z, hz, -⟩ | ⟨y, hy, -⟩ := hdiffers
            · rw [valueAt, hbefore, Option.bind_some] at hz
              exact (valueAt_leaf hleaf hz).1
            · rw [valueAt, hafter] at hy
              cases hy
          subst hrest
          refine ⟨change server (nextPath (pathText outer) key)
            (if key = u "allow" ∨ key = u "deny" then .widened else .dropped)
            "Semantic value was not present after round-trip.", ?_, ?_, .inl hone.symm⟩
          · apply mem_compare_dict (.inl (mem_keys_of_lookup hbefore))
            rw [compareKey, hbefore, hafter]
            exact List.mem_singleton_self _
          · split_ifs
            · exact change_state_ne (by decide)
            · exact change_state_ne (by decide)
        | some y =>
          have hdot : ch '.' ∉ key := names key (List.mem_append_left _ (mem_keys_of_lookup hbefore))
          have hname' : leafName (pathText (outer ++ [key])) = lastKey (outer ++ [key]) := by
            rw [hone, leafName_nextPath _ hdot, lastKey_snoc]
          have hinner : LeafDiffers (lastKey (outer ++ [key] ++ rest)) x y rest := by
            rw [← hsplit]
            unfold LeafDiffers at hdiffers ⊢
            simpa only [valueAt, hbefore, hafter, Option.bind_some] using hdiffers
          obtain ⟨c, hc, hstate, hpath⟩ := ih key x y hbefore hafter hname' hinner
          rw [hone] at hc
          refine ⟨c, mem_compare_common hbefore hafter hc, hstate, ?_⟩
          obtain hpath | ⟨front, p, q, hfront, hp, hq, htypes, hpath⟩ := hpath
          · left
            rw [hpath, hsplit]
          · right
            refine ⟨key :: front, p, q, ?_, ?_, ?_, htypes, ?_⟩
            · exact List.cons_prefix_cons.mpr ⟨rfl, hfront⟩
            · rw [valueAt, hbefore, Option.bind_some, hp]
            · rw [valueAt, hafter, Option.bind_some, hq]
            · rw [hpath, List.append_assoc, List.singleton_append]

end McpTrust.Portability
