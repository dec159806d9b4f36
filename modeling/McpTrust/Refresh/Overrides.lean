import McpTrust.Refresh.LockAgreement

/-! # Accepted overrides bind every edge below their parent

A lock lists each package under the directory it is installed in. Node resolves a
name in the package's own directory first, then in each enclosing one. The preparer
does the same on the text of the path, and walks every edge below a parent once.
-/

namespace McpTrust.Refresh

set_option autoImplicit false

open Python

/-! ## Installed paths -/

/-- The names of a path of the lock, outermost first. -/
def lockNames (path : Str) : Option (List Str) := pathNames (fields (ch '/') path)

def childPath (parent name : Str) : Str :=
  if parent = [] then u "node_modules/" ++ name else parent ++ u "/node_modules/" ++ name

/-- Where packages nested in this order are installed. -/
def installPath (names : List Str) : Str := names.foldl childPath []

/-- The first of the package's own directory and the enclosing ones, the root last, that has the name. -/
def nearest (packages : Dict) (names : List Str) (name : Str) : Option Str :=
  (names.inits.reverse.map fun enclosing => childPath (installPath enclosing) name).find? fun path =>
    Dict.contains packages path

/-- `_NPM_LOCK_NAME_PART`. -/
def IsLockName (name : Str) : Prop :=
  isMixedName name = true ∨
    ∃ scope package, name = scope ++ ch '/' :: package ∧ isScope scope = true ∧ isMixedName package = true

theorem slash_notMem_mixed {name : Str} (h : isMixedName name = true) : ch '/' ∉ name := by
  have hslash : isAlnum (ch '/') = false ∧ isNameTail (ch '/') = false ∧ isUpperAlpha (ch '/') = false := by decide
  cases name with
  | nil => exact List.not_mem_nil
  | cons c rest =>
    rw [isMixedName, Bool.and_eq_true, List.all_eq_true] at h
    rintro hmem
    obtain heq | hrest := List.mem_cons.mp hmem
    · rw [← heq, hslash.1] at h
      cases h.1
    · have htail := h.2 _ hrest
      rw [hslash.2.1, hslash.2.2] at htail
      cases htail

theorem isScope_spec {scope : Str} (h : isScope scope = true) :
    scope.head? = some (ch '@') ∧ ch '/' ∉ scope := by
  have hslash : isLowerAlpha (ch '/') = false ∧ isDigit (ch '/') = false ∧ isNameTail (ch '/') = false ∧
      ch '/' ≠ ch '@' := by decide
  cases scope with
  | nil => cases h
  | cons c rest =>
    rw [isScope, Bool.and_eq_true, decide_eq_true_eq] at h
    obtain ⟨rfl, hrest⟩ := h
    refine ⟨rfl, fun hmem => ?_⟩
    obtain heq | hrest' := List.mem_cons.mp hmem
    · exact hslash.2.2.2 heq
    · cases rest with
      | nil => cases hrest
      | cons d rest =>
        rw [isLowerName, Bool.and_eq_true, List.all_eq_true] at hrest
        obtain heq | htail := List.mem_cons.mp hrest'
        · rw [← heq, hslash.1, hslash.2.1] at hrest
          cases hrest.1
        · have hbad := hrest.2 _ htail
          rw [hslash.2.2.1] at hbad
          cases hbad

theorem fields_cons (before rest : Str) :
    fields (ch '/') (before ++ ch '/' :: rest) = fields (ch '/') before ++ fields (ch '/') rest :=
  List.splitOn_append_cons_self before rest

theorem fields_mixed {name : Str} (h : ch '/' ∉ name) : fields (ch '/') name = [name] := by
  rw [fields, List.splitOn_eq_singleton h]

theorem slash_notMem_fields (s : Str) : ∀ part ∈ fields (ch '/') s, ch '/' ∉ part := by
  induction s with
  | nil =>
    intro part hpart
    rw [List.mem_singleton.mp hpart]
    exact List.not_mem_nil
  | cons c rest ih =>
    intro part hpart
    rw [fields, List.splitOn_cons_eq_if_modifyHead] at hpart
    split_ifs at hpart with hslash
    · obtain rfl | hin := List.mem_cons.mp hpart
      · exact List.not_mem_nil
      · exact ih part hin
    · obtain ⟨head, tail, heq⟩ := List.exists_cons_of_ne_nil (List.splitOn_ne_nil (ch '/') rest)
      rw [heq, List.modifyHead_cons] at hpart
      rw [fields, heq] at ih
      obtain rfl | hin := List.mem_cons.mp hpart
      · intro hmem
        obtain rfl | hhead := List.mem_cons.mp hmem
        · exact hslash (beq_self_eq_true _)
        · exact ih head List.mem_cons_self hhead
      · exact ih part (List.mem_cons_of_mem _ hin)

theorem fields_inj {s t : Str} (h : fields (ch '/') s = fields (ch '/') t) : s = t := by
  have hs : [ch '/'].intercalate (fields (ch '/') s) = s := List.intercalate_splitOn _
  have ht : [ch '/'].intercalate (fields (ch '/') t) = t := List.intercalate_splitOn _
  rw [← hs, ← ht, h]

/-- A name is one part, or a scope and a part. -/
theorem IsLockName.parts {name : Str} (h : IsLockName name) :
    fields (ch '/') name = [name] ∨
      ∃ scope package, fields (ch '/') name = [scope, package] ∧ scope.head? = some (ch '@') := by
  obtain hmixed | ⟨scope, package, rfl, hscope, hmixed⟩ := h
  · exact .inl (fields_mixed (slash_notMem_mixed hmixed))
  · obtain ⟨hhead, hslash⟩ := isScope_spec hscope
    refine .inr ⟨scope, package, ?_, hhead⟩
    rw [fields_cons, fields_mixed hslash, fields_mixed (slash_notMem_mixed hmixed), List.singleton_append]

theorem pathNames_parts (parts : List Str) (hplain : ∀ part ∈ parts, ch '/' ∉ part) :
    ∀ {names : List Str}, pathNames parts = some names →
      parts = names.flatMap (fun name => modulesPart :: fields (ch '/') name) ∧ names ≠ [] ∧
        ∀ name ∈ names, IsLockName name := by
  induction parts using pathNames.induct with
  | case1 scope package hscope =>
    intro names h
    rw [pathNames, if_pos rfl, if_pos hscope, if_pos rfl, Option.some.injEq] at h
    subst h
    rw [Bool.and_eq_true] at hscope
    refine ⟨?_, List.cons_ne_nil _ _, fun name hname => ?_⟩
    · rw [List.flatMap_singleton, fields_cons, fields_mixed (hplain scope (by simp)),
        fields_mixed (hplain package (by simp))]
      rfl
    · rw [List.mem_singleton.mp hname]
      exact .inr ⟨scope, package, rfl, hscope⟩
  | case2 scope package rest hscope hrest ih =>
    intro names h
    rw [pathNames, if_pos rfl, if_pos hscope, if_neg hrest, Option.map_eq_some_iff] at h
    obtain ⟨inner, hinner, rfl⟩ := h
    rw [Bool.and_eq_true] at hscope
    obtain ⟨hparts, -, hnames⟩ := ih (fun part hpart => hplain part (by simp [hpart])) hinner
    refine ⟨?_, List.cons_ne_nil _ _, fun name hname => ?_⟩
    · rw [List.flatMap_cons, ← hparts, fields_cons, fields_mixed (hplain scope (by simp)),
        fields_mixed (hplain package (by simp))]
      rfl
    · obtain rfl | hin := List.mem_cons.mp hname
      · exact .inr ⟨scope, package, rfl, hscope⟩
      · exact hnames name hin
  | case3 scope package rest hscope hmixed ih =>
    intro names h
    rw [pathNames, if_pos rfl, if_neg hscope, if_pos hmixed, Option.map_eq_some_iff] at h
    obtain ⟨inner, hinner, rfl⟩ := h
    obtain ⟨hparts, -, hnames⟩ := ih (fun part hpart => hplain part (by
      obtain rfl | hin := List.mem_cons.mp hpart
      · simp
      · simp [hin])) hinner
    refine ⟨?_, List.cons_ne_nil _ _, fun name hname => ?_⟩
    · rw [List.flatMap_cons, ← hparts, fields_mixed (slash_notMem_mixed hmixed)]
      rfl
    · obtain rfl | hin := List.mem_cons.mp hname
      · exact .inl hmixed
      · exact hnames name hin
  | case4 scope package rest hscope hmixed =>
    intro names h
    rw [pathNames, if_pos rfl, if_neg hscope, if_neg hmixed] at h
    cases h
  | case5 marker scope package rest hmarker =>
    intro names h
    rw [pathNames, if_neg hmarker] at h
    cases h
  | case6 marker package hpair =>
    intro names h
    rw [pathNames, if_pos hpair, Option.some.injEq] at h
    subst h
    obtain ⟨rfl, hmixed⟩ := hpair
    refine ⟨?_, List.cons_ne_nil _ _, fun name hname => ?_⟩
    · rw [List.flatMap_singleton, fields_mixed (slash_notMem_mixed hmixed)]
    · rw [List.mem_singleton.mp hname]
      exact .inl hmixed
  | case7 marker package hpair =>
    intro names h
    rw [pathNames, if_neg hpair] at h
    cases h
  | case8 parts hmany hpair =>
    intro names h
    rw [pathNames] at h
    · cases h
    · exact hmany
    · exact hpair

theorem childPath_ne_nil (parent name : Str) : childPath parent name ≠ [] := by
  have hmarker : u "/node_modules/" ≠ [] := by decide
  have hroot : u "node_modules/" ≠ [] := by decide
  unfold childPath
  split_ifs
  · exact fun h => hroot (List.append_eq_nil_iff.mp h).1
  · exact fun h => hmarker (List.append_eq_nil_iff.mp (List.append_eq_nil_iff.mp h).1).2

theorem installPath_concat (names : List Str) (name : Str) :
    installPath (names ++ [name]) = childPath (installPath names) name := by
  rw [installPath, List.foldl_append]
  rfl

theorem installPath_eq_nil {names : List Str} : installPath names = [] ↔ names = [] := by
  constructor
  · intro h
    obtain rfl | ⟨outer, last, rfl⟩ := List.eq_nil_or_concat' names
    · rfl
    · rw [installPath_concat] at h
      exact absurd h (childPath_ne_nil _ _)
  · rintro rfl
    rfl

theorem fields_childPath (parent name : Str) : fields (ch '/') (childPath parent name) =
    (if parent = [] then [] else fields (ch '/') parent) ++ modulesPart :: fields (ch '/') name := by
  have hmarker : u "node_modules/" ++ name = modulesPart ++ ch '/' :: name := rfl
  have hinner : fields (ch '/') (u "node_modules/" ++ name) = modulesPart :: fields (ch '/') name := by
    rw [hmarker, fields_cons, fields_mixed (by decide), List.singleton_append]
  unfold childPath
  split_ifs with hroot
  · exact hinner
  · have hslash : parent ++ u "/node_modules/" ++ name = parent ++ ch '/' :: (u "node_modules/" ++ name) := by
      rw [List.append_assoc]
      rfl
    rw [hslash, fields_cons, hinner]

theorem fields_installPath {names : List Str} (h : names ≠ []) : fields (ch '/') (installPath names) =
    names.flatMap fun name => modulesPart :: fields (ch '/') name := by
  induction names using List.reverseRecOn with
  | nil => exact absurd rfl h
  | append_singleton outer name ih =>
    rw [installPath_concat, fields_childPath, List.flatMap_append, List.flatMap_singleton]
    congr 1
    by_cases hroot : outer = []
    · rw [if_pos (installPath_eq_nil.mpr hroot), hroot, List.flatMap_nil]
    · rw [if_neg fun hnil => hroot (installPath_eq_nil.mp hnil), ih hroot]

/-- A path of the lock is where its names are installed. -/
theorem lockNames_eq_some {path : Str} {names : List Str} (h : lockNames path = some names) :
    path = installPath names ∧ names ≠ [] ∧ ∀ name ∈ names, IsLockName name := by
  obtain ⟨hparts, hne, hnames⟩ := pathNames_parts _ (slash_notMem_fields path) h
  exact ⟨fields_inj (hparts.trans (fields_installPath hne).symm), hne, hnames⟩

/-! ## The resolver -/

theorem IsLockName.not_infix {name : Str} (h : IsLockName name) :
    isInfix (u "/node_modules/") (u "node_modules/" ++ name) = false := by
  rw [Bool.eq_false_iff]
  intro hin
  obtain ⟨before, after, heq⟩ := isInfix_iff.mp hin
  have hparts : fields (ch '/') before ++ modulesPart :: fields (ch '/') after = modulesPart :: fields (ch '/') name := by
    have hleft : before ++ u "/node_modules/" ++ after = before ++ ch '/' :: (modulesPart ++ ch '/' :: after) := by
      rw [List.append_assoc]
      rfl
    have hright : u "node_modules/" ++ name = modulesPart ++ ch '/' :: name := rfl
    rw [hleft, hright] at heq
    have hmodules : fields (ch '/') modulesPart = [modulesPart] := fields_mixed (by decide)
    have hfields := congrArg (fields (ch '/')) heq
    rwa [fields_cons, fields_cons, fields_cons, hmodules, List.singleton_append, List.singleton_append] at hfields
  obtain ⟨first, rest, hfirst⟩ := List.exists_cons_of_ne_nil (List.splitOn_ne_nil (ch '/') before)
  obtain ⟨last, more, hlast⟩ := List.exists_cons_of_ne_nil (List.splitOn_ne_nil (ch '/') after)
  have hbefore : fields (ch '/') before = first :: rest := hfirst
  have hafter : fields (ch '/') after = last :: more := hlast
  rw [hbefore, hafter, List.cons_append] at hparts
  have htail := (List.cons.inj hparts).2
  obtain hone | ⟨scope, package, htwo, hhead⟩ := h.parts
  · have hlength := congrArg List.length htail
    rw [hone, List.length_append, List.length_cons, List.length_cons, List.length_singleton] at hlength
    omega
  · rw [htwo] at htail
    have hlength := congrArg List.length htail
    rw [List.length_append, List.length_cons, List.length_cons, List.length_cons, List.length_singleton] at hlength
    obtain rfl := List.length_eq_zero_iff.mp (show rest.length = 0 by omega)
    have hscope : modulesPart = scope := (List.cons.inj htail).1
    rw [← hscope] at hhead
    exact absurd hhead (by decide)

/-- `rfind` of the marker ends at the directory a package is installed under. -/
theorem outer_of_child {parent name : Str} (hname : IsLockName name) :
    isInfix (u "/node_modules/") (parent ++ u "/node_modules/" ++ name) = true ∧
      afterLast (u "/node_modules/") (parent ++ u "/node_modules/" ++ name) = name := by
  have hself : isInfix (u "/node_modules/") (u "/node_modules/" ++ name) = true :=
    isInfix_iff.mpr (List.prefix_append _ _).isInfix
  refine ⟨isInfix_iff.mpr ⟨parent, name, rfl⟩, ?_⟩
  rw [List.append_assoc, afterLast_append hself]
  have hcons : u "/node_modules/" ++ name = ch '/' :: (u "node_modules/" ++ name) := rfl
  have hprefix : (u "/node_modules/").isPrefixOf (u "/node_modules/" ++ name) = true :=
    List.isPrefixOf_iff_prefix.mpr (List.prefix_append _ _)
  rw [hcons] at hprefix ⊢
  rw [afterLast, if_neg (by rw [hname.not_infix]; exact Bool.false_ne_true), if_pos hprefix, ← hcons]
  exact List.drop_left

theorem nearest_concat (packages : Dict) (outer : List Str) (last name : Str) :
    nearest packages (outer ++ [last]) name =
      if Dict.contains packages (childPath (installPath (outer ++ [last])) name) then
        some (childPath (installPath (outer ++ [last])) name)
      else nearest packages outer name := by
  have hinits : (outer ++ [last]).inits.reverse = (outer ++ [last]) :: outer.inits.reverse := by
    rw [List.inits_append]
    simp
  rw [nearest, hinits, List.map_cons, List.find?_cons]
  cases Dict.contains packages (childPath (installPath (outer ++ [last])) name) <;> rfl

theorem resolveFrom_nearest (packages : Dict) (name : Str) (names : List Str) :
    ∀ fuel, names.length < fuel → (∀ n ∈ names, IsLockName n) →
      resolveFrom packages name fuel (installPath names) = nearest packages names name := by
  induction names using List.reverseRecOn with
  | nil =>
    intro fuel hfuel _
    obtain ⟨fuel, rfl⟩ := Nat.exists_eq_succ_of_ne_zero (Nat.ne_of_gt hfuel)
    have hinits : ([] : List Str).inits.reverse = [[]] := rfl
    rw [resolveFrom, nearest, hinits, List.map_singleton, List.find?_singleton]
    simp only [installPath, childPath, List.foldl_nil, if_pos]
  | append_singleton outer last ih =>
    intro fuel hfuel hnames
    obtain ⟨fuel, rfl⟩ := Nat.exists_eq_succ_of_ne_zero (Nat.ne_zero_of_lt hfuel)
    rw [List.length_append, List.length_singleton] at hfuel
    have hinner := ih fuel (by omega) fun n hn => hnames n (List.mem_append_left _ hn)
    have hlast : IsLockName last := hnames last (List.mem_append_right _ (List.mem_singleton_self _))
    have hne : installPath (outer ++ [last]) ≠ [] := by
      rw [installPath_concat]
      exact childPath_ne_nil _ _
    rw [nearest_concat, resolveFrom]
    have hcandidate : (if installPath (outer ++ [last]) = [] then u "node_modules/" ++ name
        else installPath (outer ++ [last]) ++ u "/node_modules/" ++ name) =
          childPath (installPath (outer ++ [last])) name := rfl
    simp only [hcandidate, if_neg hne]
    have hparent : (if isInfix (u "/node_modules/") (installPath (outer ++ [last])) = true then
        (installPath (outer ++ [last])).take ((installPath (outer ++ [last])).length -
          (afterLast (u "/node_modules/") (installPath (outer ++ [last]))).length - 14) else []) =
          installPath outer := by
      rw [installPath_concat]
      unfold childPath
      split_ifs with hroot hmarked hmarked
      · rw [hlast.not_infix] at hmarked
        cases hmarked
      · exact hroot.symm
      · have hmarker : (u "/node_modules/").length = 14 := by decide
        rw [(outer_of_child hlast).2, List.length_append, List.length_append, hmarker, Nat.add_sub_cancel,
          Nat.add_sub_cancel, List.append_assoc]
        exact List.take_left
      · exact absurd (outer_of_child hlast).1 hmarked
    rw [hparent, hinner]

theorem length_le_installPath (names : List Str) : names.length ≤ (installPath names).length := by
  induction names using List.reverseRecOn with
  | nil => exact Nat.le_refl 0
  | append_singleton outer last ih =>
    have hroot : (u "node_modules/").length = 13 := by decide
    have hmarker : (u "/node_modules/").length = 14 := by decide
    rw [installPath_concat, List.length_append, List.length_singleton]
    unfold childPath
    split_ifs with hnil
    · rw [hnil, List.length_nil] at ih
      rw [List.length_append, hroot]
      omega
    · rw [List.length_append, List.length_append, hmarker]
      omega

/-- On a path of the lock the preparer resolves as Node does. -/
theorem resolveNpmDependency_nearest (packages : Dict) {path : Str} {names : List Str}
    (h : lockNames path = some names) (name : Str) :
    resolveNpmDependency packages path name = nearest packages names name := by
  obtain ⟨rfl, -, hnames⟩ := lockNames_eq_some h
  exact resolveFrom_nearest packages name names _ (Nat.lt_succ_of_le (length_le_installPath names)) hnames

/-! ## The walk -/

/-- What the walk does at a package it has not visited: its edges, each to the overridden package checked. -/
def visit (packages : Dict) (child : Str) (version : Json) (path : Str) : Except PyErr (List (Str × Option Str)) := do
  let declared ← declaredNames ((Dict.lookup packages path).getD .null)
  let edges := declared.map fun name => (name, resolveNpmDependency packages path name)
  insist (edges.all fun edge => decide (edge.1 ≠ child) || match edge.2 with
    | some target =>
      match (Dict.lookup packages target).getD .null with
      | .obj entry => (Dict.get entry "version").pyEq version
      | _ => false
    | none => false) "npm lock does not bind its parent-scoped override"
  .ok edges

def targets (edges : List (Str × Option Str)) : List Str := (edges.filterMap Prod.snd).reverse

def hits (child : Str) (edges : List (Str × Option Str)) : Nat := (edges.filter fun edge => decide (edge.1 = child)).length

/-- The same walk, `none` where its iterations run out. -/
def walkWithin (packages : Dict) (child : Str) (version : Json) :
    Nat → List Str → List Str → Nat → Option (Except PyErr Nat)
  | _, [], _, count => some (.ok count)
  | 0, _ :: _, _, _ => none
  | fuel + 1, path :: pending, visited, count =>
    if path ∈ visited then walkWithin packages child version fuel pending visited count
    else
      match visit packages child version path with
      | .error e => some (.error e)
      | .ok edges =>
        walkWithin packages child version fuel (targets edges ++ pending) (path :: visited) (count + hits child edges)

section Walk

variable {packages : Dict} {child : Str} {version : Json}

theorem walkOverride_cons (fuel : Nat) (path : Str) (pending visited : List Str) (count : Nat) :
    walkOverride packages child version (fuel + 1) (path :: pending) visited count =
      if path ∈ visited then walkOverride packages child version fuel pending visited count
      else visit packages child version path >>= fun edges =>
        walkOverride packages child version fuel (targets edges ++ pending) (path :: visited)
          (count + hits child edges) := by
  rw [walkOverride, visit]
  split_ifs
  · rfl
  · cases declaredNames ((Dict.lookup packages path).getD .null) with
    | error e => rfl
    | ok declared =>
      simp only [bind, Except.bind]
      generalize insist _ _ = checked
      cases checked <;> rfl

/-- The number of names a package declares, `0` where the walk raises at it. -/
def declaredCount (package : Json) : Nat :=
  match declaredNames package with
  | .ok names => names.length
  | .error _ => 0

/-- What the walk can still push, and what is pending. -/
def remaining (packages : Dict) (pending visited : List Str) : Nat :=
  pending.length + ((packages.filter fun kv => decide (kv.1 ∉ visited)).map fun kv => declaredCount kv.2).sum

theorem visit_eq_ok {path : Str} {edges : List (Str × Option Str)}
    (h : visit packages child version path = .ok edges) :
    ∃ declared, declaredNames ((Dict.lookup packages path).getD .null) = .ok declared ∧
      edges = declared.map (fun name => (name, resolveNpmDependency packages path name)) ∧
      ∀ edge ∈ edges, edge.1 = child → ∃ target entry, edge.2 = some target ∧
        Dict.lookup packages target = some (.obj entry) ∧ (Dict.get entry "version").pyEq version = true := by
  obtain ⟨declared, hdeclared, h⟩ := bind_eq_ok.mp h
  obtain ⟨_, hall, h⟩ := bind_eq_ok.mp h
  rw [Except.ok.injEq] at h
  have hall := List.all_eq_true.mp (insist_eq_ok.mp hall)
  refine ⟨declared, hdeclared, h.symm, fun edge hedge hchild => ?_⟩
  rw [← h] at hedge
  have hchecked := hall edge hedge
  rw [Bool.or_eq_true, decide_eq_true_eq] at hchecked
  have hbound := hchecked.resolve_left fun hne => hne hchild
  cases htarget : edge.2 with
  | none =>
    rw [htarget] at hbound
    cases hbound
  | some target =>
    rw [htarget] at hbound
    cases hlookup : Dict.lookup packages target with
    | none =>
      simp only [hlookup, Option.getD_none] at hbound
      cases hbound
    | some package =>
      simp only [hlookup, Option.getD_some] at hbound
      cases package with
      | obj entry => exact ⟨target, entry, rfl, hlookup, hbound⟩
      | _ => cases hbound

theorem resolveFrom_mem {name target : Str} (fuel : Nat) : ∀ {parent : Str},
    resolveFrom packages name fuel parent = some target → target ∈ Dict.keys packages ∧ target ≠ [] := by
  induction fuel with
  | zero =>
    intro parent h
    cases h
  | succ fuel ih =>
    intro parent h
    rw [resolveFrom] at h
    by_cases hfound : Dict.contains packages (if parent = [] then u "node_modules/" ++ name
        else parent ++ u "/node_modules/" ++ name) = true
    · simp only [if_pos hfound, Option.some.injEq] at h
      rw [← h]
      exact ⟨Dict.contains_eq_true.mp hfound, childPath_ne_nil parent name⟩
    · simp only [if_neg hfound] at h
      split_ifs at h
      · exact ih h
      · exact ih h

theorem mem_targets {path target : Str} {edges : List (Str × Option Str)}
    (h : visit packages child version path = .ok edges) (htarget : target ∈ targets edges) :
    target ∈ Dict.keys packages ∧ target ≠ [] := by
  obtain ⟨declared, -, rfl, -⟩ := visit_eq_ok h
  obtain ⟨edge, hedge, hsnd⟩ := List.mem_filterMap.mp (List.mem_reverse.mp htarget)
  obtain ⟨name, -, rfl⟩ := List.mem_map.mp hedge
  exact resolveFrom_mem _ hsnd

/-- A visit takes from what remains. -/
theorem remaining_visit {path : Str} {pending visited : List Str} {edges : List (Str × Option Str)}
    (hkey : path ∈ Dict.keys packages) (hnew : path ∉ visited) (h : visit packages child version path = .ok edges) :
    remaining packages (targets edges ++ pending) (path :: visited) + 1 ≤ remaining packages (path :: pending) visited := by
  obtain ⟨declared, hdeclared, hedges, -⟩ := visit_eq_ok h
  have hpushed : (targets edges).length ≤ declared.length := by
    rw [targets, List.length_reverse, hedges]
    exact (List.length_filterMap_le _ _).trans (List.length_map _).le
  have hcount : ∀ d : Dict, path ∈ Dict.keys d → ∀ package, Dict.lookup d path = some package →
      ((d.filter fun kv => decide (kv.1 ∉ path :: visited)).map fun kv => declaredCount kv.2).sum +
        declaredCount package ≤ ((d.filter fun kv => decide (kv.1 ∉ visited)).map fun kv => declaredCount kv.2).sum := by
    have hmono : ∀ d : Dict, ((d.filter fun kv => decide (kv.1 ∉ path :: visited)).map fun kv => declaredCount kv.2).sum ≤
        ((d.filter fun kv => decide (kv.1 ∉ visited)).map fun kv => declaredCount kv.2).sum := fun d => by
      refine (List.Sublist.map _ ?_).sum_le_sum fun _ _ => Nat.zero_le _
      refine List.monotone_filter_right d fun kv hkv => ?_
      rw [decide_eq_true_eq] at hkv ⊢
      exact fun hin => hkv (List.mem_cons_of_mem _ hin)
    intro d
    induction d with
    | nil =>
      intro hmem
      cases hmem
    | cons kv d ih =>
      intro hmem package hpackage
      rw [Dict.lookup_cons] at hpackage
      by_cases hhead : kv.1 = path
      · rw [if_pos hhead, Option.some.injEq] at hpackage
        rw [List.filter_cons_of_neg (by simp [hhead]), List.filter_cons_of_pos (by simp [hhead, hnew]), List.map_cons,
          List.sum_cons, hpackage]
        have hrest := hmono d
        omega
      · rw [if_neg hhead] at hpackage
        have hrest := ih (by
          obtain heq | hin := List.mem_cons.mp hmem
          · exact absurd heq.symm hhead
          · exact hin) package hpackage
        by_cases hseen : kv.1 ∈ visited
        · rw [List.filter_cons_of_neg (by simp [hseen]), List.filter_cons_of_neg (by simp [hseen])]
          exact hrest
        · rw [List.filter_cons_of_pos (by simp [hseen, hhead]), List.filter_cons_of_pos (by simp [hseen]), List.map_cons,
            List.map_cons, List.sum_cons, List.sum_cons]
          omega
  obtain ⟨package, hpackage⟩ := Option.ne_none_iff_exists'.mp fun hnone => Dict.lookup_eq_none.mp hnone hkey
  have hdrop := hcount packages hkey package hpackage
  rw [hpackage, Option.getD_some] at hdeclared
  have hsize : declaredCount package = declared.length := by
    rw [declaredCount, hdeclared]
  unfold remaining
  rw [List.length_append, List.length_cons]
  omega

theorem remaining_le_walkFuel {pending : List Str} (h : pending.length ≤ packages.length) :
    remaining packages pending [] < walkFuel packages := by
  have hall : packages.filter (fun kv => decide (kv.1 ∉ ([] : List Str))) = packages :=
    List.filter_eq_self.mpr fun _ _ => decide_eq_true List.not_mem_nil
  have hfuel : walkFuel packages = packages.length + 1 + (packages.map fun kv => declaredCount kv.2).sum := rfl
  unfold remaining
  rw [hall, hfuel]
  omega

/-- Where its iterations cover what remains, the walk ends by itself. -/
theorem walk_ends_itself (fuel : Nat) : ∀ {pending visited : List Str} (count : Nat),
    (∀ path ∈ pending, path ∈ Dict.keys packages) → remaining packages pending visited ≤ fuel →
    walkWithin packages child version fuel pending visited count =
      some (walkOverride packages child version fuel pending visited count) := by
  induction fuel with
  | zero =>
    intro pending visited count _ hfuel
    obtain rfl : pending = [] := by
      unfold remaining at hfuel
      exact List.length_eq_zero_iff.mp (by omega)
    rfl
  | succ fuel ih =>
    intro pending visited count hkeys hfuel
    cases pending with
    | nil => rfl
    | cons path pending =>
      have hrest : ∀ p ∈ pending, p ∈ Dict.keys packages := fun p hp => hkeys p (List.mem_cons_of_mem _ hp)
      rw [walkOverride_cons, walkWithin]
      split_ifs with hseen
      · refine ih count hrest ?_
        unfold remaining at hfuel ⊢
        rw [List.length_cons] at hfuel
        omega
      · cases hvisit : visit packages child version path with
        | error e => rfl
        | ok edges =>
          refine ih _ (fun p hp => ?_) ?_
          · obtain htarget | hpending := List.mem_append.mp hp
            · exact (mem_targets hvisit htarget).1
            · exact hrest p hpending
          · have hless := @remaining_visit packages child version path pending visited edges (hkeys path List.mem_cons_self) hseen hvisit
            omega

/-- What a walk that ends well has visited: all that was visited or pending, closed under the edges and no
more, with a hit where `counted`. -/
def Explored (packages : Dict) (child : Str) (version : Json) (pending visited : List Str) (counted : Prop) : Prop :=
  ∃ closed : List Str, (∀ path ∈ visited, path ∈ closed) ∧ (∀ path ∈ pending, path ∈ closed) ∧
    (∀ path ∈ closed, ∃ edges, visit packages child version path = .ok edges ∧ ∀ target ∈ targets edges, target ∈ closed) ∧
    (∀ R : Str → Prop, (∀ path ∈ visited, R path) → (∀ path ∈ pending, R path) →
      (∀ path edges, R path → visit packages child version path = .ok edges → ∀ target ∈ targets edges, R target) →
        ∀ path ∈ closed, R path) ∧
    (counted → ∃ path ∈ closed, ∃ edges, visit packages child version path = .ok edges ∧ hits child edges ≠ 0)

/-- The edges of visited packages lead to what is visited or pending. -/
def Accounted (packages : Dict) (child : Str) (version : Json) (pending visited : List Str) : Prop :=
  ∀ path ∈ visited, ∃ edges, visit packages child version path = .ok edges ∧
    ∀ target ∈ targets edges, target ∈ visited ∨ target ∈ pending

theorem explored_done {visited : List Str} (h : Accounted packages child version [] visited) {counted : Prop}
    (hcounted : ¬counted) : Explored packages child version [] visited counted := by
  refine ⟨visited, fun _ hp => hp, fun _ hp => absurd hp List.not_mem_nil, fun path hp => ?_,
    fun _ hR _ _ => hR, fun hc => absurd hc hcounted⟩
  obtain ⟨edges, hvisit, htargets⟩ := h path hp
  exact ⟨edges, hvisit, fun t ht => (htargets t ht).resolve_right List.not_mem_nil⟩

/-- A walk that ends well has visited everything below what was pending, and what it counts it met there. -/
theorem walk_closed {n : ℕ} (fuel : Nat) : ∀ {pending visited : List Str} {count : ℕ},
    (∀ path ∈ pending, path ∈ Dict.keys packages) → remaining packages pending visited ≤ fuel →
    Accounted packages child version pending visited →
    walkOverride packages child version fuel pending visited count = .ok n →
    Explored packages child version pending visited (n ≠ count) := by
  induction fuel with
  | zero =>
    intro pending visited count _ hfuel hvisited h
    obtain rfl : pending = [] := by
      unfold remaining at hfuel
      exact List.length_eq_zero_iff.mp (by omega)
    obtain rfl := Except.ok.inj h
    exact explored_done hvisited fun hne => hne rfl
  | succ fuel ih =>
    intro pending visited count hkeys hfuel hvisited h
    cases pending with
    | nil =>
      obtain rfl := Except.ok.inj h
      exact explored_done hvisited fun hne => hne rfl
    | cons path pending =>
      have hrest : ∀ p ∈ pending, p ∈ Dict.keys packages := fun p hp => hkeys p (List.mem_cons_of_mem _ hp)
      rw [walkOverride_cons] at h
      split_ifs at h with hseen
      · have hless : remaining packages pending visited ≤ fuel := by
          unfold remaining at hfuel ⊢
          rw [List.length_cons] at hfuel
          omega
        have hstill : Accounted packages child version pending visited := fun p hp => by
          obtain ⟨edges, hvisit, htargets⟩ := hvisited p hp
          refine ⟨edges, hvisit, fun t ht => ?_⟩
          obtain hin | hcons := htargets t ht
          · exact .inl hin
          · obtain rfl | hin := List.mem_cons.mp hcons
            · exact .inl hseen
            · exact .inr hin
        obtain ⟨closed, hold, hpending, hclosed, hmin, hcount⟩ := ih hrest hless hstill h
        refine ⟨closed, hold, fun p hp => ?_, hclosed, fun R hRv hRp hR => ?_, hcount⟩
        · obtain rfl | hin := List.mem_cons.mp hp
          · exact hold _ hseen
          · exact hpending p hin
        · exact hmin R hRv (fun p hp => hRp p (List.mem_cons_of_mem _ hp)) hR
      · obtain ⟨edges, hvisit, h⟩ := bind_eq_ok.mp h
        have hless := @remaining_visit packages child version path pending visited edges (hkeys path List.mem_cons_self) hseen hvisit
        have hpushed : ∀ p ∈ targets edges ++ pending, p ∈ Dict.keys packages := fun p hp =>
          (List.mem_append.mp hp).elim (fun hp => (mem_targets hvisit hp).1) (hrest p)
        have hstill : Accounted packages child version (targets edges ++ pending) (path :: visited) := fun p hp => by
          obtain rfl | hin := List.mem_cons.mp hp
          · exact ⟨edges, hvisit, fun t ht => .inr (List.mem_append_left _ ht)⟩
          · obtain ⟨edges', hvisit', htargets⟩ := hvisited p hin
            refine ⟨edges', hvisit', fun t ht => ?_⟩
            obtain hold | hcons := htargets t ht
            · exact .inl (List.mem_cons_of_mem _ hold)
            · obtain rfl | hpending := List.mem_cons.mp hcons
              · exact .inl List.mem_cons_self
              · exact .inr (List.mem_append_right _ hpending)
        obtain ⟨closed, hold, hpending, hclosed, hmin, hcount⟩ := ih hpushed (by omega) hstill h
        refine ⟨closed, fun p hp => hold p (List.mem_cons_of_mem _ hp), fun p hp => ?_, hclosed,
          fun R hRv hRp hR => ?_, fun hne => ?_⟩
        · obtain rfl | hin := List.mem_cons.mp hp
          · exact hold _ List.mem_cons_self
          · exact hpending p (List.mem_append_right _ hin)
        · have hpath : R path := hRp path List.mem_cons_self
          refine hmin R (fun p hp => ?_) (fun p hp => ?_) hR
          · obtain rfl | hin := List.mem_cons.mp hp
            · exact hpath
            · exact hRv p hin
          · obtain htarget | hin := List.mem_append.mp hp
            · exact hR path edges hpath hvisit p htarget
            · exact hRp p (List.mem_cons_of_mem _ hin)
        · by_cases hhit : hits child edges = 0
          · rw [hhit, Nat.add_zero] at hcount
            exact hcount hne
          · exact ⟨path, hold path List.mem_cons_self, edges, hvisit, hhit⟩

end Walk

/-! ## The graph of the lock -/

def dependencyFields : List String := ["dependencies", "optionalDependencies", "peerDependencies"]

/-- The package at this path has an edge of this name. -/
def Declares (packages : Dict) (path name : Str) : Prop :=
  ∃ entry field entries, Dict.lookup packages path = some (.obj entry) ∧ field ∈ dependencyFields ∧
    Dict.lookup entry (u field) = some (.obj entries) ∧ name ∈ Dict.keys entries

/-- Node resolves the edge of this name at this path to the target. -/
def ResolvesTo (packages : Dict) (path name target : Str) : Prop :=
  ∃ names, lockNames path = some names ∧ nearest packages names name = some target

def Edge (packages : Dict) (path target : Str) : Prop :=
  ∃ name, Declares packages path name ∧ ResolvesTo packages path name target

/-- Some edges lead here from an installed copy of the parent. -/
def Below (packages : Dict) (parent path : Str) : Prop :=
  ∃ copy ∈ Dict.keys packages, lockName copy = some parent ∧ Relation.ReflTransGen (Edge packages) copy path

/-- Every edge to the child below the parent resolves to the overriding version, and there is one. -/
structure BindsOverride (packages : Dict) (parent child : Str) (version : Json) : Prop where
  bound : ∀ path, Below packages parent path → Declares packages path child →
    ∃ target entry, ResolvesTo packages path child target ∧ Dict.lookup packages target = some (.obj entry) ∧
      Dict.get entry "version" = version
  used : ∃ path, Below packages parent path ∧ Declares packages path child

/-- The root of a lock has no name; every other entry has passed the preparer's checks. -/
def PreparedEntries (packages : Dict) : Prop :=
  ∀ kv ∈ lockEntries packages, ∃ name version, Prepared kv.1 kv.2 name version

/-- The paths a walk starts from. -/
def copies (packages : Dict) (parent : Str) : List Str :=
  (Dict.keys packages).filter fun path =>
    decide (path = u "node_modules/" ++ parent) || (ch '/' :: (u "node_modules/" ++ parent)).isSuffixOf path

section Graph

variable {packages : Dict}

theorem isMixedName_of_lower {name : Str} (h : isLowerName name = true) : isMixedName name = true := by
  cases name with
  | nil => cases h
  | cons c rest =>
    rw [isLowerName, Bool.and_eq_true, Bool.or_eq_true, List.all_eq_true] at h
    rw [isMixedName, Bool.and_eq_true, List.all_eq_true]
    refine ⟨?_, fun d hd => by rw [h.2 d hd, Bool.true_or]⟩
    unfold isAlnum
    obtain hlower | hdigit := h.1
    · rw [hlower]
      simp
    · rw [hdigit]
      simp

theorem isLockName_of_npm {name : Str} (h : isNpmName name = true) : IsLockName name := by
  have hjoin : [ch '/'].intercalate (fields (ch '/') name) = name := List.intercalate_splitOn _
  unfold isNpmName at h
  split at h
  · next package hfields =>
    rw [hfields, List.intercalate_singleton] at hjoin
    rw [← hjoin]
    exact .inl (isMixedName_of_lower h)
  · next scope package hfields =>
    rw [Bool.and_eq_true] at h
    rw [hfields, List.intercalate_cons_cons, List.intercalate_singleton] at hjoin
    refine .inr ⟨scope, package, ?_, h.1, isMixedName_of_lower h.2⟩
    rw [← hjoin, List.append_assoc, List.singleton_append]
  · cases h

/-- The last name of a path is read off its parts. -/
theorem last_of_parts {front front' : List Str} {name name' : Str} (h : IsLockName name) (h' : IsLockName name')
    (heq : front ++ modulesPart :: fields (ch '/') name = front' ++ modulesPart :: fields (ch '/') name') :
    name = name' := by
  have hhead : modulesPart.head? ≠ some (ch '@') := by decide
  obtain hone | ⟨scope, package, htwo, hscope⟩ := h.parts
  · obtain hone' | ⟨scope', package', htwo', hscope'⟩ := h'.parts
    · rw [hone, hone'] at heq
      have hends := (List.append_inj' heq rfl).2
      exact List.singleton_inj.mp (List.cons.inj hends).2
    · rw [hone, htwo', List.append_cons front' modulesPart] at heq
      have hends := (List.append_inj' heq rfl).2
      rw [← (List.cons.inj hends).1] at hscope'
      exact absurd hscope' hhead
  · obtain hone' | ⟨scope', package', htwo', hscope'⟩ := h'.parts
    · rw [htwo, hone', List.append_cons front modulesPart] at heq
      have hends := (List.append_inj' heq rfl).2
      rw [(List.cons.inj hends).1] at hscope
      exact absurd hscope hhead
    · rw [htwo, htwo'] at heq
      have hends := (List.append_inj' heq rfl).2
      refine fields_inj ?_
      rw [htwo, htwo']
      exact (List.cons.inj hends).2

theorem lockName_of_names {path : Str} {outer : List Str} {last : Str} (h : lockNames path = some (outer ++ [last])) :
    lockName path = some last := by
  have hnames : pathNames (fields (ch '/') path) = some (outer ++ [last]) := h
  rw [lockName, hnames, Option.bind_some, List.getLast?_concat]

theorem lockNames_of_name {path name : Str} (h : lockName path = some name) :
    ∃ outer, lockNames path = some (outer ++ [name]) := by
  obtain ⟨names, hnames, hlast⟩ := Option.bind_eq_some_iff.mp h
  obtain rfl | ⟨outer, last, rfl⟩ := List.eq_nil_or_concat' names
  · cases hlast
  · rw [List.getLast?_concat, Option.some.injEq] at hlast
    exact ⟨outer, hlast ▸ hnames⟩

/-- The walk starts from the installed copies of the parent. -/
theorem mem_copies (hentries : PreparedEntries packages) {parent : Str} (hparent : IsLockName parent) {path : Str} :
    path ∈ copies packages parent ↔ path ∈ Dict.keys packages ∧ lockName path = some parent := by
  have hchild : ∀ outer : Str, childPath outer parent = u "node_modules/" ++ parent ∨
      (ch '/' :: (u "node_modules/" ++ parent)) <:+ childPath outer parent := by
    intro outer
    unfold childPath
    split_ifs
    · exact .inl rfl
    · rw [List.append_assoc]
      exact .inr (List.suffix_append _ _)
  rw [copies, List.mem_filter, Bool.or_eq_true, decide_eq_true_eq, List.isSuffixOf_iff_suffix]
  refine and_congr_right fun hkey => ⟨fun hends => ?_, fun hname => ?_⟩
  · have hroot : path ≠ [] := by
      have hmarker : u "node_modules/" ≠ [] := by decide
      rintro rfl
      obtain heq | hsuffix := hends
      · exact hmarker (List.append_eq_nil_iff.mp heq.symm).1
      · exact List.cons_ne_nil _ _ (List.suffix_nil.mp hsuffix)
    obtain ⟨kv, hkv, rfl⟩ := List.mem_map.mp hkey
    obtain ⟨name, version, hprepared⟩ := hentries kv (List.mem_filter.mpr ⟨hkv, decide_eq_true hroot⟩)
    obtain ⟨outer, hnames⟩ := lockNames_of_name hprepared.path
    obtain ⟨hpath, hne, hall⟩ := lockNames_eq_some hnames
    have hlast : IsLockName name := hall name (List.mem_append_right _ (List.mem_singleton_self _))
    have hparts : ∃ front, fields (ch '/') kv.1 = front ++ modulesPart :: fields (ch '/') parent := by
      have hself : fields (ch '/') (u "node_modules/" ++ parent) = modulesPart :: fields (ch '/') parent :=
        fields_childPath [] parent
      obtain heq | ⟨front, hfront⟩ := hends
      · exact ⟨[], by rw [heq, hself, List.nil_append]⟩
      · exact ⟨fields (ch '/') front, by rw [← hfront, fields_cons, hself]⟩
    obtain ⟨front, hfront⟩ := hparts
    rw [hpath, installPath_concat, fields_childPath] at hfront
    rw [hprepared.path, last_of_parts hlast hparent hfront]
  · obtain ⟨outer, hnames⟩ := lockNames_of_name hname
    obtain ⟨hpath, -, -⟩ := lockNames_eq_some hnames
    rw [hpath, installPath_concat]
    exact hchild _

theorem mem_declaredNames {entry : Dict} {declared : List Str} (h : declaredNames (.obj entry) = .ok declared)
    (name : Str) : name ∈ declared ↔ ∃ field ∈ dependencyFields, ∃ entries,
      Dict.lookup entry (u field) = some (.obj entries) ∧ name ∈ Dict.keys entries := by
  obtain ⟨parts, hparts, h⟩ := bind_eq_ok.mp h
  rw [Except.ok.injEq] at h
  have hkeys : ∀ (ds : List Dict) (d : Dict), name ∈ Dict.keys (ds.foldl Dict.update d) ↔
      name ∈ Dict.keys d ∨ ∃ e ∈ ds, name ∈ Dict.keys e := by
    intro ds
    induction ds with
    | nil => simp
    | cons e ds ih =>
      intro d
      rw [List.foldl_cons, ih, Dict.mem_keys_update]
      simp [or_assoc]
  rw [← h, hkeys]
  constructor
  · rintro (hnil | ⟨part, hpart, hname⟩)
    · cases hnil
    · obtain ⟨field, hfield, hread⟩ := (mapM_ok_mem hparts).mp hpart
      refine ⟨field, hfield, part, ?_, hname⟩
      cases hlookup : Dict.lookup entry (u field) with
      | none =>
        rw [hlookup] at hread
        rw [← Except.ok.inj hread] at hname
        cases hname
      | some value =>
        rw [hlookup] at hread
        cases value with
        | obj entries => rw [Except.ok.inj hread]
        | _ => cases hread
  · rintro ⟨field, hfield, entries, hlookup, hname⟩
    refine .inr ⟨entries, (mapM_ok_mem hparts).mpr ⟨field, hfield, ?_⟩, hname⟩
    rw [hlookup]
    rfl

/-- At an entry of the lock a visit reads the edges of the graph. -/
theorem mem_visit {child path : Str} {version : Json} {names : List Str} {entry : Dict}
    {edges : List (Str × Option Str)} (hnames : lockNames path = some names)
    (hentry : Dict.lookup packages path = some (.obj entry)) (h : visit packages child version path = .ok edges)
    (name : Str) (target : Option Str) :
    (name, target) ∈ edges ↔ Declares packages path name ∧ nearest packages names name = target := by
  obtain ⟨declared, hdeclared, rfl, -⟩ := visit_eq_ok h
  rw [hentry, Option.getD_some] at hdeclared
  have hname : name ∈ declared ↔ Declares packages path name := by
    rw [mem_declaredNames hdeclared]
    constructor
    · rintro ⟨field, hfield, entries, hlookup, hmem⟩
      exact ⟨entry, field, entries, hentry, hfield, hlookup, hmem⟩
    · rintro ⟨entry', field, entries, hentry', hfield, hlookup, hmem⟩
      obtain rfl : entry = entry' := Json.obj.inj (Option.some.inj (hentry.symm.trans hentry'))
      exact ⟨field, hfield, entries, hlookup, hmem⟩
  rw [List.mem_map, ← hname]
  constructor
  · rintro ⟨other, hother, heq⟩
    obtain ⟨rfl, rfl⟩ := Prod.mk.inj heq
    exact ⟨hother, (resolveNpmDependency_nearest packages hnames other).symm⟩
  · rintro ⟨hmem, rfl⟩
    exact ⟨name, hmem, by rw [resolveNpmDependency_nearest packages hnames]⟩

theorem mem_targets_iff {edges : List (Str × Option Str)} {target : Str} :
    target ∈ targets edges ↔ ∃ name, (name, some target) ∈ edges := by
  rw [targets, List.mem_reverse, List.mem_filterMap]
  constructor
  · rintro ⟨⟨name, found⟩, hedge, hfound⟩
    obtain rfl : found = some target := hfound
    exact ⟨name, hedge⟩
  · rintro ⟨name, hedge⟩
    exact ⟨_, hedge, rfl⟩

theorem PreparedEntries.listed (hentries : PreparedEntries packages) {path : Str} (hkey : path ∈ Dict.keys packages)
    (hroot : path ≠ []) : ∃ names entry, lockNames path = some names ∧ Dict.lookup packages path = some (.obj entry) := by
  obtain ⟨package, hpackage⟩ := Option.ne_none_iff_exists'.mp fun hnone => Dict.lookup_eq_none.mp hnone hkey
  have hmem : (path, package) ∈ lockEntries packages :=
    List.mem_filter.mpr ⟨Dict.mem_of_lookup hpackage, decide_eq_true hroot⟩
  obtain ⟨name, version, hprepared⟩ := hentries _ hmem
  obtain ⟨outer, hnames⟩ := lockNames_of_name hprepared.path
  obtain ⟨entry, hentry⟩ := hprepared.isObject
  exact ⟨_, entry, hnames, hpackage.trans (congrArg some hentry)⟩

/-- A walk that ends well and counts an edge binds its override. -/
theorem override_binds (hentries : PreparedEntries packages) {parent child version : Str} (hparent : IsLockName parent)
    {n : ℕ} (hn : n ≠ 0) (hwalk : walkOverride packages child (.str version) (walkFuel packages)
      (copies packages parent).reverse [] 0 = .ok n) : BindsOverride packages parent child (.str version) := by
  have hstart : ∀ path ∈ (copies packages parent).reverse, path ∈ Dict.keys packages ∧ lockName path = some parent :=
    fun path hpath => (mem_copies hentries hparent).mp (List.mem_reverse.mp hpath)
  have hlength : (copies packages parent).reverse.length ≤ packages.length := by
    rw [List.length_reverse]
    exact (List.length_filter_le _ _).trans (List.length_map _).le
  obtain ⟨closed, -, hpending, hclosed, hmin, hcount⟩ := walk_closed (walkFuel packages) (fun p hp => (hstart p hp).1)
    (remaining_le_walkFuel hlength).le (fun p hp => absurd hp List.not_mem_nil) hwalk
  have hinside : ∀ path ∈ closed, path ∈ Dict.keys packages ∧ path ≠ [] ∧ Below packages parent path := by
    refine hmin _ (fun p hp => absurd hp List.not_mem_nil) (fun p hp => ?_) ?_
    · obtain ⟨hkey, hname⟩ := hstart p hp
      refine ⟨hkey, ?_, p, hkey, hname, .refl⟩
      rintro rfl
      cases hname
    · rintro path edges ⟨hkey, hroot, copy, hcopy, hname, hreach⟩ hvisit target htarget
      obtain ⟨names, entry, hnames, hentry⟩ := hentries.listed hkey hroot
      obtain ⟨name, hedge⟩ := mem_targets_iff.mp htarget
      obtain ⟨hdeclares, hnearest⟩ := (mem_visit hnames hentry hvisit _ _).mp hedge
      obtain ⟨hkey', hroot'⟩ := mem_targets hvisit htarget
      exact ⟨hkey', hroot', copy, hcopy, hname, hreach.tail ⟨name, hdeclares, names, hnames, hnearest⟩⟩
  have hreached : ∀ path, Below packages parent path → path ∈ closed := by
    rintro path ⟨copy, hcopy, hname, hreach⟩
    induction hreach with
    | refl => exact hpending copy (List.mem_reverse.mpr ((mem_copies hentries hparent).mpr ⟨hcopy, hname⟩))
    | tail _ hedge ih =>
      obtain ⟨edges, hvisit, htargets⟩ := hclosed _ ih
      obtain ⟨hkey, hroot, -⟩ := hinside _ ih
      obtain ⟨names, entry, hnames, hentry⟩ := hentries.listed hkey hroot
      obtain ⟨name, hdeclares, names', hnames', hnearest⟩ := hedge
      obtain rfl : names = names' := Option.some.inj (hnames.symm.trans hnames')
      exact htargets _ (mem_targets_iff.mpr ⟨name, (mem_visit hnames hentry hvisit _ _).mpr ⟨hdeclares, hnearest⟩⟩)
  constructor
  · intro path hbelow hdeclares
    obtain ⟨edges, hvisit, -⟩ := hclosed path (hreached path hbelow)
    obtain ⟨hkey, hroot, -⟩ := hinside path (hreached path hbelow)
    obtain ⟨names, entry, hnames, hentry⟩ := hentries.listed hkey hroot
    have hedge := (mem_visit hnames hentry hvisit child _).mpr ⟨hdeclares, rfl⟩
    obtain ⟨-, -, -, hchecked⟩ := visit_eq_ok hvisit
    obtain ⟨target, found, htarget, hfound, hversion⟩ := hchecked _ hedge rfl
    exact ⟨target, found, ⟨names, hnames, htarget⟩, hfound, Json.pyEq_str.mp hversion⟩
  · obtain ⟨path, hpath, edges, hvisit, hhits⟩ := hcount hn
    obtain ⟨hkey, hroot, hbelow⟩ := hinside path hpath
    obtain ⟨names, entry, hnames, hentry⟩ := hentries.listed hkey hroot
    obtain ⟨⟨name, target⟩, hedge⟩ := List.exists_mem_of_length_pos (Nat.pos_of_ne_zero hhits)
    obtain ⟨hmem, hchild⟩ := List.mem_filter.mp hedge
    obtain rfl : name = child := of_decide_eq_true hchild
    exact ⟨path, hbelow, ((mem_visit hnames hentry hvisit _ _).mp hmem).1⟩

end Graph

/-! ## Accepted locks -/

/-- Every entry comes from its own tarball, and every override of the manifest is bound. -/
structure LockBound (manifest lock : Json) : Prop where
  entries : ∀ kv ∈ lockEntries (packagesOf lock), ∃ entry name version, kv.2 = .obj entry ∧
    lockName kv.1 = some name ∧ isExactSemver version = true ∧ Dict.get entry "version" = .str version ∧
      Dict.get entry "resolved" = .str (registryUrl name version)
  overrides : ∀ override ∈ fieldsOf (Dict.get (fieldsOf manifest) "overrides"), ∀ child ∈ fieldsOf override.2,
    BindsOverride (packagesOf lock) override.1 child.1 child.2

theorem npmOverrides_eq_ok {dependencies overrides : Dict} {value : Json}
    (h : npmOverrides dependencies value = .ok overrides) {override : Str × Json} (hmem : override ∈ fieldsOf value) :
    ∃ children, override.2 = .obj children ∧ override ∈ overrides ∧ override.1 ∈ Dict.keys dependencies ∧
      ∀ child ∈ children, ∃ version, child.2 = .str version := by
  cases value with
  | obj entries =>
    unfold npmOverrides at h
    obtain ⟨_, -, h⟩ := bind_eq_ok.mp h
    obtain ⟨result, hresult⟩ := exists_mapM_ok.mp ⟨_, h⟩ override hmem
    have hin := (mapM_ok_mem h).mpr ⟨override, hmem, hresult⟩
    obtain ⟨_, hparent, hresult⟩ := bind_eq_ok.mp hresult
    obtain ⟨children, hchildren, hresult⟩ := bind_eq_ok.mp hresult
    have hcontains := insist_eq_ok.mp hparent
    rw [Bool.and_eq_true] at hcontains
    obtain ⟨hvalue, hexact⟩ := npmDependencies_eq_ok hchildren
    rw [Except.ok.injEq, ← hvalue] at hresult
    refine ⟨children, hvalue, ?_, Dict.contains_eq_true.mp hcontains.1, fun child hchild => ?_⟩
    · rw [← hresult] at hin
      exact hin
    · obtain ⟨-, version, hversion, -⟩ := hexact child hchild
      exact ⟨version, hversion⟩
  | _ => cases hmem

theorem manifestOverrides_eq_ok {manifest dependencies overrides : Dict}
    (h : manifestOverrides manifest dependencies = .ok overrides) {override : Str × Json}
    (hmem : override ∈ fieldsOf (Dict.get manifest "overrides")) :
    ∃ children, override.2 = .obj children ∧ override ∈ overrides ∧ override.1 ∈ Dict.keys dependencies ∧
      ∀ child ∈ children, ∃ version, child.2 = .str version := by
  have hsame : fieldsOf ((Dict.lookup manifest (u "overrides")).getD (.obj [])) =
      fieldsOf (Dict.get manifest "overrides") := by
    rw [Dict.get]
    cases Dict.lookup manifest (u "overrides") <;> rfl
  rw [← hsame] at hmem
  unfold manifestOverrides at h
  dsimp only at h
  split_ifs at h with htruthy hempty
  · exact npmOverrides_eq_ok h hmem
  · cases hvalue : (Dict.lookup manifest (u "overrides")).getD (.obj []) with
    | obj entries =>
      rw [hvalue] at htruthy hmem
      cases entries with
      | nil => cases hmem
      | cons kv entries => exact absurd rfl htruthy
    | _ =>
      rw [hvalue] at hmem
      cases hmem

theorem checkOverrides_eq_ok {packages overrides : Dict} (h : checkOverrides packages overrides = .ok ())
    {override : Str × Json} (hmem : override ∈ overrides) {children : Dict} (hchildren : override.2 = .obj children)
    {child : Str × Json} (hchild : child ∈ children) :
    ∃ n : ℕ, n ≠ 0 ∧ walkOverride packages child.1 child.2 (walkFuel packages) (copies packages override.1).reverse [] 0 =
      .ok n := by
  obtain ⟨_, hall, -⟩ := bind_eq_ok.mp h
  obtain ⟨_, hoverride⟩ := exists_mapM_ok.mp ⟨_, hall⟩ override hmem
  obtain ⟨_, -, hoverride⟩ := bind_eq_ok.mp hoverride
  rw [hchildren] at hoverride
  obtain ⟨_, hwalk⟩ := exists_mapM_ok.mp ⟨_, hoverride⟩ child hchild
  obtain ⟨n, hn, hcount⟩ := bind_eq_ok.mp hwalk
  exact ⟨n, of_decide_eq_true (insist_eq_ok.mp hcount), hn⟩

theorem validateNpmDocuments_bound {expected : Expected} {manifest lock : Json}
    (h : validateNpmDocuments expected manifest lock = .ok ()) : LockBound manifest lock := by
  obtain ⟨dependencies, hdependencies, h⟩ := bind_eq_ok.mp h
  obtain ⟨_, _, h⟩ := bind_eq_ok.mp h
  obtain ⟨overrides, hoverrides, h⟩ := bind_eq_ok.mp h
  obtain ⟨_, _, h⟩ := bind_eq_ok.mp h
  obtain ⟨packages, hpackages, h⟩ := bind_eq_ok.mp h
  obtain ⟨_, hchecked, hwalks⟩ := bind_eq_ok.mp h
  obtain ⟨_, hsome, -⟩ := bind_eq_ok.mp hchecked
  have hall := insist_eq_ok.mp hsome
  rw [List.all_map, List.all_eq_true] at hall
  have hentries : PreparedEntries packages := fun kv hkv => by
    obtain ⟨name, hname⟩ := Option.isSome_iff_exists.mp (hall kv hkv)
    obtain ⟨version, hprepared⟩ := preparedEntry_eq_some hname
    exact ⟨name, version, hprepared⟩
  obtain ⟨fields, rfl, hfields, -⟩ := boundPackages_eq_ok hpackages
  have hsame : packagesOf (.obj fields) = packages := congrArg fieldsOf hfields
  constructor
  · intro kv hkv
    rw [hsame] at hkv
    obtain ⟨name, version, hprepared⟩ := hentries kv hkv
    obtain ⟨entry, hentry⟩ := hprepared.isObject
    have hversion := hprepared.hasVersion
    have hresolved := hprepared.hasResolved
    rw [hentry] at hversion hresolved
    exact ⟨entry, name, version, hentry, hprepared.path, hprepared.exact, hversion, hresolved⟩
  · intro override hoverride child hchild
    obtain ⟨children, hchildren, hin, hparent, hversions⟩ := manifestOverrides_eq_ok hoverrides hoverride
    rw [hchildren] at hchild
    obtain ⟨version, hversion⟩ := hversions child hchild
    obtain ⟨n, hn, hwalk⟩ := checkOverrides_eq_ok hwalks hin hchildren hchild
    obtain ⟨kv, hkv, hname⟩ := List.mem_map.mp hparent
    have hlock : IsLockName override.1 := by
      rw [← hname]
      exact isLockName_of_npm ((npmDependencies_eq_ok hdependencies).2 kv hkv).1
    rw [hsame, hversion]
    rw [hversion] at hwalk
    exact override_binds hentries hlock hn hwalk

/-- An accepted lock binds its packages and every override below its parent; on any graph the walk
ends by itself. -/
theorem npm_lock_binds (interp : Interpreter) (expected : Expected) (manifest lock : Option Bytes) :
    (validateNpmLock interp expected manifest lock = .ok () →
      ∃ m l, readDocuments interp manifest lock = .ok (m, l) ∧ LockBound m l) ∧
    ∀ (packages : Dict) (parent child : Str) (version : Json),
      walkWithin packages child version (walkFuel packages) (copies packages parent).reverse [] 0 =
        some (walkOverride packages child version (walkFuel packages) (copies packages parent).reverse [] 0) := by
  constructor
  · intro h
    obtain ⟨⟨m, l⟩, hread, hvalid⟩ := bind_eq_ok.mp h
    exact ⟨m, l, hread, validateNpmDocuments_bound hvalid⟩
  · intro packages parent child version
    refine walk_ends_itself _ 0 (fun path hpath => ?_) (remaining_le_walkFuel ?_).le
    · exact (List.mem_filter.mp (List.mem_reverse.mp hpath)).1
    · rw [List.length_reverse]
      exact (List.length_filter_le _ _).trans (List.length_map _).le

/-- A manifest that overrides `b` below `a`, and a lock in which each depends on the other. -/
def overridingManifest : Option Bytes :=
  fileOf "\x7b\"dependencies\":\x7b\"a\":\"1.0.0\"\x7d,\"overrides\":\x7b\"a\":\x7b\"b\":\"2.0.0\"\x7d\x7d\x7d"

def cyclicLock : Option Bytes :=
  fileOf ("\x7b\"lockfileVersion\":3,\"packages\":\x7b" ++
    "\"\":\x7b\"dependencies\":\x7b\"a\":\"1.0.0\"\x7d\x7d," ++
    "\"node_modules/a\":\x7b\"version\":\"1.0.0\",\"integrity\":\"sha512-AA==\"," ++
    "\"resolved\":\"https://registry.npmjs.org/a/-/a-1.0.0.tgz\",\"dependencies\":\x7b\"b\":\"^1\"\x7d\x7d," ++
    "\"node_modules/b\":\x7b\"version\":\"2.0.0\",\"integrity\":\"sha512-AA==\"," ++
    "\"resolved\":\"https://registry.npmjs.org/b/-/b-2.0.0.tgz\",\"dependencies\":\x7b\"a\":\"^1\"\x7d\x7d\x7d\x7d")

theorem npm_lock_binds_cyclic :
    ∃ m l, readDocuments ⟨1000, by decide⟩ overridingManifest cyclicLock = .ok (m, l) ∧ LockBound m l :=
  (npm_lock_binds ⟨1000, by decide⟩ Expected.unset overridingManifest cyclicLock).1 (by decide +kernel)

end McpTrust.Refresh
