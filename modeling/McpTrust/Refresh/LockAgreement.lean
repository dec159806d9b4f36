import McpTrust.Refresh.LockPolicies

/-! # Where the two readings of a lock agree

Whatever the preparer accepts the preflight reads to the same values; the difference is
in the spellings that only one of the two patterns admits.
-/

namespace McpTrust.Refresh

set_option autoImplicit false

open Python

theorem insist_eq_ok {condition : Bool} {message : String} {a : Unit} :
    insist condition message = .ok a ↔ condition = true := by
  cases condition with
  | false => simp [insist]
  | true => simp [insist]

/-! ## Reading the files -/

theorem inputHooks_refines : inputHooks.Refines defaultHooks where
  parseInt := rfl
  parseFloat := rfl
  parseConstant := rfl
  objectPairs pairs := by
    intro v hv
    have hreject : rejectDuplicateKeys pairs = .ok v := hv
    unfold rejectDuplicateKeys at hreject
    split at hreject
    · next hnodup =>
      rw [← hreject]
      exact congrArg (fun d => Except.ok (Json.obj d)) (dictOfPairs_nodup hnodup)
    · cases hreject

/-- What the bounded reader returns is what `json.loads` returns. -/
theorem loadJson_eq_ok {interp : Interpreter} {file : Option Bytes} {v : Json} (h : loadJson interp file = .ok v) :
    ∃ text, readText file = .ok text ∧ jsonLoads interp text = .ok v := by
  obtain ⟨text, htext, h⟩ := bind_eq_ok.mp (catching_eq_ok.mp h)
  obtain ⟨_, _, h⟩ := bind_eq_ok.mp h
  exact ⟨text, htext, loads_refines inputHooks_refines _ text v h⟩

theorem readDocuments_eq_ok {interp : Interpreter} {manifest lock : Option Bytes} {v w : Json}
    (h : readDocuments interp manifest lock = .ok (v, w)) :
    (∃ text, readText manifest = .ok text ∧ jsonLoads interp text = .ok v) ∧
      ∃ text, readText lock = .ok text ∧ jsonLoads interp text = .ok w := by
  obtain ⟨text, htext, h⟩ := bind_eq_ok.mp (catching_eq_ok.mp h)
  obtain ⟨v', hv, h⟩ := bind_eq_ok.mp h
  obtain ⟨text', htext', h⟩ := bind_eq_ok.mp h
  obtain ⟨w', hw, h⟩ := bind_eq_ok.mp h
  rw [Except.ok.injEq, Prod.mk.injEq] at h
  rw [← h.1, ← h.2]
  exact ⟨⟨text, htext, hv⟩, text', htext', hw⟩

/-- The two readers agree on a file both of them read. -/
theorem loadJson_unique {interp : Interpreter} {file : Option Bytes} {v w : Json} (hv : loadJson interp file = .ok v)
    (hw : ∃ text, readText file = .ok text ∧ jsonLoads interp text = .ok w) : v = w := by
  obtain ⟨text, htext, hloads⟩ := loadJson_eq_ok hv
  obtain ⟨text', htext', hloads'⟩ := hw
  rw [htext, Except.ok.injEq] at htext'
  rw [← htext', hloads, Except.ok.injEq] at hloads'
  exact hloads'

/-! ## Versions -/

theorem isSemverPart_digits {s : Str} (h : isSemverPart s = true) : isDigits s = true := by
  simp only [isSemverPart, isDigits, Bool.and_eq_true] at h ⊢
  exact h.1

theorem isCore_mono {isPart isPart' : Str → Bool} (hmono : ∀ s, isPart s = true → isPart' s = true) {s : Str}
    (h : isCore isPart s = true) : isCore isPart' s = true := by
  unfold isCore at h ⊢
  split at h
  · simp only [Bool.and_eq_true] at h ⊢
    exact ⟨⟨hmono _ h.1.1, hmono _ h.1.2⟩, hmono _ h.2⟩
  · cases h

/-- A character of a text is the separator or belongs to a part. -/
theorem mem_fields (separator : CodePoint) {c : CodePoint} {s : Str} (hc : c ∈ s) :
    c = separator ∨ ∃ part ∈ fields separator s, c ∈ part := by
  have hall : ∀ parts : List Str, c ∈ [separator].intercalate parts → c = separator ∨ ∃ part ∈ parts, c ∈ part := by
    intro parts
    induction parts with
    | nil => simp [List.intercalate]
    | cons part parts ih =>
      intro hmem
      cases parts with
      | nil =>
        rw [List.intercalate_singleton] at hmem
        exact .inr ⟨part, List.mem_cons_self, hmem⟩
      | cons next parts =>
        rw [List.intercalate_cons_cons, List.mem_append, List.mem_append, List.mem_singleton] at hmem
        obtain (hpart | hsep) | hrest := hmem
        · exact .inr ⟨part, List.mem_cons_self, hpart⟩
        · exact .inl hsep
        · obtain heq | ⟨other, hother, hin⟩ := ih hrest
          · exact .inl heq
          · exact .inr ⟨other, List.mem_cons_of_mem _ hother, hin⟩
  apply hall
  rw [fields, List.intercalate_splitOn]
  exact hc

theorem isCore_mem {s : Str} (h : isCore isDigits s = true) {c : CodePoint} (hc : c ∈ s) :
    isDigit c = true ∨ c = ch '.' := by
  obtain hdot | ⟨part, hpart, hin⟩ := mem_fields (ch '.') hc
  · exact .inr hdot
  · left
    unfold isCore at h
    split at h
    · next major minor patch hfields =>
      simp only [isDigits, Bool.and_eq_true, List.all_eq_true] at h
      rw [hfields, List.mem_cons, List.mem_cons, List.mem_singleton] at hpart
      obtain rfl | rfl | rfl := hpart
      · exact h.1.1.2 c hin
      · exact h.1.2.2 c hin
      · exact h.2.2 c hin
    · cases h

theorem isDotted_mem {s : Str} (h : isDotted s = true) {c : CodePoint} (hc : c ∈ s) :
    isIdChar c = true ∨ c = ch '.' := by
  obtain hdot | ⟨part, hpart, hin⟩ := mem_fields (ch '.') hc
  · exact .inr hdot
  · have hparts := List.all_eq_true.mp h part hpart
    rw [Bool.and_eq_true, List.all_eq_true] at hparts
    exact .inl (hparts.2 c hin)

theorem isDotted_ne_nil {s : Str} (h : isDotted s = true) : s ≠ [] := by
  rintro rfl
  have hfields : fields (ch '.') [] = [[]] := List.splitOn_nil _
  simp [isDotted, hfields] at h

theorem cut_append (stops s : Str) : (cut stops s).1 ++ (cut stops s).2 = s := List.takeWhile_append_dropWhile

theorem cut_congr {stops stops' s : Str} (h : ∀ c ∈ s, c ∈ stops ↔ c ∈ stops') : cut stops s = cut stops' s := by
  have hsame : ∀ c ∈ s, decide (c ∉ stops) = decide (c ∉ stops') :=
    fun c hc => decide_eq_decide.mpr (not_congr (h c hc))
  clear h
  unfold cut
  induction s with
  | nil => rfl
  | cons c s ih =>
    have ih' := ih fun d hd => hsame d (List.mem_cons_of_mem c hd)
    rw [Prod.mk.injEq] at ih' ⊢
    rw [List.takeWhile_cons, List.takeWhile_cons, List.dropWhile_cons, List.dropWhile_cons,
      hsame c List.mem_cons_self, ih'.1, ih'.2]
    exact ⟨rfl, rfl⟩

/-- A plain version has no build metadata. -/
theorem plus_notMem_of_plain {version : Str} (h : isPlainVersion version = true) : ch '+' ∉ version := by
  intro hmem
  unfold isPlainVersion at h
  rw [← cut_append (u "-") version, List.mem_append] at hmem
  simp only [Bool.and_eq_true] at h
  obtain hcore | hrest := hmem
  · obtain hdigit | hdot := isCore_mem h.1 hcore
    · exact absurd hdigit (by decide)
    · exact absurd hdot (by decide)
  · obtain ⟨-, h⟩ := h
    cases hcut : (cut (u "-") version).2 with
    | nil =>
      rw [hcut] at hrest
      cases hrest
    | cons c release =>
      rw [hcut] at hrest h
      simp only [Bool.and_eq_true, List.all_eq_true] at h
      obtain heq | hin := List.mem_cons.mp hrest
      · have hhead := List.head?_dropWhile_not (fun c => decide (c ∉ u "-")) version
        have hcut' : version.dropWhile (fun c => decide (c ∉ u "-")) = c :: release := hcut
        rw [hcut', List.head?_cons] at hhead
        rw [← heq] at hhead
        exact absurd hhead (by decide)
      · exact absurd (h.2 (ch '+') hin) (by decide)

/-- An exact version without build metadata is a plain one. -/
theorem plain_of_exact {version : Str} (hexact : isExactSemver version = true) (hplus : ch '+' ∉ version) :
    isPlainVersion version = true := by
  have hcut : cut (u "-+") version = cut (u "-") version := by
    apply cut_congr
    intro c hc
    have hne : c ≠ ch '+' := by
      rintro rfl
      exact hplus hc
    have hpair : u "-+" = [ch '-', ch '+'] := by decide
    have hone : u "-" = [ch '-'] := by decide
    rw [hpair, hone, List.mem_cons, List.mem_singleton, List.mem_singleton]
    tauto
  unfold isExactSemver at hexact
  unfold isPlainVersion
  rw [hcut] at hexact
  simp only [Bool.and_eq_true] at hexact ⊢
  constructor
  · exact isCore_mono (fun _ => isSemverPart_digits) hexact.1
  · obtain ⟨-, hexact⟩ := hexact
    have hrest : ∀ c ∈ (cut (u "-") version).2, c ∈ version := by
      intro c hc
      rw [← cut_append (u "-") version]
      exact List.mem_append_right _ hc
    cases htail : (cut (u "-") version).2 with
    | nil => rfl
    | cons c rest =>
      rw [htail] at hexact hrest
      have hc : c ≠ ch '+' := by
        rintro rfl
        exact hplus (hrest _ List.mem_cons_self)
      simp only [if_neg hc, Bool.and_eq_true, Bool.or_eq_true, decide_eq_true_eq] at hexact
      have hnone : ∀ d ∈ rest, decide (d ∉ u "+") = true := by
        intro d hd
        apply decide_eq_true
        have hu : u "+" = [ch '+'] := by decide
        rw [hu, List.mem_singleton]
        rintro rfl
        exact hplus (hrest _ (List.mem_cons_of_mem _ hd))
      have hrelease : (cut (u "+") rest).1 = rest := List.takeWhile_eq_self_iff.mpr hnone
      rw [hrelease] at hexact
      simp only [Bool.and_eq_true, decide_eq_true_eq, List.all_eq_true, Bool.or_eq_true]
      exact ⟨isDotted_ne_nil hexact.1, fun d hd => isDotted_mem hexact.1 hd⟩

/-! ## Lock paths -/

theorem isInfix_iff {needle text : Str} : isInfix needle text = true ↔ needle <:+: text := by
  rw [isInfix, List.any_eq_true, List.infix_iff_prefix_suffix]
  constructor
  · rintro ⟨tail, htail, hfront⟩
    exact ⟨tail, List.isPrefixOf_iff_prefix.mp hfront, (List.mem_tails tail text).mp htail⟩
  · rintro ⟨tail, hfront, htail⟩
    exact ⟨tail, (List.mem_tails tail text).mpr htail, List.isPrefixOf_iff_prefix.mpr hfront⟩

theorem isInfix_cons {needle text : Str} {c : CodePoint} :
    isInfix needle (c :: text) = (needle.isPrefixOf (c :: text) || isInfix needle text) := by
  rw [isInfix, List.tails_cons, List.any_cons]
  rfl

/-- Nothing after the last separator contains it. -/
theorem isInfix_afterLast {separator : Str} (hne : separator ≠ []) (s : Str) :
    isInfix separator (afterLast separator s) = false := by
  induction s with
  | nil =>
    rw [afterLast, Bool.eq_false_iff]
    intro h
    exact hne (List.infix_nil.mp (isInfix_iff.mp h))
  | cons c rest ih =>
    rw [afterLast]
    split_ifs with hinner houter
    · exact ih
    · rw [Bool.eq_false_iff]
      intro h
      obtain ⟨k, hk⟩ := Nat.exists_eq_succ_of_ne_zero (List.length_pos_iff.mpr hne).ne'
      rw [hk, List.drop_succ_cons] at h
      exact hinner (isInfix_iff.mpr ((isInfix_iff.mp h).trans (List.drop_suffix k rest).isInfix))
    · rw [isInfix_cons, Bool.or_eq_false_iff]
      exact ⟨Bool.eq_false_iff.mpr houter, Bool.eq_false_iff.mpr hinner⟩

theorem afterLast_append {separator before s : Str} (h : isInfix separator s = true) :
    afterLast separator (before ++ s) = afterLast separator s := by
  induction before with
  | nil => rfl
  | cons c before ih =>
    have hin : isInfix separator (before ++ s) = true :=
      isInfix_iff.mpr ((isInfix_iff.mp h).trans (List.suffix_append before s).isInfix)
    rw [List.cons_append, afterLast, if_pos hin, ih]

theorem modulesMarker : u "node_modules/" = [ch 'n', ch 'o', ch 'd', ch 'e', ch '_', ch 'm', ch 'o', ch 'd', ch 'u',
    ch 'l', ch 'e', ch 's', ch '/'] := by decide

/-- No copy of the directory marker begins inside another. -/
theorem afterLast_modules {before name : Str} (hname : isInfix (u "node_modules/") name = false) :
    afterLast (u "node_modules/") (before ++ u "node_modules/" ++ name) = name := by
  have hself : isInfix (u "node_modules/") (u "node_modules/" ++ name) = true :=
    isInfix_iff.mpr (List.prefix_append _ _).isInfix
  rw [List.append_assoc, afterLast_append hself]
  rw [modulesMarker] at hname ⊢
  have hinner : isInfix [ch 'n', ch 'o', ch 'd', ch 'e', ch '_', ch 'm', ch 'o', ch 'd', ch 'u', ch 'l', ch 'e', ch 's',
      ch '/'] ([ch 'o', ch 'd', ch 'e', ch '_', ch 'm', ch 'o', ch 'd', ch 'u', ch 'l', ch 'e', ch 's', ch '/'] ++
        name) = false := by
    simp only [List.cons_append, List.nil_append, isInfix_cons, hname, List.isPrefixOf, Bool.or_false]
    rfl
  rw [List.cons_append, afterLast, if_neg (by rw [Bool.not_eq_true]; exact hinner), if_pos]
  · rfl
  · exact List.isPrefixOf_iff_prefix.mpr (List.prefix_append _ name)

theorem pathNames_eq_some (parts : List Str) : ∀ {names : List Str}, pathNames parts = some names →
    ∃ outer name before, names = outer ++ [name] ∧
      [ch '/'].intercalate parts = before ++ u "node_modules/" ++ name := by
  have hmarker : u "node_modules/" = modulesPart ++ [ch '/'] := by decide
  induction parts using pathNames.induct with
  | case1 scope package hscope =>
    intro names h
    rw [pathNames, if_pos rfl, if_pos hscope, if_pos rfl, Option.some.injEq] at h
    refine ⟨[], scope ++ ch '/' :: package, [], h.symm, ?_⟩
    simp [List.intercalate_cons_cons, List.intercalate_singleton, hmarker]
  | case2 scope package rest hscope hrest ih =>
    intro names h
    rw [pathNames, if_pos rfl, if_pos hscope, if_neg hrest, Option.map_eq_some_iff] at h
    obtain ⟨inner, hinner, rfl⟩ := h
    obtain ⟨outer, name, before, rfl, hjoin⟩ := ih hinner
    refine ⟨(scope ++ ch '/' :: package) :: outer, name,
      modulesPart ++ ch '/' :: scope ++ ch '/' :: package ++ ch '/' :: before, rfl, ?_⟩
    rw [List.intercalate_cons_cons, List.intercalate_cons_cons, List.intercalate_cons_of_ne_nil hrest, hjoin]
    simp
  | case3 scope package rest hscope hmixed ih =>
    intro names h
    rw [pathNames, if_pos rfl, if_neg hscope, if_pos hmixed, Option.map_eq_some_iff] at h
    obtain ⟨inner, hinner, rfl⟩ := h
    obtain ⟨outer, name, before, rfl, hjoin⟩ := ih hinner
    refine ⟨scope :: outer, name, modulesPart ++ ch '/' :: scope ++ ch '/' :: before, rfl, ?_⟩
    rw [List.intercalate_cons_cons, List.intercalate_cons_cons, hjoin]
    simp
  | case4 scope package rest hscope hmixed =>
    intro names h
    rw [pathNames, if_pos rfl, if_neg hscope, if_neg hmixed] at h
    cases h
  | case5 marker scope package rest hmarker' =>
    intro names h
    rw [pathNames, if_neg hmarker'] at h
    cases h
  | case6 marker package hpair =>
    intro names h
    rw [pathNames, if_pos hpair, Option.some.injEq] at h
    refine ⟨[], package, [], h.symm, ?_⟩
    rw [hpair.1, hmarker]
    simp [List.intercalate_cons_cons, List.intercalate_singleton]
  | case7 marker package hpair =>
    intro names h
    rw [pathNames, if_neg hpair] at h
    cases h
  | case8 parts hmany hpair =>
    intro names h
    rw [pathNames] at h
    · cases h
    · exact hmany
    · exact hpair

/-- A lock path ends in the directory it names. -/
theorem lockName_eq_some {path name : Str} (h : lockName path = some name) :
    ∃ before, path = before ++ u "node_modules/" ++ name := by
  obtain ⟨names, hnames, hlast⟩ := Option.bind_eq_some_iff.mp h
  obtain ⟨outer, last, before, rfl, hjoin⟩ := pathNames_eq_some _ hnames
  rw [List.getLast?_concat, Option.some.injEq] at hlast
  rw [fields, List.intercalate_splitOn, hlast] at hjoin
  exact ⟨before, hjoin⟩

/-! ## npm -/

/-- What the preparer has checked of an entry it finds a name for. -/
structure Prepared (path : Str) (package : Json) (name version : Str) : Prop where
  path : lockName path = some name
  isObject : ∃ entry, package = .obj entry
  linked : isLinked (fieldsOf package) = false
  hasVersion : Dict.get (fieldsOf package) "version" = .str version
  exact : isExactSemver version = true
  hasResolved : Dict.get (fieldsOf package) "resolved" = .str (registryUrl name version)
  hasIntegrity : ∃ integrity, Dict.get (fieldsOf package) "integrity" = .str integrity ∧ isIntegrity integrity = true

theorem preparedEntry_eq_some {path name : Str} {package : Json} (h : preparedEntry path package = some name) :
    ∃ version, Prepared path package name version := by
  unfold preparedEntry at h
  split at h
  · next other entry hname =>
    split at h
    · next version resolved integrity hversion hresolved hintegrity =>
      split_ifs at h with hall
      obtain ⟨hlink, hexact, hhash, -, hurl, -⟩ := hall
      rw [Option.some.injEq] at h
      subst h
      refine ⟨version, hname, ⟨entry, rfl⟩, hlink, hversion, hexact, ?_, integrity, hintegrity, hhash⟩
      rw [← hurl]
      exact hresolved
    · cases h
  · cases h

theorem preflightEntry_of_prepared {path name version : Str} {package : Json}
    (h : Prepared path package name version) : preflightEntry path package = true := by
  obtain ⟨entry, rfl⟩ := h.isObject
  obtain ⟨integrity, hintegrity, hhash⟩ := h.hasIntegrity
  obtain ⟨before, hpath⟩ := lockName_eq_some h.path
  have hmarked : isInfix (u "node_modules/") path = true := isInfix_iff.mpr ⟨before, name, hpath.symm⟩
  have hversion : version ≠ [] := by
    rintro rfl
    exact absurd h.exact (by decide)
  have hurl : (u "https://registry.npmjs.org/").isPrefixOf (registryUrl name version) = true := by
    rw [registryUrl, List.append_assoc, List.append_assoc, List.append_assoc]
    exact List.isPrefixOf_iff_prefix.mpr (List.prefix_append _ _)
  have hlink : isLinked entry = false := h.linked
  have hgetVersion : Dict.get entry "version" = .str version := h.hasVersion
  have hgetResolved : Dict.get entry "resolved" = .str (registryUrl name version) := h.hasResolved
  have hgetIntegrity : Dict.get entry "integrity" = .str integrity := hintegrity
  rw [preflightEntry, hlink, hgetVersion, hgetResolved, hgetIntegrity]
  simp [hmarked, hversion, hurl, hhash]

theorem npmDependencies_eq_ok {value : Json} {entries : Dict} (h : npmDependencies value = .ok entries) :
    value = .obj entries ∧ ∀ kv ∈ entries, isNpmName kv.1 = true ∧
      ∃ version, kv.2 = .str version ∧ isExactSemver version = true := by
  unfold npmDependencies at h
  split at h
  · next given =>
    obtain ⟨_, hall, h⟩ := bind_eq_ok.mp h
    rw [Except.ok.injEq] at h
    subst h
    refine ⟨rfl, fun kv hkv => ?_⟩
    have hkv' := List.all_eq_true.mp (insist_eq_ok.mp hall) kv hkv
    rw [Bool.and_eq_true] at hkv'
    refine ⟨hkv'.1, ?_⟩
    cases hvalue : kv.2 with
    | str version =>
      rw [hvalue] at hkv'
      exact ⟨version, rfl, hkv'.2⟩
    | _ =>
      rw [hvalue] at hkv'
      cases hkv'.2
  · cases h

theorem boundPackages_eq_ok {dependencies packages : Dict} {value : Json}
    (h : boundPackages dependencies value = .ok packages) :
    ∃ lock, value = .obj lock ∧ Dict.get lock "packages" = .obj packages ∧
      bindsDependencies lock packages (.obj dependencies) = true := by
  unfold boundPackages at h
  split at h
  · next lock =>
    split at h
    · next given hget =>
      obtain ⟨_, hbinds, h⟩ := bind_eq_ok.mp h
      rw [Except.ok.injEq] at h
      subst h
      exact ⟨lock, rfl, hget, insist_eq_ok.mp hbinds⟩
    · cases h
  · cases h

/-- What the preparer has checked of two documents it accepts, up to the overrides. -/
structure Accepted (manifest lock : Json) (dependencies packages : Dict) : Prop where
  declared : Dict.get (fieldsOf manifest) "dependencies" = .obj dependencies
  exact : ∀ kv ∈ dependencies, isNpmName kv.1 = true ∧ ∃ version, kv.2 = .str version ∧ isExactSemver version = true
  locked : ∃ fields, lock = .obj fields ∧ Dict.get fields "packages" = .obj packages ∧
    bindsDependencies fields packages (.obj dependencies) = true
  entries : ∀ kv ∈ lockEntries packages, ∃ name version, preparedEntry kv.1 kv.2 = some name ∧
    Prepared kv.1 kv.2 name version
  nonempty : dependencies ≠ []
  found : ∀ name ∈ Dict.keys dependencies, ∃ kv ∈ lockEntries packages, preparedEntry kv.1 kv.2 = some name

theorem validateNpmDocuments_accepted {expected : Expected} {manifest lock : Json}
    (h : validateNpmDocuments expected manifest lock = .ok ()) :
    ∃ dependencies packages, Accepted manifest lock dependencies packages := by
  obtain ⟨dependencies, hdependencies, h⟩ := bind_eq_ok.mp h
  obtain ⟨_, _, h⟩ := bind_eq_ok.mp h
  obtain ⟨overrides, _, h⟩ := bind_eq_ok.mp h
  obtain ⟨_, _, h⟩ := bind_eq_ok.mp h
  obtain ⟨packages, hpackages, h⟩ := bind_eq_ok.mp h
  obtain ⟨_, hchecked, _⟩ := bind_eq_ok.mp h
  obtain ⟨_, hsome, hfound⟩ := bind_eq_ok.mp hchecked
  have hall := insist_eq_ok.mp hsome
  have hnames := insist_eq_ok.mp hfound
  rw [List.all_map, List.all_eq_true] at hall
  rw [Bool.and_eq_true, decide_eq_true_eq, List.all_eq_true] at hnames
  refine ⟨dependencies, packages, (npmDependencies_eq_ok hdependencies).1, (npmDependencies_eq_ok hdependencies).2,
    boundPackages_eq_ok hpackages, ?_, hnames.1, ?_⟩
  · intro kv hkv
    obtain ⟨name, hname⟩ := Option.isSome_iff_exists.mp (hall kv hkv)
    obtain ⟨version, hprepared⟩ := preparedEntry_eq_some hname
    exact ⟨name, version, hname, hprepared⟩
  · intro name hname
    obtain ⟨kv, hkv, heq⟩ := List.mem_map.mp (of_decide_eq_true (hnames.2 name hname))
    exact ⟨kv, hkv, heq⟩

/-- A direct dependency the preflight reads as the preparer does. -/
def isPlainDependency (kv : Str × Json) : Bool :=
  !isInfix (u "node_modules/") kv.1 && match kv.2 with
    | .str version => decide (ch '+' ∉ version)
    | _ => true

theorem two_le_packages {manifest lock : Json} {dependencies packages : Dict}
    (h : Accepted manifest lock dependencies packages) : 2 ≤ packages.length := by
  obtain ⟨fields, -, -, hbinds⟩ := h.locked
  obtain ⟨kv, hkv⟩ := List.exists_mem_of_ne_nil _ h.nonempty
  obtain ⟨entry, hentry, -⟩ := h.found kv.1 (List.mem_map_of_mem hkv)
  have hroot : ∃ p ∈ packages, ¬decide (p.1 ≠ []) = true := by
    cases hlookup : Dict.lookup packages [] with
    | none => simp [bindsDependencies, hlookup] at hbinds
    | some root =>
      refine ⟨_, Dict.mem_of_lookup hlookup, ?_⟩
      simp
  have hlt : (lockEntries packages).length < packages.length := List.length_filter_lt_length_iff_exists.mpr hroot
  have hpos : 0 < (lockEntries packages).length := List.length_pos_of_mem hentry
  omega

section Documents

variable {manifest lock : Json} {dependencies packages : Dict} (h : Accepted manifest lock dependencies packages)
include h

theorem Accepted.preflightEntries : (lockEntries packages).all (fun kv => preflightEntry kv.1 kv.2) = true := by
  apply List.all_eq_true.mpr
  intro kv hkv
  obtain ⟨name, version, -, hprepared⟩ := h.entries kv hkv
  exact preflightEntry_of_prepared hprepared

theorem Accepted.plainPins_iff : dependencies.all isPlainPin = true ↔
    ∀ kv ∈ dependencies, ∀ version, kv.2 = .str version → ch '+' ∉ version := by
  rw [List.all_eq_true]
  constructor
  · intro hall kv hkv version hvalue
    have hplain := hall kv hkv
    rw [isPlainPin, hvalue, Bool.and_eq_true] at hplain
    exact plus_notMem_of_plain hplain.2
  · intro hall kv hkv
    obtain ⟨hname, version, hvalue, hexact⟩ := h.exact kv hkv
    have hne : kv.1 ≠ [] := by
      intro hnil
      rw [hnil] at hname
      exact absurd hname (by decide)
    rw [isPlainPin, hvalue, Bool.and_eq_true]
    exact ⟨decide_eq_true hne, plain_of_exact hexact (hall kv hkv version hvalue)⟩

/-- The text after the last marker of a path is the name found there, unless the name holds a marker itself. -/
theorem Accepted.namesFound_iff : ((Dict.keys dependencies).all fun name =>
    decide (name ∈ (lockEntries packages).map fun kv => afterLast (u "node_modules/") kv.1)) = true ↔
      ∀ kv ∈ dependencies, isInfix (u "node_modules/") kv.1 = false := by
  rw [List.all_eq_true]
  constructor
  · intro hall kv hkv
    obtain ⟨entry, -, hentry⟩ := List.mem_map.mp (of_decide_eq_true (hall kv.1 (List.mem_map_of_mem hkv)))
    rw [← hentry]
    exact isInfix_afterLast (by decide) entry.1
  · intro hall name hname
    obtain ⟨kv, hkv, rfl⟩ := List.mem_map.mp hname
    obtain ⟨entry, hentry, hprepared⟩ := h.found kv.1 hname
    obtain ⟨version, hentry'⟩ := preparedEntry_eq_some hprepared
    obtain ⟨before, hpath⟩ := lockName_eq_some hentry'.path
    apply decide_eq_true
    apply List.mem_map.mpr
    refine ⟨entry, hentry, ?_⟩
    rw [hpath]
    exact afterLast_modules (hall kv hkv)

theorem Accepted.plainDependencies_iff : dependencies.all isPlainDependency = true ↔
    (∀ kv ∈ dependencies, ∀ version, kv.2 = .str version → ch '+' ∉ version) ∧
      ∀ kv ∈ dependencies, isInfix (u "node_modules/") kv.1 = false := by
  rw [List.all_eq_true]
  constructor
  · intro hall
    constructor
    · intro kv hkv version hvalue
      have hkv' := hall kv hkv
      rw [isPlainDependency, Bool.and_eq_true, hvalue] at hkv'
      exact of_decide_eq_true hkv'.2
    · intro kv hkv
      have hkv' := hall kv hkv
      rw [isPlainDependency, Bool.and_eq_true, Bool.not_eq_eq_eq_not, Bool.not_true] at hkv'
      exact hkv'.1
  · rintro ⟨hplus, hmarked⟩ kv hkv
    obtain ⟨-, version, hvalue, -⟩ := h.exact kv hkv
    rw [isPlainDependency, hmarked kv hkv, hvalue]
    exact decide_eq_true (hplus kv hkv version hvalue)

theorem validNpmDocuments_iff :
    validNpmDocuments manifest lock = .ok true ↔ dependencies.all isPlainDependency = true := by
  obtain ⟨fields, rfl, hpackages, hbinds⟩ := h.locked
  have hread : validNpmDocuments manifest (.obj fields) =
      if dependencies ≠ [] ∧ dependencies.all isPlainPin = true then .ok (validPackages fields packages dependencies)
      else .ok false := by
    rw [validNpmDocuments, h.declared]
    dsimp only
    rw [hpackages]
  have htwo := two_le_packages h
  have hentries := h.preflightEntries
  rw [h.plainDependencies_iff, ← h.plainPins_iff, ← h.namesFound_iff, hread]
  split_ifs with hall
  · simp only [Except.ok.injEq, validPackages, Bool.and_eq_true, hentries, hbinds, decide_eq_true_eq, htwo, hall.2,
      true_and]
  · constructor
    · intro hfalse
      cases hfalse
    · rintro ⟨hpins, -⟩
      exact absurd ⟨h.nonempty, hpins⟩ hall

end Documents

/-! ## npm, on the files -/

/-- Both files pass the bounded reader, and every direct dependency is a plain one. -/
def NpmPlain (interp : Interpreter) (manifest lock : Option Bytes) : Prop :=
  (∃ document, loadJson interp manifest = .ok document ∧
    (fieldsOf (Dict.get (fieldsOf document) "dependencies")).all isPlainDependency = true) ∧
  ∃ document, loadJson interp lock = .ok document

theorem validateNpmLock_accepted {interp : Interpreter} {expected : Expected} {manifest lock : Option Bytes}
    (h : validateNpmLock interp expected manifest lock = .ok ()) :
    ∃ v w, readDocuments interp manifest lock = .ok (v, w) ∧
      ∃ dependencies packages, Accepted v w dependencies packages := by
  obtain ⟨⟨v, w⟩, hread, h⟩ := bind_eq_ok.mp h
  exact ⟨v, w, hread, validateNpmDocuments_accepted h⟩

theorem validNpmInputs_eq_true {interp : Interpreter} {manifest lock : Option Bytes} :
    validNpmInputs interp manifest lock = .ok true ↔
      ∃ v w, loadJson interp manifest = .ok v ∧ loadJson interp lock = .ok w ∧ validNpmDocuments v w = .ok true := by
  unfold validNpmInputs
  cases hv : loadJson interp manifest with
  | error e =>
    have hfail : (do
        let manifest ← Except.error e
        let lock ← loadJson interp lock
        validNpmDocuments manifest lock) = .error e := rfl
    rw [hfail, catching_error]
    split_ifs <;> simp
  | ok v =>
    cases hw : loadJson interp lock with
    | error e =>
      have hfail : (do
          let manifest ← Except.ok v
          let lock ← Except.error e
          validNpmDocuments manifest lock) = .error e := rfl
      rw [hfail, catching_error]
      split_ifs <;> simp
    | ok w =>
      have hread : (do
          let manifest ← Except.ok v
          let lock ← Except.ok w
          validNpmDocuments manifest lock) = validNpmDocuments v w := rfl
      rw [hread]
      cases hvalid : validNpmDocuments v w with
      | error e =>
        rw [catching_error]
        split_ifs <;> simp [hvalid]
      | ok accepted => simp [hvalid]

theorem npm_accepted_iff {interp : Interpreter} {expected : Expected} {manifest lock : Option Bytes}
    (h : validateNpmLock interp expected manifest lock = .ok ()) :
    validNpmInputs interp manifest lock = .ok true ↔ NpmPlain interp manifest lock := by
  obtain ⟨v, w, hread, dependencies, packages, haccepted⟩ := validateNpmLock_accepted h
  obtain ⟨hmanifest, hlock⟩ := readDocuments_eq_ok hread
  have hdependencies : fieldsOf (Dict.get (fieldsOf v) "dependencies") = dependencies := by
    rw [haccepted.declared]
    rfl
  rw [validNpmInputs_eq_true]
  constructor
  · rintro ⟨v', w', hv, hw, hvalid⟩
    obtain rfl := loadJson_unique hv hmanifest
    obtain rfl := loadJson_unique hw hlock
    refine ⟨⟨v', hv, ?_⟩, w', hw⟩
    rw [hdependencies]
    exact (validNpmDocuments_iff haccepted).mp hvalid
  · rintro ⟨⟨v', hv, hall⟩, w', hw⟩
    obtain rfl := loadJson_unique hv hmanifest
    obtain rfl := loadJson_unique hw hlock
    rw [hdependencies] at hall
    exact ⟨v', w', hv, hw, (validNpmDocuments_iff haccepted).mpr hall⟩

/-- The tarball of the package a lock path names, at an exact version. -/
def ResolvesExactly (path : Str) (package : Json) : Prop :=
  ∃ name version, lockName path = some name ∧ isExactSemver version = true ∧
    Dict.get (fieldsOf package) "version" = .str version ∧
    Dict.get (fieldsOf package) "resolved" = .str (registryUrl name version)

/-- The packages of a lock. -/
def packagesOf (lock : Json) : Dict := fieldsOf (Dict.get (fieldsOf lock) "packages")

/-- Below the registry, an entry's URL is the file of its own name and exact version. -/
def isOwnTarball (path : Str) (package : Json) : Bool :=
  match lockName path, Dict.get (fieldsOf package) "version", Dict.get (fieldsOf package) "resolved" with
  | some name, .str version, .str resolved =>
    isExactSemver version &&
      decide (resolved.drop 27 = name ++ u "/-/" ++ afterLast (u "/") name ++ ch '-' :: version ++ u ".tgz")
  | _, _, _ => false

theorem resolvesExactly_iff {path : Str} {package : Json} (h : preflightEntry path package = true) :
    ResolvesExactly path package ↔ isOwnTarball path package = true := by
  have hlength : (u "https://registry.npmjs.org/").length = 27 := by decide
  constructor
  · rintro ⟨name, version, hname, hexact, hversion, hresolved⟩
    have hdrop : (registryUrl name version).drop 27 =
        name ++ u "/-/" ++ afterLast (u "/") name ++ ch '-' :: version ++ u ".tgz" := by
      rw [registryUrl, List.append_assoc, List.append_assoc, List.append_assoc, List.append_assoc, ← hlength,
        List.drop_left]
      simp only [List.append_assoc]
    rw [isOwnTarball, hname, hversion, hresolved, Bool.and_eq_true]
    exact ⟨hexact, decide_eq_true hdrop⟩
  · intro hown
    unfold isOwnTarball at hown
    split at hown
    · next name version resolved hname hversion hresolved =>
      rw [Bool.and_eq_true, decide_eq_true_eq] at hown
      refine ⟨name, version, hname, hown.1, hversion, ?_⟩
      have hfront : (u "https://registry.npmjs.org/").isPrefixOf resolved = true := by
        cases package with
        | obj entry =>
          have hresolved' : Dict.get entry "resolved" = .str resolved := hresolved
          rw [preflightEntry, hresolved'] at h
          simp only [Bool.and_eq_true] at h
          exact h.1.1.2
        | _ => cases h
      obtain ⟨tail, rfl⟩ := List.isPrefixOf_iff_prefix.mp hfront
      rw [← hlength, List.drop_left] at hown
      rw [hresolved, hown.2, registryUrl]
      simp only [List.append_assoc]
    · cases hown

theorem preflight_entries {manifest lock : Json} (h : validNpmDocuments manifest lock = .ok true) :
    ∀ kv ∈ lockEntries (packagesOf lock), preflightEntry kv.1 kv.2 = true := by
  unfold validNpmDocuments at h
  split at h
  · next dependencies _ =>
    split_ifs at h
    · split at h
      · next lock =>
        split at h
        · next packages hpackages =>
          have hof : packagesOf (.obj lock) = packages := by
            have hget : Dict.get (fieldsOf (.obj lock)) "packages" = .obj packages := hpackages
            rw [packagesOf, hget]
            rfl
          rw [hof]
          rw [Except.ok.injEq] at h
          simp only [validPackages, Bool.and_eq_true] at h
          exact List.all_eq_true.mp h.1.2
        · cases h
      · cases h
    · cases h
  · cases h

/-! ## Requirement groups -/

theorem preparedGroups_eq_ok {text : Str} {groups : List Str} (h : preparedGroups text = .ok groups) :
    preflightGroups text = groups := by
  obtain ⟨_, hleft, h⟩ := bind_eq_ok.mp h
  have hnil := of_decide_eq_true (insist_eq_ok.mp hleft)
  have hread : preflightGroups text = if (groupLines [] (splitLines text)).2 = [] then
      (groupLines [] (splitLines text)).1 else
      (groupLines [] (splitLines text)).1 ++ [(groupLines [] (splitLines text)).2] := rfl
  rw [hread, if_pos hnil]
  rw [Except.ok.injEq] at h
  exact h

theorem pinMarker : u "==" = [ch '=', ch '='] := by decide

theorem splitPin_eq_some (s : Str) : ∀ {name version : Str}, splitPin s = some (name, version) →
    s = name ++ u "==" ++ version := by
  induction s with
  | nil =>
    intro name version h
    cases h
  | cons c rest ih =>
    intro name version h
    rw [splitPin] at h
    split_ifs at h with hfront
    · rw [Option.some.injEq, Prod.mk.injEq] at h
      obtain ⟨rfl, rfl⟩ := h
      obtain ⟨tail, htail⟩ := List.isPrefixOf_iff_prefix.mp hfront
      rw [pinMarker] at htail ⊢
      rw [← htail]
      have hrest : rest = ch '=' :: tail := by
        rw [List.cons_append, List.cons_append, List.nil_append, List.cons.injEq] at htail
        exact htail.2.symm
      rw [hrest]
      rfl
    · obtain ⟨⟨name', version'⟩, hrest, hparts⟩ := Option.map_eq_some_iff.mp h
      rw [Prod.mk.injEq] at hparts
      obtain ⟨rfl, rfl⟩ := hparts
      rw [ih hrest]
      simp

theorem mem_of_leading {p : CodePoint → Bool} (hp : ∀ c, isAlnum c = true → p c = true) {first : CodePoint}
    {rest : Str} (h : (isAlnum first && rest.all p) = true) : ∀ c ∈ first :: rest, p c = true := by
  rw [Bool.and_eq_true, List.all_eq_true] at h
  intro c hc
  obtain rfl | hin := List.mem_cons.mp hc
  · exact hp c h.1
  · exact h.2 c hin

theorem isPythonName_all {name : Str} (h : isPythonName name = true) : ∀ c ∈ name, isNamePoint c = true := by
  cases name with
  | nil => cases h
  | cons first rest =>
    apply mem_of_leading _ h
    intro c hc
    rw [isNamePoint, hc, Bool.true_or]

theorem isPythonVersion_all {version : Str} (h : isPythonVersion version = true) :
    version ≠ [] ∧ ∀ c ∈ version, isVersionPoint c = true := by
  cases version with
  | nil => cases h
  | cons first rest =>
    refine ⟨List.cons_ne_nil first rest, mem_of_leading ?_ h⟩
    intro c hc
    rw [isVersionPoint, hc, Bool.true_or]

theorem isVersionPoint_plain {c : CodePoint} (h : isVersionPoint c = true) :
    (!isWhite c && decide (c ≠ ch ';')) = true := by
  have hpoints : u ".!+_-" = [ch '.', ch '!', ch '+', ch '_', ch '-'] := by decide
  have hrange : c ≠ ch ';' ∧ 33 ≤ c.val ∧ c.val ≤ 122 := by
    rw [isVersionPoint, Bool.or_eq_true, decide_eq_true_eq, hpoints] at h
    obtain hletter | hmark := h
    · simp only [isAlnum, isDigit, isLowerAlpha, isUpperAlpha, Bool.or_eq_true, Bool.and_eq_true,
        decide_eq_true_eq] at hletter
      have hsemi : (ch ';').val = 59 := by decide
      refine ⟨?_, by omega, by omega⟩
      rintro rfl
      omega
    · simp only [List.mem_cons, List.not_mem_nil, or_false] at hmark
      obtain rfl | rfl | rfl | rfl | rfl := hmark <;> decide
  have hwhite : isWhite c = false := by
    have hnot : c.val ∉ [0x85, 0xA0, 0x1680, 0x2028, 0x2029, 0x202F, 0x205F, 0x3000] := by
      simp only [List.mem_cons, List.not_mem_nil, or_false]
      omega
    simp only [isWhite, hnot, decide_false, Bool.or_false, Bool.or_eq_false_iff, decide_eq_false_iff_not]
    omega
  rw [hwhite, decide_eq_true hrange.1]
  rfl

/-- What the preflight reads from a pinned requirement and what follows it. -/
theorem requirementMatch_pin {name version : Str} (tail : Str) (hname : isPythonName name = true)
    (hversion : isPythonVersion version = true)
    (htail : ∀ c ∈ tail.head?, (!isWhite c && decide (c ≠ ch ';')) = false) :
    requirementMatch (name ++ u "==" ++ (version ++ tail)) = some (name, version) := by
  have hstop : isNamePoint (ch '=') = false := by decide
  obtain ⟨hne, hall⟩ := isPythonVersion_all hversion
  have htake : (name ++ u "==" ++ (version ++ tail)).takeWhile isNamePoint = name := by
    rw [List.append_assoc, List.takeWhile_append_of_pos (isPythonName_all hname), pinMarker, List.cons_append,
      List.takeWhile_cons, hstop]
    simp
  have hdrop : (name ++ u "==" ++ (version ++ tail)).dropWhile isNamePoint = u "==" ++ (version ++ tail) := by
    rw [List.append_assoc, List.dropWhile_append_of_pos (isPythonName_all hname), pinMarker, List.cons_append,
      List.dropWhile_cons, hstop]
    simp
  have hrest : (u "==" ++ (version ++ tail)).drop 2 = version ++ tail := by
    rw [pinMarker]
    rfl
  have hread : (version ++ tail).takeWhile (fun c => !isWhite c && decide (c ≠ ch ';')) = version := by
    rw [List.takeWhile_append_of_pos fun c hc => isVersionPoint_plain (hall c hc)]
    cases tail with
    | nil => simp
    | cons c tail =>
      rw [List.takeWhile_cons, htail c rfl]
      simp
  have hfront : (u "==").isPrefixOf (u "==" ++ (version ++ tail)) = true :=
    List.isPrefixOf_iff_prefix.mpr (List.prefix_append _ _)
  rw [requirementMatch, htake, hdrop, hrest, hread, if_pos ⟨hname, hfront, hne⟩]

theorem isExactPin_spec {group : Str} (h : isExactPin group = true) :
    ∃ pin, splitPin group = some pin ∧ requirementMatch group = some pin := by
  unfold isExactPin at h
  split at h
  · next name version hsplit =>
    simp only [Bool.and_eq_true] at h
    refine ⟨(name, version), hsplit, ?_⟩
    have hmatch := requirementMatch_pin [] h.1.2 h.2 (by simp)
    rw [List.append_nil, ← splitPin_eq_some group hsplit] at hmatch
    exact hmatch
  · cases h

/-- A locked group of the preparer is a hashed requirement of the preflight. -/
theorem hashedPin_of_lockedPin {group : Str} {pin : Str × Str} (h : lockedPin group = some pin) :
    hashedPin group = some pin := by
  obtain ⟨⟨name, text⟩, hsplit, h⟩ := Option.bind_eq_some_iff.mp h
  dsimp only at h
  split_ifs at h with hall
  obtain ⟨hname, hversion, htail⟩ := hall
  rw [Option.some.injEq] at h
  subst h
  have hgroup := splitPin_eq_some group hsplit
  have htext : text.takeWhile isVersionPoint ++ text.dropWhile isVersionPoint = text :=
    List.takeWhile_append_dropWhile
  rw [isHashTail, Bool.and_eq_true, Bool.and_eq_true] at htail
  obtain ⟨⟨hspace, hhash⟩, -⟩ := htail
  have hmatch : requirementMatch group = some (name, text.takeWhile isVersionPoint) := by
    rw [hgroup]
    have hread := requirementMatch_pin (text.dropWhile isVersionPoint) hname hversion (by
      intro c hc
      rw [Option.mem_def.mp hc, Option.any_some] at hspace
      rw [hspace]
      rfl)
    rw [htext] at hread
    exact hread
  have hfound : group.tails.any startsHash = true := by
    rw [List.any_eq_true]
    refine ⟨(text.dropWhile isVersionPoint).dropWhile isWhite, ?_, hhash⟩
    rw [List.mem_tails, hgroup]
    have hinner := (List.dropWhile_suffix isWhite).trans (List.dropWhile_suffix (l := text) isVersionPoint)
    exact hinner.trans (List.suffix_append _ text)
  rw [hashedPin, if_pos hfound, hmatch]

theorem lockedVersions_eq_ok (groups : List Str) : ∀ {versions locked : Dict},
    lockedVersions versions groups = .ok locked →
    ∃ pins, groups.mapM hashedPin = some pins ∧ locked = versionsFrom versions pins := by
  induction groups with
  | nil =>
    intro versions locked h
    rw [lockedVersions, Except.ok.injEq] at h
    exact ⟨[], rfl, h.symm⟩
  | cons group groups ih =>
    intro versions locked h
    rw [lockedVersions] at h
    split at h
    · cases h
    · next name version hpin =>
      split_ifs at h
      obtain ⟨pins, hpins, rfl⟩ := ih h
      refine ⟨(name, version) :: pins, ?_, rfl⟩
      rw [List.mapM_cons, hashedPin_of_lockedPin hpin, hpins]
      rfl

/-! ## Distinct projects -/

def normalizedNames (pins : List (Str × Str)) : List Str := pins.map fun pin => normalizedProjectName pin.1

theorem length_set (d : Dict) (key : Str) (value : Json) :
    (d.set key value).length = if key ∈ Dict.keys d then d.length else d.length + 1 := by
  unfold Dict.set
  by_cases hin : key ∈ Dict.keys d
  · rw [if_pos (Dict.contains_eq_true.mpr hin), if_pos hin, List.length_map]
  · rw [if_neg fun hcontains => hin (Dict.contains_eq_true.mp hcontains), if_neg hin]
    simp

theorem length_versionsFrom_le (pins : List (Str × Str)) :
    ∀ d : Dict, (versionsFrom d pins).length ≤ d.length + pins.length := by
  induction pins with
  | nil => exact fun d => Nat.le_refl _
  | cons pin pins ih =>
    intro d
    have hstep := ih (d.set (normalizedProjectName pin.1) (.str pin.2))
    have hset := length_set d (normalizedProjectName pin.1) (.str pin.2)
    rw [versionsFrom, List.foldl_cons]
    rw [versionsFrom] at hstep
    rw [List.length_cons]
    split_ifs at hset <;> omega

/-- Every pin adds a project exactly where the normalized names are distinct and new. -/
theorem length_versionsFrom_iff (pins : List (Str × Str)) : ∀ d : Dict,
    (versionsFrom d pins).length = d.length + pins.length ↔
      (normalizedNames pins).Nodup ∧ ∀ name ∈ normalizedNames pins, name ∉ Dict.keys d := by
  induction pins with
  | nil => simp [versionsFrom, normalizedNames]
  | cons pin pins ih =>
    intro d
    have hset := length_set d (normalizedProjectName pin.1) (.str pin.2)
    have hfold : versionsFrom d (pin :: pins) =
        versionsFrom (d.set (normalizedProjectName pin.1) (.str pin.2)) pins := rfl
    have hnames : normalizedNames (pin :: pins) = normalizedProjectName pin.1 :: normalizedNames pins := rfl
    rw [hfold, hnames, List.length_cons]
    by_cases hin : normalizedProjectName pin.1 ∈ Dict.keys d
    · rw [if_pos hin] at hset
      have hle := length_versionsFrom_le pins (d.set (normalizedProjectName pin.1) (.str pin.2))
      constructor
      · intro heq
        omega
      · rintro ⟨-, hnew⟩
        exact absurd hin (hnew _ List.mem_cons_self)
    · rw [if_neg hin] at hset
      have hkeys : Dict.keys (d.set (normalizedProjectName pin.1) (.str pin.2)) =
          Dict.keys d ++ [normalizedProjectName pin.1] := by
        unfold Dict.set
        rw [if_neg fun hcontains => hin (Dict.contains_eq_true.mp hcontains), Dict.keys, List.map_append]
        rfl
      have hstep := ih (d.set (normalizedProjectName pin.1) (.str pin.2))
      rw [hset, hkeys] at hstep
      rw [Nat.add_comm pins.length 1, ← Nat.add_assoc, hstep, List.nodup_cons]
      constructor
      · rintro ⟨hnodup, hnew⟩
        refine ⟨⟨fun hmem => ?_, hnodup⟩, ?_⟩
        · exact hnew _ hmem (List.mem_append_right _ (List.mem_singleton.mpr rfl))
        · intro name hname
          obtain rfl | hmem := List.mem_cons.mp hname
          · exact hin
          · exact fun hold => hnew name hmem (List.mem_append_left _ hold)
      · rintro ⟨⟨hfresh, hnodup⟩, hnew⟩
        refine ⟨hnodup, fun name hname hold => ?_⟩
        obtain hold | hsame := List.mem_append.mp hold
        · exact hnew name (List.mem_cons_of_mem _ hname) hold
        · rw [List.mem_singleton] at hsame
          rw [hsame] at hname
          exact hfresh hname

/-! ## Python -/

/-- The requirements of a manifest, by the preflight's reading of its lines. -/
def manifestGroups (manifest : Option Bytes) : List Str :=
  match readText manifest with
  | .ok text => preflightGroups text
  | .error _ => []

/-- No requirement carries a hash marker, and the normalized names are distinct. -/
def PythonPlain (manifest : Option Bytes) : Prop :=
  (∀ group ∈ manifestGroups manifest, isInfix (u "--hash=") group = false) ∧
    (normalizedNames ((manifestGroups manifest).filterMap splitPin)).Nodup

theorem readRequirements_eq_ok {manifest lock : Option Bytes} {direct locked : List Str}
    (h : readRequirements manifest lock = .ok (direct, locked)) :
    ∃ text lockText, readText manifest = .ok text ∧ readText lock = .ok lockText ∧
      preflightGroups text = direct ∧ preflightGroups lockText = locked ∧ ∀ group ∈ direct, isExactPin group = true := by
  obtain ⟨text, htext, h⟩ := bind_eq_ok.mp (catching_eq_ok.mp h)
  obtain ⟨groups, hgroups, h⟩ := bind_eq_ok.mp h
  obtain ⟨requirements, hrequirements, h⟩ := bind_eq_ok.mp h
  obtain ⟨lockText, hlockText, h⟩ := bind_eq_ok.mp h
  obtain ⟨lockGroups, hlockGroups, h⟩ := bind_eq_ok.mp h
  rw [Except.ok.injEq, Prod.mk.injEq] at h
  obtain ⟨rfl, rfl⟩ := h
  obtain ⟨_, hexact, hrequirements⟩ := bind_eq_ok.mp hrequirements
  obtain ⟨_, _, hrequirements⟩ := bind_eq_ok.mp hrequirements
  rw [Except.ok.injEq] at hrequirements
  subst hrequirements
  exact ⟨text, lockText, htext, hlockText, preparedGroups_eq_ok hgroups, preparedGroups_eq_ok hlockGroups,
    List.all_eq_true.mp (insist_eq_ok.mp hexact)⟩

theorem mapM_manifestPin {groups : List Str} (hexact : ∀ group ∈ groups, isExactPin group = true)
    (hplain : ∀ group ∈ groups, isInfix (u "--hash=") group = false) :
    groups.mapM manifestPin = some (groups.filterMap splitPin) ∧ (groups.filterMap splitPin).length = groups.length := by
  induction groups with
  | nil => exact ⟨rfl, rfl⟩
  | cons group groups ih =>
    obtain ⟨hrest, hlength⟩ := ih (fun g hg => hexact g (List.mem_cons_of_mem _ hg))
      fun g hg => hplain g (List.mem_cons_of_mem _ hg)
    obtain ⟨pin, hsplit, hmatch⟩ := isExactPin_spec (hexact group List.mem_cons_self)
    have hnohash := hplain group List.mem_cons_self
    have hpin : manifestPin group = some pin := by
      rw [manifestPin, hnohash, if_neg Bool.false_ne_true, hmatch]
    rw [List.filterMap_cons_some hsplit, List.mapM_cons, hpin, hrest, List.length_cons, List.length_cons, hlength]
    exact ⟨rfl, rfl⟩

theorem mapM_manifestPin_eq_some {groups : List Str} :
    ∀ {pins : List (Str × Str)}, groups.mapM manifestPin = some pins → ∀ group ∈ groups, isInfix (u "--hash=") group = false := by
  induction groups with
  | nil =>
    intro pins _ group hgroup
    cases hgroup
  | cons group groups ih =>
    intro pins h
    rw [List.mapM_cons] at h
    obtain ⟨pin, hpin, h⟩ := Option.bind_eq_some_iff.mp h
    obtain ⟨rest, hrest, -⟩ := Option.bind_eq_some_iff.mp h
    intro other hother
    obtain rfl | hin := List.mem_cons.mp hother
    · unfold manifestPin at hpin
      split_ifs at hpin with hhash
      exact Bool.eq_false_iff.mpr hhash
    · exact ih hrest other hin

theorem python_accepted_iff {manifest lock : Option Bytes} (h : validatePythonLock manifest lock = .ok ())
    (hnonempty : manifestGroups manifest ≠ []) : validPythonInputs manifest lock = true ↔ PythonPlain manifest := by
  obtain ⟨⟨direct, groups⟩, hread, h⟩ := bind_eq_ok.mp h
  obtain ⟨locked, hlocked, h⟩ := bind_eq_ok.mp h
  have hbinds := insist_eq_ok.mp h
  rw [Bool.and_eq_true, decide_eq_true_eq] at hbinds
  obtain ⟨text, lockText, htext, hlockText, rfl, rfl, hexact⟩ := readRequirements_eq_ok hread
  obtain ⟨pins, hpins, rfl⟩ := lockedVersions_eq_ok _ hlocked
  have hgroups : manifestGroups manifest = preflightGroups text := by
    rw [manifestGroups, htext]
  rw [PythonPlain, hgroups, validPythonInputs, htext, hlockText]
  rw [hgroups] at hnonempty
  constructor
  · intro hvalid
    have hvalid : validPythonGroups (preflightGroups text) (preflightGroups lockText) = true := hvalid
    unfold validPythonGroups at hvalid
    split at hvalid
    · next found pins' hfound _ =>
      have hplain := mapM_manifestPin_eq_some hfound
      refine ⟨hplain, ?_⟩
      obtain ⟨hmap, hlength⟩ := mapM_manifestPin hexact hplain
      rw [hmap, Option.some.injEq] at hfound
      subst hfound
      simp only [Bool.and_eq_true, decide_eq_true_eq] at hvalid
      have hcount := length_versionsFrom_iff ((preflightGroups text).filterMap splitPin) []
      rw [List.length_nil, Nat.zero_add, hlength] at hcount
      exact (hcount.mp hvalid.1.1.2).1
    · cases hvalid
  · rintro ⟨hplain, hnodup⟩
    obtain ⟨hmap, hlength⟩ := mapM_manifestPin hexact hplain
    have hcount := length_versionsFrom_iff ((preflightGroups text).filterMap splitPin) []
    rw [List.length_nil, Nat.zero_add, hlength] at hcount
    have hsize := hcount.mpr ⟨hnodup, fun _ _ hmem => absurd hmem List.not_mem_nil⟩
    have hdirect : versionsFrom [] ((preflightGroups text).filterMap splitPin) ≠ [] := by
      intro hnil
      rw [hnil, List.length_nil] at hsize
      exact hnonempty (List.length_eq_zero_iff.mp hsize.symm)
    have hvalid : validPythonGroups (preflightGroups text) (preflightGroups lockText) = true := by
      rw [validPythonGroups, hmap, hpins]
      simp only [Bool.and_eq_true, decide_eq_true_eq]
      exact ⟨⟨⟨hdirect, hsize⟩, hbinds.1⟩, hbinds.2⟩
    exact hvalid

/-! ## Both policies -/

/-- On a pair the preparer accepts, the preflight accepts exactly the plain ones; an npm lock the
preflight accepts resolves exactly where each entry's URL is its own tarball. -/
theorem lock_policies_agree_iff (interp : Interpreter) (expected : Expected) (manifest lock : Option Bytes) :
    (validateNpmLock interp expected manifest lock = .ok () →
      (validNpmInputs interp manifest lock = .ok true ↔ NpmPlain interp manifest lock)) ∧
    (validatePythonLock manifest lock = .ok () → manifestGroups manifest ≠ [] →
      (validPythonInputs manifest lock = true ↔ PythonPlain manifest)) ∧
    (validNpmInputs interp manifest lock = .ok true → ∀ document, loadJson interp lock = .ok document →
      ((∀ kv ∈ lockEntries (packagesOf document), ResolvesExactly kv.1 kv.2) ↔
        ∀ kv ∈ lockEntries (packagesOf document), isOwnTarball kv.1 kv.2 = true)) := by
  refine ⟨npm_accepted_iff, python_accepted_iff, ?_⟩
  intro hvalid document hdocument
  obtain ⟨v, w, -, hw, hdocuments⟩ := validNpmInputs_eq_true.mp hvalid
  rw [hw, Except.ok.injEq] at hdocument
  rw [← hdocument]
  have hentries := preflight_entries hdocuments
  constructor
  · intro hexact kv hkv
    exact (resolvesExactly_iff (hentries kv hkv)).mp (hexact kv hkv)
  · intro hown kv hkv
    exact (resolvesExactly_iff (hentries kv hkv)).mpr (hown kv hkv)

/-- A file with the given text. -/
def fileOf (text : String) : Option Bytes := some ((u text).flatMap encodeCodePoint)

def hashedLock (pin : String) : Option Bytes :=
  fileOf (pin ++ " --hash=sha256:0000000000000000000000000000000000000000000000000000000000000000")

/-- One requirement that both policies accept. -/
theorem lock_policies_sample : validPythonInputs (fileOf "a==1") (hashedLock "a==1") = true :=
  ((lock_policies_agree_iff ⟨1000, by decide⟩ Expected.unset (fileOf "a==1") (hashedLock "a==1")).2.1 (by decide +kernel)
    (by decide +kernel)).mpr ⟨by decide +kernel, by decide +kernel⟩

/-- One direct npm dependency. -/
def oneManifest (version : String) : Option Bytes :=
  fileOf ("\x7b\"dependencies\":\x7b\"a\":\"" ++ version ++ "\"\x7d\x7d")

/-- Its lock, with the place its tarball comes from. -/
def oneLock (version resolved : String) : Option Bytes :=
  fileOf ("\x7b\"lockfileVersion\":3,\"packages\":\x7b" ++
    "\"\":\x7b\"dependencies\":\x7b\"a\":\"" ++ version ++ "\"\x7d\x7d," ++
    "\"node_modules/a\":\x7b\"version\":\"" ++ version ++ "\",\"integrity\":\"sha512-AA==\"," ++
    "\"resolved\":\"https://registry.npmjs.org/" ++ resolved ++ "\"\x7d\x7d\x7d")

/-- Build metadata, and a second spelling of a project, pass the preparer and fail the preflight; a
foreign tarball fails the preparer and passes the preflight. -/
theorem lock_policies_differ :
    (validateNpmLock ⟨1000, by decide⟩ Expected.unset (oneManifest "1.0.0+b") (oneLock "1.0.0+b" "a/-/a-1.0.0+b.tgz") =
        .ok () ∧
      validNpmInputs ⟨1000, by decide⟩ (oneManifest "1.0.0+b") (oneLock "1.0.0+b" "a/-/a-1.0.0+b.tgz") = .ok false) ∧
    (validatePythonLock (fileOf "a==1\nA==1") (hashedLock "a==1") = .ok () ∧
      manifestGroups (fileOf "a==1\nA==1") ≠ [] ∧
      validPythonInputs (fileOf "a==1\nA==1") (hashedLock "a==1") = false) ∧
    validNpmInputs ⟨1000, by decide⟩ (oneManifest "1.0.0") (oneLock "1.0.0" "b/-/b-1.0.0.tgz") = .ok true ∧
      validateNpmLock ⟨1000, by decide⟩ Expected.unset (oneManifest "1.0.0") (oneLock "1.0.0" "b/-/b-1.0.0.tgz") =
        .error (boundaryError "npm lock escapes the approved registry source") := by
  decide +kernel

end McpTrust.Refresh
