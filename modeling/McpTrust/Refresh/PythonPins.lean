import McpTrust.Refresh.LockAgreement
import McpTrust.Corpus.Assessment

/-! # Accepted Python locks

A lock is accepted when every line pins a project of its own, with hashes. The
requirements are compared with it by normalized name, and of two requirements with
one such name only the later one is.
-/

namespace McpTrust.Refresh

set_option autoImplicit false

open Python

/-! ## Pins with hashes -/

/-- The white space before a hash and its digest. -/
abbrev HashOption := Str × Str

def HashOption.text (hash : HashOption) : Str := hash.1 ++ (u "--hash=sha256:" ++ hash.2)

def HashOption.IsExact (hash : HashOption) : Prop :=
  hash.1 ≠ [] ∧ (∀ c ∈ hash.1, isWhite c = true) ∧ isSha256 hash.2 = true

/-- `name==version` with at least one hash, and nothing else. -/
structure IsHashedPin (line name version : Str) : Prop where
  isName : isPythonName name = true
  isVersion : isPythonVersion version = true
  hashed : ∃ hashes : List HashOption, hashes ≠ [] ∧ (∀ hash ∈ hashes, hash.IsExact) ∧
    line = name ++ u "==" ++ (version ++ hashes.flatMap HashOption.text)

theorem startsHash_spec {s : Str} (h : startsHash s = true) :
    isSha256 ((s.drop 14).take 64) = true ∧ s = u "--hash=sha256:" ++ ((s.drop 14).take 64 ++ s.drop 78) := by
  rw [startsHash, Bool.and_eq_true] at h
  obtain ⟨hstart, hdigest⟩ := h
  obtain ⟨rest, rfl⟩ := List.isPrefixOf_iff_prefix.mp hstart
  have hlength : (u "--hash=sha256:").length = 14 := by decide
  have hdrop : (u "--hash=sha256:" ++ rest).drop 14 = rest := by
    rw [← hlength, List.drop_left]
  have hlong : (u "--hash=sha256:" ++ rest).drop 78 = rest.drop 64 := by
    rw [show 78 = 14 + 64 from rfl, ← List.drop_drop, hdrop]
  refine ⟨hdigest, ?_⟩
  rw [hdrop, hlong, List.take_append_drop]

theorem isHashTail_spec {fuel : Nat} {s : Str} (h : isHashTail fuel s = true) :
    ∃ hashes : List HashOption, hashes ≠ [] ∧ (∀ hash ∈ hashes, hash.IsExact) ∧ s = hashes.flatMap HashOption.text := by
  induction fuel generalizing s with
  | zero => cases h
  | succ fuel ih =>
    rw [isHashTail, Bool.and_eq_true, Bool.and_eq_true, Bool.or_eq_true, decide_eq_true_eq] at h
    obtain ⟨⟨hspace, hstart⟩, hrest⟩ := h
    obtain ⟨hdigest, hhash⟩ := startsHash_spec hstart
    have hparts : s = s.takeWhile isWhite ++ s.dropWhile isWhite := List.takeWhile_append_dropWhile.symm
    have hwhite : ∀ c ∈ s.takeWhile isWhite, isWhite c = true := fun c hc => List.mem_takeWhile_imp hc
    have hfirst : s.takeWhile isWhite ≠ [] := by
      cases s with
      | nil => cases hspace
      | cons c rest =>
        have hc : isWhite c = true := hspace
        rw [List.takeWhile_cons_of_pos hc]
        exact List.cons_ne_nil _ _
    let first : HashOption := (s.takeWhile isWhite, ((s.dropWhile isWhite).drop 14).take 64)
    have hexact : first.IsExact := ⟨hfirst, hwhite, hdigest⟩
    have htext : s = first.text ++ (s.dropWhile isWhite).drop 78 := by
      rw [HashOption.text, List.append_assoc, List.append_assoc, ← hhash]
      exact hparts
    obtain hnil | htail := hrest
    · refine ⟨[first], List.cons_ne_nil _ _, fun hash hmem => List.mem_singleton.mp hmem ▸ hexact, ?_⟩
      rw [List.flatMap_singleton, htext, hnil, List.append_nil]
    · obtain ⟨hashes, -, hall, heq⟩ := ih htail
      refine ⟨first :: hashes, List.cons_ne_nil _ _, List.forall_mem_cons.mpr ⟨hexact, hall⟩, ?_⟩
      rw [List.flatMap_cons, ← heq]
      exact htext

/-- The project that a line names. -/
def projectOf (line : Str) : Option Str := (splitPin line).map fun parts => normalizedProjectName parts.1

theorem isHashedPin_of_lockedPin {group name version : Str} (h : lockedPin group = some (name, version)) :
    IsHashedPin group name version ∧ projectOf group = some (normalizedProjectName name) := by
  obtain ⟨⟨front, text⟩, hsplit, h⟩ := Option.bind_eq_some_iff.mp h
  dsimp only at h
  split_ifs at h with hall
  obtain ⟨hname, hversion, htail⟩ := hall
  obtain ⟨rfl, rfl⟩ := Prod.mk.inj (Option.some.inj h)
  obtain ⟨hashes, hne, hexact, heq⟩ := isHashTail_spec htail
  refine ⟨⟨hname, hversion, hashes, hne, hexact, ?_⟩, by rw [projectOf, hsplit]; rfl⟩
  rw [← heq, List.takeWhile_append_dropWhile]
  exact splitPin_eq_some group hsplit

/-! ## The lock -/

def entryOf (pin : Str × Str) : Str × Json := (normalizedProjectName pin.1, .str pin.2)

/-- Accepted lines are pins of projects that differ. -/
theorem lockedVersions_ok {groups : List Str} {versions locked : Dict}
    (h : lockedVersions versions groups = .ok locked) :
    ∃ pins, groups.map lockedPin = pins.map some ∧
      locked = versions ++ pins.map entryOf ∧ (normalizedNames pins).Nodup ∧
      ∀ name ∈ normalizedNames pins, name ∉ Dict.keys versions := by
  induction groups generalizing versions with
  | nil =>
    obtain rfl := Except.ok.inj h
    exact ⟨[], rfl, (List.append_nil versions).symm, List.nodup_nil, fun _ h => absurd h List.not_mem_nil⟩
  | cons group groups ih =>
    rw [lockedVersions] at h
    split at h
    · cases h
    · next name version hpin =>
      split_ifs at h with hcontains
      have hnew : normalizedProjectName name ∉ Dict.keys versions := fun hmem =>
        hcontains (Dict.contains_eq_true.mpr hmem)
      have hset : versions.set (normalizedProjectName name) (.str version) = versions ++ [entryOf (name, version)] := by
        rw [Dict.set, if_neg hcontains]
        rfl
      obtain ⟨pins, hpins, rfl, hnodup, hfresh⟩ := ih h
      rw [hset, Dict.keys, List.map_append] at hfresh
      have hname : normalizedProjectName name ∉ normalizedNames pins := fun hmem =>
        hfresh _ hmem (List.mem_append_right _ List.mem_cons_self)
      refine ⟨(name, version) :: pins, by rw [List.map_cons, hpin, hpins, List.map_cons], ?_, List.nodup_cons.mpr ⟨hname, hnodup⟩, ?_⟩
      · rw [hset, List.append_assoc]
        rfl
      · intro other hother
        obtain rfl | hother := List.mem_cons.mp hother
        · exact hnew
        · exact fun hold => hfresh other hother (List.mem_append_left _ hold)

theorem lookup_entries {pins : List (Str × Str)} {name : Str} {v : Json}
    (h : Dict.lookup (pins.map entryOf) name = some v) :
    ∃ pin ∈ pins, normalizedProjectName pin.1 = name ∧ v = .str pin.2 := by
  obtain ⟨kv, hfind, rfl⟩ := Option.map_eq_some_iff.mp h
  have hname : kv.1 = name := by simpa using List.find?_some hfind
  obtain ⟨pin, hpin, rfl⟩ := List.mem_map.mp (List.mem_of_find?_eq_some hfind)
  exact ⟨pin, hpin, hname, rfl⟩

/-- One line only pins the project `name`, and it pins the version. -/
def PinnedOnce (lines : List Str) (name version : Str) : Prop :=
  ∃ line pinned, lines.filter (fun line => decide (projectOf line = some (normalizedProjectName name))) = [line] ∧
    IsHashedPin line pinned version

theorem filter_of_nodup {lines : List Str} (hnodup : (lines.map projectOf).Nodup) {line : Str} (hmem : line ∈ lines) :
    lines.filter (fun other => decide (projectOf other = projectOf line)) = [line] := by
  induction lines with
  | nil => cases hmem
  | cons first rest ih =>
    obtain ⟨hfresh, hnodup⟩ := List.nodup_cons.mp hnodup
    obtain rfl | hmem := List.mem_cons.mp hmem
    · have hrest : rest.filter (fun other => decide (projectOf other = projectOf line)) = [] :=
        List.filter_eq_nil_iff.mpr fun other hother hsame =>
          hfresh (List.mem_map.mpr ⟨other, hother, of_decide_eq_true hsame⟩)
      rw [List.filter_cons, decide_eq_true rfl, if_pos rfl, hrest]
    · have hne : projectOf first ≠ projectOf line := fun heq =>
        hfresh (heq ▸ List.mem_map.mpr ⟨line, hmem, rfl⟩)
      rw [List.filter_cons, decide_eq_false hne, if_neg Bool.false_ne_true]
      exact ih hnodup hmem

/-- What accepted lines are. -/
structure LockedLines (lines : List Str) (pins : List (Str × Str)) : Prop where
  hashed : ∀ line ∈ lines, ∃ name version, IsHashedPin line name version
  distinct : (lines.map projectOf).Nodup
  pinned : ∀ pin ∈ pins, ∃ line ∈ lines, IsHashedPin line pin.1 pin.2 ∧ projectOf line = some (normalizedProjectName pin.1)

theorem lockedLines_of_pins {groups : List Str} {pins : List (Str × Str)} (hpins : groups.map lockedPin = pins.map some)
    (hnodup : (normalizedNames pins).Nodup) : LockedLines groups pins := by
  have hproject : groups.map projectOf = (normalizedNames pins).map some := by
    have hcongr : groups.map projectOf = (groups.map lockedPin).map (Option.map fun pin => normalizedProjectName pin.1) := by
      rw [List.map_map]
      refine List.map_congr_left fun group hgroup => ?_
      have hmem : lockedPin group ∈ pins.map some := hpins ▸ List.mem_map.mpr ⟨group, hgroup, rfl⟩
      obtain ⟨pin, -, hpin⟩ := List.mem_map.mp hmem
      rw [(isHashedPin_of_lockedPin hpin.symm).2, Function.comp_apply, ← hpin]
      rfl
    rw [hcongr, hpins, normalizedNames, List.map_map, List.map_map]
    rfl
  refine ⟨fun line hline => ?_, ?_, fun pin hpin => ?_⟩
  · have hmem : lockedPin line ∈ pins.map some := hpins ▸ List.mem_map.mpr ⟨line, hline, rfl⟩
    obtain ⟨pin, -, hpin⟩ := List.mem_map.mp hmem
    exact ⟨pin.1, pin.2, (isHashedPin_of_lockedPin hpin.symm).1⟩
  · rw [hproject]
    exact hnodup.map (Option.some_injective _)
  · have hmem : some pin ∈ groups.map lockedPin := hpins.symm ▸ List.mem_map.mpr ⟨pin, hpin, rfl⟩
    obtain ⟨line, hline, hlocked⟩ := List.mem_map.mp hmem
    exact ⟨line, hline, isHashedPin_of_lockedPin hlocked⟩

/-! ## The requirements -/

theorem mem_versionsFrom {pins : List (Str × Str)} {versions : Dict} {kv : Str × Json}
    (h : kv ∈ versionsFrom versions pins) : kv ∈ versions ∨ ∃ pin ∈ pins, kv = entryOf pin := by
  induction pins generalizing versions with
  | nil => exact .inl h
  | cons pin pins ih =>
    obtain h | ⟨other, hother, rfl⟩ := @ih (versions.set (normalizedProjectName pin.1) (.str pin.2)) h
    · rw [Dict.set] at h
      split at h
      · obtain ⟨old, hold, rfl⟩ := List.mem_map.mp h
        split
        · exact .inr ⟨pin, List.mem_cons_self, rfl⟩
        · exact .inl hold
      · obtain h | h := List.mem_append.mp h
        · exact .inl h
        · exact .inr ⟨pin, List.mem_cons_self, List.mem_singleton.mp h⟩
    · exact .inr ⟨other, List.mem_cons_of_mem _ hother, rfl⟩

theorem keys_versionsFrom {pins : List (Str × Str)} {versions : Dict} {name : Str}
    (h : name ∈ Dict.keys versions ∨ name ∈ normalizedNames pins) : name ∈ Dict.keys (versionsFrom versions pins) := by
  induction pins generalizing versions with
  | nil => exact h.elim id fun h => absurd h List.not_mem_nil
  | cons pin pins ih =>
    refine @ih (versions.set (normalizedProjectName pin.1) (.str pin.2)) ?_
    rw [Dict.mem_keys_set]
    obtain h | h := h
    · exact .inl (.inl h)
    · obtain rfl | h := List.mem_cons.mp h
      · exact .inl (.inr rfl)
      · exact .inr h

/-! ## Requirements and lock -/

/-- Each requirement is pinned by one line, at its version, and every line pins with hashes. -/
structure BindsRequirements (requirements lines : List Str) : Prop where
  direct : ∀ requirement ∈ requirements, ∃ name version, splitPin requirement = some (name, version) ∧
    PinnedOnce lines name version
  only : ∀ line ∈ lines, ∃ name version, IsHashedPin line name version

/-- Requirements of one project agree on its version. -/
def Consistent (requirements : List Str) : Prop :=
  ∀ first ∈ requirements, ∀ second ∈ requirements, ∀ pin other, splitPin first = some pin →
    splitPin second = some other → normalizedProjectName pin.1 = normalizedProjectName other.1 → pin.2 = other.2

theorem IsHashedPin.requirementMatch {line name version : Str} (h : IsHashedPin line name version) :
    requirementMatch line = some (name, version) := by
  obtain ⟨hname, hversion, hashes, hne, hexact, rfl⟩ := h
  refine requirementMatch_pin _ hname hversion fun c hc => ?_
  -- the first hash begins with white space, which ends a version
  obtain ⟨⟨space, digest⟩, rest, rfl⟩ := List.exists_cons_of_ne_nil hne
  obtain ⟨hspace, hwhite, -⟩ := hexact _ List.mem_cons_self
  obtain ⟨first, more, rfl⟩ := List.exists_cons_of_ne_nil hspace
  obtain rfl : first = c := Option.some.inj hc
  rw [hwhite first List.mem_cons_self]
  rfl

/-- A pin has one reading. -/
theorem IsHashedPin.version_eq {line name version name' version' : Str} (h : IsHashedPin line name version)
    (h' : IsHashedPin line name' version') : version = version' :=
  (Prod.mk.inj (Option.some.inj (h.requirementMatch.symm.trans h'.requirementMatch))).2

theorem consistent_of_binds {requirements lines : List Str} (h : BindsRequirements requirements lines) :
    Consistent requirements := by
  intro first hfirst second hsecond pin other hpin hother hsame
  obtain ⟨name, version, hsplit, line, pinned, honly, hhashed⟩ := h.direct first hfirst
  obtain ⟨name', version', hsplit', line', pinned', honly', hhashed'⟩ := h.direct second hsecond
  obtain rfl := Option.some.inj (hpin.symm.trans hsplit)
  obtain rfl := Option.some.inj (hother.symm.trans hsplit')
  dsimp only at hsame
  rw [hsame, honly'] at honly
  obtain rfl := (List.cons.inj honly).1
  exact hhashed.version_eq hhashed'

theorem preparedRequirements_ok {manifest lock : Option Bytes} {direct locked : List Str}
    (h : readRequirements manifest lock = .ok (direct, locked)) :
    ∃ text lockText, readText manifest = .ok text ∧ readText lock = .ok lockText ∧
      preparedGroups text = .ok direct ∧ preparedGroups lockText = .ok locked ∧
      ∀ requirement ∈ direct, isExactPin requirement = true := by
  obtain ⟨text, htext, h⟩ := bind_eq_ok.mp (catching_eq_ok.mp h)
  obtain ⟨groups, hgroups, h⟩ := bind_eq_ok.mp h
  obtain ⟨requirements, hrequirements, h⟩ := bind_eq_ok.mp h
  obtain ⟨lockText, hlockText, h⟩ := bind_eq_ok.mp h
  obtain ⟨lockGroups, hlockGroups, h⟩ := bind_eq_ok.mp h
  obtain ⟨rfl, rfl⟩ := Prod.mk.inj (Except.ok.inj h)
  obtain ⟨_, hexact, hrequirements⟩ := bind_eq_ok.mp hrequirements
  obtain ⟨_, -, hrequirements⟩ := bind_eq_ok.mp hrequirements
  obtain rfl := Except.ok.inj hrequirements
  exact ⟨text, lockText, htext, hlockText, hgroups, hlockGroups, List.all_eq_true.mp (insist_eq_ok.mp hexact)⟩

/-- Consistent requirements that the dictionaries bind are pinned. -/
theorem pinnedOnce_of_consistent {requirements lines : List Str} {pins : List (Str × Str)}
    (hlines : LockedLines lines pins)
    (hbinds : bindsVersions (pins.map entryOf) (versionsFrom [] (requirements.filterMap splitPin)) = true)
    (hconsistent : Consistent requirements) {requirement name version : Str} (hmem : requirement ∈ requirements)
    (hsplit : splitPin requirement = some (name, version)) : PinnedOnce lines name version := by
  have hname : normalizedProjectName name ∈ normalizedNames (requirements.filterMap splitPin) :=
    List.mem_map.mpr ⟨(name, version), List.mem_filterMap.mpr ⟨requirement, hmem, hsplit⟩, rfl⟩
  obtain ⟨kv, hkv, hkey⟩ := List.mem_map.mp (@keys_versionsFrom _ [] _ (.inr hname))
  have hequal := List.all_eq_true.mp hbinds kv hkv
  obtain hnil | ⟨pin, hpin, rfl⟩ := mem_versionsFrom hkv
  · cases hnil
  · obtain ⟨other, hother, hothersplit⟩ := List.mem_filterMap.mp hpin
    have hversion : pin.2 = version :=
      hconsistent other hother requirement hmem pin (name, version) hothersplit hsplit hkey
    cases hlookup : Dict.lookup (pins.map entryOf) (entryOf pin).1 with
    | none =>
      rw [hlookup] at hequal
      cases hequal
    | some v =>
      rw [hlookup, Option.getD_some, entryOf, Json.pyEq_str] at hequal
      obtain ⟨locked, hlocked, hsame, rfl⟩ := lookup_entries hlookup
      have hequal : locked.2 = pin.2 := Json.str.inj hequal
      obtain ⟨line, hline, hhashed, hproject⟩ := hlines.pinned locked hlocked
      have honly := filter_of_nodup hlines.distinct hline
      rw [hproject, hsame, hkey] at honly
      refine ⟨line, locked.1, honly, ?_⟩
      rw [← hversion, ← hequal]
      exact hhashed

/-- The lock of accepted files binds every requirement if and only if no two requirements of one
project differ in the version. -/
theorem python_lock_binds_iff (manifest lock : Option Bytes) (h : validatePythonLock manifest lock = .ok ()) :
    ∃ text lockText requirements lines, readText manifest = .ok text ∧ readText lock = .ok lockText ∧
      preparedGroups text = .ok requirements ∧ preparedGroups lockText = .ok lines ∧
      (BindsRequirements requirements lines ↔ Consistent requirements) := by
  obtain ⟨⟨requirements, lines⟩, hread, h⟩ := bind_eq_ok.mp h
  obtain ⟨locked, hlocked, h⟩ := bind_eq_ok.mp h
  have hbinds := insist_eq_ok.mp h
  rw [Bool.and_eq_true] at hbinds
  obtain ⟨text, lockText, htext, hlockText, hgroups, hlockGroups, hexact⟩ := preparedRequirements_ok hread
  obtain ⟨pins, hpins, rfl, hnodup, -⟩ := lockedVersions_ok hlocked
  have hlines := lockedLines_of_pins hpins hnodup
  refine ⟨text, lockText, requirements, lines, htext, hlockText, hgroups, hlockGroups, consistent_of_binds, fun hc => ?_⟩
  refine ⟨fun requirement hmem => ?_, hlines.hashed⟩
  obtain ⟨⟨name, version⟩, hsplit, -⟩ := isExactPin_spec (hexact requirement hmem)
  exact ⟨name, version, hsplit, pinnedOnce_of_consistent hlines hbinds.2 hc hmem hsplit⟩

/-! ## Two spellings of a project -/

theorem python_lock_binds_iff_one : ∃ text lockText requirements lines,
    readText (fileOf "a==1") = .ok text ∧ readText (hashedLock "a==1") = .ok lockText ∧
      preparedGroups text = .ok requirements ∧ preparedGroups lockText = .ok lines ∧
      (BindsRequirements requirements lines ↔ Consistent requirements) :=
  python_lock_binds_iff (fileOf "a==1") (hashedLock "a==1") (by decide +kernel)

/-- The lock has the later requirement, and nothing has the earlier. -/
theorem respelled_requirement_unbound :
    validatePythonLock (fileOf "A==1\na==2") (hashedLock "a==2") = .ok () ∧
      (readText (fileOf "A==1\na==2") >>= preparedGroups) = .ok [u "A==1", u "a==2"] ∧
      ∀ lines, ¬BindsRequirements [u "A==1", u "a==2"] lines := by
  refine ⟨by decide +kernel, by decide +kernel, fun lines h => ?_⟩
  have hsame := consistent_of_binds h (u "A==1") (by decide) (u "a==2") (by decide) (u "A", u "1") (u "a", u "2")
    (by decide) (by decide) (by decide)
  exact absurd hsame (by decide)

end McpTrust.Refresh
