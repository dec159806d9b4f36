import McpTrust.Qualification.SetGraph

/-! # Names and records

A name stands for at most one record; reading a directory gives each of its
records once.
-/

namespace McpTrust.Qualification

set_option autoImplicit false

open Python Refresh

/-! ## Names -/

theorem recordPrefix_nodup :
    (kinds.flatMap fun kind => cohorts.map fun cohort => recordPrefix kind cohort).Nodup := by
  decide +kernel

theorem recordPrefix_injective {k k' : Kind} {c c' : Cohort} (h : recordPrefix k c = recordPrefix k' c') :
    k = k' ∧ c = c' := by
  have hpairs : (kinds.flatMap fun kind => cohorts.map fun cohort => recordPrefix kind cohort) =
      (kinds.product cohorts).map fun p => recordPrefix p.1 p.2 := by decide +kernel
  have hnodup := recordPrefix_nodup
  rw [hpairs] at hnodup
  have hmem : ∀ (k : Kind) (c : Cohort), (k, c) ∈ kinds.product cohorts := by
    intro k c
    apply List.mem_product.mpr
    exact ⟨by cases k <;> decide, mem_cohorts c⟩
  exact Prod.mk.inj (List.inj_on_of_nodup_map hnodup (hmem k c) (hmem k' c') h)

theorem isSha256_length {id : Str} (h : isSha256 id = true) : id.length = 64 :=
  of_decide_eq_true (Bool.and_eq_true_iff.mp h).1

theorem artifactSuffix_eq_some {kind : Kind} {cohort : Cohort} {name id : Str} :
    artifactSuffix kind cohort name = some id ↔ name = recordName kind cohort id ∧ isSha256 id = true := by
  unfold artifactSuffix
  constructor
  · intro h
    obtain ⟨hid, hsome⟩ := Option.ite_none_right_eq_some.mp h
    cases hsome
    obtain ⟨hsha, hname⟩ := Bool.and_eq_true_iff.mp hid
    exact ⟨of_decide_eq_true hname, hsha⟩
  · rintro ⟨rfl, hsha⟩
    have hdrop : ((recordName kind cohort id).drop (recordPrefix kind cohort).length).take 64 = id := by
      rw [recordName, List.drop_left, ← isSha256_length hsha, List.take_left]
    simp only [hdrop, hsha, decide_true, Bool.and_self, if_true]

theorem labelOf_eq_some {name : Str} {label : Label} :
    labelOf name = some label ↔ name = labelName label ∧ isSha256 label.id = true := by
  have hsome : ∀ {label : Label}, labelOf name = some label →
      name = labelName label ∧ isSha256 label.id = true := by
    intro label h
    obtain ⟨kind, -, h⟩ := List.exists_of_findSome?_eq_some h
    obtain ⟨cohort, -, h⟩ := List.exists_of_findSome?_eq_some h
    obtain ⟨id, hid, rfl⟩ := Option.map_eq_some_iff.mp h
    exact artifactSuffix_eq_some.mp hid
  constructor
  · exact hsome
  · rintro ⟨hname, hsha⟩
    have hfound : (labelOf name).isSome = true := by
      apply List.findSome?_isSome_iff.mpr
      refine ⟨label.kind, by cases label.kind <;> decide, List.findSome?_isSome_iff.mpr ?_⟩
      refine ⟨label.cohort, mem_cohorts _, ?_⟩
      rw [artifactSuffix_eq_some.mpr ⟨hname, hsha⟩]
      rfl
    obtain ⟨other, hother⟩ := Option.isSome_iff_exists.mp hfound
    obtain ⟨hsame, hshaOther⟩ := hsome hother
    have hends : recordPrefix label.kind label.cohort ++ (label.id ++ u ".json") =
        recordPrefix other.kind other.cohort ++ (other.id ++ u ".json") := hname.symm.trans hsame
    have hlength : (label.id ++ u ".json").length = (other.id ++ u ".json").length := by
      rw [List.length_append, List.length_append, isSha256_length hsha, isSha256_length hshaOther]
    obtain ⟨hfront, hids⟩ := List.append_inj' hends hlength
    obtain ⟨hkind, hcohort⟩ := recordPrefix_injective hfront
    have hid := List.append_cancel_right hids
    rw [hother]
    cases label
    cases other
    cases hkind
    cases hcohort
    cases hid
    rfl

theorem labelName_injective {a b : Label} (ha : isSha256 a.id = true) (hb : isSha256 b.id = true)
    (h : labelName a = labelName b) : a = b := by
  have hlabel := labelOf_eq_some.mpr ⟨rfl, ha⟩
  rw [h, labelOf_eq_some.mpr ⟨rfl, hb⟩] at hlabel
  exact (Option.some.inj hlabel).symm

theorem labelName_head (label : Label) : (labelName label).head? = (u label.kind.text).head? := by
  unfold labelName recordName recordPrefix
  cases label.kind <;> rfl

/-- A record does not have one of the plain names. -/
theorem labelName_not_plain (label : Label) : isPlainName (labelName label) = false := by
  apply Bool.eq_false_iff.mpr
  intro hplain
  have hhead := labelName_head label
  have hkind : (u label.kind.text).head? ∈ [some (ch 'c'), some (ch 'a'), some (ch 'o')] := by
    cases label.kind <;> decide
  obtain hset | hreceipt := Bool.or_eq_true_iff.mp hplain
  · rw [of_decide_eq_true hset] at hhead
    rw [← hhead] at hkind
    exact absurd hkind (by decide)
  · obtain ⟨cohort, -, hname⟩ := List.any_eq_true.mp hreceipt
    rw [of_decide_eq_true hname] at hhead
    rw [← hhead] at hkind
    cases cohort <;> exact absurd hkind (by decide)

theorem isCapacityName_label (label : Label) :
    isCapacityName (labelName label) = true ↔ label.kind = .capacity := by
  obtain ⟨kind, cohort, id⟩ := label
  unfold isCapacityName
  rw [decide_eq_true_eq]
  constructor
  · intro h
    have htwo : (u kind.text).take 2 = u "ca" := by
      have htake := congrArg (List.take 2) h
      rw [List.take_take] at htake
      cases kind <;> exact htake
    cases kind
    case capacity => rfl
    all_goals exact absurd htwo (by decide)
  · rintro ⟨⟩
    rfl

end McpTrust.Qualification
