import Mathlib.Data.List.Sort
import Mathlib.Data.List.Dedup
import Mathlib.Tactic
import McpTrust.Python.Errors

/-! # Strings, bytes and UTF-8

A string is a list of code points and may hold lone surrogates, as `json.loads`
can produce them. `u` embeds a literal; it is injective, so `simp` decides
equality of two literals.
-/

namespace Python

set_option autoImplicit false

abbrev CodePoint := Fin 0x110000

abbrev Str := List CodePoint

instance : LawfulBEq CodePoint := inferInstance

instance : LawfulBEq Str := inferInstance

abbrev Bytes := List UInt8

def ch (c : Char) : CodePoint :=
  ⟨c.toNat, by
    have h := c.valid
    simp only [UInt32.isValidChar, Nat.isValidChar] at h
    change c.val.toNat < 0x110000
    omega⟩


@[simp] theorem ch_inj {a b : Char} : ch a = ch b ↔ a = b := by
  constructor
  · intro h
    have hNat : a.val.toNat = b.val.toNat := congrArg (fun c : CodePoint => c.val) h
    exact Char.ext (UInt32.toNat.inj hNat)
  · rintro rfl
    rfl

theorem ch_injective : Function.Injective ch := fun _ _ h => ch_inj.mp h

def isAsciiByte (b : UInt8) : Bool := decide (b.toNat < 128)

def asciiPoint (b : UInt8) : CodePoint := ⟨b.toNat, by have h := b.toNat_lt; omega⟩

/-- The code points of a literal; an ASCII literal is read off its bytes, which evaluates faster. -/
def u (s : String) : Str :=
  let bytes := s.toByteArray.data.toList
  if bytes.all isAsciiByte then bytes.map asciiPoint else s.toList.map ch

theorem map_asciiPoint_utf8EncodeChar {c : Char}
    (h : ∀ b ∈ String.utf8EncodeChar c, isAsciiByte b = true) :
    (String.utf8EncodeChar c).map asciiPoint = [ch c] := by
  have hvalid := c.valid
  simp only [UInt32.isValidChar, Nat.isValidChar] at hvalid
  have hlt : c.val.toNat < 0x110000 := by omega
  unfold String.utf8EncodeChar at h ⊢
  simp only [isAsciiByte, decide_eq_true_eq] at h ⊢
  split at h
  · next hle =>
    rw [if_pos hle]
    simp only [List.map_cons, List.map_nil, asciiPoint, ch, List.cons.injEq, and_true, Fin.mk.injEq]
    rw [UInt8.toNat_ofNat']
    exact Nat.mod_eq_of_lt (by omega)
  · exfalso
    -- the lead byte of a longer sequence is at least 0xC0
    split at h
    · have hfirst := h _ List.mem_cons_self
      rw [UInt8.toNat_ofNat'] at hfirst
      omega
    · split at h
      · have hfirst := h _ List.mem_cons_self
        rw [UInt8.toNat_ofNat'] at hfirst
        omega
      · have hfirst := h _ List.mem_cons_self
        rw [UInt8.toNat_ofNat'] at hfirst
        omega

theorem u_eq_map (s : String) : u s = s.toList.map ch := by
  simp only [u]
  split
  · next h =>
    obtain ⟨l, rfl⟩ : ∃ l, s = String.ofList l := ⟨s.toList, String.ofList_toList.symm⟩
    simp only [String.toByteArray_ofList, List.utf8Encode, List.data_toByteArray,
      String.toList_ofList, List.all_eq_true, List.mem_flatMap] at h ⊢
    induction l with
    | nil => rfl
    | cons c cs ih =>
      rw [List.flatMap_cons, List.map_append,
        map_asciiPoint_utf8EncodeChar fun b hb => h b ⟨c, List.mem_cons_self, hb⟩, List.map_cons,
        ih fun b ⟨d, hd, hb⟩ => h b ⟨d, List.mem_cons_of_mem _ hd, hb⟩]
      rfl
  · rfl

@[simp] theorem u_inj {a b : String} : u a = u b ↔ a = b := by
  constructor
  · intro h
    rw [u_eq_map, u_eq_map] at h
    exact String.toList_inj.mp (List.map_injective_iff.mpr ch_injective h)
  · rintro rfl
    rfl

/-! ## Code point classes -/

def isHighSurrogate (c : CodePoint) : Bool := decide (0xD800 ≤ c.val) && decide (c.val ≤ 0xDBFF)

def isLowSurrogate (c : CodePoint) : Bool := decide (0xDC00 ≤ c.val) && decide (c.val ≤ 0xDFFF)

def isSurrogate (c : CodePoint) : Bool := decide (0xD800 ≤ c.val) && decide (c.val ≤ 0xDFFF)

def isDigit (c : CodePoint) : Bool := decide (48 ≤ c.val) && decide (c.val ≤ 57)

def isLowerAlpha (c : CodePoint) : Bool := decide (97 ≤ c.val) && decide (c.val ≤ 122)

def isUpperAlpha (c : CodePoint) : Bool := decide (65 ≤ c.val) && decide (c.val ≤ 90)

/-- `[0-9a-f]`. -/
def isHexLower (c : CodePoint) : Bool := isDigit c || (decide (97 ≤ c.val) && decide (c.val ≤ 102))

/-- `[A-Za-z0-9]`. -/
def isAlnum (c : CodePoint) : Bool := isDigit c || isLowerAlpha c || isUpperAlpha c

def digitValue (c : CodePoint) : Nat := c.val - 48

/-! ## Order -/

/-- `a <= b` on strings compares code points from the left. -/
def strLe : Str → Str → Bool
  | [], _ => true
  | _ :: _, [] => false
  | a :: as, b :: bs => decide (a.val < b.val) || (decide (a.val = b.val) && strLe as bs)

theorem strLe_refl (s : Str) : strLe s s = true := by
  induction s with
  | nil => rfl
  | cons a as ih => simp [strLe, ih]

theorem strLe_total (s t : Str) : strLe s t = true ∨ strLe t s = true := by
  induction s generalizing t with
  | nil => exact .inl rfl
  | cons a as ih =>
    cases t with
    | nil => exact .inr rfl
    | cons b bs =>
      simp only [strLe, Bool.or_eq_true, Bool.and_eq_true, decide_eq_true_eq]
      rcases Nat.lt_trichotomy a.val b.val with h | h | h
      · exact .inl (.inl h)
      · rcases ih bs with h' | h'
        · exact .inl (.inr ⟨h, h'⟩)
        · exact .inr (.inr ⟨h.symm, h'⟩)
      · exact .inr (.inl h)

theorem strLe_antisymm {s t : Str} (hst : strLe s t = true) (hts : strLe t s = true) : s = t := by
  induction s generalizing t with
  | nil => cases t with
    | nil => rfl
    | cons => cases hts
  | cons a as ih =>
    cases t with
    | nil => cases hst
    | cons b bs =>
      simp only [strLe, Bool.or_eq_true, Bool.and_eq_true, decide_eq_true_eq] at hst hts
      obtain h | ⟨hab, hst⟩ := hst
      · omega
      · obtain h | ⟨_, hts⟩ := hts
        · omega
        · rw [Fin.ext hab, ih hst hts]

theorem strLe_trans {s t r : Str} (hst : strLe s t = true) (htr : strLe t r = true) :
    strLe s r = true := by
  induction s generalizing t r with
  | nil => rfl
  | cons a as ih =>
    cases t with
    | nil => cases hst
    | cons b bs =>
      cases r with
      | nil => cases htr
      | cons c cs =>
        simp only [strLe, Bool.or_eq_true, Bool.and_eq_true, decide_eq_true_eq] at hst htr ⊢
        rcases hst with h | ⟨h, hst⟩ <;> rcases htr with h' | ⟨h', htr⟩
        · exact .inl (by omega)
        · exact .inl (by omega)
        · exact .inl (by omega)
        · exact .inr ⟨by omega, ih hst htr⟩

def StrLe (s t : Str) : Prop := strLe s t = true

instance : DecidableRel StrLe := fun s t => inferInstanceAs (Decidable (strLe s t = true))

instance : Std.Total StrLe := ⟨strLe_total⟩

instance : IsTrans Str StrLe := ⟨fun _ _ _ => strLe_trans⟩

instance : Std.Antisymm StrLe := ⟨fun _ _ => strLe_antisymm⟩

/-- `sorted(values)`. -/
def sortedStr (values : List Str) : List Str := values.insertionSort StrLe

/-- `sorted(set(values))`. -/
def sortedSet (values : List Str) : List Str := sortedStr values.dedup

/-- `sorted(set(names))` of literals. -/
def sortedNames (names : List String) : List String :=
  names.dedup.insertionSort fun a b => StrLe (u a) (u b)

theorem mem_sortedNames {name : String} {names : List String} :
    name ∈ sortedNames names ↔ name ∈ names := by
  rw [sortedNames, List.mem_insertionSort, List.mem_dedup]

theorem sortedNames_pairwise (names : List String) : ((sortedNames names).map u).Pairwise StrLe := by
  have htotal : Std.Total fun a b : String => StrLe (u a) (u b) := ⟨fun a b => strLe_total (u a) (u b)⟩
  have htrans : IsTrans String fun a b => StrLe (u a) (u b) := ⟨fun _ _ _ => strLe_trans⟩
  exact List.pairwise_map.mpr (List.pairwise_insertionSort (fun a b => StrLe (u a) (u b)) names.dedup)

theorem sortedNames_eq_nil {names : List String} : sortedNames names = [] ↔ names = [] := by
  constructor
  · intro h
    cases names with
    | nil => rfl
    | cons a as =>
      have hmem : a ∈ sortedNames (a :: as) := mem_sortedNames.mpr List.mem_cons_self
      rw [h] at hmem
      cases hmem
  · rintro rfl
    rfl

@[simp] theorem mem_sortedStr {s : Str} {values : List Str} : s ∈ sortedStr values ↔ s ∈ values :=
  List.mem_insertionSort StrLe

@[simp] theorem mem_sortedSet {s : Str} {values : List Str} : s ∈ sortedSet values ↔ s ∈ values := by
  rw [sortedSet, mem_sortedStr, List.mem_dedup]

theorem sortedStr_pairwise (values : List Str) : (sortedStr values).Pairwise StrLe :=
  List.pairwise_insertionSort StrLe values

theorem sortedSet_pairwise (values : List Str) : (sortedSet values).Pairwise StrLe :=
  sortedStr_pairwise _

theorem sortedStr_perm (values : List Str) : (sortedStr values).Perm values :=
  List.perm_insertionSort StrLe values

theorem sortedSet_nodup (values : List Str) : (sortedSet values).Nodup :=
  (sortedStr_perm _).nodup_iff.mpr (List.nodup_dedup values)

theorem sortedSet_eq_nil {values : List Str} : sortedSet values = [] ↔ values = [] := by
  constructor
  · intro h
    cases values with
    | nil => rfl
    | cons a as =>
      have hmem : a ∈ sortedSet (a :: as) := mem_sortedSet.mpr List.mem_cons_self
      rw [h] at hmem
      cases hmem
  · rintro rfl
    rfl

end Python
