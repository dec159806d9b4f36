import McpTrust.Python.JsonEncode
import McpTrust.Python.Utf8

/-! # A member of nested objects

`Path.fill` puts a value at one place of a document. Sorting and writing the
document commute with it, so the length of the text is linear in a string there.
-/

namespace Python

set_option autoImplicit false

/-- An object with one member left out. -/
structure Frame where
  before : Dict
  key : Str
  after : Dict

def Frame.fields (f : Frame) (v : Json) : Dict := f.before ++ (f.key, v) :: f.after

abbrev Path := List Frame

def Path.fill : Path → Json → Json
  | [], v => v
  | f :: rest, v => .obj (f.fields (fill rest v))

theorem orderedInsert_frame (kv : Str × Json) (f : Frame) :
    ∃ g : Frame, ∀ v, (f.fields v).orderedInsert KeyLe kv = g.fields v := by
  obtain ⟨before, key, after⟩ := f
  induction before with
  | nil =>
    by_cases h : strLe kv.1 key = true
    · refine ⟨⟨[kv], key, after⟩, fun v => ?_⟩
      exact if_pos h
    · refine ⟨⟨[], key, after.orderedInsert KeyLe kv⟩, fun v => ?_⟩
      exact if_neg h
  | cons kw before ih =>
    obtain ⟨g, hg⟩ := ih
    by_cases h : KeyLe kv kw
    · refine ⟨⟨kv :: kw :: before, key, after⟩, fun v => ?_⟩
      exact if_pos h
    · refine ⟨⟨kw :: g.before, g.key, g.after⟩, fun v => ?_⟩
      have hstep := hg v
      simp only [Frame.fields] at hstep ⊢
      rw [List.cons_append, List.orderedInsert_cons, if_neg h, hstep]
      rfl

theorem orderedInsert_hole (key : Str) (d : Dict) :
    ∃ g : Frame, ∀ v, d.orderedInsert KeyLe (key, v) = g.fields v := by
  induction d with
  | nil => exact ⟨⟨[], key, []⟩, fun v => rfl⟩
  | cons kw d ih =>
    by_cases h : strLe key kw.1 = true
    · refine ⟨⟨[], key, kw :: d⟩, fun v => ?_⟩
      exact if_pos h
    · obtain ⟨g, hg⟩ := ih
      refine ⟨⟨kw :: g.before, g.key, g.after⟩, fun v => ?_⟩
      have hnot : ¬KeyLe (key, v) kw := h
      rw [List.orderedInsert_cons, if_neg hnot, hg v]
      rfl

theorem insertionSort_frame (f : Frame) :
    ∃ g : Frame, ∀ v, (f.fields v).insertionSort KeyLe = g.fields v := by
  obtain ⟨before, key, after⟩ := f
  induction before with
  | nil => exact orderedInsert_hole key (after.insertionSort KeyLe)
  | cons kw before ih =>
    obtain ⟨g, hg⟩ := ih
    obtain ⟨g', hg'⟩ := orderedInsert_frame kw g
    refine ⟨g', fun v => ?_⟩
    rw [← hg', ← hg]
    rfl

namespace Path

theorem sortKeys_fill (p : Path) : ∃ q : Path, ∀ v, (p.fill v).sortKeys = q.fill v.sortKeys := by
  induction p with
  | nil => exact ⟨[], fun v => rfl⟩
  | cons f rest ih =>
    obtain ⟨q, hq⟩ := ih
    obtain ⟨g, hg⟩ := insertionSort_frame
      ⟨Json.sortFields f.before, f.key, Json.sortFields f.after⟩
    refine ⟨g :: q, fun v => ?_⟩
    have hfields : Json.sortFields (f.fields (fill rest v)) =
        Frame.fields ⟨Json.sortFields f.before, f.key, Json.sortFields f.after⟩ (q.fill v.sortKeys) := by
      simp only [Frame.fields, Json.sortFields_eq, List.map_append, List.map_cons, hq]
    rw [fill, Json.sortKeys, hfields, hg]
    rfl

theorem render_frame (st : Style) (level : Nat) (f : Frame) :
    ∃ pre post, ∀ v, render st level (.obj (f.fields v)) = pre ++ (render st (level + 1) v ++ post) := by
  obtain ⟨before, key, after⟩ := f
  have hfields : ∀ (before : Dict), ∃ pre post, ∀ v,
      renderFields st (level + 1) (before ++ (key, v) :: after) =
        pre ++ (render st (level + 1) v ++ post) := by
    intro before
    induction before with
    | nil =>
      refine ⟨st.itemSep (level + 1) ++ (quote st key ++ st.keySep),
        renderFields st (level + 1) after, fun v => ?_⟩
      simp only [List.nil_append, renderFields, List.append_assoc]
    | cons kw before ih =>
      obtain ⟨pre, post, h⟩ := ih
      refine ⟨st.itemSep (level + 1) ++ (quote st kw.1 ++ (st.keySep ++
        (render st (level + 1) kw.2 ++ pre))), post, fun v => ?_⟩
      simp only [List.cons_append, renderFields, h, List.append_assoc]
  cases before with
  | nil =>
    refine ⟨ch '\x7b' :: (st.newline (level + 1) ++ (quote st key ++ st.keySep)),
      renderFields st (level + 1) after ++ (st.newline level ++ [ch '\x7d']), fun v => ?_⟩
    simp only [Frame.fields, List.nil_append, render, List.append_assoc, List.cons_append]
  | cons kw before =>
    obtain ⟨pre, post, h⟩ := hfields before
    refine ⟨ch '\x7b' :: (st.newline (level + 1) ++ (quote st kw.1 ++ (st.keySep ++
      (render st (level + 1) kw.2 ++ pre)))), post ++ (st.newline level ++ [ch '\x7d']), fun v => ?_⟩
    simp only [Frame.fields, List.cons_append, render, h, List.append_assoc]

theorem render_fill (st : Style) (p : Path) (level : Nat) : ∃ pre post, ∀ s,
    render st level (p.fill (.str s)) = pre ++ (quote st s ++ post) := by
  induction p generalizing level with
  | nil => exact ⟨[], [], fun s => by rw [fill, render, List.append_nil, List.nil_append]⟩
  | cons f rest ih =>
    obtain ⟨pre, post, h⟩ := ih (level + 1)
    obtain ⟨pre', post', h'⟩ := render_frame st level f
    refine ⟨pre' ++ pre, post ++ post', fun s => ?_⟩
    rw [fill, h', h]
    simp only [List.append_assoc]

theorem dumps_fill (st : Style) (p : Path) : ∃ pre post, ∀ s,
    dumps st (p.fill (.str s)) = pre ++ (quote st s ++ post) := by
  obtain ⟨q, hq⟩ := p.sortKeys_fill
  cases hsort : st.sortKeys with
  | false =>
    obtain ⟨pre, post, h⟩ := render_fill st p 0
    refine ⟨pre, post, fun s => ?_⟩
    rw [dumps, Style.arrange, hsort]
    exact h s
  | true =>
    obtain ⟨pre, post, h⟩ := render_fill st q 0
    refine ⟨pre, post, fun s => ?_⟩
    rw [dumps, Style.arrange, hsort, if_pos rfl, hq]
    exact h s

end Path

/-- The bytes of a text of a value. -/
def textBytes (st : Style) (v : Json) : Bytes := (dumps st v).flatMap encodeCodePoint

/-- A string of characters written as they are adds its own bytes to the text. -/
theorem length_textBytes_fill (st : Style) (p : Path) {s : Str}
    (hs : ∀ c ∈ s, escapeChar st c = [c]) :
    (textBytes st (p.fill (.str s))).length =
      (textBytes st (p.fill (.str []))).length + (s.flatMap encodeCodePoint).length := by
  have hflat : s.flatMap (escapeChar st) = s := by
    induction s with
    | nil => rfl
    | cons c s ih =>
      rw [List.flatMap_cons, hs c List.mem_cons_self,
        ih fun d hd => hs d (List.mem_cons_of_mem _ hd)]
      rfl
  obtain ⟨pre, post, h⟩ := p.dumps_fill st
  simp only [textBytes, h, quote, hflat, List.flatMap_append, List.flatMap_cons, List.flatMap_nil,
    List.length_append, List.length_nil]
  omega

end Python
