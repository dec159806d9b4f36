import McpTrust.Python.JsonLoads
import McpTrust.Python.Utf8
import McpTrust.Refresh.Inputs
import McpTrust.Site.Package
import McpTrust.Refresh.LocalRows
import McpTrust.Refresh.Dockerfile
import McpTrust.Refresh.RunWords

/-! # Node in RUN instructions

`_only_approved_inline_node_smoke` reads each RUN instruction with `shlex`; what runs is
what the shell reads.
-/

namespace McpTrust.Refresh

set_option autoImplicit false

open Python
open Site (pathName)

/-! ## Words -/

/-- `instruction.split(None, 1)[0]`. -/
def firstWord (instruction : Str) : Str := (lstrip instruction).takeWhile fun c => !isWhite c

/-- `instruction.split(None, 1)[1]`; empty where the instruction is one word. -/
def behindFirst (instruction : Str) : Str := lstrip ((lstrip instruction).dropWhile fun c => !isWhite c)

def isRun (instruction : Str) : Bool := decide (upper (firstWord instruction) = u "RUN")

def runBody (instruction : Str) : Str := strip (behindFirst instruction)

def isExecForm (instruction : Str) : Bool := headIs (runBody instruction) '['

/-- The words of a list of strings. -/
def argvOf : Json → Option (List Str)
  | .arr items =>
    items.mapM fun item =>
      match item with
      | .str word => some word
      | _ => none
  | _ => none

variable (interp : Interpreter)

/-- `_run_instruction_words(instruction)`. -/
def runInstructionWords (instruction : Str) : Except PyErr (Option (List Str)) :=
  if isRun instruction = false ∨ runBody instruction = [] then .ok none
  else if isExecForm instruction = true then
    catching ((jsonLoads interp (runBody instruction)).map argvOf) (fun e => decide (e = .jsonDecodeError)) (.ok none)
  else .ok (shlexWords (runBody instruction))

/-- `Path(word).name.lower()`. -/
def lowerName (word : Str) : Str := lower (pathName word)

/-- `_run_uses_env_split_string(words)`. -/
def usesEnvSplitString (words : List Str) : Bool :=
  (words.any fun word => decide (lowerName word = u "env")) &&
    words.any fun word =>
      decide (word = u "-S") ||
        ((u "-").isPrefixOf word && !(u "--").isPrefixOf word && decide (ch 'S' ∈ word.tail)) ||
          decide (word = u "--split-string") || (u "--split-string=").isPrefixOf word

def shellNames : List String :=
  ["sh", "bash", "dash", "ash", "zsh", "ksh", "mksh", "csh", "tcsh", "fish", "busybox"]

def nodeNames : List String := ["node", "nodejs", "node.exe", "nodejs.exe"]

def isShell (word : Str) : Bool := decide (lowerName word ∈ shellNames.map u)

def isNode (word : Str) : Bool := decide (lowerName word ∈ nodeNames.map u)

/-! ## The policy -/

def approvedNodeSmokeSha256 : String := "sha256:" ++
  "fe859d7c6b4da26141d0e872870c1fd85fa0d7a98decda69864c0d01b9644206"

/-- The one instruction that may run Node, by its digest. -/
def isApprovedSmoke (instruction : Str) : Except PyErr Bool :=
  if (u "RUN NODE -E ").isPrefixOf (upper instruction) then
    (encodeUtf8 instruction).map fun content => decide (digestBytes content = u approvedNodeSmokeSha256)
  else .ok false

/-- `\{[^{}]*,[^{}]*\}` at the start of the text. -/
def isBraceList : Str → Bool
  | [] => false
  | c :: rest =>
    let inner := rest.takeWhile fun d => decide (d ∉ u "\x7b\x7d")
    decide ([c] = u "\x7b") && decide (ch ',' ∈ inner) && decide ((rest.drop inner.length).take 1 = u "\x7d")

/-- The search for what the shell expands. -/
def hasExpansion (body : Str) : Bool :=
  (body.any fun c => decide (c ∈ u "$\x60*?~[")) || body.tails.any isBraceList

def evaluationWords : List String := [".", "source", "trap", "alias", "<<", "<<-"]

/-- `_run_uses_unsupported_shell_expansion(instruction)`. -/
def usesUnsupportedShellExpansion (instruction : Str) : Except PyErr Bool :=
  if isRun instruction = false ∨ behindFirst instruction = [] then .ok true
  else if isExecForm instruction = true then .ok false
  else do
    let smoke ← isApprovedSmoke instruction
    if smoke then .ok false
    else do
      let words ← runInstructionWords interp instruction
      match words with
      | none => .ok true
      | some words =>
        .ok ((words.any fun word => decide (word ∈ evaluationWords.map u)) || hasExpansion (runBody instruction))

/-- `^SHELL(?:\s|$)`, in any case. -/
def isShellDirective (instruction : Str) : Bool :=
  decide (upper (instruction.take 5) = u "SHELL") &&
    (decide (instruction.drop 5 = []) || (instruction.drop 5).head?.any isWhite)

/-- The words of one instruction; none where there are no words. -/
def parseRun (instruction : Str) : Except PyErr (Str × List Str) :=
  (runInstructionWords interp instruction).map fun words => (instruction, words.getD [])

/-- `_only_approved_inline_node_smoke(instructions)`. -/
def onlyApprovedInlineNodeSmoke (instructions : List Str) : Except PyErr Bool :=
  if instructions.any isShellDirective then .ok false
  else do
    let runs := instructions.filter isRun
    let parsed ← runs.mapM (parseRun interp)
    if parsed.any fun p => p.2.isEmpty then .ok false
    else if parsed.any fun p => usesEnvSplitString p.2 then .ok false
    else if parsed.any fun p => p.2.any isShell then .ok false
    else if parsed.any fun p => p.2.any fun word => decide (word = u "eval") then .ok false
    else do
      let dynamic ← runs.anyM (usesUnsupportedShellExpansion interp)
      if dynamic then .ok false
      else
        match (parsed.filter fun p => p.2.any isNode).map Prod.fst with
        | [] => .ok true
        | [only] => isApprovedSmoke only
        | _ => .ok false

/-! ## What runs -/

/-- The words of a RUN instruction as it is executed: the list of the exec form, what the
shell makes of the rest otherwise. -/
def executedWords (instruction : Str) : Option (List Str) :=
  if isExecForm instruction = true then (jsonLoads interp (runBody instruction)).toOption.bind argvOf
  else shellWords (runBody instruction)

/-- Nothing parts the two tokenisers on this instruction. -/
def ReadsAsRun (instruction : Str) : Prop :=
  isExecForm instruction = false → parts ⟨.outside, []⟩ (runBody instruction) = false

/-! ## Names -/

theorem cut_cases {c : CodePoint} (h : isCut c = true) : c ∈ u "\x7b\x7d\r" := by
  have hall : charClasses.all (fun p => decide (p.2 = .brace ∨ p.2 = .carriageReturn → p.1 ∈ u "\x7b\x7d\r")) = true := by
    decide
  obtain hbrace | hreturn := (Bool.or_eq_true _ _).mp h
  · have hmem := mem_charClasses (of_decide_eq_true hbrace) nofun
    exact of_decide_eq_true (List.all_eq_true.mp hall _ hmem) (.inl rfl)
  · have hmem := mem_charClasses (of_decide_eq_true hreturn) nofun
    exact of_decide_eq_true (List.all_eq_true.mp hall _ hmem) (.inr rfl)

theorem cut_lower {c : CodePoint} (h : c ∈ u "\x7b\x7d\r") : isCut (lowerPoint c) = true ∧ c ≠ ch '/' ∧ c ≠ ch '.' := by
  have hall : (u "\x7b\x7d\r").all (fun c => isCut (lowerPoint c) && decide (c ≠ ch '/') && decide (c ≠ ch '.')) = true := by
    decide
  have hc := List.all_eq_true.mp hall c h
  simp only [Bool.and_eq_true, decide_eq_true_eq] at hc
  exact ⟨hc.1.1, hc.1.2, hc.2⟩

/-- The part of a path that a cut is in, and what follows it. -/
theorem splitOn_cut {front : Str} (h : EndsCut front) (token : Str) : ∃ before part after first,
    (front ++ token).splitOn (ch '/') = before ++ part :: after ∧ token.splitOn (ch '/') = first :: after ∧
      ∃ c ∈ part, isCut c = true := by
  obtain ⟨start, c, rfl, hc⟩ := h
  obtain ⟨-, hslash, -⟩ := cut_lower (cut_cases hc)
  obtain ⟨first, after, hsplit⟩ := List.exists_cons_of_ne_nil (List.splitOn_ne_nil (ch '/') token)
  induction start with
  | nil =>
    refine ⟨[], c :: first, after, first, ?_, hsplit, c, List.mem_cons_self, hc⟩
    rw [List.nil_append, List.singleton_append, List.splitOn_cons_eq_if_modifyHead, hsplit]
    simp [hslash]
  | cons d start ih =>
    obtain ⟨before, part, after', first', hwhole, htoken, hpart⟩ := ih
    rw [List.cons_append, List.cons_append, List.splitOn_cons_eq_if_modifyHead, hwhole]
    split
    · exact ⟨[] :: before, part, after', first', rfl, htoken, hpart⟩
    · cases before with
      | nil =>
        obtain ⟨e, he, hcut⟩ := hpart
        exact ⟨[], d :: part, after', first', rfl, htoken, e, List.mem_cons_of_mem d he, hcut⟩
      | cons head before => exact ⟨(d :: head) :: before, part, after', first', rfl, htoken, hpart⟩

/-- A cut is in the name of a path, or the name is behind it. -/
theorem pathName_cut {front : Str} (h : EndsCut front) (token : Str) :
    (∃ c ∈ pathName (front ++ token), isCut c = true) ∨ pathName (front ++ token) = pathName token := by
  obtain ⟨before, part, after, first, hwhole, htoken, c, hc, hcut⟩ := splitOn_cut h token
  obtain ⟨-, -, hdot⟩ := cut_lower (cut_cases hcut)
  have hpart : part ≠ [] ∧ part ≠ u "." := by
    refine ⟨List.ne_nil_of_mem hc, ?_⟩
    rintro rfl
    exact hdot (List.mem_singleton.mp hc)
  unfold pathName
  generalize hp : (fun part : Str => decide (part ≠ [] ∧ part ≠ u ".")) = p
  have hkeep : p part = true := by
    rw [← hp]
    exact decide_eq_true hpart
  rw [hwhole, htoken, List.filter_append, List.filter_cons_of_pos hkeep, List.filter_cons]
  generalize after.filter p = kept
  cases kept using List.reverseRecOn with
  | nil =>
    left
    simp only [List.getLast?_append, List.getLast?_singleton, Option.some_or, Option.getD_some]
    exact ⟨c, hc, hcut⟩
  | append_singleton rest last =>
    right
    have hlast (parts : List Str) : (parts ++ [last]).getLast?.getD [] = last := by simp
    rw [← List.cons_append, ← List.append_assoc, hlast]
    split
    · rw [← List.cons_append, hlast]
    · rw [hlast]

theorem name_covered {tokens : List Str} {word : Str} (h : Covered tokens word)
    (hplain : ∀ c ∈ lowerName word, isCut c = false) (hne : lowerName word ≠ []) :
    ∃ token ∈ tokens, lowerName token = lowerName word := by
  have hnone : ¬∃ c ∈ pathName word, isCut c = true := by
    rintro ⟨c, hc, hcut⟩
    have hlower := hplain (lowerPoint c) (List.mem_map_of_mem hc)
    rw [(cut_lower (cut_cases hcut)).1] at hlower
    cases hlower
  obtain hcut | ⟨token, htoken, rfl | ⟨front, hcut, rfl⟩⟩ := h
  · have hname := pathName_cut hcut []
    rw [List.append_nil] at hname
    have hempty : pathName word = pathName [] := hname.resolve_left hnone
    refine absurd ?_ hne
    rw [lowerName, hempty]
    rfl
  · exact ⟨word, htoken, rfl⟩
  · exact ⟨token, htoken, congrArg lower ((pathName_cut hcut token).resolve_left hnone).symm⟩

theorem names_plain {name : Str} (h : name ∈ (shellNames ++ nodeNames).map u) :
    name ≠ [] ∧ ∀ c ∈ name, isCut c = false := by
  have hall : ((shellNames ++ nodeNames).map u).all (fun name => !name.isEmpty && name.all fun c => !isCut c) = true := by
    decide +kernel
  have hname := List.all_eq_true.mp hall name h
  simp only [Bool.and_eq_true, Bool.not_eq_true', List.isEmpty_eq_false_iff, List.all_eq_true] at hname
  exact hname

theorem name_mem_covered {names : List String} (hnames : ∀ name ∈ names, name ∈ shellNames ++ nodeNames)
    {tokens : List Str} {word : Str} (h : Covered tokens word) (hword : lowerName word ∈ names.map u) :
    ∃ token ∈ tokens, lowerName token ∈ names.map u := by
  have hmem : lowerName word ∈ (shellNames ++ nodeNames).map u := by
    obtain ⟨name, hname, heq⟩ := List.mem_map.mp hword
    rw [← heq]
    exact List.mem_map_of_mem (hnames name hname)
  obtain ⟨hne, hplain⟩ := names_plain hmem
  obtain ⟨token, htoken, heq⟩ := name_covered h hplain hne
  exact ⟨token, htoken, heq ▸ hword⟩

/-- A word without a cut is a token. -/
theorem word_covered {tokens : List Str} {word : Str} (h : Covered tokens word)
    (hplain : ∀ c ∈ word, isCut c = false) : word ∈ tokens := by
  obtain ⟨front, c, rfl, hc⟩ | ⟨token, htoken, rfl | ⟨_, ⟨front, c, rfl, hc⟩, rfl⟩⟩ := h
  · rw [hplain c (by simp)] at hc
    cases hc
  · exact htoken
  · rw [hplain c (by simp)] at hc
    cases hc

/-! ## Soundness -/

variable {interp}

/-- The words the policy read, where it read any. -/
def readWords (interp : Interpreter) (instruction : Str) : List Str :=
  match runInstructionWords interp instruction with
  | .ok (some words) => words
  | _ => []

theorem parseRun_eq_ok {instruction : Str} {p : Str × List Str} (h : parseRun interp instruction = .ok p) :
    p = (instruction, readWords interp instruction) := by
  unfold parseRun at h
  unfold readWords
  cases hwords : runInstructionWords interp instruction with
  | error e =>
    rw [hwords] at h
    cases h
  | ok words =>
    rw [hwords] at h
    cases h
    cases words <;> rfl

/-- What an accepted list of instructions has been checked for. -/
structure Checked (interp : Interpreter) (instructions : List Str) : Prop where
  read : ∀ i ∈ instructions, isRun i = true → readWords interp i ≠ []
  shells : ∀ i ∈ instructions, isRun i = true → ∀ word ∈ readWords interp i, isShell word = false
  evals : ∀ i ∈ instructions, isRun i = true → ∀ word ∈ readWords interp i, word ≠ u "eval"
  nodes : ((instructions.filter isRun).filter fun i => (readWords interp i).any isNode) = [] ∨ ∃ only,
    ((instructions.filter isRun).filter fun i => (readWords interp i).any isNode) = [only] ∧
      isApprovedSmoke only = .ok true

theorem mapM_parseRun {runs : List Str} {parsed : List (Str × List Str)} (h : runs.mapM (parseRun interp) = .ok parsed) :
    parsed = runs.map fun i => (i, readWords interp i) := by
  have hall := mapM_eq_ok.mp h
  induction hall with
  | nil => rfl
  | cons hhead htail ih =>
    rw [List.map_cons, parseRun_eq_ok hhead, ih (mapM_eq_ok.mpr htail)]

theorem checked_of_accepted {instructions : List Str}
    (h : onlyApprovedInlineNodeSmoke interp instructions = .ok true) : Checked interp instructions := by
  unfold onlyApprovedInlineNodeSmoke at h
  split_ifs at h
  · cases h
  obtain ⟨parsed, hparsed, h⟩ := bind_eq_ok.mp h
  obtain rfl := mapM_parseRun hparsed
  split_ifs at h with hempty henv hshell heval
  any_goals cases h
  obtain ⟨dynamic, -, h⟩ := bind_eq_ok.mp h
  split_ifs at h
  · cases h
  have hmem {i : Str} (hi : i ∈ instructions) (hrun : isRun i = true) :
      (i, readWords interp i) ∈ (instructions.filter isRun).map fun i => (i, readWords interp i) :=
    List.mem_map_of_mem (List.mem_filter.mpr ⟨hi, hrun⟩)
  simp only [List.any_eq_true, not_exists, not_and, Bool.not_eq_true, decide_eq_false_iff_not] at hempty hshell heval
  have hnodes : (((instructions.filter isRun).map fun i => (i, readWords interp i)).filter
      fun p => p.2.any isNode).map Prod.fst =
        (instructions.filter isRun).filter fun i => (readWords interp i).any isNode := by
    rw [List.filter_map, List.map_map]
    exact List.map_id _
  rw [hnodes] at h
  refine ⟨fun i hi hrun hnil => ?_, fun i hi hrun word hword => hshell _ (hmem hi hrun) word hword,
    fun i hi hrun word hword => heval _ (hmem hi hrun) word hword, ?_⟩
  · have := hempty _ (hmem hi hrun)
    rw [hnil] at this
    cases this
  · split at h
    next hnone => exact .inl hnone
    next only honly => exact .inr ⟨only, honly, h⟩
    next => cases h

/-- The policy has read every word that runs. -/
theorem executed_covered {instruction : Str} (hreads : ReadsAsRun instruction)
    (hread : readWords interp instruction ≠ []) {words : List Str}
    (hwords : executedWords interp instruction = some words) :
    ∀ word ∈ words, Covered (readWords interp instruction) word := by
  intro word hword
  unfold readWords runInstructionWords at hread ⊢
  split_ifs at hread ⊢ with hbody hexec
  · exact absurd rfl hread
  · rw [executedWords, if_pos hexec] at hwords
    cases hload : jsonLoads interp (runBody instruction) with
    | error e =>
      rw [hload] at hwords
      cases hwords
    | ok v =>
      rw [hload] at hwords
      change argvOf v = some words at hwords
      simp only [Except.map, catching_ok, hwords]
      exact .inr ⟨word, hword, .inl rfl⟩
  · rw [executedWords, if_neg hexec] at hwords
    cases htokens : shlexWords (runBody instruction) with
    | none =>
      rw [htokens] at hread
      exact absurd rfl hread
    | some tokens => exact shellWords_covered (hreads (Bool.eq_false_of_not_eq_true hexec)) hwords htokens word hword

theorem eval_plain : ∀ {c : CodePoint}, c ∈ u "eval" → isCut c = false := by
  intro c hc
  have hall : (u "eval").all (fun c => !isCut c) = true := by decide
  exact Bool.not_eq_true' _ ▸ List.all_eq_true.mp hall c hc

/-- An accepted list of instructions runs no shell, no `eval` and no Node but the one approved
smoke, where nothing in its RUN instructions parts `shlex` from the shell. -/
theorem run_words_sound (interp : Interpreter) (instructions : List Str)
    (hreads : ∀ i ∈ instructions, isRun i = true → ReadsAsRun i)
    (h : onlyApprovedInlineNodeSmoke interp instructions = .ok true) :
    (∀ i ∈ instructions, isRun i = true → ∀ words, executedWords interp i = some words → ∀ word ∈ words,
      isShell word = false ∧ word ≠ u "eval" ∧ (isNode word = true → isApprovedSmoke i = .ok true)) ∧
    (instructions.filter fun i => isRun i && ((executedWords interp i).getD []).any isNode).length ≤ 1 := by
  have hchecked := checked_of_accepted h
  have hshells : ∀ name ∈ shellNames, name ∈ shellNames ++ nodeNames := fun _ => List.mem_append_left nodeNames
  have hnodes : ∀ name ∈ nodeNames, name ∈ shellNames ++ nodeNames := fun _ => List.mem_append_right shellNames
  -- a Node word that runs was read
  have hnode {i : Str} (hi : i ∈ instructions) (hrun : isRun i = true) {words : List Str}
      (hwords : executedWords interp i = some words) {word : Str} (hword : word ∈ words)
      (hisnode : isNode word = true) : (readWords interp i).any isNode = true := by
    have hcovered := executed_covered (hreads i hi hrun) (hchecked.read i hi hrun) hwords word hword
    obtain ⟨token, htoken, hname⟩ := name_mem_covered hnodes hcovered (of_decide_eq_true hisnode)
    exact List.any_eq_true.mpr ⟨token, htoken, decide_eq_true hname⟩
  constructor
  · intro i hi hrun words hwords word hword
    have hcovered := executed_covered (hreads i hi hrun) (hchecked.read i hi hrun) hwords word hword
    refine ⟨?_, ?_, fun hisnode => ?_⟩
    · refine Bool.eq_false_of_not_eq_true fun hshell => ?_
      obtain ⟨token, htoken, hname⟩ := name_mem_covered hshells hcovered (of_decide_eq_true hshell)
      have hrefused := hchecked.shells i hi hrun token htoken
      rw [isShell, decide_eq_true hname] at hrefused
      cases hrefused
    · rintro rfl
      exact hchecked.evals i hi hrun _ (word_covered hcovered fun c => eval_plain) rfl
    · have hmem : i ∈ (instructions.filter isRun).filter fun i => (readWords interp i).any isNode :=
        List.mem_filter.mpr ⟨List.mem_filter.mpr ⟨hi, hrun⟩, hnode hi hrun hwords hword hisnode⟩
      obtain hnone | ⟨only, honly, happroved⟩ := hchecked.nodes
      · rw [hnone] at hmem
        cases hmem
      · rw [honly] at hmem
        rwa [List.mem_singleton.mp hmem]
  · have hle : ((instructions.filter isRun).filter fun i => (readWords interp i).any isNode).length ≤ 1 := by
      obtain hnone | ⟨only, honly, -⟩ := hchecked.nodes
      · rw [hnone]
        exact Nat.zero_le 1
      · rw [honly]
        exact le_rfl
    refine le_trans ?_ hle
    rw [List.filter_filter, ← List.countP_eq_length_filter, ← List.countP_eq_length_filter]
    refine List.countP_mono_left fun i hi hruns => ?_
    obtain ⟨hrun, hany⟩ := Bool.and_eq_true_iff.mp hruns
    cases hwords : executedWords interp i with
    | none =>
      rw [hwords] at hany
      cases hany
    | some words =>
      rw [hwords] at hany
      obtain ⟨word, hword, hisnode⟩ := List.any_eq_true.mp hany
      exact Bool.and_eq_true_iff.mpr ⟨hnode hi hrun hwords hword hisnode, hrun⟩

/-- `RUN npm ci --ignore-scripts`, next to a base image. -/
def plainInstructions : List Str := [u "FROM base", u "RUN npm ci --ignore-scripts"]

theorem run_words_sound_plain :
    executedWords referenceInterpreter (u "RUN npm ci --ignore-scripts") =
      some [u "npm", u "ci", u "--ignore-scripts"] ∧ isShell (u "npm") = false ∧ u "npm" ≠ u "eval" := by
  have hwords : executedWords referenceInterpreter (u "RUN npm ci --ignore-scripts") =
      some [u "npm", u "ci", u "--ignore-scripts"] := by decide +kernel
  have hreads : ∀ i ∈ plainInstructions, isRun i = true → ReadsAsRun i := by
    intro i hi _ _
    have hall : plainInstructions.all (fun i => !parts ⟨.outside, []⟩ (runBody i)) = true := by decide +kernel
    simpa using List.all_eq_true.mp hall i hi
  obtain ⟨hall, -⟩ := run_words_sound referenceInterpreter plainInstructions hreads (by decide +kernel)
  have hmem : u "RUN npm ci --ignore-scripts" ∈ plainInstructions := List.mem_cons_of_mem _ List.mem_cons_self
  obtain ⟨hshell, heval, -⟩ := hall _ hmem (by decide +kernel) _ hwords (u "npm") List.mem_cons_self
  exact ⟨hwords, hshell, heval⟩

/-- Behind a `#` inside a word the policy reads nothing, and Node runs. -/
theorem hash_hides_node : onlyApprovedInlineNodeSmoke referenceInterpreter [u "RUN echo a#b; node -e evil"] = .ok true ∧
    executedWords referenceInterpreter (u "RUN echo a#b; node -e evil") =
      some [u "echo", u "a#b", u "node", u "-e", u "evil"] ∧
    isNode (u "node") = true ∧ isApprovedSmoke (u "RUN echo a#b; node -e evil") = .ok false := by
  refine ⟨by decide +kernel, by decide +kernel, by decide +kernel, by decide +kernel⟩

end McpTrust.Refresh
