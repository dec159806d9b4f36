import McpTrust.Python.DictUpdate
import McpTrust.Portability.Inspect
import McpTrust.Corpus.Eligibility

/-! # The prompts of a VS Code document

`render` of the VS Code adapter threads one table of inputs through all servers. The
table is keyed by the input id, and a later prompt with the same id replaces the entry.
-/

namespace McpTrust.Portability

set_option autoImplicit false

open Python

/-! ## Rendering -/

/-- `source.key.lower().replace("_", "-")`; a key is ASCII. -/
def inputId (key : Str) : Str := (Python.lower key).map fun c => if c = ch '_' then ch '-' else c

def declaration (source : ValueSource) : Json :=
  .obj
    [(u "type", .str (u "promptString")), (u "id", .str (inputId source.key)),
      (u "description", .str (u "Value for " ++ source.key)), (u "password", .bool source.secret)]

/-- What the document says where the value belongs. -/
def reference (source : ValueSource) : Str :=
  match source.kind with
  | .environment => u "$\x7benv:" ++ source.key ++ u "\x7d"
  | _ => u "$\x7binput:" ++ inputId source.key ++ u "\x7d"

/-- The table of inputs behind one more source. -/
def declare (inputs : Dict) (source : ValueSource) : Dict :=
  match source.kind with
  | .environment => inputs
  | _ => Dict.set inputs (inputId source.key) (declaration source)

/-- `_render_value_source` in the VS Code style. -/
def renderValueSource (inputs : Dict) (source : ValueSource) : Str × Dict := (reference source, declare inputs source)

/-- The loop over named sources. -/
def renderNamed (state : Dict × Dict) (item : Str × ValueSource) : Dict × Dict :=
  let (text, inputs) := renderValueSource state.2 item.2
  (Dict.set state.1 item.1 (.str text), inputs)

-- `str.lower` of a header name, for the order of the headers
variable (lower : Str → Str)

def namedEnvironment (server : ServerIntent) : List (Str × ValueSource) :=
  (server.environment.insertionSort fun a b => strLe a.name b.name = true).map fun b => (b.name, b.valueFrom)

def namedHeaders (headers : List HeaderBinding) : List (Str × ValueSource) :=
  (headers.insertionSort fun a b => strLe (lower a.name) (lower b.name) = true).map fun b => (b.name, b.valueFrom)

/-- One turn of the loop over the servers, for an enabled server. -/
def renderServer (inputs : Dict) (server : ServerIntent) : Dict × Dict :=
  match server.transport with
  | .stdio command args cwd =>
    let (env, inputs) := (namedEnvironment server).foldl renderNamed ([], inputs)
    ([(u "type", .str (u "stdio")), (u "command", .str command), (u "args", .arr (args.map Json.str))] ++
      (match cwd with
        | some cwd => [(u "cwd", .str cwd)]
        | none => []) ++ (if server.environment = [] then [] else [(u "env", .obj env)]), inputs)
  | .http url headers =>
    let (rendered, inputs) := (namedHeaders lower headers).foldl renderNamed ([], inputs)
    let (rendered, inputs) := match server.auth.kind, server.auth.token with
      | .bearer, some token =>
        let (text, inputs) := renderValueSource inputs token
        (Dict.set rendered (u "Authorization") (.str (u "Bearer " ++ text)), inputs)
      | _, _ => (rendered, inputs)
    ([(u "type", .str (u "http")), (u "url", .str url)] ++
      (if rendered = [] then [] else [(u "headers", .obj rendered)]), inputs)

def renderEntry (state : Dict × Dict) (item : Str × ServerIntent) : Dict × Dict :=
  if item.2.enabled then
    let (raw, inputs) := renderServer lower state.2 item.2
    (Dict.set state.1 item.1 (.obj raw), inputs)
  else state

def sortedServers (intent : NeutralConfig) : List (Str × ServerIntent) :=
  intent.servers.insertionSort fun a b => strLe a.1 b.1 = true

/-- The object that `render` writes for VS Code; its report is left out. -/
def renderVscode (intent : NeutralConfig) : Dict :=
  let (servers, inputs) := (sortedServers intent).foldl (renderEntry lower) ([], [])
  [(u "servers", .obj servers)] ++
    (if inputs = [] then []
      else [(u "inputs", .arr ((inputs.insertionSort fun a b => strLe a.1 b.1 = true).map Prod.snd))])

/-! ## The sources of a document -/

def serverSources (server : ServerIntent) : List ValueSource :=
  match server.transport with
  | .stdio _ _ _ => (namedEnvironment server).map Prod.snd
  | .http _ headers =>
    (namedHeaders lower headers).map Prod.snd ++
      match server.auth.kind, server.auth.token with
      | .bearer, some token => [token]
      | _, _ => []

/-- The sources that are rendered, in their order. -/
def renderedSources (intent : NeutralConfig) : List ValueSource :=
  (sortedServers intent).flatMap fun item => if item.2.enabled then serverSources lower item.2 else []

def isPrompt (source : ValueSource) : Bool := decide (source.kind ≠ .environment)

/-- The sources that are rendered as prompts, in their order. -/
def prompts (intent : NeutralConfig) : List ValueSource := (renderedSources lower intent).filter isPrompt

theorem foldl_renderNamed (items : List (Str × ValueSource)) (state : Dict × Dict) :
    (items.foldl renderNamed state).2 = (items.map Prod.snd).foldl declare state.2 := by
  induction items generalizing state with
  | nil => rfl
  | cons item items ih =>
    rw [List.foldl_cons, ih, List.map_cons, List.foldl_cons]
    rfl

theorem renderServer_inputs (inputs : Dict) (server : ServerIntent) :
    (renderServer lower inputs server).2 = (serverSources lower server).foldl declare inputs := by
  rw [renderServer, serverSources]
  cases server.transport with
  | stdio command args cwd => exact foldl_renderNamed _ _
  | http url headers =>
    rw [List.foldl_append]
    have hheaders := foldl_renderNamed (namedHeaders lower headers) ([], inputs)
    dsimp only at hheaders ⊢
    rw [← hheaders]
    cases server.auth.kind with
    | bearer =>
      cases server.auth.token with
      | none => rfl
      | some token => rfl
    | _ => rfl

theorem foldl_renderEntry (items : List (Str × ServerIntent)) (state : Dict × Dict) :
    (items.foldl (renderEntry lower) state).2 =
      (items.flatMap fun item => if item.2.enabled then serverSources lower item.2 else []).foldl declare state.2 := by
  induction items generalizing state with
  | nil => rfl
  | cons item items ih =>
    rw [List.foldl_cons, ih, List.flatMap_cons, List.foldl_append, renderEntry]
    cases item.2.enabled with
    | true =>
      rw [if_pos rfl, if_pos rfl, ← renderServer_inputs]
    | false => rfl

theorem foldl_declare_filter (sources : List ValueSource) (inputs : Dict) :
    sources.foldl declare inputs = (sources.filter isPrompt).foldl declare inputs := by
  induction sources generalizing inputs with
  | nil => rfl
  | cons source sources ih =>
    rw [List.foldl_cons, ih]
    cases hkind : source.kind with
    | environment =>
      rw [List.filter_cons_of_neg (by simp [isPrompt, hkind]), declare, hkind]
    | prompt => rw [List.filter_cons_of_pos (by simp [isPrompt, hkind]), List.foldl_cons]
    | unknown => rw [List.filter_cons_of_pos (by simp [isPrompt, hkind]), List.foldl_cons]

/-! ## The table of inputs -/

/-- The last of the prompts with an input id. -/
def lastWithId (sources : List ValueSource) (id : Str) : Option ValueSource :=
  sources.reverse.find? fun source => decide (inputId source.key = id)

theorem lastWithId_spec {sources : List ValueSource} {id : Str} {source : ValueSource}
    (h : lastWithId sources id = some source) : source ∈ sources ∧ inputId source.key = id := by
  have hid := List.find?_some h
  exact ⟨List.mem_reverse.mp (List.mem_of_find?_eq_some h), of_decide_eq_true hid⟩

theorem exists_lastWithId {sources : List ValueSource} {source : ValueSource} (h : source ∈ sources) :
    ∃ last, lastWithId sources (inputId source.key) = some last := by
  apply Option.isSome_iff_exists.mp
  exact List.find?_isSome.mpr ⟨source, List.mem_reverse.mpr h, decide_eq_true rfl⟩

theorem declare_prompt {source : ValueSource} (h : isPrompt source = true) (inputs : Dict) :
    declare inputs source = Dict.set inputs (inputId source.key) (declaration source) := by
  rw [declare]
  cases hkind : source.kind with
  | environment => simp [isPrompt, hkind] at h
  | _ => rfl

/-- The entry of an id is the declaration of the last prompt with it. -/
theorem lookup_foldl_declare {sources : List ValueSource} (hprompts : ∀ s ∈ sources, isPrompt s = true) (id : Str) :
    Dict.lookup (sources.foldl declare []) id = (lastWithId sources id).map declaration := by
  induction sources using List.reverseRecOn with
  | nil => rfl
  | append_singleton sources source ih =>
    rw [List.foldl_append, List.foldl_cons, List.foldl_nil,
      declare_prompt (hprompts source (List.mem_append_right _ List.mem_cons_self)), Dict.lookup_set, lastWithId,
      List.reverse_concat, List.find?_cons]
    by_cases hid : inputId source.key = id
    · rw [if_pos hid, decide_eq_true hid]
      rfl
    · rw [if_neg hid, decide_eq_false hid]
      exact ih fun s hs => hprompts s (List.mem_append_left _ hs)

theorem keys_set_nodup {d : Dict} (h : (Dict.keys d).Nodup) (key : Str) (value : Json) :
    (Dict.keys (Dict.set d key value)).Nodup := by
  rw [Dict.set]
  by_cases hin : Dict.contains d key = true
  · rw [if_pos hin]
    have hkeys : Dict.keys (d.map fun kv => if kv.1 = key then (key, value) else kv) = Dict.keys d := by
      rw [Dict.keys, List.map_map]
      apply List.map_congr_left
      intro kv _
      by_cases hkey : kv.1 = key
      · simp [hkey]
      · simp [hkey]
    rw [hkeys]
    exact h
  · rw [if_neg hin, Dict.keys, List.map_append]
    refine List.Nodup.append h (List.nodup_singleton key) (List.disjoint_singleton.mpr ?_)
    exact fun hmem => hin (Dict.contains_eq_true.mpr hmem)

theorem keys_foldl_declare {sources : List ValueSource} (hprompts : ∀ s ∈ sources, isPrompt s = true) :
    (Dict.keys (sources.foldl declare [])).Nodup := by
  induction sources using List.reverseRecOn with
  | nil => exact List.nodup_nil
  | append_singleton sources source ih =>
    rw [List.foldl_append, List.foldl_cons, List.foldl_nil,
      declare_prompt (hprompts source (List.mem_append_right _ List.mem_cons_self))]
    exact keys_set_nodup (ih fun s hs => hprompts s (List.mem_append_left _ hs)) _ _

/-! ## The declared inputs -/

def declaredInputs (root : Dict) : List Json :=
  match Dict.get root "inputs" with
  | .arr items => items
  | _ => []

def hasId (id : Str) : Json → Bool
  | .obj fields =>
    match Dict.get fields "id" with
    | .str text => decide (text = id)
    | _ => false
  | _ => false

def asksPassword : Json → Bool
  | .obj fields =>
    match Dict.get fields "password" with
    | .bool password => password
    | _ => false
  | _ => false

theorem hasId_declaration (id : Str) (source : ValueSource) :
    hasId id (declaration source) = decide (inputId source.key = id) := by
  simp [hasId, declaration, Dict.get_cons]

theorem asksPassword_declaration (source : ValueSource) : asksPassword (declaration source) = source.secret := by
  simp [asksPassword, declaration, Dict.get_cons]

/-- The inputs of a document are the entries of the table. -/
theorem declaredInputs_perm (intent : NeutralConfig) :
    (declaredInputs (renderVscode lower intent)).Perm (((prompts lower intent).foldl declare []).map Prod.snd) := by
  have hinputs : ((sortedServers intent).foldl (renderEntry lower) ([], [])).2 =
      (prompts lower intent).foldl declare [] := by
    rw [foldl_renderEntry, ← renderedSources, foldl_declare_filter, ← prompts]
  rw [renderVscode, ← hinputs]
  dsimp only
  by_cases hempty : ((sortedServers intent).foldl (renderEntry lower) ([], [])).2 = []
  · rw [if_pos hempty, hempty]
    exact .refl _
  · rw [if_neg hempty]
    simp only [declaredInputs, List.singleton_append, Dict.get_cons]
    exact (List.perm_insertionSort _ _).map Prod.snd

theorem prompts_isPrompt {intent : NeutralConfig} : ∀ s ∈ prompts lower intent, isPrompt s = true :=
  fun _ hs => (List.mem_filter.mp hs).2

/-- An entry of the table declares the last prompt with its id. -/
theorem mem_foldl_declare {sources : List ValueSource} (hprompts : ∀ s ∈ sources, isPrompt s = true) {entry : Str × Json}
    (h : entry ∈ sources.foldl declare []) :
    ∃ source, lastWithId sources entry.1 = some source ∧ entry.2 = declaration source ∧
      inputId source.key = entry.1 := by
  have hlookup := Dict.lookup_of_mem (keys_foldl_declare hprompts) (show (entry.1, entry.2) ∈ _ from h)
  rw [lookup_foldl_declare hprompts] at hlookup
  obtain ⟨source, hlast, hentry⟩ := Option.map_eq_some_iff.mp hlookup
  exact ⟨source, hlast, hentry.symm, (lastWithId_spec hlast).2⟩

/-! ## Valid intents -/

/-- What the validators of the models check of the names and keys. -/
structure ValueSource.Valid (source : ValueSource) : Prop where
  name : isName (fun _ => false) source.key = true
  length : source.key.length ≤ 128

structure ServerIntent.Valid (server : ServerIntent) : Prop where
  environment : ∀ binding ∈ server.environment, isName (fun _ => false) binding.name = true ∧ binding.valueFrom.Valid
  environmentNames : (server.environment.map EnvironmentBinding.name).Nodup
  headers : ∀ url headers, server.transport = .http url headers →
    (∀ binding ∈ headers, binding.valueFrom.Valid) ∧ (headers.map fun binding => lower binding.name).Nodup
  token : ∀ token, server.auth.token = some token → server.auth.kind = .bearer ∧ token.Valid

structure NeutralConfig.Valid (intent : NeutralConfig) : Prop where
  names : (intent.servers.map Prod.fst).Nodup
  servers : ∀ item ∈ intent.servers, ServerIntent.Valid lower item.2

theorem serverSources_valid {server : ServerIntent} (h : ServerIntent.Valid lower server) :
    ∀ source ∈ serverSources lower server, source.Valid := by
  intro source hsource
  rw [serverSources] at hsource
  cases htransport : server.transport with
  | stdio command args cwd =>
    rw [htransport] at hsource
    obtain ⟨item, hitem, rfl⟩ := List.mem_map.mp hsource
    obtain ⟨binding, hbinding, rfl⟩ := List.mem_map.mp hitem
    exact (h.environment binding ((List.mem_insertionSort _).mp hbinding)).2
  | http url headers =>
    rw [htransport] at hsource
    obtain hheader | htoken := List.mem_append.mp hsource
    · obtain ⟨item, hitem, rfl⟩ := List.mem_map.mp hheader
      obtain ⟨binding, hbinding, rfl⟩ := List.mem_map.mp hitem
      exact (h.headers url headers htransport).1 binding ((List.mem_insertionSort _).mp hbinding)
    · split at htoken
      · next htoken' =>
        rw [List.mem_singleton.mp htoken]
        exact (h.token _ htoken').2
      · cases htoken

theorem prompts_valid {intent : NeutralConfig} (h : NeutralConfig.Valid lower intent) :
    ∀ source ∈ prompts lower intent, source.Valid := by
  intro source hsource
  obtain ⟨item, hitem, hmem⟩ := List.mem_flatMap.mp (List.mem_filter.mp hsource).1
  split at hmem
  · exact serverSources_valid lower (h.servers item ((List.mem_insertionSort _).mp hitem)) source hmem
  · cases hmem

theorem lowerPoint_ne_dash {c : CodePoint} (hc : isNamePart c = true) : lowerPoint c ≠ ch '-' := by
  intro hdash
  have hval := congrArg Fin.val hdash
  have hdashVal : (ch '-').val = 45 := by decide
  rw [hdashVal, lowerPoint] at hval
  split at hval
  · next hupper =>
    simp only [isUpperAlpha, Bool.and_eq_true, decide_eq_true_eq] at hupper
    dsimp only at hval
    omega
  · split at hval
    · exact absurd hval (by decide)
    · have hcdash : c = ch '-' := Fin.ext (hval.trans hdashVal.symm)
      rw [hcdash] at hc
      exact absurd hc (by decide)

theorem isNamePart_of_isName {key : Str} (h : isName (fun _ => false) key = true) : ∀ c ∈ key, isNamePart c = true := by
  cases key with
  | nil => exact nofun
  | cons first rest =>
    simp only [isName, Bool.or_false, Bool.and_eq_true, List.all_eq_true] at h
    intro c hc
    obtain rfl | hc := List.mem_cons.mp hc
    · have hstart := h.1
      simp only [isNameStart, Bool.or_eq_true] at hstart
      simp only [isNamePart, isAlnum, Bool.or_eq_true]
      tauto
    · exact h.2 c hc

/-- Where no dash is, the id gives the lower case key back. -/
theorem lower_of_inputId {source : ValueSource} (h : source.Valid) :
    (inputId source.key).map (fun c => if c = ch '-' then ch '_' else c) = Python.lower source.key := by
  rw [inputId, List.map_map]
  refine (List.map_congr_left fun c hc => ?_).trans (List.map_id _)
  obtain ⟨d, hd, rfl⟩ := List.mem_map.mp hc
  have hdash := lowerPoint_ne_dash (isNamePart_of_isName h.name d hd)
  by_cases hlow : lowerPoint d = ch '_'
  · simp [hlow]
  · simp [hlow, hdash]

/-- Two keys have one input id exactly when they differ in case alone. -/
theorem inputId_eq_iff {s t : ValueSource} (hs : s.Valid) (ht : t.Valid) :
    inputId s.key = inputId t.key ↔ Python.lower s.key = Python.lower t.key := by
  constructor
  · intro h
    rw [← lower_of_inputId hs, ← lower_of_inputId ht, h]
  · intro h
    rw [inputId, inputId, h]

/-! ## Prompts kept apart -/

/-- The prompts of a document are told apart, declared once and masked where they are secret. -/
structure PromptsApart (sources : List ValueSource) (root : Dict) : Prop where
  apart : ∀ s ∈ sources, ∀ t ∈ sources, s.key ≠ t.key → reference s ≠ reference t
  declared : ∀ s ∈ sources, (declaredInputs root).countP (hasId (inputId s.key)) = 1
  password : ∀ s ∈ sources, s.secret = true → ∀ input ∈ declaredInputs root, hasId (inputId s.key) input = true →
    asksPassword input = true

/-- The last of the sources whose key is this one when case is ignored. -/
def lastSpelled (sources : List ValueSource) (key : Str) : Option ValueSource :=
  sources.reverse.find? fun source => decide (Python.lower source.key = Python.lower key)

/-- Keys differ in more than case, and of the prompts with one key the last is secret if any is. -/
structure Separable (sources : List ValueSource) : Prop where
  keys : ∀ s ∈ sources, ∀ t ∈ sources, Python.lower s.key = Python.lower t.key → s.key = t.key
  secret : ∀ s ∈ sources, s.secret = true → ∀ last, lastSpelled sources s.key = some last → last.secret = true

theorem reference_prompt {source : ValueSource} (h : isPrompt source = true) :
    reference source = u "$\x7binput:" ++ inputId source.key ++ u "\x7d" := by
  rw [reference]
  cases hkind : source.kind with
  | environment => simp [isPrompt, hkind] at h
  | _ => rfl

theorem lastSpelled_eq {sources : List ValueSource} (hvalid : ∀ s ∈ sources, s.Valid) {source : ValueSource}
    (h : source ∈ sources) : lastSpelled sources source.key = lastWithId sources (inputId source.key) := by
  rw [lastSpelled, lastWithId]
  apply List.find?_congr
  intro other hother
  rw [decide_eq_decide]
  exact (inputId_eq_iff (hvalid other (List.mem_reverse.mp hother)) (hvalid source h)).symm

/-- Each id is declared once. -/
theorem countP_declaredInputs {intent : NeutralConfig} {source : ValueSource} (h : source ∈ prompts lower intent) :
    (declaredInputs (renderVscode lower intent)).countP (hasId (inputId source.key)) = 1 := by
  have hprompts := @prompts_isPrompt lower intent
  rw [(declaredInputs_perm lower intent).countP_eq, List.countP_map]
  have hcongr : ((prompts lower intent).foldl declare []).countP (hasId (inputId source.key) ∘ Prod.snd) =
      (Dict.keys ((prompts lower intent).foldl declare [])).count (inputId source.key) := by
    rw [Dict.keys, List.count, List.countP_map]
    apply List.countP_congr
    intro entry hentry
    obtain ⟨last, -, hdeclared, hid⟩ := mem_foldl_declare hprompts hentry
    simp [hdeclared, hasId_declaration, hid]
  rw [hcongr]
  apply List.count_eq_one_of_mem (keys_foldl_declare hprompts)
  by_contra hmissing
  obtain ⟨last, hlast⟩ := exists_lastWithId h
  have hnone := lookup_foldl_declare hprompts (inputId source.key)
  rw [Dict.lookup_eq_none.mpr hmissing, hlast] at hnone
  cases hnone

def sampleProvenance : Provenance where
  sourceHost := u "neutral"
  sourceFormat := u "test"
  sourceAsOf := u "2026-08-11"

def promptBinding (name key : String) (secret : Bool) : EnvironmentBinding where
  name := u name
  valueFrom := { kind := .prompt, key := u key, secret := secret }

/-- A server with two prompts. -/
def twoPrompts (key : String) : NeutralConfig where
  servers := [(u "demo",
    { transport := .stdio (u "demo") [] none, provenance := sampleProvenance,
      environment := [promptBinding "A" "API_KEY" true, promptBinding "B" key false] })]

theorem twoPrompts_valid (key : String) (hkey : isName (fun _ => false) (u key) = true) (hlength : (u key).length ≤ 128) :
    NeutralConfig.Valid Python.lower (twoPrompts key) := by
  refine ⟨List.nodup_singleton _, fun item hitem => ?_⟩
  rw [List.mem_singleton.mp hitem]
  exact
    { environment := by
        intro binding hbinding
        obtain rfl | hbinding := List.mem_cons.mp hbinding
        · exact ⟨by decide, by decide, by decide⟩
        · rw [List.mem_singleton.mp hbinding]
          exact ⟨show isName (fun _ => false) (u "B") = true by decide, hkey, hlength⟩
      environmentNames := show [u "A", u "B"].Nodup by decide
      headers := nofun
      token := nofun }

end McpTrust.Portability
