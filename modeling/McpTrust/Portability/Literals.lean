import McpTrust.Store.Verdicts
import McpTrust.Portability.Inspect

/-! # Literal values are not read

Two documents that differ in the literal values of their environments and headers only have
the same inspection.
-/

namespace McpTrust.Portability

set_option autoImplicit false

open Python

/-! ## Dictionaries with related values -/

section Variants

variable {R : Str → HostValue → HostValue → Prop}

/-- The same keys in the same order, with values related at each key. -/
def Variant (R : Str → HostValue → HostValue → Prop) (d e : HostDict) : Prop :=
  List.Forall₂ (fun p q => p.1 = q.1 ∧ R p.1 p.2 q.2) d e

/-- Equal values, or two dictionaries with related values. -/
def Tables (R : Str → HostValue → HostValue → Prop) (v w : HostValue) : Prop :=
  v = w ∨ ∃ d e, v = .obj d ∧ w = .obj e ∧ Variant R d e

theorem Variant.refl (hR : ∀ name v, R name v v) (d : HostDict) : Variant R d d := by
  apply List.forall₂_same.mpr
  intro p _
  exact ⟨rfl, hR p.1 p.2⟩

theorem Variant.keys {d e : HostDict} (h : Variant R d e) : HostDict.keys d = HostDict.keys e :=
  Store.forall₂_map_eq (fun _ _ hpq => hpq.1) h

theorem Variant.lookup {d e : HostDict} (h : Variant R d e) (key : String) :
    HostDict.lookup d key = none ∧ HostDict.lookup e key = none ∨
      ∃ v w, HostDict.lookup d key = some v ∧ HostDict.lookup e key = some w ∧ R (u key) v w := by
  unfold Variant at h
  induction h with
  | nil => exact .inl ⟨rfl, rfl⟩
  | @cons p q d e hpq hrest ih =>
    obtain ⟨name, v⟩ := p
    obtain ⟨name', w⟩ := q
    obtain ⟨hname, hvw⟩ := hpq
    dsimp only at hname hvw
    subst hname
    unfold HostDict.lookup at ih ⊢
    by_cases hkey : name = u key
    · subst hkey
      right
      refine ⟨v, w, ?_, ?_, hvw⟩
      · rw [List.find?_cons_of_pos (by simp)]
        rfl
      · rw [List.find?_cons_of_pos (by simp)]
        rfl
    · rw [List.find?_cons_of_neg (by simpa using hkey), List.find?_cons_of_neg (by simpa using hkey)]
      exact ih

theorem Variant.get {d e : HostDict} (h : Variant R d e) (hR : ∀ name v, R name v v) (key : String) :
    R (u key) (HostDict.get d key) (HostDict.get e key) := by
  unfold HostDict.get
  obtain ⟨hd, he⟩ | ⟨v, w, hd, he, hvw⟩ := h.lookup key
  · rw [hd, he]
    exact hR _ _
  · rw [hd, he]
    exact hvw

theorem Variant.lookup_isSome {d e : HostDict} (h : Variant R d e) (key : String) :
    (HostDict.lookup d key).isSome = (HostDict.lookup e key).isSome := by
  obtain ⟨hd, he⟩ | ⟨v, w, hd, he, -⟩ := h.lookup key
  · rw [hd, he]
  · rw [hd, he]
    rfl

theorem Variant.unknownKeys {d e : HostDict} (h : Variant R d e) (known : List String) :
    HostDict.unknownKeys d known = HostDict.unknownKeys e known := by
  rw [HostDict.unknownKeys, HostDict.unknownKeys, h.keys]

theorem Variant.sortedItems {d e : HostDict} (h : Variant R d e) :
    Variant R (HostDict.sortedItems d) (HostDict.sortedItems e) := by
  apply Store.forall₂_insertionSort _ h
  intro p p' q q' hp hq
  unfold HostDict.KeyBefore
  rw [hp.1, hq.1]

/-- A loop that does not tell related items apart. -/
theorem Variant.mapM {α : Type} {f : Str × HostValue → InspectM α} (hf : ∀ name v w, R name v w → f (name, v) = f (name, w))
    {d e : HostDict} (h : Variant R d e) : d.mapM f = e.mapM f := by
  unfold Variant at h
  induction h with
  | nil => rfl
  | @cons p q d e hpq hrest ih =>
    obtain ⟨name, v⟩ := p
    obtain ⟨name', w⟩ := q
    obtain ⟨hname, hvw⟩ := hpq
    dsimp only at hname hvw
    subst hname
    rw [List.mapM_cons, List.mapM_cons, ih, hf name v w hvw]

theorem Tables.table (hR : ∀ name v, R name v v) {v w : HostValue} (h : Tables R v w) :
    v.table = none ∧ w.table = none ∨ ∃ d e, v.table = some d ∧ w.table = some e ∧ Variant R d e := by
  obtain rfl | ⟨d, e, rfl, rfl, hde⟩ := h
  · cases htable : v.table with
    | none => exact .inl ⟨rfl, rfl⟩
    | some d => exact .inr ⟨d, d, rfl, rfl, Variant.refl hR d⟩
  · right
    unfold Variant at hde
    cases hde with
    | nil => exact ⟨[], [], rfl, rfl, .nil⟩
    | cons hpq hrest => exact ⟨_, _, rfl, rfl, .cons hpq hrest⟩

end Variants

/-! ## Documents that differ in literals -/

def literalFields : List String := ["env", "headers", "http_headers"]

/-- A value that the reader of the field takes for a literal. -/
def LiteralIn (field : String) (item : Str × HostValue) : Prop :=
  if field = "headers" then headerReference item = .inr .literal else hostReference item.2 = .literal

def LiteralValues (field : String) (name : Str) (v w : HostValue) : Prop :=
  v = w ∨ LiteralIn field (name, v) ∧ LiteralIn field (name, w)

/-- The fields of a server: equal, or environments and headers that differ in literals. -/
def ServerFields (name : Str) (v w : HostValue) : Prop :=
  v = w ∨ ∃ field ∈ literalFields, name = u field ∧ Tables (LiteralValues field) v w

def ServerTables (_name : Str) (v w : HostValue) : Prop := Tables ServerFields v w

def RootFields (serverKey : String) (name : Str) (v w : HostValue) : Prop :=
  v = w ∨ name = u serverKey ∧ Tables ServerTables v w

def hostServerKey : Host → String
  | .codex => "mcp_servers"
  | .claudeCode => claudeCode.serverKey
  | .claudeDesktop => claudeDesktop.serverKey
  | .vscode => vscode.serverKey

/-- Two parsed documents of a host that differ only in literal values of environments and headers. -/
def LiteralVariant (host : Host) (root root' : HostDict) : Prop := Variant (RootFields (hostServerKey host)) root root'

theorem literalValues_refl (field : String) (name : Str) (v : HostValue) : LiteralValues field name v v := .inl rfl

theorem serverFields_refl (name : Str) (v : HostValue) : ServerFields name v v := .inl rfl

theorem serverTables_refl (name : Str) (v : HostValue) : ServerTables name v v := .inl rfl

theorem rootFields_refl (serverKey : String) (name : Str) (v : HostValue) : RootFields serverKey name v v := .inl rfl

/-! ## Servers -/

section Servers

variable {layer : Layer} {server : Str} {raw raw' : HostDict}

theorem serverFields_eq {key : String} (hkey : key ∉ literalFields) {v w : HostValue} (h : ServerFields (u key) v w) :
    v = w := by
  obtain rfl | ⟨field, hfield, hname, -⟩ := h
  · rfl
  · rw [u_inj] at hname
    subst hname
    exact absurd hfield hkey

theorem serverFields_table {field : String} {v w : HostValue} (h : ServerFields (u field) v w) :
    Tables (LiteralValues field) v w := by
  obtain rfl | ⟨field', -, hname, htables⟩ := h
  · exact .inl rfl
  · rw [u_inj] at hname
    subst hname
    exact htables

theorem get_eq (h : Variant ServerFields raw raw') (key : String) (hkey : key ∉ literalFields) :
    HostDict.get raw key = HostDict.get raw' key := serverFields_eq hkey (h.get serverFields_refl key)

theorem lookup_eq (h : Variant ServerFields raw raw') (key : String) (hkey : key ∉ literalFields) :
    HostDict.lookup raw key = HostDict.lookup raw' key := by
  obtain ⟨hd, he⟩ | ⟨v, w, hd, he, hvw⟩ := h.lookup key
  · rw [hd, he]
  · rw [hd, he, serverFields_eq hkey hvw]

theorem get_tables (h : Variant ServerFields raw raw') (field : String) :
    Tables (LiteralValues field) (HostDict.get raw field) (HostDict.get raw' field) :=
  serverFields_table (h.get serverFields_refl field)

theorem noteUnknownFields_eq (h : Variant ServerFields raw raw') (known : List String) :
    noteUnknownFields layer server raw known = noteUnknownFields layer server raw' known := by
  rw [noteUnknownFields, noteUnknownFields, h.unknownKeys]

theorem hostReference_eq {field : String} (hfield : field ≠ "headers") {name : Str} {v w : HostValue}
    (h : LiteralValues field name v w) : hostReference v = hostReference w := by
  obtain rfl | ⟨hv, hw⟩ := h
  · rfl
  · rw [LiteralIn, if_neg hfield] at hv hw
    rw [hv, hw]

theorem headerReference_eq {name : Str} {v w : HostValue} (h : LiteralValues "headers" name v w) :
    headerReference (name, v) = headerReference (name, w) := by
  obtain rfl | ⟨hv, hw⟩ := h
  · rfl
  · rw [LiteralIn, if_pos rfl] at hv hw
    rw [hv, hw]

/-! ### Codex -/

theorem codexHttp_eq {url : Str} {envHeaders token v w : HostValue} (h : Tables (LiteralValues "http_headers") v w) :
    codexHttp layer server url envHeaders v token = codexHttp layer server url envHeaders w token := by
  have hloop : ∀ name v w, LiteralValues "http_headers" name v w →
      codexLiteralHeader layer server token.truthy (name, v) = codexLiteralHeader layer server token.truthy (name, w) := by
    intro name v w hvw
    unfold codexLiteralHeader inspectHeader sourceFromHostValue
    rw [hostReference_eq (by decide) hvw]
  unfold codexHttp
  obtain ⟨hv, hw⟩ | ⟨d, e, hv, hw, hde⟩ := h.table (literalValues_refl _)
  · rw [hv, hw]
  · rw [hv, hw]
    dsimp only
    rw [hde.sortedItems.mapM hloop]

theorem literalNames_eq {v w : HostValue} (h : Tables (LiteralValues "env") v w) : literalNames v = literalNames w := by
  unfold literalNames
  obtain ⟨hv, hw⟩ | ⟨d, e, hv, hw, hde⟩ := h.table (literalValues_refl _)
  · rw [hv, hw]
  · rw [hv, hw, Option.map_some, Option.map_some, hde.keys]

theorem codexTransport_eq (h : Variant ServerFields raw raw') :
    codexTransport layer server raw = codexTransport layer server raw' := by
  have hhttp : ∀ url envHeaders token,
      codexHttp layer server url envHeaders (HostDict.get raw "http_headers") token =
        codexHttp layer server url envHeaders (HostDict.get raw' "http_headers") token := by
    intro url envHeaders token
    exact codexHttp_eq (get_tables h "http_headers")
  unfold codexTransport
  simp only [hhttp, get_eq h "command" (by decide), get_eq h "url" (by decide),
    get_eq h "args" (by decide), get_eq h "cwd" (by decide),
    get_eq h "env_http_headers" (by decide), get_eq h "bearer_token_env_var" (by decide)]

theorem codexServer_eq (h : Variant ServerFields raw raw') :
    codexServer layer server raw = codexServer layer server raw' := by
  unfold codexServer
  rw [codexTransport_eq h, literalNames_eq (get_tables h "env"), noteUnknownFields_eq h,
    get_eq h "env_vars" (by decide), get_eq h "bearer_token_env_var" (by decide),
    get_eq h "auth" (by decide), get_eq h "scopes" (by decide),
    lookup_eq h "enabled" (by decide), get_eq h "startup_timeout_sec" (by decide),
    get_eq h "startup_timeout_ms" (by decide), get_eq h "tool_timeout_sec" (by decide),
    get_eq h "required" (by decide), get_eq h "enabled_tools" (by decide),
    get_eq h "disabled_tools" (by decide)]

/-! ### The JSON hosts -/

variable {profile : JsonHostProfile}

theorem jsonRemote_eq {kind url : Str} {v w : HostValue} (h : Tables (LiteralValues "headers") v w) :
    jsonRemote layer profile server kind url v = jsonRemote layer profile server kind url w := by
  have hloop : ∀ name v w, LiteralValues "headers" name v w →
      jsonHeaderItem layer server (name, v) = jsonHeaderItem layer server (name, w) := by
    intro name v w hvw
    unfold jsonHeaderItem
    rw [headerReference_eq hvw]
  unfold jsonRemote
  obtain ⟨hv, hw⟩ | ⟨d, e, hv, hw, hde⟩ := h.table (literalValues_refl _)
  · rw [hv, hw]
  · rw [hv, hw]
    dsimp only
    rw [hde.sortedItems.mapM hloop]

theorem jsonEnvironment_eq {v w : HostValue} (h : Tables (LiteralValues "env") v w) :
    jsonEnvironment layer profile server v = jsonEnvironment layer profile server w := by
  have hloop : ∀ name v w, LiteralValues "env" name v w →
      jsonEnvItem layer server (name, v) = jsonEnvItem layer server (name, w) := by
    intro name v w hvw
    unfold jsonEnvItem sourceFromHostValue
    dsimp only
    rw [hostReference_eq (by decide) hvw]
  unfold jsonEnvironment
  obtain ⟨hv, hw⟩ | ⟨d, e, hv, hw, hde⟩ := h.table (literalValues_refl _)
  · rw [hv, hw]
  · rw [hv, hw]
    dsimp only
    rw [hde.sortedItems.mapM hloop]

theorem jsonStdio_eq (h : Variant ServerFields raw raw') :
    jsonStdio layer profile server raw = jsonStdio layer profile server raw' := by
  unfold jsonStdio
  rw [get_eq h "command" (by decide), get_eq h "args" (by decide),
    get_eq h "cwd" (by decide)]

theorem jsonTransport_eq (h : Variant ServerFields raw raw') :
    jsonTransport layer profile server raw = jsonTransport layer profile server raw' := by
  have hremote : ∀ kind url,
      jsonRemote layer profile server kind url (HostDict.get raw "headers") =
        jsonRemote layer profile server kind url (HostDict.get raw' "headers") := by
    intro kind url
    exact jsonRemote_eq (get_tables h "headers")
  unfold jsonTransport
  simp only [hremote, jsonStdio_eq h, get_eq h "type" (by decide), get_eq h "url" (by decide),
    lookup_eq h "url" (by decide)]

theorem jsonServer_eq (h : Variant ServerFields raw raw') :
    jsonServer layer profile server raw = jsonServer layer profile server raw' := by
  unfold jsonServer
  rw [jsonTransport_eq h, jsonEnvironment_eq (get_tables h "env"), noteUnknownFields_eq h,
    get_eq h "oauth" (by decide), get_eq h "timeout" (by decide)]

end Servers

/-! ## Documents -/

section Documents

variable {layer : Layer} {root root' : HostDict}

theorem rootFields_servers {serverKey : String} {v w : HostValue} (h : RootFields serverKey (u serverKey) v w) :
    Tables ServerTables v w := h.elim .inl And.right

theorem codexEntry_eq {name : Str} {v w : HostValue} (h : ServerTables name v w) :
    codexEntry layer (name, v) = codexEntry layer (name, w) := by
  obtain rfl | ⟨raw, raw', rfl, rfl, hraw⟩ := h
  · rfl
  · exact codexServer_eq hraw

theorem jsonEntry_eq {profile : JsonHostProfile} {name : Str} {v w : HostValue} (h : ServerTables name v w) :
    jsonEntry layer profile (name, v) = jsonEntry layer profile (name, w) := by
  obtain rfl | ⟨raw, raw', rfl, rfl, hraw⟩ := h
  · rfl
  · exact jsonServer_eq hraw

theorem inspectCodex_eq (h : Variant (RootFields "mcp_servers") root root') :
    inspectCodex layer root = inspectCodex layer root' := by
  have hservers := rootFields_servers (h.get (rootFields_refl _) "mcp_servers")
  unfold inspectCodex
  obtain heq | ⟨d, e, hd, he, hde⟩ := hservers
  · rw [heq]
  · rw [hd, he]
    dsimp only
    rw [hde.sortedItems.mapM fun _ _ _ hvw => codexEntry_eq hvw]

theorem inspectJson_eq {profile : JsonHostProfile} (h : Variant (RootFields profile.serverKey) root root') :
    inspectJson layer profile root = inspectJson layer profile root' := by
  have hservers := rootFields_servers (h.get (rootFields_refl _) profile.serverKey)
  have hfront : topChanges layer profile root = topChanges layer profile root' := by
    rw [topChanges, topChanges, h.lookup_isSome, h.unknownKeys]
  unfold inspectJson
  obtain heq | ⟨d, e, hd, he, hde⟩ := hservers
  · rw [heq, hfront]
  · rw [hd, he]
    dsimp only
    rw [hfront, hde.sortedItems.mapM fun _ _ _ hvw => jsonEntry_eq hvw]

theorem inspectRoot_eq {host : Host} (h : LiteralVariant host root root') :
    inspectRoot layer host root = inspectRoot layer host root' := by
  cases host with
  | codex => exact inspectCodex_eq h
  | claudeCode => exact inspectJson_eq h
  | claudeDesktop => exact inspectJson_eq h
  | vscode => exact inspectJson_eq h

/-- Documents that differ in literal values only are inspected alike. -/
theorem inspectHost_literals {parsers : Parsers} {host : Host} {document document' : Str}
    (hparse : parseDocument layer parsers host document = .ok root)
    (hparse' : parseDocument layer parsers host document' = .ok root') (h : LiteralVariant host root root') :
    inspectHost layer parsers document host = inspectHost layer parsers document' host := by
  have hinspect : inspectRoot layer host root = inspectRoot layer host root' := inspectRoot_eq h
  unfold inspectHost
  rw [hparse, hparse']
  exact congrArg (Except.mapError (publicError layer host)) hinspect

end Documents

/-! ## Two documents -/

/-- A layer that accepts what the sample documents give it. -/
def sampleLayer : Layer where
  text := fun _ => .ok []
  repr := fun _ => []
  readFloat := fun _ => none
  safeErrorText := id
  probableSecret := fun _ => false
  secretFlag := fun _ => false
  semanticChange := .ok
  valueSource := fun kind key => .ok { kind := kind, key := key }
  environmentBinding := fun name source => .ok ⟨name, source⟩
  headerBinding := fun name source => .ok ⟨name, source⟩
  stdioTransport := fun command args _ => .ok (.stdio command args none)
  httpTransport := fun url headers => .ok (.http url headers)
  authRequirement := .ok
  scopePolicy := .ok
  startupPolicy := fun _ _ _ => .ok {}
  serverIntent := .ok
  neutralConfig := fun servers => .ok ⟨servers⟩

def sampleRoot (value : String) : HostDict :=
  [(u "mcpServers", .obj [(u "demo", .obj [(u "command", .str (u "demo")), (u "env", .obj [(u "TOKEN", .str (u value))])])])]

def sampleDocument (value : String) : Str :=
  u "\x7b\"mcpServers\":\x7b\"demo\":\x7b\"command\":\"demo\",\"env\":\x7b\"TOKEN\":\"" ++ u value ++ u "\"\x7d\x7d\x7d\x7d"

def sampleParsers : Parsers where
  toml := fun _ => .error (.decode [])
  json := fun document =>
    .ok (.obj (if document = sampleDocument "first" then sampleRoot "first" else sampleRoot "second"))

theorem sampleRoot_variant : LiteralVariant .claudeCode (sampleRoot "first") (sampleRoot "second") := by
  have hliteral : ∀ value ∈ ["first", "second"], LiteralIn "env" (u "TOKEN", .str (u value)) := by
    unfold LiteralIn
    decide +kernel
  have henv : Variant (LiteralValues "env") [(u "TOKEN", .str (u "first"))] [(u "TOKEN", .str (u "second"))] :=
    .cons ⟨rfl, .inr ⟨hliteral _ (by decide), hliteral _ (by decide)⟩⟩ .nil
  have hserver : Variant ServerFields
      [(u "command", .str (u "demo")), (u "env", .obj [(u "TOKEN", .str (u "first"))])]
      [(u "command", .str (u "demo")), (u "env", .obj [(u "TOKEN", .str (u "second"))])] :=
    .cons ⟨rfl, .inl rfl⟩ (.cons ⟨rfl, .inr ⟨"env", by decide, rfl, .inr ⟨_, _, rfl, rfl, henv⟩⟩⟩ .nil)
  have hservers : Tables ServerTables
      (.obj [(u "demo", .obj [(u "command", .str (u "demo")), (u "env", .obj [(u "TOKEN", .str (u "first"))])])])
      (.obj [(u "demo", .obj [(u "command", .str (u "demo")), (u "env", .obj [(u "TOKEN", .str (u "second"))])])]) :=
    .inr ⟨_, _, rfl, rfl, .cons ⟨rfl, .inr ⟨_, _, rfl, rfl, hserver⟩⟩ .nil⟩
  exact .cons ⟨rfl, .inr ⟨rfl, hservers⟩⟩ .nil

theorem inspectHost_literals_sample :
    inspectHost sampleLayer sampleParsers (sampleDocument "first") .claudeCode =
      inspectHost sampleLayer sampleParsers (sampleDocument "second") .claudeCode :=
  @inspectHost_literals sampleLayer (sampleRoot "first") (sampleRoot "second") sampleParsers .claudeCode _ _ rfl rfl
    sampleRoot_variant

end McpTrust.Portability
