import McpTrust.Transition
import McpTrust.Engine.LaunchVector
import McpTrust.Engine.Lifecycle

/-! # Untrusted servers run confined

One scan of an untrusted source adds to the trace management commands, the
creation of its confined container, and the launch of the container that
creation named. The invariant is carried through every step of the scan and then
through every run of scans on one engine.
-/

namespace McpTrust.Engine

set_option autoImplicit false

open Python OptionGrammar DockerCli Effects Effects.Eff

/-- The environment a container of the source is given. -/
def injectedEnv (host : Host) (source : ServerSource) : List (Str × Str) :=
  (u "HOME", u "/scan") :: (u "TMPDIR", u "/scan") ::
    if credentialsMode host = u "dummy" then source.envKeys.map fun key => (key, dummyValue key)
    else []

/-- A vector that creates the confined container of one source. -/
def CreatesFor (host : Host) (source : ServerSource) (image : Str) (argv : List Str) : Prop :=
  ∃ command args, source.dockerLaunchSpec = .ok (command, args) ∧
    ConfinedCreate image command args (injectedEnv host source) argv

/-- Among the events after `start`, a confined creation to which the runner answered `id`. -/
def CreatedAs (host : Host) (source : ServerSource) (image : Str) (start : List Event)
    (events : List Event) (id : Str) : Prop :=
  ∃ before argv after stdout, events = before ++ .invoke argv :: after ∧
    CreatesFor host source image argv ∧
    host.runner (start ++ (before ++ [.invoke argv])) = .completed 0 stdout ∧
    strippedLines stdout = [id]

/-- The events one scan of `source` may add to a trace that has reached `start`. -/
inductive SafeEvents (host : Host) (source : ServerSource) (image : Str) (endpoint : List Str)
    (start : List Event) : List Event → Prop
  | nil : SafeEvents host source image endpoint start []
  | manage {events : List Event} {args : List Str} :
      SafeEvents host source image endpoint start events → args.take 2 ∈ managementVerbs →
      SafeEvents host source image endpoint start
        (events ++ [.invoke (u "docker" :: (endpoint ++ args))])
  | create {events : List Event} {argv : List Str} :
      SafeEvents host source image endpoint start events → CreatesFor host source image argv →
      SafeEvents host source image endpoint start (events ++ [.invoke argv])
  | launch {events : List Event} {id : Str} :
      SafeEvents host source image endpoint start events →
      CreatedAs host source image start events id →
      SafeEvents host source image endpoint start
        (events ++ [.connect (.stdio (u "docker") (endpoint ++ startArgs id))])
  | remote {events : List Event} :
      SafeEvents host source image endpoint start events → source.launchesLocalProcess = false →
      SafeEvents host source image endpoint start (events ++ [.connect (.http source.reference)])

/-- The sandbox is `base` up to the identity of its container. -/
def SameControls (base box : DockerSandbox) : Prop :=
  ∃ id digests, box = { base with containerId := id, serverProcessDigests := digests }

theorem SameControls.hostArgs {base box : DockerSandbox} (h : SameControls base box) :
    box.hostArgs = base.hostArgs := by
  obtain ⟨id, digests, rfl⟩ := h
  rfl

theorem SameControls.identity {base box : DockerSandbox} (h : SameControls base box)
    (id : Option Str) (digests : Option (List Str)) :
    SameControls base { box with containerId := id, serverProcessDigests := digests } := by
  obtain ⟨_, _, rfl⟩ := h
  exact ⟨id, digests, rfl⟩

theorem SameControls.image {base box : DockerSandbox} (h : SameControls base box) :
    box.image = base.image := by
  obtain ⟨_, _, rfl⟩ := h
  rfl

theorem SameControls.defaults {base box : DockerSandbox} (h : SameControls base box)
    (hdefault : DefaultControls base) : DefaultControls box := by
  obtain ⟨_, _, rfl⟩ := h
  exact ⟨hdefault.1, hdefault.2, hdefault.3, hdefault.4, hdefault.5, hdefault.6, hdefault.7,
    hdefault.8⟩

/-! ## The invariant of a scan -/

section Invariant

variable (host : Host) (source : ServerSource) (base : DockerSandbox) (image : Str)
  (start : List Event)

/-- The scan has only added safe events, of which `F` holds. -/
def Adds (F : List Event → Prop) (w : World) : Prop :=
  SameControls base w.box ∧ ∃ events, w.trace = start ++ events ∧
    SafeEvents host source image base.hostArgs start events ∧ F events

abbrev Safe : World → Prop := Adds host source base image start fun _ => True

/-- The container `id` has been created for this scan. -/
abbrev Ready (id : Str) : World → Prop :=
  Adds host source base image start fun events => CreatedAs host source image start events id

variable {host source base image start}

theorem Adds.safe {F : List Event → Prop} {w : World} (h : Adds host source base image start F w) :
    Safe host source base image start w := by
  obtain ⟨hbox, events, htrace, hsafe, -⟩ := h
  exact ⟨hbox, events, htrace, hsafe, trivial⟩

theorem Adds.snoc {F G : List Event → Prop} {w : World} (h : Adds host source base image start F w)
    {event : Event}
    (hevent : ∀ events, SafeEvents host source image base.hostArgs start events → F events →
      w.trace = start ++ events →
      SafeEvents host source image base.hostArgs start (events ++ [event]) ∧
        G (events ++ [event])) :
    Adds host source base image start G { w with trace := w.trace ++ [event] } := by
  obtain ⟨hbox, events, htrace, hsafe, hF⟩ := h
  obtain ⟨hsafe', hG⟩ := hevent events hsafe hF htrace
  exact ⟨hbox, events ++ [event], by rw [htrace, List.append_assoc], hsafe', hG⟩

theorem CreatedAs.snoc {id : Str} {events : List Event}
    (h : CreatedAs host source image start events id) (event : Event) :
    CreatedAs host source image start (events ++ [event]) id := by
  obtain ⟨before, argv, after, stdout, rfl, hrest⟩ := h
  exact ⟨before, argv, after ++ [event], stdout, by simp, hrest⟩

theorem neutral_safe : Neutral (Safe host source base image start) where
  manage w args hw hargs := by
    apply hw.snoc
    intro events hsafe _ _
    rw [DockerSandbox.dockerCommand, hw.1.hostArgs]
    exact ⟨.manage hsafe hargs, trivial⟩
  clock _ _ hw := hw
  identity _ id digests hw := ⟨hw.1.identity id digests, hw.2⟩

/-- A call of the runner, with its answer. -/
theorem invoke_answers {P I : World → Prop} {argv : List Str}
    (h : ∀ w, P w → I { w with trace := w.trace ++ [.invoke argv] }) :
    Bounded P I (invoke host argv) fun completed w => ∃ before : World, P before ∧
      w = { before with trace := before.trace ++ [.invoke argv] } ∧
      host.runner w.trace = .completed completed.1 completed.2 := by
  have hemit : Bounded P I (emit (.invoke argv)) fun _ w => ∃ before : World, P before ∧
      w = { before with trace := before.trace ++ [.invoke argv] } :=
    meets_update fun w hw => ⟨w, hw, rfl⟩
  unfold invoke
  apply Meets.bind hemit
  intro _
  have hread : Bounded (fun w => ∃ before : World, P before ∧
      w = { before with trace := before.trace ++ [.invoke argv] }) I Eff.read fun seen w =>
        (∃ before : World, P before ∧
          w = { before with trace := before.trace ++ [.invoke argv] }) ∧ seen = w :=
    meets_read fun w hw => ⟨hw, rfl⟩
  apply Meets.bind hread
  intro seen
  cases hreply : host.runner seen.trace with
  | completed returncode stdout =>
    apply meets_pure
    rintro w ⟨⟨before, hbefore, hw⟩, rfl⟩
    exact ⟨before, hbefore, hw, hreply⟩
  | raised e =>
    apply bounded_raise
    rintro w ⟨⟨before, hbefore, rfl⟩, -⟩
    exact h before hbefore

/-! ## Creating the container -/

/-- The end of a successful preparation: identity and digests are stored, the start is returned. -/
theorem recordContainer_ready {box : DockerSandbox} {id : Str} (hhost : box.hostArgs = base.hostArgs)
    (command : Str) (args : List Str) (allowPythonConsoleScript : Bool)
    (allowedProcessTitle : Option Str) :
    Bounded (Ready host source base image start id) (Safe host source base image start)
      (do
        setBox fun box => { box with containerId := some id }
        let digests ← lift
          (serverProcessDigests command args allowPythonConsoleScript allowedProcessTitle)
        setBox fun box => { box with serverProcessDigests := some digests }
        pure (u "docker", (box.dockerCommand (startArgs id)).tail))
      fun launch w => ∃ id, launch = (u "docker", base.hostArgs ++ startArgs id) ∧
        Ready host source base image start id w := by
  have hid : Bounded (Ready host source base image start id) (Safe host source base image start)
      (setBox fun box => { box with containerId := some id })
      fun _ => Ready host source base image start id :=
    meets_update fun w hw => ⟨hw.1.identity (some id) w.box.serverProcessDigests, hw.2⟩
  apply Meets.bind hid
  intro _
  have hlift : Bounded (Ready host source base image start id) (Safe host source base image start)
      (lift (serverProcessDigests command args allowPythonConsoleScript allowedProcessTitle))
      fun _ => Ready host source base image start id :=
    meets_lift (fun _ _ _ hw => hw) fun _ _ _ hw => hw.safe
  apply Meets.bind hlift
  intro digests
  have hdigests : Bounded (Ready host source base image start id) (Safe host source base image start)
      (setBox fun box => { box with serverProcessDigests := some digests })
      fun _ => Ready host source base image start id :=
    meets_update fun w hw => ⟨hw.1.identity w.box.containerId (some digests), hw.2⟩
  apply Meets.bind hdigests
  intro _
  apply meets_pure
  intro w hw
  refine ⟨id, ?_, hw⟩
  rw [DockerSandbox.dockerCommand, List.tail_cons, hhost]

theorem prepareOwnedContainer_ready (hdefault : DefaultControls base) (hsame : base.image = image)
    (himage : beginsWithDash image = false)
    (henv : (u "HOME", u "/scan") :: (u "TMPDIR", u "/scan") :: base.env = injectedEnv host source)
    {command : Str} {args : List Str} (hspec : source.dockerLaunchSpec = .ok (command, args))
    (allowPythonConsoleScript : Bool) (allowedProcessTitle : Option Str) :
    Bounded (Safe host source base image start) (Safe host source base image start)
      (prepareOwnedContainer host command args allowPythonConsoleScript allowedProcessTitle)
      fun launch w => ∃ id, launch = (u "docker", base.hostArgs ++ startArgs id) ∧
        Ready host source base image start id w := by
  have hneutral : Neutral (Safe host source base image start) := neutral_safe
  unfold prepareOwnedContainer
  apply Meets.bind bounded_currentBox
  intro box
  apply Meets.ite
  · intro _
    exact bounded_raise _ fun w hw => hw.1
  · intro _
    have hcreate : Bounded (fun w => Safe host source base image start w ∧ w.box = box)
        (Safe host source base image start) (liftPy (createArgs (box.wrap command args).2))
        fun create w => (Safe host source base image start w ∧ w.box = box) ∧
          createArgs (box.wrap command args).2 = .ok create := by
      apply meets_lift
      · intro create w hok hw
        refine ⟨hw, ?_⟩
        cases hargs : createArgs (box.wrap command args).2 with
        | ok create' =>
          rw [hargs] at hok
          exact congrArg Except.ok (Except.ok.inj hok)
        | error e =>
          rw [hargs] at hok
          cases hok
      · intro e w _ hw
        exact hw.1
    apply Meets.bind hcreate
    intro create
    -- the new event is the confined creation of this source
    have hadds : ∀ w, (Safe host source base image start w ∧ w.box = box) ∧
        createArgs (box.wrap command args).2 = .ok create →
        Safe host source base image start { w with trace := w.trace ++ [.invoke (u "docker" :: create)] } ∧
          CreatesFor host source image (u "docker" :: create) := by
      rintro w ⟨⟨hw, rfl⟩, hargs⟩
      have hconfined := confinedCreate_wrap (hw.1.defaults hdefault)
        (by rwa [hw.1.image, hsame]) command args create hargs
      have hcreates : CreatesFor host source image (u "docker" :: create) := by
        refine ⟨command, args, hspec, ?_⟩
        obtain ⟨_, _, hbox⟩ := hw.1
        rw [hbox] at hconfined
        rw [← henv, ← hsame]
        exact hconfined
      exact ⟨hw.snoc fun events hsafe _ _ => ⟨.create hsafe hcreates, trivial⟩, hcreates⟩
    have hinvoke := @invoke_answers host _ _ _ fun w hw => (hadds w hw).1
    apply Meets.bind (bounded_catching hinvoke (keeps_createFailed hneutral host))
    rintro ⟨returncode, stdout⟩
    dsimp only
    split
    · next containerId hlines =>
      have hready : ∀ w, (∃ before : World, ((Safe host source base image start before ∧ before.box = box) ∧
          createArgs (box.wrap command args).2 = .ok create) ∧
          w = { before with trace := before.trace ++ [.invoke (u "docker" :: create)] } ∧
          host.runner w.trace = .completed 0 stdout) →
          Ready host source base image start containerId w ∧ box.hostArgs = base.hostArgs := by
        rintro w ⟨before, hbefore, rfl, hanswer⟩
        obtain ⟨-, hcreates⟩ := hadds before hbefore
        refine ⟨?_, hbefore.1.2 ▸ hbefore.1.1.1.hostArgs⟩
        apply hbefore.1.1.snoc
        intro events hsafe _ htrace
        refine ⟨.create hsafe hcreates, events, _, [], stdout, rfl, hcreates, ?_, hlines⟩
        rw [← List.append_assoc, ← htrace]
        exact hanswer
      apply Meets.mono _ hready (fun _ _ h => h) fun _ _ h => h
      apply meets_of_fact
      intro hhost
      apply Meets.ite
      · intro _
        exact recordContainer_ready hhost command args allowPythonConsoleScript allowedProcessTitle
      · intro _
        exact Meets.mono (keeps_createRefused hneutral host) (fun _ h => h.safe) (fun _ _ h => h)
          fun _ _ h => h
    · apply Meets.mono (keeps_createRefused hneutral host) _ (fun _ _ h => h) fun _ _ h => h
      rintro w ⟨before, hbefore, rfl, -⟩
      exact (hadds before hbefore).1

/-! ## From the prepared container to the result -/

variable (host source base image start) in
/-- What the connector may be given: the start of the created container, or a remote endpoint. -/
def Connectable (transport : Transport) (w : World) : Prop :=
  (∃ id, transport = .stdio (u "docker") (base.hostArgs ++ startArgs id) ∧
    Ready host source base image start id w) ∨
  source.launchesLocalProcess = false ∧ transport = .http source.reference ∧
    Safe host source base image start w

theorem Connectable.safe {transport : Transport} {w : World}
    (h : Connectable host source base image start transport w) : Safe host source base image start w := by
  obtain ⟨id, -, hready⟩ | ⟨-, -, hsafe⟩ := h
  · exact hready.safe
  · exact hsafe

variable (host source base image start) in
/-- The container `prepareLaunch` leaves behind, if the source launches a process. -/
def Launchable (prepared : Option (Str × List Str)) (w : World) : Prop :=
  (∃ id, prepared = some (u "docker", base.hostArgs ++ startArgs id) ∧
    Ready host source base image start id w) ∨
  source.launchesLocalProcess = false ∧ prepared = none ∧ Safe host source base image start w

theorem Launchable.safe {prepared : Option (Str × List Str)} {w : World}
    (h : Launchable host source base image start prepared w) : Safe host source base image start w := by
  obtain ⟨id, -, hready⟩ | ⟨-, -, hsafe⟩ := h
  · exact hready.safe
  · exact hsafe

variable (host source base image) in
/-- What the scan relies on where it prepares a launch. -/
def LaunchReady (sandbox : Sandbox) : Prop :=
  source.launchesLocalProcess = true → sandbox.isDocker = true ∧ DefaultControls base ∧
    base.image = image ∧ beginsWithDash image = false ∧
    (u "HOME", u "/scan") :: (u "TMPDIR", u "/scan") :: base.env = injectedEnv host source

theorem prepareLaunch_launchable {sandbox : Sandbox} (hlaunch : LaunchReady host source base image sandbox) :
    Bounded (Safe host source base image start) (Safe host source base image start)
      (prepareLaunch host sandbox source) (Launchable host source base image start) := by
  unfold prepareLaunch
  apply Meets.ite
  · intro howns
    unfold ownsContainer at howns
    rw [Bool.and_eq_true] at howns
    obtain ⟨-, hdefault, hsame, himage, henv⟩ := hlaunch howns.1
    have hspec : Bounded (Safe host source base image start) (Safe host source base image start)
        (lift source.dockerLaunchSpec)
        fun spec w => Safe host source base image start w ∧ source.dockerLaunchSpec = .ok spec :=
      meets_lift (fun _ _ hok hw => ⟨hw, hok⟩) fun _ _ _ hw => hw
    apply Meets.bind hspec
    rintro ⟨command, args⟩
    apply meets_of_fact
    intro hspec
    apply Meets.bind (keeps_lift source.dockerProcessTitle)
    intro title
    apply Meets.bind (bounded_catching
      (prepareOwnedContainer_ready hdefault hsame himage henv hspec _ title) (keeps_raise _))
    intro prepared
    apply meets_pure
    rintro w ⟨id, rfl, hready⟩
    exact .inl ⟨id, rfl, hready⟩
  · intro howns
    apply meets_pure
    intro w hw
    refine .inr ⟨?_, rfl, hw⟩
    cases hlaunches : source.launchesLocalProcess with
    | false => rfl
    | true => exact absurd (by simp [ownsContainer, hlaunches, (hlaunch hlaunches).1]) howns

theorem transportOf_connectable (sandbox : Sandbox) (prepared : Option (Str × List Str)) :
    Bounded (Launchable host source base image start prepared) (Launchable host source base image start prepared)
      (transportOf sandbox source prepared) fun transport w =>
        Connectable host source base image start transport w ∧
          Launchable host source base image start prepared w := by
  unfold transportOf
  apply Meets.ite
  · intro hlaunches
    apply meets_pure
    intro w hw
    exact ⟨.inr ⟨hlaunches, rfl, hw.safe⟩, hw⟩
  · intro hlaunches
    cases prepared with
    | none =>
      intro w hw
      obtain ⟨id, hid, -⟩ | ⟨hnone, -⟩ := hw
      · cases hid
      · exact absurd hnone hlaunches
    | some launch =>
      obtain ⟨command, args⟩ := launch
      apply meets_pure
      intro w hw
      refine ⟨?_, hw⟩
      obtain ⟨id, hid, hready⟩ | ⟨hnone, -⟩ := hw
      · cases hid
        exact .inl ⟨id, rfl, hready⟩
      · exact absurd hnone hlaunches

theorem configure_connectable (sandbox : Sandbox) (prepared : Option (Str × List Str)) :
    Bounded (Launchable host source base image start prepared) (Safe host source base image start)
      (configure host sandbox source prepared) (Connectable host source base image start) := by
  have hbuild : Bounded (Launchable host source base image start prepared)
      (Launchable host source base image start prepared) (buildConfig host sandbox source prepared)
      (Connectable host source base image start) := by
    unfold buildConfig
    apply Meets.bind (transportOf_connectable sandbox prepared)
    intro transport
    cases host.configRefused with
    | some e => exact bounded_raise e fun w hw => hw.2
    | none => exact meets_pure fun w hw => hw.1
  unfold configure
  apply Meets.handle hbuild
  intro e
  have hsafe : ∀ w, Launchable host source base image start prepared w → Safe host source base image start w :=
    fun w hw => hw.safe
  apply Meets.ite
  · intro _
    have hcleanup := keeps_cleanupOwnedContainer
      (@neutral_safe host source base image start) host
    apply Meets.mono _ hsafe (fun _ _ h => h) fun _ _ h => h
    apply Meets.bind (bounded_catching hcleanup (keeps_raise _))
    intro _
    exact keeps_raise e
  · intro _
    exact bounded_raise e hsafe

theorem refusedBy_connectable (refused : Option Raised) (transport : Transport) :
    Bounded (Connectable host source base image start transport) (Safe host source base image start)
      (refusedBy refused) fun _ => Connectable host source base image start transport := by
  cases refused with
  | some e => exact bounded_raise e fun w hw => hw.safe
  | none => exact meets_pure fun w hw => hw

theorem makeConnector_connectable (owned : Bool) (transport : Transport) :
    Bounded (Connectable host source base image start transport) (Safe host source base image start)
      (makeConnector host owned) fun _ => Connectable host source base image start transport := by
  unfold makeConnector
  apply Meets.bind (refusedBy_connectable host.connectorRefused transport)
  intro _
  apply Meets.ite
  · intro _
    exact bounded_raise _ fun w hw => hw.safe
  · intro _
    exact refusedBy_connectable host.pipelineRefused transport

theorem runSync_safe (owned : Bool) (transport : Transport) :
    Bounded (Connectable host source base image start transport) (Safe host source base image start)
      (runSync host owned transport) fun _ => Safe host source base image start := by
  have hemit : Bounded (Connectable host source base image start transport) (Safe host source base image start)
      (emit (.connect transport)) fun _ => Safe host source base image start := by
    apply meets_update
    rintro w (⟨id, rfl, hready⟩ | ⟨hlaunches, rfl, hsafe⟩)
    · apply hready.snoc
      intro events hsafe hcreated _
      exact ⟨.launch hsafe hcreated, trivial⟩
    · apply hsafe.snoc
      intro events hsafe _ _
      exact ⟨.remote hsafe hlaunches, trivial⟩
  have hprobe : Keeps (Safe host source base image start) (runtimeProbe host owned) := by
    apply Meets.ite
    · intro _
      apply Meets.bind (keeps_captureRuntimeReadback neutral_safe host)
      intro readback
      exact keeps_pure _
    · intro _
      exact keeps_pure _
  unfold runSync
  apply Meets.bind hemit
  intro _
  apply Meets.bind hprobe
  intro readback
  have hread : Bounded (Safe host source base image start) (Safe host source base image start) Eff.read
      fun _ => Safe host source base image start := meets_read fun _ h => h
  apply Meets.bind hread
  intro seen
  cases host.connector seen.trace with
  | raised e => exact keeps_raise e
  | missing => exact keeps_pure _
  | audit status => exact keeps_pure _

theorem connectWithLifecycle_safe (owned : Bool) (transport : Transport) :
    Bounded (Connectable host source base image start transport) (Safe host source base image start)
      (connectWithLifecycle host owned transport) fun _ => Safe host source base image start := by
  have hsettled : Bounded (Connectable host source base image start transport) (Safe host source base image start)
      (settled (runSync host owned transport)) fun _ => Safe host source base image start := by
    have hrun : Bounded (Connectable host source base image start transport) (Safe host source base image start)
        (do let a ← runSync host owned transport; pure (Except.ok a : Except Raised _))
        fun _ => Safe host source base image start := by
      apply Meets.bind (runSync_safe owned transport)
      intro a
      exact keeps_pure _
    apply Meets.handle hrun
    intro e
    exact keeps_pure _
  have hcleanup : Keeps (Safe host source base image start) (cleanupEvidenceOf host owned) := by
    apply Meets.ite
    · intro _
      apply Meets.bind (bounded_catching (keeps_cleanupOwnedContainer neutral_safe host) (keeps_raise _))
      intro evidence
      exact keeps_pure _
    · intro _
      exact keeps_pure _
  unfold connectWithLifecycle
  apply Meets.bind hsettled
  intro outcome
  apply Meets.bind hcleanup
  intro evidence
  split
  · exact keeps_raise _
  · exact keeps_raise _
  · exact keeps_pure _

theorem reportResult_safe (sandbox : Sandbox) (connected : Connected) :
    Keeps (Safe host source base image start) (reportResult host sandbox source connected) := by
  unfold reportResult
  apply Meets.ite
  · intro _
    exact keeps_raise _
  · intro _
    apply Meets.ite
    · intro _
      exact keeps_raise _
    · intro _
      cases host.analysisFailed with
      | some e => exact keeps_raise _
      | none =>
        have hbox : Bounded (Safe host source base image start) (Safe host source base image start) currentBox
            fun _ => Safe host source base image start := fun _ hw => hw
        apply Meets.bind hbox
        intro box
        exact keeps_pure _

/-- The part of `scan` behind the credentials. -/
theorem launch_safe {sandbox : Sandbox} (hlaunch : LaunchReady host source base image sandbox) :
    Keeps (Safe host source base image start) (do
      let prepared ← prepareLaunch host sandbox source
      let transport ← configure host sandbox source prepared
      makeConnector host (ownsContainer sandbox source)
      let connected ← handle
        (connectWithLifecycle host (ownsContainer sandbox source) transport)
        fun e => raise (reportConnection source e)
      reportResult host sandbox source connected) := by
  apply Meets.bind (prepareLaunch_launchable hlaunch)
  intro prepared
  apply Meets.bind (configure_connectable sandbox prepared)
  intro transport
  apply Meets.bind (makeConnector_connectable (ownsContainer sandbox source) transport)
  intro _
  apply Meets.bind (Meets.handle (connectWithLifecycle_safe (ownsContainer sandbox source) transport)
    fun e => keeps_raise (reportConnection source e))
  intro connected
  exact reportResult_safe sandbox connected

end Invariant

/-! ## One scan -/

section Step

/-- The image a scan of `source` runs in. -/
def effectiveImage (host : Host) (engine : MCPAuditEngine) (source : ServerSource) (w : World) : Str :=
  match engine.sandbox with
  | some _ => w.box.image
  | none => effectiveDockerImage host source.sandboxImage

/-- An engine with an injected Docker sandbox of default controls, or one that selects its
sandbox from an environment with the default network. -/
def Isolated (host : Host) (engine : MCPAuditEngine) (w : World) : Prop :=
  (engine.sandbox = some .docker ∧ DefaultControls w.box) ∨
    (engine.sandbox = none ∧ environGet host "MCP_TRUST_SANDBOX_NETWORK" "none" = u "none")

/-- What one scan of an untrusted source does to the world. -/
structure ConfinedStep (host : Host) (engine : MCPAuditEngine) (source : ServerSource)
    (w w' : World) : Prop where
  events : ∃ endpoint added, w'.trace = w.trace ++ added ∧
    SafeEvents host source (effectiveImage host engine source w) endpoint w.trace added
  injected : engine.sandbox = some .docker →
    DefaultControls w'.box ∧ w'.box.image = w.box.image

variable {host : Host} {engine : MCPAuditEngine} {source : ServerSource} {w₀ : World}

/-- The sandbox a scan has settled on, before any event. -/
structure Resolved (host : Host) (engine : MCPAuditEngine) (source : ServerSource) (w₀ : World)
    (sandbox : Sandbox) (w : World) : Prop where
  trace : w.trace = w₀.trace
  docker : sandbox.isDocker = true →
    DefaultControls w.box ∧ w.box.image = effectiveImage host engine source w₀
  injected : engine.sandbox = some .docker → sandbox = .docker

theorem Resolved.confinedStep {sandbox : Sandbox} {w : World}
    (h : Resolved host engine source w₀ sandbox w) : ConfinedStep host engine source w₀ w where
  events := ⟨[], [], by rw [h.trace, List.append_nil], .nil⟩
  injected hinjected := by
    have hdocker := h.docker (by rw [h.injected hinjected]; rfl)
    rw [effectiveImage, hinjected] at hdocker
    exact hdocker

theorem selectSandbox_resolved (hengine : engine.sandbox = none)
    (hnetwork : environGet host "MCP_TRUST_SANDBOX_NETWORK" "none" = u "none") :
    Bounded (fun w => w = w₀) (ConfinedStep host engine source w₀)
      (selectSandbox host source.sandboxImage) (Resolved host engine source w₀) := by
  have hinjected : ∀ {p : Prop}, engine.sandbox = some .docker → p := by
    intro p h
    rw [hengine] at h
    cases h
  have hstart : ConfinedStep host engine source w₀ w₀ :=
    ⟨⟨[], [], (List.append_nil _).symm, .nil⟩, hinjected⟩
  unfold selectSandbox
  apply Meets.ite
  · intro _
    apply meets_pure
    rintro w rfl
    exact ⟨rfl, (by simp [Sandbox.isDocker]), hinjected⟩
  · intro _
    apply Meets.ite
    · intro _
      have hendpoint : Bounded (fun w => w = w₀) (ConfinedStep host engine source w₀)
          (liftPy (dockerHostOf (host.environ (u "MCP_TRUST_DOCKER_HOST")))) fun _ w => w = w₀ :=
        meets_lift (fun _ _ _ hw => hw) fun _ _ _ hw => hw ▸ hstart
      apply Meets.bind hendpoint
      intro endpoint
      have hbox : Bounded (fun w => w = w₀) (ConfinedStep host engine source w₀)
          (setBox fun _ =>
            { image := effectiveDockerImage host source.sandboxImage
              network := environGet host "MCP_TRUST_SANDBOX_NETWORK" "none"
              host := endpoint
              ownerToken := host.freshToken })
          fun _ => Resolved host engine source w₀ .docker := by
        apply meets_update
        rintro w rfl
        refine ⟨rfl, fun _ => ⟨⟨hnetwork, rfl, rfl, rfl, rfl, rfl, rfl, rfl⟩, ?_⟩, hinjected⟩
        rw [effectiveImage, hengine]
      apply Meets.bind hbox
      intro _
      exact meets_pure fun w hw => hw
    · intro _
      apply bounded_raise
      rintro w rfl
      exact hstart

theorem resolveSandbox_resolved (hisolated : Isolated host engine w₀)
    (huntrusted : source.trusted = false) :
    Bounded (fun w => w = w₀) (ConfinedStep host engine source w₀)
      (resolveSandbox host engine source) fun sandbox w => Resolved host engine source w₀ sandbox w ∧
        (source.launchesLocalProcess = true → sandbox.isDocker = true) := by
  have hchosen : Bounded (fun w => w = w₀) (ConfinedStep host engine source w₀)
      (chosenSandbox host engine source) (Resolved host engine source w₀) := by
    obtain ⟨hengine, hdefault⟩ | ⟨hengine, hnetwork⟩ := hisolated
    · unfold chosenSandbox
      rw [hengine]
      apply meets_pure
      rintro w rfl
      refine ⟨rfl, fun _ => ⟨hdefault, ?_⟩, fun _ => rfl⟩
      rw [effectiveImage, hengine]
    · have hselect := @selectSandbox_resolved host engine source w₀ hengine hnetwork
      unfold chosenSandbox
      rw [hengine]
      exact hselect
  unfold resolveSandbox
  apply Meets.bind hchosen
  intro sandbox
  apply Meets.ite
  · intro _
    exact bounded_raise _ fun w hw => hw.confinedStep
  · intro hpassthrough
    apply Meets.ite
    · intro _
      exact bounded_raise _ fun w hw => hw.confinedStep
    · intro hforeign
      apply meets_pure
      intro w hw
      refine ⟨hw, fun hlaunches => ?_⟩
      -- neither refusal applied, so the sandbox isolates and is the repository's own
      simp only [huntrusted, hlaunches, true_and, and_true, Bool.not_eq_false] at hpassthrough
      simpa [hlaunches, hpassthrough] using hforeign

theorem buildDummyEnv_source (source : ServerSource) :
    buildDummyEnv source.envKeys = source.envKeys.map fun key => (key, dummyValue key) := by
  unfold buildDummyEnv
  rw [List.filter_eq_self.mpr]
  intro key hkey
  have hname := (source.envKeys_names key hkey).2
  cases key with
  | nil => cases hname
  | cons c rest => rfl

/-- After the reset, the sandbox carries the dummy values of this source and of no other. -/
theorem applyDummyCredentials_resolved {sandbox : Sandbox} :
    Bounded (Resolved host engine source w₀ sandbox) (ConfinedStep host engine source w₀)
      (applyDummyCredentials host sandbox source) fun _ w => Resolved host engine source w₀ sandbox w ∧
        (sandbox.isDocker = true →
          (u "HOME", u "/scan") :: (u "TMPDIR", u "/scan") :: w.box.env = injectedEnv host source) := by
  have hsetEnv : ∀ (env : List (Str × Str)) (w : World), Resolved host engine source w₀ sandbox w →
      Resolved host engine source w₀ sandbox { w with box := { w.box with env := env } } := by
    intro env w hw
    refine ⟨hw.trace, fun hdocker => ?_, hw.injected⟩
    obtain ⟨hdefault, himage⟩ := hw.docker hdocker
    exact ⟨⟨hdefault.1, hdefault.2, hdefault.3, hdefault.4, hdefault.5, hdefault.6, hdefault.7,
      hdefault.8⟩, himage⟩
  have hreset : Bounded (Resolved host engine source w₀ sandbox) (ConfinedStep host engine source w₀)
      (resetCredentials sandbox) fun _ w => Resolved host engine source w₀ sandbox w ∧
        (sandbox.isDocker = true → w.box.env = []) := by
    apply Meets.ite
    · intro _
      exact meets_update fun w hw => ⟨hsetEnv [] w hw, fun _ => rfl⟩
    · intro hdocker
      exact meets_pure fun w hw => ⟨hw, fun h => absurd h hdocker⟩
  unfold applyDummyCredentials
  apply Meets.bind hreset
  intro _
  apply Meets.ite
  · intro hnone
    apply meets_pure
    rintro w ⟨hw, hempty⟩
    refine ⟨hw, fun hdocker => ?_⟩
    rw [hempty hdocker, injectedEnv]
    obtain hmode | hkeys := hnone
    · rw [if_neg hmode]
    · rw [hkeys, List.map_nil, ite_self]
  · intro hsome
    rw [not_or, not_not] at hsome
    apply Meets.ite
    · intro _
      exact bounded_raise _ fun w hw => hw.1.confinedStep
    · intro _
      apply Meets.ite
      · intro _
        exact bounded_raise _ fun w hw => hw.1.confinedStep
      · intro _
        have hbox : Bounded (fun w => Resolved host engine source w₀ sandbox w ∧
            (sandbox.isDocker = true → w.box.env = [])) (ConfinedStep host engine source w₀) currentBox
            fun _ => Resolved host engine source w₀ sandbox := fun _ hw => hw.1
        apply Meets.bind hbox
        intro box
        apply Meets.ite
        · intro _
          exact bounded_raise _ fun w hw => hw.confinedStep
        · intro _
          apply meets_update
          intro w hw
          refine ⟨hsetEnv _ w hw, fun _ => ?_⟩
          rw [injectedEnv, if_pos hsome.1, buildDummyEnv_source]

theorem scan_confined (hisolated : Isolated host engine w₀) (huntrusted : source.trusted = false)
    (himage : beginsWithDash (effectiveImage host engine source w₀) = false) :
    ConfinedStep host engine source w₀ ((scan host engine source).after w₀) := by
  have hstart : ConfinedStep host engine source w₀ w₀ := by
    refine ⟨⟨[], [], (List.append_nil _).symm, .nil⟩, fun hengine => ?_⟩
    obtain ⟨-, hdefault⟩ | ⟨hnone, -⟩ := hisolated
    · exact ⟨hdefault, rfl⟩
    · rw [hnone] at hengine
      cases hengine
  have hscan : Bounded (fun w => w = w₀) (ConfinedStep host engine source w₀)
      (scan host engine source) fun _ => ConfinedStep host engine source w₀ := by
    unfold scan
    apply Meets.ite
    · intro _
      exact bounded_raise _ fun w hw => hw ▸ hstart
    · intro _
      apply Meets.bind (resolveSandbox_resolved hisolated huntrusted)
      intro sandbox
      apply Meets.ite
      · intro _
        exact bounded_raise _ fun w hw => hw.1.confinedStep
      · intro _
        apply meets_of_fact
        intro hdocker
        apply Meets.bind applyDummyCredentials_resolved
        intro _
        apply meets_of_state
        rintro w₁ ⟨hresolved, henv⟩
        -- from here on the sandbox changes in the identity of its container only
        have hlaunch : LaunchReady host source w₁.box (effectiveImage host engine source w₀) sandbox := by
          intro hlaunches
          obtain ⟨hdefault, hsame⟩ := hresolved.docker (hdocker hlaunches)
          exact ⟨hdocker hlaunches, hdefault, hsame, himage, henv (hdocker hlaunches)⟩
        have hsafe : ∀ w, Safe host source w₁.box (effectiveImage host engine source w₀) w₁.trace w →
            ConfinedStep host engine source w₀ w := by
          rintro w ⟨hbox, added, htrace, hadded, -⟩
          rw [hresolved.trace] at htrace hadded
          refine ⟨⟨_, added, htrace, hadded⟩, fun hinjected => ?_⟩
          obtain ⟨hdefault, hsame⟩ := hresolved.confinedStep.injected hinjected
          exact ⟨hbox.defaults hdefault, hbox.image.trans hsame⟩
        apply Meets.mono (launch_safe hlaunch) _ (fun _ => hsafe) fun _ => hsafe
        rintro w rfl
        exact ⟨⟨_, _, rfl⟩, [], (List.append_nil _).symm, .nil, trivial⟩
  exact hscan.after rfl

end Step

/-! ## Every run of scans -/

structure Call where
  host : Host
  source : ServerSource

/-- One call of `scan` on the engine; its caller goes on whatever it raises. -/
def ScanStep (engine : MCPAuditEngine) (w : World) (call : Call) (w' : World) : Prop :=
  w' = (scan call.host engine call.source).after w

/-- The engines the isolation of untrusted sources rests on, with the environment of each call. -/
def IsolatedRun (engine : MCPAuditEngine) (w₀ : World) (calls : List Call) : Prop :=
  ∀ call ∈ calls, Isolated call.host engine w₀

/-- What an injected sandbox keeps through a run. -/
theorem run_injected {engine : MCPAuditEngine} {w₀ w : World} {calls : List Call}
    (hisolated : IsolatedRun engine w₀ calls) (huntrusted : ∀ call ∈ calls, call.source.trusted = false)
    (himage : ∀ call ∈ calls, beginsWithDash (effectiveImage call.host engine call.source w₀) = false)
    (hrun : Transition.Run (ScanStep engine) w₀ calls w) (hinjected : engine.sandbox = some .docker)
    (hdefault : DefaultControls w₀.box) : DefaultControls w.box ∧ w.box.image = w₀.box.image := by
  induction hrun with
  | nil => exact ⟨hdefault, rfl⟩
  | @snoc calls call w w' _ hstep ih =>
    have hsub : ∀ c ∈ calls, c ∈ calls ++ [call] := fun c hc => List.mem_append_left _ hc
    obtain ⟨hbox, hsame⟩ := ih (fun c hc => hisolated c (hsub c hc)) (fun c hc => huntrusted c (hsub c hc))
      fun c hc => himage c (hsub c hc)
    have hcall : call ∈ calls ++ [call] := List.mem_append_right _ (List.mem_singleton.mpr rfl)
    have heffective : beginsWithDash (effectiveImage call.host engine call.source w) = false := by
      have hstart := himage call hcall
      unfold effectiveImage at hstart ⊢
      rw [hinjected] at hstart ⊢
      rwa [hsame]
    have hconfined := @scan_confined call.host _ _ _ (.inl ⟨hinjected, hbox⟩)
      (huntrusted call hcall) heffective
    rw [hstep]
    obtain ⟨hbox', hsame'⟩ := hconfined.injected hinjected
    exact ⟨hbox', hsame'.trans hsame⟩

theorem scans_confined {engine : MCPAuditEngine} {w₀ w : World} {calls : List Call}
    (hisolated : IsolatedRun engine w₀ calls) (huntrusted : ∀ call ∈ calls, call.source.trusted = false)
    (himage : ∀ call ∈ calls, beginsWithDash (effectiveImage call.host engine call.source w₀) = false)
    (hrun : Transition.Run (ScanStep engine) w₀ calls w) {call : Call} (hcall : call ∈ calls) :
    ∃ before after w₁ w₂, calls = before ++ call :: after ∧
      Transition.Run (ScanStep engine) w₀ before w₁ ∧ ScanStep engine w₁ call w₂ ∧
      Transition.Run (ScanStep engine) w₂ after w ∧
      ∃ endpoint added, w₂.trace = w₁.trace ++ added ∧
        SafeEvents call.host call.source (effectiveImage call.host engine call.source w₀) endpoint
          w₁.trace added := by
  obtain ⟨before, after, w₁, w₂, rfl, hbefore, hstep, hafter⟩ := hrun.split hcall
  refine ⟨before, after, w₁, w₂, rfl, hbefore, hstep, hafter, ?_⟩
  have hsub : ∀ c ∈ before, c ∈ before ++ call :: after := fun c hc => List.mem_append_left _ hc
  have hreached : Isolated call.host engine w₁ ∧
      effectiveImage call.host engine call.source w₁ =
        effectiveImage call.host engine call.source w₀ := by
    obtain ⟨hinjected, hdefault⟩ | ⟨hnone, hnetwork⟩ := hisolated call hcall
    · obtain ⟨hbox, hsame⟩ := run_injected (fun c hc => hisolated c (hsub c hc))
        (fun c hc => huntrusted c (hsub c hc)) (fun c hc => himage c (hsub c hc)) hbefore hinjected
        hdefault
      refine ⟨.inl ⟨hinjected, hbox⟩, ?_⟩
      unfold effectiveImage
      rw [hinjected]
      exact hsame
    · refine ⟨.inr ⟨hnone, hnetwork⟩, ?_⟩
      unfold effectiveImage
      rw [hnone]
  have hevents := (scan_confined hreached.1 (huntrusted call hcall)
    (by rw [hreached.2]; exact himage call hcall)).events
  rw [hreached.2] at hevents
  rw [hstep]
  exact hevents

/-! ## Runs on fixed inputs -/

/-- A host on which every container is created and nothing else works. -/
def sampleHost (environ : List (String × String)) : Host where
  environ name := (environ.find? fun entry => decide (u entry.1 = name)).map fun entry => u entry.2
  dockerOnPath := true
  engineInstalled := true
  freshToken := u "0123456789abcdef"
  runner trace :=
    match trace.getLast? with
    | some (.invoke argv) =>
      if u "create" ∈ argv then .completed 0 (List.replicate 64 (ch 'a')) else .completed 1 []
    | _ => .completed 1 []
  attestor := []
  timeLeft _ := true
  connector _ := .missing
  connectorRefused := none
  hasLifecycleHook := true
  pipelineRefused := none
  configRefused := none
  readbackVerdict _ := .error .interrupt
  analysisFailed := none
  interp := ⟨64, by decide⟩

def sampleSource (image : String) : ServerSource where
  kind := .binary
  reference := u "server"
  command := some (u "node:22-slim")
  args := [u "server"]
  envKeys := [u "API_TOKEN"]
  sandboxImage := some (u image)
  envKeys_names := by decide
  envKeys_nodup := by decide

def sampleWorld : World := ⟨{ ownerToken := [] }, [], 0⟩

/-- A scan in the sample environment, `dummy` credentials included. -/
def sampleCall : Call :=
  ⟨sampleHost [("MCP_TRUST_SANDBOX", "docker"), ("MCP_TRUST_SCAN_CREDENTIALS", "dummy")],
    sampleSource "scan-image"⟩

theorem scans_confined_sample : ∃ before after w₁ w₂, [sampleCall] = before ++ sampleCall :: after ∧
    Transition.Run (ScanStep ⟨none⟩) sampleWorld before w₁ ∧ ScanStep ⟨none⟩ w₁ sampleCall w₂ ∧
    Transition.Run (ScanStep ⟨none⟩) w₂ after
      ((scan sampleCall.host ⟨none⟩ sampleCall.source).after sampleWorld) ∧
    ∃ endpoint added, w₂.trace = w₁.trace ++ added ∧
      SafeEvents sampleCall.host sampleCall.source
        (effectiveImage sampleCall.host ⟨none⟩ sampleCall.source sampleWorld) endpoint w₁.trace added := by
  have hisolated : IsolatedRun ⟨none⟩ sampleWorld [sampleCall] := by
    intro call hcall
    rw [List.mem_singleton.mp hcall]
    exact .inr ⟨rfl, by decide +kernel⟩
  have huntrusted : ∀ call ∈ [sampleCall], call.source.trusted = false := by
    intro call hcall
    rw [List.mem_singleton.mp hcall]
    rfl
  have himage : ∀ call ∈ [sampleCall],
      beginsWithDash (effectiveImage call.host ⟨none⟩ call.source sampleWorld) = false := by
    intro call hcall
    rw [List.mem_singleton.mp hcall]
    decide +kernel
  have hrun : Transition.Run (ScanStep ⟨none⟩) sampleWorld ([] ++ [sampleCall])
      ((scan sampleCall.host ⟨none⟩ sampleCall.source).after sampleWorld) := .snoc .nil rfl
  exact scans_confined hisolated huntrusted himage hrun (List.mem_singleton.mpr rfl)

/-- The vector a scan with a fresh default sandbox of `image` creates its container with. -/
def sampleArgv (image : String) (env : List (Str × Str)) (command : Str) (args : List Str) : List Str :=
  u "docker" :: u "container" :: u "create" ::
    ({ image := u image, env := env, ownerToken := u "0123456789abcdef" } : DockerSandbox).createTail
      command args

def reviewedSource : ServerSource where
  kind := .npm
  reference := u "raven-mcp"
  command := some (u "raven-mcp")
  sandboxImage := some (u "scan-image")
  envKeys_names := by decide
  envKeys_nodup := by decide

/-- An image that begins with a dash is read as an option, and the command takes its place;
without the credentials mode a required key gets no value; the console script of a reviewed npm
package is run by Node. -/
theorem scan_unconfined :
    (∃ host source argv line, Isolated host ⟨none⟩ sampleWorld ∧ source.trusted = false ∧
      Event.invoke argv ∈ ((scan host ⟨none⟩ source).after sampleWorld).trace ∧
      parseCreate argv = some line ∧ line.uses "--privileged" ∧
      line.positionals.head? ≠ some (effectiveImage host ⟨none⟩ source sampleWorld)) ∧
    (∃ host source argv line, Isolated host ⟨none⟩ sampleWorld ∧ source.trusted = false ∧
      Event.invoke argv ∈ ((scan host ⟨none⟩ source).after sampleWorld).trace ∧
      parseCreate argv = some line ∧ source.envKeys = [u "API_TOKEN"] ∧
      line.valuesOf "--env" = [some (u "HOME=/scan"), some (u "TMPDIR=/scan")]) ∧
    ∃ host source argv line, Isolated host ⟨none⟩ sampleWorld ∧ source.trusted = false ∧
      Event.invoke argv ∈ ((scan host ⟨none⟩ source).after sampleWorld).trace ∧
      parseCreate argv = some line ∧
      line.positionals.tail.head? ≠ source.command := by
  have hisolated : Isolated (sampleHost [("MCP_TRUST_SANDBOX", "docker")]) ⟨none⟩ sampleWorld :=
    .inr ⟨rfl, by decide +kernel⟩
  refine ⟨?_, ?_, ?_⟩
  · have hline : (parseCreate (sampleArgv "--privileged" [] (u "node:22-slim") [u "server"])).map
        (fun line => (line.options.any fun o => decide (o.1 = u "--privileged"), line.positionals.head?)) =
        some (true, some (u "node:22-slim")) := by decide +kernel
    obtain ⟨line, hparse, hfacts⟩ := Option.map_eq_some_iff.mp hline
    rw [Prod.mk.injEq, List.any_eq_true] at hfacts
    obtain ⟨⟨option, hoption, hname⟩, hhead⟩ := hfacts
    refine ⟨_, sampleSource "--privileged", _, line, hisolated, rfl, ?_, hparse,
      ⟨option, hoption, of_decide_eq_true hname⟩, ?_⟩
    · decide +kernel
    · rw [hhead]
      decide +kernel
  · have hline : (parseCreate (sampleArgv "scan-image" [] (u "node:22-slim") [u "server"])).map
        (fun line => line.valuesOf "--env") =
        some [some (u "HOME=/scan"), some (u "TMPDIR=/scan")] := by decide +kernel
    obtain ⟨line, hparse, henv⟩ := Option.map_eq_some_iff.mp hline
    refine ⟨_, sampleSource "scan-image", _, line, hisolated, rfl, ?_, hparse, rfl, henv⟩
    decide +kernel
  · have hline : (parseCreate (sampleArgv "scan-image" [] npmConsoleScriptInterpreter
        [u "/opt/npm/node_modules/.bin/raven-mcp"])).map (fun line => line.positionals.tail.head?) =
        some (some npmConsoleScriptInterpreter) := by decide +kernel
    obtain ⟨line, hparse, hhead⟩ := Option.map_eq_some_iff.mp hline
    refine ⟨_, reviewedSource, _, line, hisolated, rfl, ?_, hparse, ?_⟩
    · decide +kernel
    · rw [hhead]
      decide +kernel

end McpTrust.Engine
