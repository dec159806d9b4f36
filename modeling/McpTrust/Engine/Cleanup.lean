import McpTrust.Engine.Confinement

/-! # Every created container is cleaned up

Cleanup begins with a query for the containers of the owner token, so in a trace
a creation is cleaned up once such a query follows it. Preparation, configuration
and connection reach the query on every exit; what `scan` does between them must
not raise.
-/

namespace McpTrust.Engine

set_option autoImplicit false

open Python Effects Effects.Eff

/-! ## Creations and cleanups in a trace -/

def IsCreate (argv : List Str) : Prop :=
  ∃ (box : DockerSandbox) (rest : List Str), argv = box.dockerCommand (u "container" :: u "create" :: rest)

/-- The query with which `cleanup_owned_container` begins. -/
def IsOwnerQuery (event : Event) : Prop :=
  ∃ (box : DockerSandbox) (rest : List Str),
    event = .invoke (box.dockerCommand (u "container" :: u "ls" :: rest))

/-- Exit code zero and one full container id. -/
def ReportsContainer (completed : ℤ × Str) : Prop :=
  completed.1 = 0 ∧ ∃ id, strippedLines completed.2 = [id] ∧ isFullContainerId id = true

section Traces

variable (host : Host)

/-- At this point of the trace the runner is asked to create a container and reports it. -/
def Reports (before : List Event) (argv : List Str) : Prop :=
  IsCreate argv ∧ ∃ completed : ℤ × Str,
    host.runner (before ++ [.invoke argv]) = .completed completed.1 completed.2 ∧ ReportsContainer completed

def CreatedIn (trace : List Event) : Prop :=
  ∃ before argv later, trace = before ++ .invoke argv :: later ∧ Reports host before argv

/-- After every reported creation a cleanup began. -/
def CleanedUp (trace : List Event) : Prop :=
  ∀ before argv later, trace = before ++ .invoke argv :: later → Reports host before argv →
    ∃ event ∈ later, IsOwnerQuery event

/-- No container has been created yet. -/
def Unopened (w : World) : Prop := ¬CreatedIn host w.trace

def Clean (w : World) : Prop := CleanedUp host w.trace

end Traces

section Events

variable {host : Host} {trace : List Event} {event : Event}

theorem dockerCommand_not_create (box : DockerSandbox) {args : List Str}
    (h : args.take 2 ∈ managementVerbs) : ¬IsCreate (box.dockerCommand args) := by
  rintro ⟨box', rest, heq⟩
  have htail : box.hostArgs ++ args = box'.hostArgs ++ u "container" :: u "create" :: rest :=
    (List.cons.inj heq).2
  have hverbs : ∀ verb ∈ managementVerbs, verb ≠ [u "container", u "create"] ∧ verb.head? ≠ some (u "--host") := by
    decide
  obtain ⟨hcreate, hhead⟩ := hverbs _ h
  unfold DockerSandbox.hostArgs at htail
  cases hbox : box.host with
  | none =>
    cases hbox' : box'.host with
    | none =>
      rw [hbox, hbox'] at htail
      obtain rfl : args = u "container" :: u "create" :: rest := htail
      exact hcreate rfl
    | some endpoint =>
      rw [hbox, hbox'] at htail
      obtain rfl : args = u "--host" :: endpoint.val :: u "container" :: u "create" :: rest := htail
      exact hhead rfl
  | some endpoint =>
    cases hbox' : box'.host with
    | none =>
      rw [hbox, hbox'] at htail
      have hword : u "--host" = u "container" := (List.cons.inj htail).1
      exact absurd hword (by decide)
    | some endpoint' =>
      rw [hbox, hbox'] at htail
      obtain rfl : args = u "container" :: u "create" :: rest := (List.cons.inj (List.cons.inj htail).2).2
      exact hcreate rfl

/-- A split of an extended trace is at the new event or before it. -/
theorem split_snoc {before later : List Event} {argv : List Str}
    (h : trace ++ [event] = before ++ .invoke argv :: later) :
    (later = [] ∧ before = trace ∧ event = .invoke argv) ∨
      ∃ rest, later = rest ++ [event] ∧ trace = before ++ .invoke argv :: rest := by
  obtain rfl | ⟨rest, last, rfl⟩ := List.eq_nil_or_concat' later
  · obtain ⟨hbefore, hlast⟩ := List.append_inj' h rfl
    exact .inl ⟨rfl, hbefore.symm, List.singleton_inj.mp hlast⟩
  · have hsplit : trace ++ [event] = (before ++ .invoke argv :: rest) ++ [last] := by
      rw [h, List.append_assoc, List.cons_append]
    obtain ⟨htrace, hlast⟩ := List.append_inj' hsplit rfl
    obtain rfl := List.singleton_inj.mp hlast
    exact .inr ⟨rest, rfl, htrace⟩

theorem not_createdIn_snoc (h : ¬CreatedIn host trace)
    (hevent : ∀ argv, event = .invoke argv → ¬Reports host trace argv) : ¬CreatedIn host (trace ++ [event]) := by
  rintro ⟨before, argv, later, hsplit, hreports⟩
  obtain ⟨-, rfl, rfl⟩ | ⟨rest, -, htrace⟩ := split_snoc hsplit
  · exact hevent argv rfl hreports
  · exact h ⟨before, argv, rest, htrace, hreports⟩

theorem cleanedUp_snoc (h : CleanedUp host trace)
    (hevent : ∀ argv, event = .invoke argv → ¬Reports host trace argv) : CleanedUp host (trace ++ [event]) := by
  intro before argv later hsplit hreports
  obtain ⟨-, rfl, rfl⟩ | ⟨rest, rfl, htrace⟩ := split_snoc hsplit
  · exact absurd hreports (hevent argv rfl)
  · obtain ⟨query, hquery, howner⟩ := h before argv rest htrace hreports
    exact ⟨query, List.mem_append_left _ hquery, howner⟩

/-- A query cleans up whatever was created before it. -/
theorem cleanedUp_query (trace : List Event) (h : IsOwnerQuery event) : CleanedUp host (trace ++ [event]) := by
  intro before argv later hsplit hreports
  obtain ⟨-, rfl, rfl⟩ | ⟨rest, rfl, -⟩ := split_snoc hsplit
  · obtain ⟨box, rest, hargv⟩ := h
    obtain rfl := Event.invoke.inj hargv
    exact absurd hreports.1 (dockerCommand_not_create box (by simp [managementVerbs]))
  · exact ⟨event, List.mem_append_right _ (List.mem_singleton_self _), h⟩

theorem cleanedUp_of_not_created (h : ¬CreatedIn host trace) : CleanedUp host trace :=
  fun before argv later hsplit hreports => absurd ⟨before, argv, later, hsplit, hreports⟩ h

theorem Unopened.clean {w : World} (h : Unopened host w) : Clean host w := cleanedUp_of_not_created h

end Events

section Steps

variable {host : Host} {I E : World → Prop}

/-- Reading the sandbox changes nothing. -/
theorem reads_currentBox : Bounded I E currentBox fun _ => I := fun _ hw => hw

/-- What does not speak of the sandbox outlives a change of it. -/
theorem sets_box {f : DockerSandbox → DockerSandbox} (h : ∀ w, I w → I { w with box := f w.box }) :
    Bounded I E (setBox f) fun _ => I := meets_update h

theorem not_reports_manage (box : DockerSandbox) {args : List Str} (hargs : args.take 2 ∈ managementVerbs)
    (trace : List Event) : ∀ argv, Event.invoke (box.dockerCommand args) = .invoke argv →
      ¬Reports host trace argv := by
  intro argv hargv hreports
  obtain rfl := Event.invoke.inj hargv
  exact dockerCommand_not_create box hargs hreports.1

theorem neutral_unopened : Neutral (Unopened host) where
  manage w _ hw hargs := not_createdIn_snoc hw (not_reports_manage w.box hargs w.trace)
  clock _ _ hw := hw
  identity _ _ _ hw := hw

theorem neutral_clean : Neutral (Clean host) where
  manage w _ hw hargs := cleanedUp_snoc hw (not_reports_manage w.box hargs w.trace)
  clock _ _ hw := hw
  identity _ _ _ hw := hw

/-! ## Cleanup -/

/-- The query for the owned containers, wherever it is made. -/
theorem ownedContainerIds_cleans :
    Bounded (fun _ => True) (Clean host) (ownedContainerIds host) fun _ => Clean host := by
  unfold ownedContainerIds
  apply Meets.bind bounded_currentBox
  intro box
  have hquery : ∀ w : World, (True ∧ w.box = box) → Clean host { w with trace := w.trace ++ [.invoke
      (box.dockerCommand [u "container", u "ls", u "--all", u "--no-trunc", u "--filter",
        u "label=" ++ scanOwnerLabel ++ ch '=' :: box.ownerToken, u "--filter",
        u "name=^/" ++ box.containerName ++ u "$", u "--format", u "\x7b\x7b.ID\x7d\x7d"])] } :=
    fun w _ => cleanedUp_query w.trace ⟨box, _, rfl⟩
  apply Meets.bind (bounded_catching (bounded_invoke hquery) (keeps_raise _))
  rintro ⟨returncode, stdout⟩
  apply Meets.ite
  · intro _
    exact keeps_raise _
  · intro _
    apply Meets.ite
    · intro _
      exact keeps_raise _
    · intro _
      exact keeps_pure _

/-- However it ends, a cleanup has cleaned up; if it returns, it has seen the container gone. -/
theorem cleanupOwnedContainer_cleans :
    Bounded (fun _ => True) (Clean host) (cleanupOwnedContainer host) fun evidence w =>
      Clean host w ∧ evidence = absenceVerified := by
  unfold cleanupOwnedContainer
  apply Meets.bind ownedContainerIds_cleans
  intro containerIds
  apply Meets.bind (keeps_removeListed neutral_clean host containerIds)
  intro _
  apply Meets.bind (keeps_ownedContainerIds neutral_clean host)
  intro remaining
  apply Meets.ite
  · intro _
    exact bounded_raise _ fun _ hw => hw
  · intro _
    apply Meets.bind (keeps_setIdentity neutral_clean none none)
    intro _
    exact meets_pure fun w hw => ⟨hw, rfl⟩

/-! ## Preparation -/

/-- A call of the runner, with either answer. -/
theorem invoke_ends {P : World → Prop} {argv : List Str} :
    Meets P (invoke host argv)
      (fun completed w => ∃ before : World, P before ∧
        w = { before with trace := before.trace ++ [.invoke argv] } ∧
          host.runner w.trace = .completed completed.1 completed.2)
      fun e w => ∃ before : World, P before ∧
        w = { before with trace := before.trace ++ [.invoke argv] } ∧ host.runner w.trace = .raised e := by
  have hemit : Meets P (emit (.invoke argv)) (fun _ w => ∃ before : World, P before ∧
      w = { before with trace := before.trace ++ [.invoke argv] })
      fun e w => ∃ before : World, P before ∧
        w = { before with trace := before.trace ++ [.invoke argv] } ∧ host.runner w.trace = .raised e :=
    meets_update fun w hw => ⟨w, hw, rfl⟩
  unfold invoke
  apply Meets.bind hemit
  intro _
  apply meets_of_state
  rintro w ⟨before, hbefore, hasked⟩
  have hread : Meets (fun w' => w' = w) (read : Scan World) (fun seen w' => w' = w ∧ seen = w)
      fun e w => ∃ before : World, P before ∧
        w = { before with trace := before.trace ++ [.invoke argv] } ∧ host.runner w.trace = .raised e :=
    meets_read fun _ heq => ⟨heq, heq⟩
  apply Meets.bind hread
  rintro seen
  apply meets_of_fact
  rintro rfl
  cases hreply : host.runner seen.trace with
  | completed returncode stdout =>
    refine meets_pure ?_
    rintro _ rfl
    exact ⟨before, hbefore, hasked, hreply⟩
  | raised e =>
    refine meets_raise ?_
    rintro _ rfl
    exact ⟨before, hbefore, hasked, hreply⟩

/-- Asking for the container opens the scan only if a container is reported. -/
theorem create_opens (argv : List Str) :
    Meets (Unopened host) (catching (invoke host argv) Raised.isRunnerFailure (createFailed host))
      (fun completed w => ¬ReportsContainer completed → Unopened host w) fun _ => Unopened host := by
  have hinvoke : Meets (Unopened host) (invoke host argv)
      (fun completed w => ¬ReportsContainer completed → Unopened host w) fun _ => Unopened host := by
    apply Meets.mono invoke_ends (fun _ hw => hw)
    · rintro completed w ⟨before, hbefore, rfl, hreply⟩ hnone
      refine not_createdIn_snoc hbefore fun argv' hargv hreports => ?_
      obtain rfl := Event.invoke.inj hargv
      obtain ⟨-, completed', hreply', hreported⟩ := hreports
      obtain ⟨hcode, hout⟩ := Reply.completed.inj (hreply.symm.trans hreply')
      exact hnone ⟨hcode.trans hreported.1, by rw [hout]; exact hreported.2⟩
    · rintro e w ⟨before, hbefore, rfl, hreply⟩
      refine not_createdIn_snoc hbefore fun argv' hargv hreports => ?_
      obtain rfl := Event.invoke.inj hargv
      obtain ⟨-, completed', hreply', -⟩ := hreports
      rw [hreply] at hreply'
      cases hreply'
  apply Meets.handle hinvoke
  intro e
  apply Meets.ite
  · intro _
    exact keeps_createFailed neutral_unopened host
  · intro _
    exact bounded_raise e fun _ hw => hw

/-- A preparation that raises leaves nothing behind, where the digests of the command can be taken. -/
theorem prepareOwnedContainer_cleans {command : Str} {args : List Str} {allowPythonConsoleScript : Bool}
    {allowedProcessTitle : Option Str}
    (hdigests : ∃ digests, serverProcessDigests command args allowPythonConsoleScript allowedProcessTitle =
      .ok digests) :
    Bounded (Unopened host) (Clean host)
      (prepareOwnedContainer host command args allowPythonConsoleScript allowedProcessTitle) fun _ _ => True := by
  obtain ⟨digests, hdigests⟩ := hdigests
  unfold prepareOwnedContainer
  apply Meets.bind reads_currentBox
  intro box
  apply Meets.ite
  · intro _
    exact bounded_raise _ fun _ hw => hw.clean
  · intro _
    have hcreate : Bounded (Unopened host) (Clean host) (liftPy (createArgs (box.wrap command args).2))
        fun _ => Unopened host := meets_lift (fun _ _ _ hw => hw) fun _ _ _ hw => hw.clean
    apply Meets.bind hcreate
    intro create
    apply Meets.bind (Meets.mono (create_opens _) (fun _ hw => hw) (fun _ _ hw => hw) fun _ _ hw => hw.clean)
    rintro ⟨returncode, stdout⟩
    have hrefused : ¬ReportsContainer (returncode, stdout) →
        Bounded (fun w => ¬ReportsContainer (returncode, stdout) → Unopened host w) (Clean host)
          (createRefused host) fun _ _ => True := fun hnone => by
      have hkeeps : Bounded (Unopened host) (Unopened host) (createRefused host) fun _ _ => True :=
        keeps_createRefused neutral_unopened host
      exact Meets.mono hkeeps (fun _ hw => hw hnone) (fun _ _ _ => trivial) fun _ _ hw => hw.clean
    dsimp only
    split
    · next containerId hlines =>
      apply Meets.ite
      · intro _
        have hset : ∀ f : DockerSandbox → DockerSandbox, Bounded (fun _ => True) (Clean host) (setBox f)
            fun _ _ => True := fun f => sets_box fun _ _ => trivial
        apply Meets.bind (Meets.mono (hset _) (fun _ _ => trivial) (fun _ _ h => h) fun _ _ h => h)
        intro _
        have htaken : Bounded (fun _ => True) (Clean host)
            (lift (serverProcessDigests command args allowPythonConsoleScript allowedProcessTitle))
            fun _ _ => True := by
          refine meets_lift (fun _ _ _ _ => trivial) fun e _ herror _ => ?_
          rw [hdigests] at herror
          cases herror
        apply Meets.bind htaken
        intro digests
        apply Meets.bind (hset _)
        intro _
        exact meets_pure fun _ _ => trivial
      · intro hfull
        refine hrefused ?_
        rintro ⟨-, id, hid, hidfull⟩
        obtain rfl : containerId = id := List.singleton_inj.mp (hlines.symm.trans hid)
        exact hfull hidfull
    · next hother =>
      refine hrefused ?_
      rintro ⟨hcode, id, hid, -⟩
      exact hother id hcode hid

end Steps

/-! ## The scan -/

section Scan

variable {host : Host} {engine : MCPAuditEngine} {source : ServerSource} {I : World → Prop}

/-- Nothing that `scan` does between preparation and connection raises: the connector is made and has
the hook the lifecycle needs, analyzer and scorer are made, and the digests of the command are taken. -/
structure LifecycleIntact (host : Host) (source : ServerSource) : Prop where
  connector : host.connectorRefused = none
  hook : host.hasLifecycleHook = true
  pipeline : host.pipelineRefused = none
  digests : ∀ command args title, source.dockerLaunchSpec = .ok (command, args) →
    source.dockerProcessTitle = .ok title → ∃ digests, serverProcessDigests command args
      (decide (source.kind = .pypi) && decide (source.command ≠ none)) title = .ok digests

theorem keeps_buildConfig (sandbox : Sandbox) (prepared : Option (Str × List Str)) :
    Keeps I (buildConfig host sandbox source prepared) := by
  have htransport : Keeps I (transportOf sandbox source prepared) := by
    unfold transportOf
    apply Meets.ite
    · intro _
      exact keeps_pure _
    · intro _
      cases prepared with
      | some launch => exact keeps_pure _
      | none =>
        apply Meets.bind (keeps_lift source.launchSpec)
        intro launch
        have hwrap : Keeps I (wrapWith sandbox launch.1 launch.2) := by
          cases sandbox with
          | docker =>
            apply Meets.bind reads_currentBox
            intro box
            exact keeps_pure _
          | noSandbox => exact keeps_pure _
          | custom => exact keeps_pure _
        apply Meets.bind hwrap
        intro wrapped
        exact keeps_pure _
  unfold buildConfig
  apply Meets.bind htransport
  intro transport
  cases host.configRefused with
  | some e => exact keeps_raise e
  | none => exact keeps_pure _

theorem keeps_resolveSandbox : Keeps (Unopened host) (resolveSandbox host engine source) := by
  have hchosen : Keeps (Unopened host) (chosenSandbox host engine source) := by
    unfold chosenSandbox
    cases engine.sandbox with
    | some sandbox => exact keeps_pure _
    | none =>
      unfold selectSandbox
      apply Meets.ite
      · intro _
        exact keeps_pure _
      · intro _
        apply Meets.ite
        · intro _
          apply Meets.bind (keeps_liftPy _)
          intro endpoint
          apply Meets.bind (sets_box fun _ hw => hw)
          intro _
          exact keeps_pure _
        · intro _
          exact keeps_raise _
  unfold resolveSandbox
  apply Meets.bind hchosen
  intro sandbox
  apply Meets.ite
  · intro _
    exact keeps_raise _
  · intro _
    apply Meets.ite
    · intro _
      exact keeps_raise _
    · intro _
      exact keeps_pure _

theorem keeps_applyDummyCredentials (sandbox : Sandbox) :
    Keeps (Unopened host) (applyDummyCredentials host sandbox source) := by
  have hreset : Keeps (Unopened host) (resetCredentials sandbox) := by
    unfold resetCredentials
    apply Meets.ite
    · intro _
      exact sets_box fun _ hw => hw
    · intro _
      exact keeps_pure _
  unfold applyDummyCredentials
  apply Meets.bind hreset
  intro _
  apply Meets.ite
  · intro _
    exact keeps_pure _
  · intro _
    apply Meets.ite
    · intro _
      exact keeps_raise _
    · intro _
      apply Meets.ite
      · intro _
        exact keeps_raise _
      · intro _
        apply Meets.bind reads_currentBox
        intro box
        apply Meets.ite
        · intro _
          exact keeps_raise _
        · intro _
          exact sets_box fun _ hw => hw

/-- Without a container of its own the scan creates none. -/
theorem keeps_connectWithLifecycle (transport : Transport) :
    Keeps (Unopened host) (connectWithLifecycle host false transport) := by
  have hconnect : Keeps (Unopened host) (emit (.connect transport)) :=
    meets_update fun w hw => not_createdIn_snoc hw fun argv hargv => by cases hargv
  have hrun : Keeps (Unopened host) (runSync host false transport) := by
    unfold runSync
    apply Meets.bind hconnect
    intro _
    have hprobe : Keeps (Unopened host) (runtimeProbe host false) := keeps_pure none
    apply Meets.bind hprobe
    intro readback
    have hread : Bounded (Unopened host) (Unopened host) read fun _ => Unopened host := meets_read fun _ hw => hw
    apply Meets.bind hread
    intro w
    cases host.connector w.trace with
    | audit status => exact keeps_pure _
    | missing => exact keeps_pure _
    | raised e => exact keeps_raise e
  have hsettled : Keeps (Unopened host) (settled (runSync host false transport)) := by
    unfold settled
    refine Meets.handle (Meets.bind hrun fun _ => keeps_pure _) fun e => keeps_pure _
  unfold connectWithLifecycle
  apply Meets.bind hsettled
  intro outcome
  have hevidence : Keeps (Unopened host) (cleanupEvidenceOf host false) := keeps_pure none
  apply Meets.bind hevidence
  intro evidence
  split
  · exact keeps_raise _
  · exact keeps_raise _
  · exact keeps_pure _

theorem keeps_reportResult (sandbox : Sandbox) (connected : Connected) :
    Bounded I I (reportResult host sandbox source connected) fun result w => I w ∧
      result.sandboxCleanupEvidence = connected.cleanupEvidence ∧
        result.sandboxRuntimeReadback = connected.readback := by
  unfold reportResult
  apply Meets.ite
  · intro _
    exact bounded_raise _ fun _ hw => hw
  · intro _
    apply Meets.ite
    · intro _
      exact bounded_raise _ fun _ hw => hw
    · intro _
      cases host.analysisFailed with
      | some e => exact bounded_raise _ fun _ hw => hw
      | none =>
        apply Meets.bind reads_currentBox
        intro box
        exact meets_pure fun w hw => ⟨hw, rfl, rfl⟩

theorem prepareLaunch_cleans {sandbox : Sandbox} (howned : ownsContainer sandbox source = true)
    (h : LifecycleIntact host source) :
    Bounded (Unopened host) (Clean host) (prepareLaunch host sandbox source) fun prepared _ =>
      True ∧ prepared ≠ none := by
  unfold prepareLaunch
  rw [if_pos howned]
  have hspec : Bounded (Unopened host) (Clean host) (lift source.dockerLaunchSpec)
      fun spec w => Unopened host w ∧ source.dockerLaunchSpec = .ok spec :=
    meets_lift (fun _ _ hok hw => ⟨hw, hok⟩) fun _ _ _ hw => hw.clean
  apply Meets.bind hspec
  rintro ⟨command, args⟩
  apply meets_of_fact
  intro hspec
  have htitle : Bounded (Unopened host) (Clean host) (lift source.dockerProcessTitle)
      fun title w => Unopened host w ∧ source.dockerProcessTitle = .ok title :=
    meets_lift (fun _ _ hok hw => ⟨hw, hok⟩) fun _ _ _ hw => hw.clean
  apply Meets.bind htitle
  intro title
  apply meets_of_fact
  intro htitle
  apply Meets.bind (bounded_catching (prepareOwnedContainer_cleans (h.digests _ _ _ hspec htitle))
    (keeps_raise _))
  intro prepared
  exact meets_pure fun _ _ => ⟨trivial, Option.some_ne_none _⟩

theorem configure_cleans (sandbox : Sandbox) {prepared : Option (Str × List Str)} (hprepared : prepared ≠ none) :
    Bounded (fun _ => True) (Clean host) (configure host sandbox source prepared) fun _ _ => True := by
  unfold configure
  apply Meets.handle (keeps_buildConfig (I := fun _ => True) sandbox prepared)
  intro e
  rw [if_pos hprepared]
  have hkept : Bounded (fun _ => True) (Clean host)
      (catching (cleanupOwnedContainer host) Raised.isCleanupError (raise (.scanError
        "Docker scan configuration failed and cleanup could not prove the owned container absent." none)))
      fun evidence w => Clean host w ∧ evidence = absenceVerified :=
    bounded_catching cleanupOwnedContainer_cleans (bounded_raise _ fun _ hw => hw)
  apply Meets.bind hkept
  intro _
  exact bounded_raise e fun _ hw => hw.1

theorem makeConnector_returns (owned : Bool) (h : LifecycleIntact host source) :
    makeConnector host owned = pure () := by
  unfold makeConnector
  rw [h.connector, h.pipeline, h.hook]
  cases owned <;> rfl

/-- A connection to a container of the scan is cleaned up however it ends. -/
theorem connectWithLifecycle_cleans (transport : Transport) :
    Bounded (fun _ => True) (Clean host) (connectWithLifecycle host true transport) fun connected w =>
      Clean host w ∧ connected.cleanupEvidence = some absenceVerified ∧ connected.readback.isSome = true := by
  have hany : ∀ {α : Type} (x : Scan α), Bounded (fun _ => True) (fun _ => True) x fun _ _ => True := by
    intro α x w _
    rcases x w with ⟨_ | _, _⟩ <;> trivial
  have hrun : Bounded (fun _ => True) (fun _ => True) (runSync host true transport)
      fun outcome _ => outcome.2.isSome = true := by
    unfold runSync
    apply Meets.bind (hany _)
    intro _
    have hprobe : Bounded (fun _ => True) (fun _ => True) (runtimeProbe host true)
        fun readback _ => True ∧ readback.isSome = true := by
      unfold runtimeProbe
      rw [if_pos rfl]
      apply Meets.bind (hany _)
      intro readback
      exact meets_pure fun _ _ => ⟨trivial, rfl⟩
    apply Meets.bind hprobe
    intro readback
    apply meets_of_fact
    intro hreadback
    apply Meets.bind (hany _)
    intro w
    cases host.connector w.trace with
    | audit status => exact meets_pure fun _ _ => hreadback
    | missing => exact meets_pure fun _ _ => hreadback
    | raised e => exact bounded_raise e fun _ _ => trivial
  have hsettled : Bounded (fun _ => True) (Clean host) (settled (runSync host true transport))
      fun outcome _ => True ∧ ∀ status readback, outcome = .ok (status, readback) → readback.isSome = true := by
    unfold settled
    have hok : Bounded (fun _ => True) (fun _ => True) (do let a ← runSync host true transport; pure (.ok a))
        fun (outcome : Except Raised (Option Str × Option Json)) _ => True ∧
          ∀ status readback, outcome = .ok (status, readback) → readback.isSome = true := by
      apply Meets.bind hrun
      intro outcome
      refine meets_pure fun _ hw => ⟨trivial, fun status readback heq => ?_⟩
      obtain rfl := Except.ok.inj heq
      exact hw
    refine Meets.handle hok fun e => meets_pure fun _ _ => ⟨trivial, fun status readback heq => ?_⟩
    cases heq
  have hevidence : Bounded (fun _ => True) (Clean host) (cleanupEvidenceOf host true)
      fun evidence w => Clean host w ∧ evidence = some absenceVerified := by
    unfold cleanupEvidenceOf
    rw [if_pos rfl]
    apply Meets.bind (bounded_catching cleanupOwnedContainer_cleans (bounded_raise _ fun _ hw => hw))
    rintro evidence
    exact meets_pure fun _ hw => ⟨hw.1, congrArg some hw.2⟩
  unfold connectWithLifecycle
  apply Meets.bind hsettled
  intro outcome
  apply meets_of_fact
  intro hreadback
  apply Meets.bind hevidence
  intro evidence
  split
  · exact bounded_raise _ fun _ hw => hw.1
  · exact bounded_raise _ fun _ hw => hw.1
  · exact meets_pure fun _ hw => ⟨hw.1, hw.2, hreadback _ _ rfl⟩

/-- What the scan promises of its last state: every created container is cleaned up, and where one was
created a result has both pieces of evidence. -/
def EndsClean (host : Host) (result : Except Raised EngineResult) (w : World) : Prop :=
  Clean host w ∧ ∀ r, result = .ok r → CreatedIn host w.trace →
    r.sandboxCleanupEvidence = some absenceVerified ∧ r.sandboxRuntimeReadback.isSome = true

/-- Without a container of its own the rest of the scan creates none. -/
theorem unowned_rest_unopened {sandbox : Sandbox} (howned : ownsContainer sandbox source = false)
    (h : LifecycleIntact host source) : Bounded (Unopened host) (Unopened host) (do
      let prepared ← prepareLaunch host sandbox source
      let transport ← configure host sandbox source prepared
      makeConnector host false
      let connected ← handle (connectWithLifecycle host false transport)
        fun e => raise (reportConnection source e)
      reportResult host sandbox source connected) fun _ => Unopened host := by
  have hnone : Keeps (Unopened host) (prepareLaunch host sandbox source) := by
    unfold prepareLaunch
    rw [howned]
    exact keeps_pure none
  have hrest : ∀ prepared, Keeps (Unopened host) (configure host sandbox source prepared) := by
    intro prepared
    unfold configure
    apply Meets.handle (keeps_buildConfig sandbox prepared)
    intro e
    apply Meets.ite
    · intro _
      apply Meets.bind (bounded_catching (keeps_cleanupOwnedContainer neutral_unopened host) (keeps_raise _))
      intro _
      exact keeps_raise e
    · intro _
      exact keeps_raise e
  apply Meets.bind hnone
  intro prepared
  apply Meets.bind (hrest prepared)
  intro transport
  rw [makeConnector_returns false h]
  apply Meets.bind (keeps_pure ())
  intro _
  apply Meets.bind (Meets.handle (keeps_connectWithLifecycle transport) fun e => keeps_raise _)
  intro connected
  exact Meets.mono (keeps_reportResult sandbox connected) (fun _ hw => hw) (fun _ _ hw => hw.1) fun _ _ hw => hw

/-- In a run of `scan` whose lifecycle is intact no container is left behind. -/
theorem scan_ends_clean (h : LifecycleIntact host source) {w : World} (hstart : w.trace = []) :
    EndsClean host (scan host engine source w).1 (scan host engine source w).2 := by
  have hmeets : Meets (Unopened host) (scan host engine source)
      (fun r w => EndsClean host (.ok r) w) fun _ => Clean host := by
    unfold scan
    apply Meets.ite
    · intro _
      exact meets_raise fun _ hw => hw.clean
    · intro _
      apply Meets.bind (Meets.mono keeps_resolveSandbox (fun _ hw => hw) (fun _ _ hw => hw) fun _ _ hw => hw.clean)
      intro sandbox
      apply Meets.ite
      · intro _
        exact meets_raise fun _ hw => hw.clean
      · intro _
        apply Meets.bind (Meets.mono (keeps_applyDummyCredentials sandbox) (fun _ hw => hw) (fun _ _ hw => hw)
          fun _ _ hw => hw.clean)
        intro _
        cases howned : ownsContainer sandbox source with
        | true =>
          apply Meets.bind (prepareLaunch_cleans howned h)
          intro prepared
          apply meets_of_fact
          intro hprepared
          apply Meets.bind (configure_cleans sandbox hprepared)
          intro transport
          rw [makeConnector_returns true h]
          have hmade : Bounded (fun _ => True) (Clean host) (pure () : Scan Unit) fun _ _ => True :=
            meets_pure fun _ _ => trivial
          apply Meets.bind hmade
          intro _
          apply Meets.bind (Meets.handle (connectWithLifecycle_cleans transport)
            fun e => bounded_raise _ fun _ hw => hw)
          intro connected
          apply meets_of_state
          rintro w ⟨hclean, hevidence, hreadback⟩
          apply Meets.mono (keeps_reportResult (I := Clean host) sandbox connected)
          · rintro _ rfl
            exact hclean
          · rintro result w' ⟨hclean', hsame, hsame'⟩
            refine ⟨hclean', fun r hr _ => ?_⟩
            obtain rfl := Except.ok.inj hr
            exact ⟨hsame.trans hevidence, by rw [hsame']; exact hreadback⟩
          · exact fun _ _ hw => hw
        | false =>
          have hunopened := unowned_rest_unopened howned h
          exact Meets.mono hunopened (fun _ hw => hw)
            (fun _ _ hw => ⟨hw.clean, fun _ _ hcreated => absurd hcreated hw⟩) fun _ _ hw => hw.clean
  have hempty : Unopened host w := by
    rintro ⟨before, argv, later, hsplit, -⟩
    rw [hstart] at hsplit
    cases before <;> cases hsplit
  have hend := hmeets w hempty
  rcases hrun : scan host engine source w with ⟨e | r, w'⟩
  · rw [hrun] at hend
    refine ⟨hend, fun r hr => ?_⟩
    cases hr
  · rw [hrun] at hend
    exact hend

end Scan

/-! ## Runs on fixed inputs -/

/-- A host of default settings with the Docker sandbox chosen. -/
def dockerHost : Host := sampleHost [("MCP_TRUST_SANDBOX", "docker")]

theorem scan_ends_clean_sample : EndsClean dockerHost
    (scan dockerHost ⟨none⟩ (sampleSource "scan-image") sampleWorld).1
    (scan dockerHost ⟨none⟩ (sampleSource "scan-image") sampleWorld).2 := by
  have hdigests : ∃ digests, serverProcessDigests (u "node:22-slim") [u "server"] false none = .ok digests :=
    ⟨_, rfl⟩
  refine scan_ends_clean ⟨rfl, rfl, rfl, ?_⟩ rfl
  intro command args title hspec htitle
  have hlaunch : (sampleSource "scan-image").dockerLaunchSpec = .ok (u "node:22-slim", [u "server"]) := by
    decide +kernel
  obtain ⟨rfl, rfl⟩ := Prod.mk.inj (Except.ok.inj (hlaunch.symm.trans hspec))
  have hnone : (sampleSource "scan-image").dockerProcessTitle = .ok none := rfl
  obtain rfl := Except.ok.inj (hnone.symm.trans htitle)
  exact hdigests

/-- The same host with a connector that lacks the lifecycle hook. -/
def hooklessHost : Host := { dockerHost with hasLifecycleHook := false }

/-- The create command of the sample scan. -/
def createdArgv : List Str := sampleArgv "scan-image" [] (u "node:22-slim") [u "server"]

/-- Without the hook the scan raises after the creation, and nothing follows it. -/
theorem hookless_container_kept :
    ∃ (host : Host) (source : ServerSource), host.connectorRefused = none ∧ host.pipelineRefused = none ∧
      (scan host ⟨none⟩ source sampleWorld).2.trace = [.invoke createdArgv] ∧
      Reports host [] createdArgv ∧
      ¬EndsClean host (scan host ⟨none⟩ source sampleWorld).1 (scan host ⟨none⟩ source sampleWorld).2 := by
  have htrace : (scan hooklessHost ⟨none⟩ (sampleSource "scan-image") sampleWorld).2.trace =
      [.invoke createdArgv] := by
    decide +kernel
  have hcreate : IsCreate createdArgv :=
    ⟨{ image := u "scan-image", ownerToken := u "0123456789abcdef" }, _, rfl⟩
  have hreports : Reports hooklessHost [] createdArgv := by
    have hasked : u "create" ∈ createdArgv := by decide +kernel
    have hreply : (if u "create" ∈ createdArgv then Reply.completed 0 (List.replicate 64 (ch 'a'))
        else .completed 1 []) = .completed 0 (List.replicate 64 (ch 'a')) := if_pos hasked
    refine ⟨hcreate, (0, List.replicate 64 (ch 'a')), hreply, rfl, List.replicate 64 (ch 'a'), ?_, ?_⟩
    · decide +kernel
    · decide +kernel
  refine ⟨hooklessHost, sampleSource "scan-image", rfl, rfl, htrace, hreports, ?_⟩
  rintro ⟨hclean, -⟩
  obtain ⟨event, hevent, -⟩ := hclean [] createdArgv [] (by rw [htrace]; rfl) hreports
  cases hevent

end McpTrust.Engine
