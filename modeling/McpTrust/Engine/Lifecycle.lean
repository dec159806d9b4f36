import McpTrust.Engine.Scan
import McpTrust.Engine.LaunchVector

/-! # What the container lifecycle leaves alone

Readback, cleanup and the polls around them only ever send management commands
to Docker, and of the sandbox they touch the identity of its container. Whatever
such steps keep is kept by the whole lifecycle, however the runner behaves.
-/

namespace McpTrust.Engine

set_option autoImplicit false

open Python Effects Effects.Eff

/-- The Docker commands that start no process of a source. -/
def managementVerbs : List (List Str) :=
  [[u "container", u "ls"], [u "container", u "inspect"], [u "container", u "rm"],
    [u "container", u "exec"], [u "image", u "inspect"]]

/-- Kept by every management command, clock reading and change of the container's identity. -/
structure Neutral (I : World → Prop) : Prop where
  manage : ∀ w args, I w → args.take 2 ∈ managementVerbs →
    I { w with trace := w.trace ++ [.invoke (w.box.dockerCommand args)] }
  clock : ∀ w n, I w → I { w with clockReadings := n }
  identity : ∀ w id digests, I w →
    I { w with box := { w.box with containerId := id, serverProcessDigests := digests } }

section Rules

variable {α β : Type} {P I : World → Prop} {Q : α → World → Prop} {host : Host}

/-- After any exception `I` holds. -/
abbrev Bounded (P : World → Prop) (I : World → Prop) (x : Scan α) (Q : α → World → Prop) : Prop :=
  Meets P x Q fun _ => I

theorem bounded_currentBox : Bounded P I currentBox fun box w => P w ∧ w.box = box :=
  fun _ hw => ⟨hw, rfl⟩

theorem bounded_raise (e : Raised) (hP : ∀ w, P w → I w) : Bounded P I (raise e : Scan α) Q :=
  meets_raise hP

theorem keeps_raise (e : Raised) : Bounded I I (raise e : Scan α) Q := bounded_raise e fun _ h => h

theorem keeps_pure (a : α) : Keeps I (pure a : Scan α) := meets_pure fun _ h => h

theorem bounded_catching {x handler : Scan α} {handled : Raised → Bool} (hx : Bounded P I x Q)
    (hhandler : Bounded I I handler Q) : Bounded P I (catching x handled handler) Q := by
  apply Meets.handle hx
  intro e
  exact Meets.ite (fun _ => hhandler) fun _ => keeps_raise e

theorem keeps_liftPy (x : Except PyErr α) : Keeps I (liftPy x) :=
  meets_lift (fun _ _ _ h => h) fun _ _ _ h => h

theorem keeps_lift (x : Except Raised α) : Keeps I (lift x : Scan α) :=
  meets_lift (fun _ _ _ h => h) fun _ _ _ h => h

/-- A call of the runner, judged by the one event it adds. -/
theorem bounded_invoke {argv : List Str}
    (h : ∀ w, P w → I { w with trace := w.trace ++ [.invoke argv] }) :
    Bounded P I (invoke host argv) fun _ => I := by
  have hemit : Bounded P I (emit (.invoke argv)) fun _ => I := meets_update h
  apply Meets.bind hemit
  intro _
  have hread : Bounded I I read fun _ => I := meets_read fun _ h => h
  apply Meets.bind hread
  intro w
  cases host.runner w.trace with
  | completed returncode stdout => exact keeps_pure (returncode, stdout)
  | raised e => exact keeps_raise e

end Rules

section Management

variable {I : World → Prop} (hI : Neutral I) (host : Host)

include hI

theorem bounded_manage (box : DockerSandbox) {args : List Str} (hargs : args.take 2 ∈ managementVerbs) :
    Bounded (fun w => I w ∧ w.box = box) I (invoke host (box.dockerCommand args)) fun _ => I := by
  apply bounded_invoke
  rintro w ⟨hw, rfl⟩
  exact hI.manage w args hw hargs

theorem keeps_setIdentity (id : Option Str) (digests : Option (List Str)) :
    Keeps I (setBox fun box => { box with containerId := id, serverProcessDigests := digests }) :=
  meets_update fun w hw => hI.identity w id digests hw

theorem keeps_setContainerId (id : Option Str) :
    Keeps I (setBox fun box => { box with containerId := id }) :=
  meets_update fun w hw => hI.identity w id w.box.serverProcessDigests hw

theorem keeps_setDigests (digests : Option (List Str)) :
    Keeps I (setBox fun box => { box with serverProcessDigests := digests }) :=
  meets_update fun w hw => hI.identity w w.box.containerId digests hw

theorem keeps_clockAllows : Keeps I (clockAllows host) := fun w hw => hI.clock w _ hw

/-! ## Cleanup -/

theorem keeps_ownedContainerIds : Keeps I (ownedContainerIds host) := by
  unfold ownedContainerIds
  apply Meets.bind bounded_currentBox
  intro box
  apply Meets.bind (bounded_catching (bounded_manage hI host box (by simp [managementVerbs])) (keeps_raise _))
  rintro ⟨returncode, stdout⟩
  apply Meets.ite
  · intro _
    exact keeps_raise _
  · intro _
    apply Meets.ite
    · intro _
      exact keeps_raise _
    · intro _
      exact keeps_pure _

theorem keeps_verifyOwnedContainerIdentity (containerId : Str) :
    Keeps I (verifyOwnedContainerIdentity host containerId) := by
  unfold verifyOwnedContainerIdentity
  apply Meets.bind bounded_currentBox
  intro box
  apply Meets.bind (bounded_catching (bounded_manage hI host box (by simp [managementVerbs])) (keeps_raise _))
  rintro ⟨returncode, stdout⟩
  apply Meets.ite
  · intro _
    exact keeps_raise _
  · intro _
    apply Meets.bind (bounded_catching (keeps_liftPy _) (keeps_raise _))
    intro payload
    split
    · apply Meets.ite
      · intro _
        exact keeps_pure _
      · intro _
        exact keeps_raise _
    · exact keeps_raise _

theorem keeps_removeOwnedContainer (containerId : Str) :
    Keeps I (removeOwnedContainer host containerId) := by
  unfold removeOwnedContainer
  apply Meets.bind (keeps_verifyOwnedContainerIdentity hI host containerId)
  intro _
  apply Meets.bind bounded_currentBox
  intro box
  apply Meets.bind (bounded_catching (bounded_manage hI host box (by simp [managementVerbs])) (keeps_raise _))
  rintro ⟨returncode, stdout⟩
  apply Meets.ite
  · intro _
    exact keeps_raise _
  · intro _
    exact keeps_pure _

theorem keeps_removeListed (containerIds : List Str) : Keeps I (removeListed host containerIds) := by
  unfold removeListed
  have hbox : Bounded I I currentBox fun _ => I := fun _ hw => hw
  apply Meets.bind hbox
  intro box
  cases containerIds with
  | nil => exact keeps_pure _
  | cons containerId rest =>
    apply Meets.ite
    · intro _
      exact keeps_raise _
    · intro _
      exact keeps_removeOwnedContainer hI host containerId

theorem keeps_cleanupOwnedContainer : Keeps I (cleanupOwnedContainer host) := by
  unfold cleanupOwnedContainer
  apply Meets.bind (keeps_ownedContainerIds hI host)
  intro containerIds
  apply Meets.bind (keeps_removeListed hI host containerIds)
  intro _
  apply Meets.bind (keeps_ownedContainerIds hI host)
  intro remaining
  apply Meets.ite
  · intro _
    exact keeps_raise _
  · intro _
    apply Meets.bind (keeps_setIdentity hI none none)
    intro _
    exact keeps_pure _

theorem keeps_settle (polls : Nat) : Keeps I (settle host polls) := by
  induction polls with
  | zero => exact keeps_pure _
  | succ polls ih =>
    apply Meets.bind (keeps_cleanupOwnedContainer hI host)
    intro _
    exact ih

theorem keeps_createFailed {Q : ℤ × Str → World → Prop} : Bounded I I (createFailed host) Q := by
  unfold createFailed
  have hsettle : Keeps I (do settle host createSettlePolls; let _ ← cleanupOwnedContainer host; pure ()) := by
    apply Meets.bind (keeps_settle hI host createSettlePolls)
    intro _
    apply Meets.bind (keeps_cleanupOwnedContainer hI host)
    intro _
    exact keeps_pure _
  apply Meets.bind (bounded_catching hsettle (keeps_raise _))
  intro _
  exact keeps_raise _

theorem keeps_createRefused {Q : Str × List Str → World → Prop} :
    Bounded I I (createRefused host) Q := by
  unfold createRefused
  apply Meets.bind (keeps_cleanupOwnedContainer hI host)
  intro _
  exact keeps_raise _

/-! ## Readback -/

theorem keeps_runtimeCommand {args : List Str} (hargs : args.take 2 ∈ managementVerbs) :
    Keeps I (runtimeCommand host args) := by
  unfold runtimeCommand
  apply Meets.bind (keeps_clockAllows hI host)
  intro allowed
  apply Meets.ite
  · intro _
    exact keeps_raise _
  · intro _
    apply Meets.bind bounded_currentBox
    intro box
    exact bounded_catching (bounded_manage hI host box hargs) (keeps_raise _)

omit hI in
theorem keeps_oneJsonObject (completed : ℤ × Str) : Keeps I (oneJsonObject host completed) := by
  unfold oneJsonObject
  apply Meets.ite
  · intro _
    exact keeps_raise _
  · intro _
    apply Meets.bind (bounded_catching (keeps_liftPy _) (keeps_raise _))
    intro payload
    split
    · exact keeps_pure _
    · exact keeps_raise _

theorem keeps_pollOnce (containerId : Str) : Keeps I (pollOnce host containerId) := by
  unfold pollOnce
  apply Meets.bind (keeps_runtimeCommand hI host (by simp [managementVerbs]))
  intro inspected
  apply Meets.ite
  · intro _
    apply Meets.bind (keeps_oneJsonObject host inspected)
    intro fields
    exact keeps_pure _
  · intro _
    exact keeps_pure _

theorem keeps_pollRunning (containerId : Str) (polls : Nat) :
    Keeps I (pollRunning host containerId polls) := by
  induction polls with
  | zero => exact keeps_pure _
  | succ polls ih =>
    apply Meets.bind (keeps_pollOnce hI host containerId)
    intro candidate
    cases candidate with
    | some container => exact keeps_pure _
    | none =>
      apply Meets.bind (keeps_clockAllows hI host)
      intro allowed
      apply Meets.ite
      · intro _
        exact keeps_pure _
      · intro _
        exact ih

omit hI in
theorem keeps_judgeReadback : Keeps I (judgeReadback host) := by
  intro w hw
  unfold judgeReadback
  cases host.readbackVerdict w.trace with
  | ok readback => exact hw
  | error e => exact hw

theorem keeps_attestInContainer (containerId user workdir : Str) :
    Keeps I (attestInContainer host containerId user workdir) := by
  unfold attestInContainer
  apply Meets.bind (keeps_runtimeCommand hI host (by simp [managementVerbs]))
  intro attested
  apply Meets.ite
  · intro _
    exact keeps_raise _
  · intro _
    apply Meets.bind (bounded_catching (keeps_liftPy _) (keeps_raise _))
    intro process
    split
    · exact keeps_judgeReadback host
    · exact keeps_raise _

theorem keeps_captureRuntimeReadback : Keeps I (captureRuntimeReadback host) := by
  unfold captureRuntimeReadback
  have hbox : Bounded I I currentBox fun _ => I := fun _ hw => hw
  apply Meets.bind hbox
  intro box
  split
  · exact keeps_raise _
  · apply Meets.ite
    · intro _
      exact keeps_raise _
    · intro _
      apply Meets.bind (keeps_pollRunning hI host _ runtimeReadbackPolls)
      intro container
      split
      · exact keeps_raise _
      · apply Meets.bind (keeps_runtimeCommand hI host (by simp [managementVerbs]))
        intro inspected
        apply Meets.bind (keeps_oneJsonObject host inspected)
        intro _
        split
        · exact keeps_raise _
        · exact keeps_attestInContainer hI host _ _ _

end Management

end McpTrust.Engine
