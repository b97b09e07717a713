import LiveCoding.Proofs.Osc.Client
import LiveCoding.Session.Action
import Mathlib.Logic.Relation

/-!
# What becomes of a session

Whatever is asked of a session, what becomes of it is made up of a few elementary
changes, also where the action fails half way.  An action is followed from one stage
to the next (`Action.Gradual`), and each is put together from the actions that it is
written with.

## Main Definitions

* `Action.after`: the stage that an action leaves behind.
* `Session.Change`, `Session.Changes`: the elementary changes of a session.
* `Action.Gradual`: an action that does nothing else.

## Main Statements

* `Session.Changes.keep`: what every elementary change keeps is kept throughout.
* `Session.ensureConnected_apply`, `Session.send_apply`: the two actions that every
  message passes through, in closed form.
* `Session.gradual_connect`, `Session.gradual_startLanguageServer` and so on: every
  action of a user is gradual.
-/

namespace LiveCoding

/-! ### Actions and what they leave behind -/

namespace Action

variable {α β : Type} {action : Action α} {stage next : Stage}

/-- The stage that an action leaves behind, whether or not it fails. -/
def after (action : Action α) (stage : Stage) : Stage :=
  match action stage with
  | .ok _ next | .error _ next => next

theorem after_of_ok {a : α} (h : action stage = .ok a next) : action.after stage = next := by
  rw [after, h]

theorem bind_apply (first : Action α) (second : α → Action β) (stage : Stage) :
    (first >>= second) stage =
      match first stage with
      | .ok a next => second a next
      | .error error next => .error error next := by
  show EStateM.bind first second stage = _
  unfold EStateM.bind
  cases first stage <;> rfl

theorem bind_eq_ok_iff {first : Action α} {second : α → Action β} {b : β} :
    (first >>= second) stage = .ok b next ↔
      ∃ a mid, first stage = .ok a mid ∧ second a mid = .ok b next := by
  rw [bind_apply]
  cases first stage <;> simp [and_assoc]

theorem bind_eq_error_iff {first : Action α} {second : α → Action β} {error : Session.Error} :
    (first >>= second) stage = .error error next ↔
      first stage = .error error next ∨
        ∃ a mid, first stage = .ok a mid ∧ second a mid = .error error next := by
  rw [bind_apply]
  cases first stage <;> simp [and_assoc]

theorem get_bind_apply (second : Stage → Action β) (stage : Stage) :
    ((get : Action Stage) >>= second) stage = second stage stage :=
  rfl

end Action

namespace Session

/-! ### Elementary changes -/

/-- An elementary change of a session. -/
inductive Change : Session → Session → Prop where
  /-- A connection is tried. -/
  | touch (session : Session) : Change session { session with touched := true }
  /-- The client is connected. -/
  | connect {session : Session} {network : Network} {client : Osc.Client}
    (touched : session.touched = true) (h : session.client.connect network = .ok client) :
    Change session { session with client }
  /-- The language server is bridged. -/
  | bridge {session : Session} (touched : session.touched = true) :
    Change session { session with bridged := true }
  /-- The bridge is closed. -/
  | unbridge (session : Session) : Change session { session with bridged := false }
  /-- Something becomes of the interpreter. -/
  | interpreter (session : Session) (interpreter : Option Subprocess) :
    Change session { session with interpreter }
  /-- Other settings are in force. -/
  | apply {session next : Session} {settings : Settings} {closed : Bool}
    (h : session.applySettings settings = .ok (next, closed)) : Change session next
  /-- Every connection is closed. -/
  | close (session : Session) :
    Change session
      { session with
        client := session.client.disconnect
        bridged := false
        interpreter := none }

/-- Any number of elementary changes. -/
abbrev Changes : Session → Session → Prop :=
  Relation.ReflTransGen Change

/-- What every elementary change keeps is kept by any number of them. -/
theorem Changes.keep {p : Session → Prop}
    (h : ∀ {session next : Session}, Change session next → p session → p next)
    {session next : Session} (changes : Changes session next) (start : p session) : p next := by
  induction changes with
  | refl => exact start
  | tail _ change ih => exact h change ih

theorem applySettings_eq_ok_iff {session next : Session} {settings : Settings} {closed : Bool} :
    session.applySettings settings = .ok (next, closed) ↔
      ∃ oscPort serverPort, settings.ports = .ok (oscPort, serverPort) ∧
        next = { session with
          settings, serverPort, client := (session.client.retarget settings.oscHost oscPort).1 } ∧
        closed = (session.client.retarget settings.oscHost oscPort).2 := by
  unfold applySettings
  cases settings.ports with
  | error problems => simp
  | ok ports =>
    obtain ⟨oscPort, serverPort⟩ := ports
    simp [eq_comm, and_assoc]

/-- A session that has tried to connect has tried to connect ever since. -/
theorem Change.touched {session next : Session} (change : Change session next)
    (touched : session.touched = true) : next.touched = true := by
  cases change with
  | touch => rfl
  | connect | bridge | unbridge | interpreter | close => exact touched
  | apply h =>
    obtain ⟨oscPort, serverPort, -, rfl, -⟩ := applySettings_eq_ok_iff.mp h
    exact touched

end Session

/-- From this stage, an action changes the session by elementary changes alone. -/
def Action.Gradual {α : Type} (action : Action α) (stage : Stage) : Prop :=
  Session.Changes stage.session (action.after stage).session

namespace Action.Gradual

variable {α β : Type} {action : Action α} {stage : Stage}

/-- An action that leaves the session alone. -/
theorem of_session_eq (h : (action.after stage).session = stage.session) :
    action.Gradual stage := by
  rw [Gradual, h]

/-- An action that does one elementary change. -/
theorem of_change (h : Session.Change stage.session (action.after stage).session) :
    action.Gradual stage :=
  .single h

theorem get_bind {second : Stage → Action β} (h : (second stage).Gradual stage) :
    (get >>= second : Action β).Gradual stage :=
  h

theorem bind {second : α → Action β} (hfirst : action.Gradual stage)
    (hsecond : ∀ a next, action stage = .ok a next → (second a).Gradual next) :
    (action >>= second : Action β).Gradual stage := by
  unfold Gradual after at hfirst ⊢
  rw [bind_apply]
  cases h : action stage with
  | error error next =>
    rw [h] at hfirst
    exact hfirst
  | ok a next =>
    rw [h] at hfirst
    exact hfirst.trans (hsecond a next h)

end Action.Gradual

namespace Session

open LiveCoding.Action (Gradual)

/-! ### What the actions come to -/

section Apply

variable (stage : Stage)

theorem connect_apply :
    connect stage =
      if stage.session.isConnected then
        .ok .standing { stage with session.touched := true }
      else
        match stage.session.client.connect stage.world.network with
        | .error error => .error (.osc error) { stage with session.touched := true }
        | .ok client =>
          .ok .fresh { stage with session.touched := true, session.client := client } := by
  show (if stage.session.isConnected then _ else _ : Action Connection) _ = _
  split
  · rfl
  · cases stage.session.client.connect stage.world.network <;> rfl

theorem ensureConnected_apply :
    ensureConnected stage =
      if stage.session.isConnected then .ok () stage
      else
        match stage.session.client.connect stage.world.network with
        | .error error => .error (.osc error) { stage with session.touched := true }
        | .ok client =>
          .ok () { stage with session.touched := true, session.client := client } := by
  show (if stage.session.isConnected then _ else _ : Action Unit) stage = _
  split
  · rfl
  next apart =>
    rw [Action.bind_apply, connect_apply, if_neg apart]
    cases stage.session.client.connect stage.world.network <;> rfl

theorem send_apply (message : Osc.Message) :
    send message stage =
      match stage.session.client.send stage.world.network message with
      | .error error => .error (.osc error) stage
      | .ok datagram => .ok () { stage with world := stage.world.emit datagram } := by
  unfold send
  rw [Action.get_bind_apply]
  cases stage.session.client.send stage.world.network message <;> rfl

theorem isRunning_after : isRunning.after stage = stage := by
  unfold Action.after isRunning
  rw [Action.get_bind_apply]
  cases stage.session.interpreter with
  | none => rfl
  | some process => cases h : process.status <;> simp only [h] <;> rfl

theorem reachServer_after : reachServer.after stage = stage := by
  unfold Action.after reachServer
  rw [Action.get_bind_apply]
  cases stage.world.network.reach .stream stage.session.server <;> rfl

end Apply

/-! ### The actions change a session by elementary changes -/

section Gradual

variable (stage : Stage)

theorem gradual_connect : connect.Gradual stage := by
  refine Gradual.bind (.of_change (.touch _)) ?_
  rintro _ next ⟨⟩
  refine Gradual.get_bind ?_
  dsimp only
  split
  · exact .of_session_eq rfl
  · split
    next => exact .of_session_eq rfl
    next h => exact .of_change (.connect rfl h)

theorem gradual_ensureConnected : ensureConnected.Gradual stage := by
  refine Gradual.get_bind ?_
  split
  · exact .of_session_eq rfl
  · exact Gradual.bind (gradual_connect stage) fun _ _ _ => .of_session_eq rfl

theorem gradual_send (message : Osc.Message) : (send message).Gradual stage := by
  refine Gradual.get_bind ?_
  split
  · exact .of_session_eq rfl
  · exact .of_session_eq rfl

theorem gradual_evaluateTarget (target? : Option Target) :
    (evaluateTarget target?).Gradual stage := by
  refine Gradual.bind (gradual_ensureConnected stage) fun _ next _ => ?_
  cases target? with
  | none => exact .of_session_eq rfl
  | some target => exact Gradual.bind (gradual_send next _) fun _ _ _ => .of_session_eq rfl

theorem gradual_bootServer : bootServer.Gradual stage :=
  Gradual.bind (gradual_ensureConnected stage) fun _ next _ => gradual_send next _

theorem gradual_stopSound : stopSound.Gradual stage :=
  Gradual.bind (gradual_ensureConnected stage) fun _ next _ => gradual_send next _

theorem gradual_quitServer : quitServer.Gradual stage := by
  refine Gradual.get_bind ?_
  dsimp only
  split
  · exact .of_session_eq rfl
  · exact gradual_send stage _

theorem gradual_helpFor (symbol : String) : (helpFor symbol).Gradual stage :=
  .of_session_eq rfl

theorem gradual_helpAt (document : Document) (position : Position) :
    (helpAt document position).Gradual stage := by
  unfold helpAt
  split
  · exact .of_session_eq rfl
  · exact gradual_helpFor stage _

theorem gradual_launchInterpreter : launchInterpreter.Gradual stage := by
  refine Gradual.bind (.of_session_eq (by rw [isRunning_after])) fun _ next _ => ?_
  dsimp only
  split
  · exact .of_session_eq rfl
  · refine Gradual.get_bind ?_
    split
    · exact .of_session_eq rfl
    · exact .of_change (.interpreter _ _)

theorem gradual_pass (milliseconds : Nat) : (pass milliseconds).Gradual stage :=
  .of_change (.interpreter _ _)

theorem gradual_wait (milliseconds : Nat) : (wait milliseconds).Gradual stage :=
  Gradual.bind (gradual_pass stage milliseconds) fun _ _ _ => .of_session_eq rfl

theorem gradual_reachServer : reachServer.Gradual stage :=
  .of_session_eq (by rw [reachServer_after])

theorem gradual_reachOrLaunch (mayLaunch : Bool) : (reachOrLaunch mayLaunch).Gradual stage := by
  have reach := gradual_reachServer stage
  unfold Gradual Action.after reachOrLaunch at *
  cases h : reachServer stage with
  | ok server next =>
    rw [h] at reach
    exact reach
  | error error next =>
    rw [h] at reach
    cases mayLaunch with
    | false => exact reach
    | true =>
      refine reach.trans ?_
      refine Gradual.bind (gradual_launchInterpreter next) fun _ after _ => ?_
      exact Gradual.bind (gradual_wait after _) fun _ last _ => gradual_reachServer last

theorem gradual_startLanguageServer (mayLaunch : Bool) :
    (startLanguageServer mayLaunch).Gradual stage := by
  refine Gradual.bind (.of_change (.touch _)) ?_
  rintro _ tried ⟨⟩
  refine Gradual.get_bind ?_
  dsimp only
  split
  · exact .of_session_eq rfl
  · refine Gradual.bind (gradual_reachOrLaunch _ mayLaunch) fun server reached h => ?_
    have touched : reached.session.touched = true := by
      have changes := gradual_reachOrLaunch
        { stage with session.touched := true } mayLaunch
      rw [Gradual, Action.after_of_ok h] at changes
      exact changes.keep Change.touched rfl
    exact .of_change (.bridge touched)

theorem gradual_languageServerStopped : languageServerStopped.Gradual stage :=
  .of_change (.unbridge _)

theorem gradual_apply (settings : Settings) : (apply settings).Gradual stage := by
  refine Gradual.get_bind ?_
  split
  · exact .of_session_eq rfl
  next h => exact .of_change (.apply h)

theorem gradual_shutdown : shutdown.Gradual stage := by
  refine Gradual.get_bind ?_
  refine Gradual.bind (.of_change (.close _)) fun _ closed _ => ?_
  split
  · exact .of_session_eq rfl
  · refine Gradual.get_bind ?_
    dsimp only
    split <;> exact .of_session_eq rfl

end Gradual

end Session

end LiveCoding
