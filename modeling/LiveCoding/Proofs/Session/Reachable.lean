import LiveCoding.Proofs.Session.Change
import LiveCoding.Proofs.Settings.Ports

/-!
# The sessions that there can be

A user asks one thing of a session after the other, in surroundings that change as
they please in between.  However this goes, the client and the port of the language
server are those of the settings in force, and a socket is directed at the client's
target.

## Main Definitions

* `Session.Command`: what a user can ask.
* `Session.Reachable`: the sessions that asking leads to.
* `Session.Coherent`: the settings, and what is derived from them, agree.

## Main Statements

* `Session.Command.changes`: every command is made up of elementary changes.
* `Session.Reachable.coherent`: every session is coherent.
* `Session.Reachable.settings_in_force`: the same, in terms of the settings.

## Design Notes

The surroundings are any at all before each command, and drift while one waits, so that
every outcome of every request to them is considered.  A command to evaluate carries its
target, which may be that of any selection in any text.
-/

namespace LiveCoding

namespace Session

/-! ### Asking -/

/-- What a user can ask of a session, or let time do to it. -/
inductive Command where
  | connect
  | evaluate (target? : Option Target)
  | bootServer
  | quitServer
  | stopSound
  | helpFor (symbol : String)
  | helpAt (document : Document) (position : Position)
  | startLanguageServer (mayLaunch : Bool)
  | languageServerStopped
  | launchInterpreter
  | pass (milliseconds : Nat)
  | apply (settings : Settings)
  | shutdown

/-- The stage that a command leaves behind, whether or not it fails. -/
def Command.after (command : Command) (stage : Stage) : Stage :=
  match command with
  | .connect => Session.connect.after stage
  | .evaluate target? => (evaluateTarget target?).after stage
  | .bootServer => Session.bootServer.after stage
  | .quitServer => Session.quitServer.after stage
  | .stopSound => Session.stopSound.after stage
  | .helpFor symbol => (Session.helpFor symbol).after stage
  | .helpAt document position => (Session.helpAt document position).after stage
  | .startLanguageServer mayLaunch => (Session.startLanguageServer mayLaunch).after stage
  | .languageServerStopped => Session.languageServerStopped.after stage
  | .launchInterpreter => Session.launchInterpreter.after stage
  | .pass milliseconds => (Session.pass milliseconds).after stage
  | .apply settings => (Session.apply settings).after stage
  | .shutdown => Session.shutdown.after stage

/-- The sessions that a user can bring about. -/
inductive Reachable : Session → Prop where
  | fresh {settings : Settings} {timings : Timings} {session : Session}
    (h : ofSettings settings timings = .ok session) : Reachable session
  | step {session : Session} (command : Command) (world : World) (h : Reachable session) :
    Reachable (command.after ⟨session, world⟩).session

/-- **Every command is made up of elementary changes.** -/
theorem Command.changes (command : Command) (stage : Stage) :
    Changes stage.session (command.after stage).session := by
  cases command with
  | connect => exact gradual_connect stage
  | evaluate target? => exact gradual_evaluateTarget stage target?
  | bootServer => exact gradual_bootServer stage
  | quitServer => exact gradual_quitServer stage
  | stopSound => exact gradual_stopSound stage
  | helpFor symbol => exact gradual_helpFor stage symbol
  | helpAt document position => exact gradual_helpAt stage document position
  | startLanguageServer mayLaunch => exact gradual_startLanguageServer stage mayLaunch
  | languageServerStopped => exact gradual_languageServerStopped stage
  | launchInterpreter => exact gradual_launchInterpreter stage
  | pass milliseconds => exact gradual_pass stage milliseconds
  | apply settings => exact gradual_apply stage settings
  | shutdown => exact gradual_shutdown stage

/-- What a new session has, and every elementary change keeps, every session has. -/
theorem Reachable.invariant {p : Session → Prop}
    (start : ∀ {settings timings session}, ofSettings settings timings = .ok session → p session)
    (keep : ∀ {session next : Session}, Change session next → p session → p next)
    {session : Session} (reachable : session.Reachable) : p session := by
  induction reachable with
  | fresh h => exact start h
  | step command world _ ih => exact (command.changes ⟨_, world⟩).keep keep ih

/-! ### Coherence -/

/-- Nothing is wrong with the settings, the client and the port of the language server
are theirs, and a socket is directed at the client's target. -/
structure Coherent (session : Session) : Prop where
  sound : session.settings.problems = []
  host_eq : session.client.host = session.settings.oscHost
  port_eq : (session.client.port.toNat : Int) = session.settings.oscPort
  serverPort_eq : (session.serverPort.toNat : Int) = session.settings.languageServerPort
  directed : session.client.Directed

theorem ofSettings_eq_ok_iff {settings : Settings} {timings : Timings} {session : Session} :
    ofSettings settings timings = .ok session ↔
      ∃ oscPort serverPort, settings.ports = .ok (oscPort, serverPort) ∧
        session =
          { settings, serverPort, timings, client := ⟨settings.oscHost, oscPort, none⟩ } := by
  unfold ofSettings
  cases settings.ports with
  | error problems => simp
  | ok ports =>
    obtain ⟨oscPort, serverPort⟩ := ports
    simp [eq_comm, and_assoc]

/-- The session under settings where every choice was left open. -/
theorem ofSettings_default : ofSettings ({} : Flags).resolve =
    .ok ⟨({} : Flags).resolve, 57121, ⟨"127.0.0.1", 57120, none⟩, none, false, false, {}⟩ :=
  rfl

theorem coherent_of_ofSettings {settings : Settings} {timings : Timings} {session : Session}
    (h : ofSettings settings timings = .ok session) : session.Coherent := by
  obtain ⟨oscPort, serverPort, hports, rfl⟩ := ofSettings_eq_ok_iff.mp h
  obtain ⟨sound, port, server⟩ := Settings.ports_eq_ok_iff.mp hports
  exact ⟨sound, rfl, port, server, Osc.Client.directed_of_peer_none rfl⟩

/-- **No elementary change leaves a session incoherent.** -/
theorem Change.coherent {session next : Session} (change : Change session next)
    (coherent : session.Coherent) : next.Coherent := by
  obtain ⟨sound, host, port, server, directed⟩ := coherent
  cases change with
  | touch | bridge | unbridge | interpreter => exact ⟨sound, host, port, server, directed⟩
  | connect _ h =>
    obtain ⟨hhost, hport⟩ := Endpoint.mk.inj (Osc.Client.target_of_connect h)
    exact ⟨sound, hhost.trans host, by rwa [hport], server, directed.connect h⟩
  | apply h =>
    obtain ⟨oscPort, serverPort, hports, rfl, -⟩ := applySettings_eq_ok_iff.mp h
    obtain ⟨sound', port', server'⟩ := Settings.ports_eq_ok_iff.mp hports
    obtain ⟨hhost, hport⟩ :=
      Endpoint.mk.inj (session.client.target_retarget _ _)
    exact ⟨sound', hhost, by rwa [hport], server', directed.retarget _ _⟩
  | close =>
    exact ⟨sound, host, port, server, Osc.Client.directed_of_peer_none rfl⟩

/-- **Every session is coherent.** -/
theorem Reachable.coherent {session : Session} (reachable : session.Reachable) :
    session.Coherent :=
  reachable.invariant coherent_of_ofSettings Change.coherent

/-- **Whatever a session was asked**, nothing is wrong with the settings in force, the
client and the port of the language server are those that were set, and a socket is
directed there.  Settings without ports are those that something is wrong with: no port
fails to be narrowed after it was checked. -/
theorem Reachable.settings_in_force {session : Session} (reachable : session.Reachable) :
    session.settings.problems = [] ∧
      session.client.host = session.settings.oscHost ∧
      (session.client.port.toNat : Int) = session.settings.oscPort ∧
      (session.serverPort.toNat : Int) = session.settings.languageServerPort ∧
      (∀ peer, session.client.peer = some peer →
        peer.host = session.settings.oscHost ∧
          (peer.port.toNat : Int) = session.settings.oscPort) ∧
      ∀ (settings : Settings) (problems : List Settings.Problem),
        settings.ports = .error problems ↔ problems = settings.problems ∧ problems ≠ [] := by
  obtain ⟨sound, host, port, server, directed⟩ := reachable.coherent
  refine ⟨sound, host, port, server, ?_, fun _ _ => Settings.ports_eq_error_iff⟩
  intro peer hpeer
  obtain rfl : peer = session.client.target := directed peer hpeer
  exact ⟨host, port⟩

/-- A connected session that is given another port and connects again is directed at the
new one. -/
theorem Reachable.settings_in_force_moved : ∃ (session : Session) (peer : Endpoint),
    session.Reachable ∧ session.client.peer = some peer ∧ session.settings.oscPort = 57199 ∧
      peer.host = "127.0.0.1" ∧ peer.port.toNat = 57199 := by
  have fresh : ofSettings ({} : Flags).resolve =
      .ok ⟨({} : Flags).resolve, 57121, ⟨"127.0.0.1", 57120, none⟩, none, false, false, {}⟩ := rfl
  have connected := (Reachable.fresh fresh).step .connect { network := .willing }
  have moved := connected.step (.apply ({ oscPort := some 57199 } : Flags).resolve) {}
  have again := moved.step .connect { network := .willing }
  obtain ⟨-, -, -, -, directed, -⟩ := again.settings_in_force
  obtain ⟨host, port⟩ := directed ⟨"127.0.0.1", 57199⟩ rfl
  exact ⟨_, ⟨"127.0.0.1", 57199⟩, again, rfl, rfl, host, Int.ofNat_inj.mp port⟩

end Session

end LiveCoding
