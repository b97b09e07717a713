import LiveCoding.Proofs.Session.Reachable

/-!
# Settings that are put in force as a whole

What follows from the settings is kept in several places: the client has their host and
port, its socket was directed there, and the port of the language server is kept beside
them.  Other settings are checked before any of these is changed, so either all of them
are those of the new settings, or nothing is changed at all.

## Main Definitions

* `Session.Replaced`: what becomes of a session that is given other settings.

## Main Statements

* `Session.apply_of_wrong`, `Session.apply_of_ports`: the two ways in which a change of
  settings can go.
* `Session.Coherent.replaced`: what a change that goes well comes to.
* `Session.Reachable.apply_whole_or_not`: settings are put in force as a whole or not at
  all.

## Design Notes

The client sees whether it is to be directed elsewhere by its own host and its own port,
which was narrowed from a number.  Only in a coherent session is that the same as comparing
the settings.
-/

namespace LiveCoding

namespace Session

variable {settings : Settings} {oscPort serverPort : UInt16}

/-! ### The two ways in which a change of settings can go -/

/-- A new session is refused under settings that something is wrong with. -/
theorem ofSettings_of_wrong (wrong : settings.problems ≠ []) (timings : Timings) :
    ofSettings settings timings = .error (.invalidSettings settings.problems) := by
  rw [ofSettings, Settings.ports_eq_error_iff.mpr ⟨rfl, wrong⟩]

/-- **Settings that something is wrong with are refused.**  All of it is reported, and the
session and its surroundings are left alone. -/
theorem apply_of_wrong (wrong : settings.problems ≠ []) (stage : Stage) :
    apply settings stage = .error (.invalidSettings settings.problems) stage := by
  have refused : stage.session.applySettings settings =
      .error (.invalidSettings settings.problems) := by
    rw [applySettings, Settings.ports_eq_error_iff.mpr ⟨rfl, wrong⟩]
  rw [apply, Action.get_bind_apply, refused]
  rfl

/-- **Settings that nothing is wrong with are taken**, and the client is told of its target. -/
theorem apply_of_ports (h : settings.ports = .ok (oscPort, serverPort)) (stage : Stage) :
    apply settings stage =
      .ok (stage.session.client.retarget settings.oscHost oscPort).2
        { stage with
          session := { stage.session with
            settings, serverPort
            client := (stage.session.client.retarget settings.oscHost oscPort).1 } } := by
  rw [apply, Action.get_bind_apply]
  rw [applySettings_eq_ok_iff.mpr ⟨oscPort, serverPort, h, rfl, rfl⟩]
  rfl

/-! ### What becomes of the session -/

/-- What becomes of a session that is given other settings: whatever follows from settings
follows from these, and nothing else is changed. -/
structure Replaced (before : Session) (settings : Settings) (closed : Bool)
    (after : Session) : Prop where
  settings_eq : after.settings = settings
  host_eq : after.client.host = settings.oscHost
  port_eq : (after.client.port.toNat : Int) = settings.oscPort
  serverPort_eq : (after.serverPort.toNat : Int) = settings.languageServerPort
  /-- A connection is kept if it still fits, and none is made. -/
  isConnected_iff : after.isConnected ↔
    before.isConnected ∧ settings.oscHost = before.settings.oscHost ∧
      settings.oscPort = before.settings.oscPort
  /-- A connection that is kept is the one there was. -/
  peer_eq : after.isConnected → after.client.peer = before.client.peer
  /-- The flag says whether a connection was closed. -/
  closed_iff : closed = true ↔ before.isConnected ∧ ¬ after.isConnected
  interpreter_eq : after.interpreter = before.interpreter
  bridged_eq : after.bridged = before.bridged
  touched_eq : after.touched = before.touched
  timings_eq : after.timings = before.timings

/-- In a coherent session the target of the client is another if the settings have another
host or another port. -/
theorem Coherent.target_eq_iff {session : Session} (coherent : session.Coherent)
    (port : (oscPort.toNat : Int) = settings.oscPort) :
    (session.client.host = settings.oscHost ∧ session.client.port = oscPort) ↔
      settings.oscHost = session.settings.oscHost ∧
        settings.oscPort = session.settings.oscPort := by
  rw [coherent.host_eq, ← coherent.port_eq, ← port, Int.ofNat_inj, UInt16.toNat_inj,
    eq_comm (a := settings.oscHost), eq_comm (a := oscPort)]

/-- **A change of settings that goes well** replaces the settings and nothing else. -/
theorem Coherent.replaced {session : Session} (coherent : session.Coherent)
    (h : settings.ports = .ok (oscPort, serverPort)) :
    Replaced session settings (session.client.retarget settings.oscHost oscPort).2
      { session with
        settings, serverPort
        client := (session.client.retarget settings.oscHost oscPort).1 } := by
  obtain ⟨-, port, server⟩ := Settings.ports_eq_ok_iff.mp h
  obtain ⟨hhost, hport⟩ := Endpoint.mk.inj (session.client.target_retarget settings.oscHost oscPort)
  have kept : (session.client.retarget settings.oscHost oscPort).1.isConnected ↔
      session.isConnected ∧ settings.oscHost = session.settings.oscHost ∧
        settings.oscPort = session.settings.oscPort := by
    rw [Osc.Client.isConnected_retarget_iff, coherent.target_eq_iff port]
    rfl
  exact
    { settings_eq := rfl
      host_eq := hhost
      port_eq := by rwa [hport]
      serverPort_eq := server
      isConnected_iff := kept
      peer_eq := Osc.Client.peer_retarget
      closed_iff := Osc.Client.retarget_closed_iff_not_isConnected _ _ _
      interpreter_eq := rfl
      bridged_eq := rfl
      touched_eq := rfl
      timings_eq := rfl }

/-- **Settings are put in force as a whole or not at all**, whatever a session was asked
before.  If something is wrong with them, all of it is reported and nothing is changed.
Otherwise whatever follows from the settings is changed and nothing else.  A new session is
refused under the same settings, and for the same reason. -/
theorem Reachable.apply_whole_or_not {session : Session} (reachable : session.Reachable)
    (world : World) (settings : Settings) :
    (settings.problems ≠ [] →
        apply settings ⟨session, world⟩ =
          .error (.invalidSettings settings.problems) ⟨session, world⟩) ∧
      (settings.problems = [] →
        ∃ closed next, apply settings ⟨session, world⟩ = .ok closed ⟨next, world⟩ ∧
          Replaced session settings closed next) ∧
      ∀ (timings : Timings) (error : Error),
        ofSettings settings timings = .error error ↔
          ∃ stage, apply settings ⟨session, world⟩ = .error error stage := by
  refine ⟨fun wrong => apply_of_wrong wrong _, ?_, ?_⟩
  · intro sound
    obtain ⟨oscPort, serverPort, hports⟩ := Settings.exists_ports sound
    exact ⟨_, _, apply_of_ports hports _, reachable.coherent.replaced hports⟩
  · intro timings error
    cases hports : settings.ports with
    | error problems =>
      obtain ⟨rfl, wrong⟩ := Settings.ports_eq_error_iff.mp hports
      simp [ofSettings_of_wrong wrong, apply_of_wrong wrong]
    | ok ports =>
      have made : ofSettings settings timings = .ok _ :=
        ofSettings_eq_ok_iff.mpr ⟨ports.1, ports.2, hports, rfl⟩
      simp [made, apply_of_ports hports]

/-- A connected session refuses settings that two things are wrong with, and loses its
connection when it is given another port. -/
theorem Reachable.apply_whole_or_not_connected : ∃ session next : Session,
    session.Reachable ∧ session.isConnected ∧
      apply ({ sclangPath := some "", oscPort := some 70000 } : Flags).resolve ⟨session, {}⟩ =
        .error (.invalidSettings [.emptyPath, .oscPort]) ⟨session, {}⟩ ∧
      apply ({ oscPort := some 57199 } : Flags).resolve ⟨session, {}⟩ = .ok true ⟨next, {}⟩ ∧
      next.client.port.toNat = 57199 ∧ ¬ next.isConnected ∧ next.touched := by
  have connected := (Reachable.fresh ofSettings_default).step .connect { network := .willing }
  obtain ⟨refused, -, -⟩ := connected.apply_whole_or_not {}
    ({ sclangPath := some "", oscPort := some 70000 } : Flags).resolve
  obtain ⟨-, taken, -⟩ := connected.apply_whole_or_not {}
    ({ oscPort := some 57199 } : Flags).resolve
  obtain ⟨closed, next, moved, replaced⟩ := taken (by decide)
  have apart : ¬ next.isConnected := by
    rw [replaced.isConnected_iff]
    rintro ⟨-, -, port⟩
    exact absurd port (by decide)
  obtain rfl : closed = true := replaced.closed_iff.mpr ⟨rfl, apart⟩
  exact ⟨_, next, connected, rfl, refused (by decide), moved,
    Int.ofNat_inj.mp replaced.port_eq, apart, replaced.touched_eq⟩

end Session

end LiveCoding
