import LiveCoding.Proofs.Osc.RoundTrip
import LiveCoding.Proofs.Session.Reachable
import LiveCoding.Proofs.Target

/-!
# What a session reports as evaluated

Evaluation connects if need be, and sends the code of its target if there is one.  What
it reports as evaluated is what was sent: the one new datagram is read as the message
that has the code of the target evaluated.  Where it reports nothing or fails, nothing
was sent.

## Main Definitions

* `Session.Faithful`: what is reported of an evaluation is what became of it.

## Main Statements

* `Session.evaluateTarget_eq_ok_iff`, `Session.evaluateTarget_eq_error_iff`: the ways in
  which an evaluation can go.
* `Session.evaluate_faithful`: what is reported as evaluated is what was sent.
-/

namespace LiveCoding

namespace Session

/-! ### The ways in which an evaluation can go -/

section Ways

variable {stage next : Stage} {target? reported : Option Target} {error : Error}

/-- A connection that is there, or is made, changes nothing else. -/
theorem ensureConnected_eq_ok (h : ensureConnected stage = .ok () next) :
    next.session.isConnected ∧ next.session.settings = stage.session.settings ∧
      next.world = stage.world := by
  rw [ensureConnected_apply] at h
  split at h
  next connected =>
    obtain ⟨-, rfl⟩ := EStateM.Result.ok.inj h
    exact ⟨connected, rfl, rfl⟩
  next =>
    split at h
    · contradiction
    next client hclient =>
      obtain ⟨-, rfl⟩ := EStateM.Result.ok.inj h
      exact ⟨Osc.Client.isConnected_of_connect hclient, rfl, rfl⟩

/-- A connection that is there need not be made. -/
theorem ensureConnected_of_isConnected (connected : stage.session.isConnected) :
    ensureConnected stage = .ok () stage := by
  rw [ensureConnected_apply, if_pos connected]

/-- A connection cannot be made only if the network refuses. -/
theorem ensureConnected_eq_error (h : ensureConnected stage = .error error next) :
    (next.session.settings = stage.session.settings ∧ next.world = stage.world) ∧
      ¬ stage.session.isConnected ∧
      ∃ fault, stage.world.network.reach .datagram stage.session.client.target = .error fault ∧
        error = .osc (.socket fault) := by
  rw [ensureConnected_apply] at h
  split at h
  · contradiction
  next apart =>
    split at h
    next hrefused =>
      obtain ⟨rfl, rfl⟩ := EStateM.Result.error.inj h
      obtain ⟨-, fault, hfault, rfl⟩ := Osc.Client.connect_eq_error_iff.mp hrefused
      exact ⟨⟨rfl, rfl⟩, apart, fault, hfault, rfl⟩
    · contradiction

theorem send_eq_ok_iff {message : Osc.Message} : send message stage = .ok () next ↔
    ∃ datagram, stage.session.client.send stage.world.network message = .ok datagram ∧
      next = { stage with world := stage.world.emit datagram } := by
  rw [send_apply]
  cases stage.session.client.send stage.world.network message with
  | error refused => simp
  | ok datagram => simp [eq_comm]

theorem send_eq_error_iff {message : Osc.Message} : send message stage = .error error next ↔
    ∃ refused, stage.session.client.send stage.world.network message = .error refused ∧
      error = .osc refused ∧ next = stage := by
  rw [send_apply]
  cases stage.session.client.send stage.world.network message with
  | error refused => simp [eq_comm]
  | ok datagram => simp

/-- **An evaluation that goes well** reports its target, after a datagram if there is
one. -/
theorem evaluateTarget_eq_ok_iff : evaluateTarget target? stage = .ok reported next ↔
    reported = target? ∧ ∃ mid, ensureConnected stage = .ok () mid ∧
      match target? with
      | none => next = mid
      | some target =>
        ∃ datagram, mid.session.client.send mid.world.network (Osc.evaluate target.code) =
            .ok datagram ∧ next = { mid with world := mid.world.emit datagram } := by
  unfold evaluateTarget
  rw [Action.bind_eq_ok_iff]
  cases target? with
  | none =>
    constructor
    · rintro ⟨_, mid, hmid, h⟩
      obtain ⟨rfl, rfl⟩ := EStateM.Result.ok.inj h
      exact ⟨rfl, mid, hmid, rfl⟩
    · rintro ⟨rfl, mid, hmid, rfl⟩
      exact ⟨(), next, hmid, rfl⟩
  | some target =>
    constructor
    · rintro ⟨_, mid, hmid, h⟩
      obtain ⟨_, last, hsend, h⟩ := Action.bind_eq_ok_iff.mp h
      obtain ⟨rfl, rfl⟩ := EStateM.Result.ok.inj h
      exact ⟨rfl, mid, hmid, send_eq_ok_iff.mp hsend⟩
    · rintro ⟨rfl, mid, hmid, hsend⟩
      exact ⟨(), mid, hmid, Action.bind_eq_ok_iff.mpr ⟨(), next, send_eq_ok_iff.mpr hsend, rfl⟩⟩

/-- **An evaluation that fails** could not connect, or could not send. -/
theorem evaluateTarget_eq_error_iff : evaluateTarget target? stage = .error error next ↔
    ensureConnected stage = .error error next ∨
      ∃ target ∈ target?, ∃ refused, error = .osc refused ∧ ensureConnected stage = .ok () next ∧
        next.session.client.send next.world.network (Osc.evaluate target.code) =
          .error refused := by
  unfold evaluateTarget
  rw [Action.bind_eq_error_iff]
  refine or_congr_right ?_
  cases target? with
  | none =>
    constructor
    · rintro ⟨_, mid, -, ⟨⟩⟩
    · rintro ⟨target, ⟨⟩, -⟩
  | some target =>
    constructor
    · rintro ⟨_, mid, hmid, h⟩
      rcases Action.bind_eq_error_iff.mp h with hsend | ⟨_, last, -, ⟨⟩⟩
      obtain ⟨refused, hrefused, rfl, rfl⟩ := send_eq_error_iff.mp hsend
      exact ⟨target, rfl, refused, rfl, hmid, hrefused⟩
    · rintro ⟨_, ⟨⟩, refused, rfl, hmid, hrefused⟩
      exact ⟨(), next, hmid, Action.bind_eq_error_iff.mpr
        (Or.inl (send_eq_error_iff.mpr ⟨refused, hrefused, rfl, rfl⟩))⟩

end Ways

/-! ### What is reported -/

/-- What is reported of an evaluation is what became of it. -/
structure Faithful (before : Stage) (target? : Option Target)
    (result : EStateM.Result Error Stage (Option Target)) : Prop where
  /-- A target that is reported is the one there was, and the one new datagram went to
  where the settings say and is read as its code. -/
  sent : ∀ target stage, result = .ok (some target) stage →
    target? = some target ∧ ∃ datagram, stage.world = before.world.emit datagram ∧
      datagram.peer.host = before.session.settings.oscHost ∧
      (datagram.peer.port.toNat : Int) = before.session.settings.oscPort ∧
      Osc.Message.decode datagram.payload = .ok ⟨"/interpret", [.text target.code]⟩
  /-- Nothing is reported where there was nothing to send. -/
  nothing : ∀ stage, result = .ok none stage → target? = none ∧ stage.world = before.world
  /-- A failure is reported where nothing was sent. -/
  failed : ∀ error stage, result = .error error stage →
    stage.world = before.world ∧ stage.session.settings = before.session.settings
  /-- After a refusal the session is connected, and any target that is not refused can be
  evaluated. -/
  refused : ∀ error stage, result = .error (.osc error) stage → error.IsRefusal →
    stage.session.isConnected ∧
      ∀ (world : World) (other : Target), world.network.Delivers →
        ¬ Osc.HoldsNul other.code →
        (Osc.evaluate other.code).bytes.length ≤ Osc.maxDatagram →
        ∃ datagram, evaluateTarget (some other) ⟨stage.session, world⟩ =
          .ok (some other) ⟨stage.session, world.emit datagram⟩
  /-- On a network that takes what fits, a failure has one of three causes. -/
  causes : ∀ error stage, before.world.network.Delivers → result = .error error stage →
    (¬ before.session.isConnected ∧
      ∃ fault, before.world.network.reach .datagram before.session.client.target =
          .error fault ∧ error = .osc (.socket fault)) ∨
    ∃ target ∈ target?,
      (Osc.HoldsNul target.code ∧ error = .osc .interiorNul) ∨
      (Osc.maxDatagram < (Osc.evaluate target.code).bytes.length ∧
        error = .osc (.payloadTooLarge (Osc.evaluate target.code).bytes.length))

section Faithful

variable {stage next : Stage} {target? : Option Target} {error : Error} {code : String}

theorem coherent_of_ensureConnected (coherent : stage.session.Coherent)
    (h : ensureConnected stage = .ok () next) : next.session.Coherent := by
  have changes := gradual_ensureConnected stage
  rw [Action.Gradual, Action.after_of_ok h] at changes
  exact changes.keep Change.coherent coherent

/-- A network that takes what fits leaves two causes why code is not sent. -/
theorem refused_of_delivers {network : Network} {client : Osc.Client} {refused : Osc.Error}
    (delivers : network.Delivers) (connected : client.isConnected)
    (h : client.send network (Osc.evaluate code) = .error refused) :
    (Osc.HoldsNul code ∧ refused = .interiorNul) ∨
      (Osc.maxDatagram < (Osc.evaluate code).bytes.length ∧
        refused = .payloadTooLarge (Osc.evaluate code).bytes.length) := by
  rcases Osc.Client.send_eq_error connected h with
    written | ⟨packet, written, long, rfl⟩ | ⟨peer, packet, fault, written, fits, carried, -⟩
  · rw [Osc.encode_evaluate] at written
    split at written
    next nul => exact Or.inl ⟨nul, (Except.error.inj written).symm⟩
    next => contradiction
  · rw [Osc.encode_evaluate] at written
    split at written
    · contradiction
    · obtain rfl := Except.ok.inj written
      exact Or.inr ⟨long, rfl⟩
  · rw [delivers peer packet fits] at carried
    contradiction

/-- A connected session evaluates every target that is not refused. -/
theorem evaluateTarget_of_isConnected {session : Session} {world : World} {target : Target}
    (connected : session.isConnected) (delivers : world.network.Delivers)
    (noNul : ¬ Osc.HoldsNul target.code)
    (fits : (Osc.evaluate target.code).bytes.length ≤ Osc.maxDatagram) :
    ∃ datagram, evaluateTarget (some target) ⟨session, world⟩ =
      .ok (some target) ⟨session, world.emit datagram⟩ := by
  obtain ⟨peer, hpeer⟩ := Osc.Client.isConnected_iff.mp connected
  have written : (Osc.evaluate target.code).encode = .ok (Osc.evaluate target.code).bytes := by
    rw [Osc.encode_evaluate, if_neg noNul]
  refine ⟨⟨peer, (Osc.evaluate target.code).bytes⟩, evaluateTarget_eq_ok_iff.mpr ⟨rfl, ?_⟩⟩
  refine ⟨⟨session, world⟩, ensureConnected_of_isConnected connected, _, ?_, rfl⟩
  exact Osc.Client.send_eq_ok_iff.mpr ⟨hpeer, written, fits, delivers peer _ fits⟩

/-- Only what is not a refusal can keep a session from being connected. -/
theorem isConnected_of_refusal {error : Osc.Error}
    (h : evaluateTarget target? stage = .error (.osc error) next) (refusal : error.IsRefusal) :
    next.session.isConnected := by
  rcases evaluateTarget_eq_error_iff.mp h with apart | ⟨-, -, -, -, connected, -⟩
  · obtain ⟨-, -, fault, -, herror⟩ := ensureConnected_eq_error apart
    obtain rfl := Error.osc.inj herror
    exact refusal.elim
  · exact (ensureConnected_eq_ok connected).1

/-- **Every evaluation in a coherent session is faithful.** -/
theorem evaluateTarget_faithful (coherent : stage.session.Coherent) (target? : Option Target) :
    Faithful stage target? (evaluateTarget target? stage) where
  sent := by
    intro target next h
    obtain ⟨rfl, mid, hmid, datagram, hsend, rfl⟩ := evaluateTarget_eq_ok_iff.mp h
    obtain ⟨-, settings, world⟩ := ensureConnected_eq_ok hmid
    obtain ⟨-, host, port, -, directed⟩ := coherent_of_ensureConnected coherent hmid
    obtain ⟨hpeer, written, -, -⟩ := Osc.Client.send_eq_ok_iff.mp hsend
    have peer : datagram.peer = mid.session.client.target := directed _ hpeer
    refine ⟨rfl, datagram, by rw [world], ?_, ?_, Osc.Message.decode_of_encode written⟩
    · rw [peer, ← settings]
      exact host
    · rw [peer, ← settings]
      exact port
  nothing := by
    intro next h
    obtain ⟨rfl, mid, hmid, rfl⟩ := evaluateTarget_eq_ok_iff.mp h
    exact ⟨rfl, (ensureConnected_eq_ok hmid).2.2⟩
  failed := by
    intro error next h
    rcases evaluateTarget_eq_error_iff.mp h with apart | ⟨-, -, -, -, connected, -⟩
    · obtain ⟨⟨settings, world⟩, -⟩ := ensureConnected_eq_error apart
      exact ⟨world, settings⟩
    · obtain ⟨-, settings, world⟩ := ensureConnected_eq_ok connected
      exact ⟨world, settings⟩
  refused := by
    intro error next h refusal
    have connected := isConnected_of_refusal h refusal
    exact ⟨connected, fun _ _ => evaluateTarget_of_isConnected connected⟩
  causes := by
    intro error next delivers h
    rcases evaluateTarget_eq_error_iff.mp h with
      apart | ⟨target, htarget, refused, rfl, connected, hsend⟩
    · exact Or.inl (ensureConnected_eq_error apart).2
    · refine Or.inr ⟨target, htarget, ?_⟩
      obtain ⟨hconnected, -, world⟩ := ensureConnected_eq_ok connected
      rw [world] at hsend
      rcases refused_of_delivers delivers hconnected hsend with ⟨nul, rfl⟩ | ⟨long, rfl⟩
      · exact Or.inl ⟨nul, rfl⟩
      · exact Or.inr ⟨long, rfl⟩

/-- **What a session reports as evaluated is what was sent**, whatever came before, for
every document and every selection.  The code is a piece of the text, or all of it. -/
theorem evaluate_faithful {session : Session} (reachable : session.Reachable) (world : World)
    (document : Document) (selection : Range) :
    Faithful ⟨session, world⟩ (Target.resolve? document selection)
        (evaluate document selection ⟨session, world⟩) ∧
      (∀ target ∈ Target.resolve? document selection,
        target.code.toList <:+: document.text.toList) ∧
      Faithful ⟨session, world⟩ (Target.ofFile? document)
        (evaluateFile document ⟨session, world⟩) ∧
      ∀ target ∈ Target.ofFile? document, target.code = document.text := by
  refine ⟨evaluateTarget_faithful reachable.coherent _, ?_,
    evaluateTarget_faithful reachable.coherent _, ?_⟩
  · intro target htarget
    rw [Target.code_of_resolve? htarget]
    exact document.slice_infix target.range
  · intro target htarget
    exact Target.code_of_ofFile? htarget

/-- A new session sends a selection with quotes, a backslash and a letter of two bytes in
front of a CRLF, as it stands. -/
theorem evaluate_faithful_quoted_text : ∃ session target stage datagram,
    ofSettings ({} : Flags).resolve = .ok session ∧
      evaluate (Document.ofText "a = \"é\\n\";\r\n") ⟨⟨0, 4⟩, ⟨0, 9⟩⟩
        ⟨session, { network := .willing }⟩ = .ok (some target) stage ∧
      target.code = "\"é\\n\"" ∧ stage.world.sent = [datagram] ∧
      datagram.peer.host = "127.0.0.1" ∧ datagram.peer.port.toNat = 57120 ∧
      Osc.Message.decode datagram.payload = .ok ⟨"/interpret", [.text "\"é\\n\""]⟩ := by
  have fresh : ofSettings ({} : Flags).resolve =
      .ok ⟨({} : Flags).resolve, 57121, ⟨"127.0.0.1", 57120, none⟩, none, false, false, {}⟩ := rfl
  obtain ⟨faithful, -⟩ := evaluate_faithful (.fresh fresh) { network := .willing }
    (.ofText "a = \"é\\n\";\r\n") ⟨⟨0, 4⟩, ⟨0, 9⟩⟩
  have chosen : Target.resolve? (Document.ofText "a = \"é\\n\";\r\n") ⟨⟨0, 4⟩, ⟨0, 9⟩⟩ =
      some ⟨"\"é\\n\"", ⟨⟨0, 4⟩, ⟨0, 9⟩⟩, .selection⟩ := by decide
  rw [chosen] at faithful
  cases h : evaluate (Document.ofText "a = \"é\\n\";\r\n") ⟨⟨0, 4⟩, ⟨0, 9⟩⟩
      ⟨_, { network := .willing }⟩ with
  | error error stage =>
    -- the network refuses nothing, and the code holds no NUL and is short
    rcases faithful.causes error stage Network.delivers_willing h with
      ⟨-, fault, refused, -⟩ | ⟨target, ⟨⟩, ⟨nul, -⟩ | ⟨long, -⟩⟩
    · contradiction
    · exact absurd nul (by decide)
    · exact absurd long (by decide)
  | ok reported stage =>
    cases reported with
    | none =>
      obtain ⟨⟨⟩, -⟩ := faithful.nothing stage h
    | some target =>
      obtain ⟨⟨⟩, datagram, world, host, port, decoded⟩ := faithful.sent _ _ h
      have sent : stage.world.sent = [datagram] := congrArg World.sent world
      exact ⟨_, _, stage, datagram, fresh, h, rfl, sent, host, Int.ofNat_inj.mp port, decoded⟩

end Faithful

end Session

end LiveCoding
