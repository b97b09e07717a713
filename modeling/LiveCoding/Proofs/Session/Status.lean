import LiveCoding.Proofs.Session.Reachable

/-!
# What the indicator shows is so

The indicator is drawn from the connections only after one was tried, which the session
keeps as a flag of its own.  It tells the truth because whatever stands was tried: the
client is connected, and the language server is bridged, only by actions that raise the
flag first, and nothing lowers it.

## Main Definitions

* `Session.Run`: a session, with all that was asked of it on the way.
* `Session.Command.Tries`: a command tries a connection.
* `Session.Tried`: whatever stands was tried.
* `Action.Keeps`: an action leaves a part of the session as it is.

## Main Statements

* `Session.Command.touched_after_iff`: what one command does to the flag.
* `Session.Run.touched_iff`: what a whole run does to it.
* `Session.Run.status_truthful`: the indicator shows what is so.

## Design Notes

A command that only makes sure of a connection tries one if there is none.  If there is one,
it was tried before, so it makes no difference whether such a command is counted always or
only where it has something to do.
-/

namespace LiveCoding

/-! ### The indicator -/

namespace Status

variable (connected bridged : Bool)

theorem text_render_iff : (render connected bridged).text = connectedText ↔ connected = true := by
  cases connected <;> cases bridged <;> decide

theorem suffix_tooltip_render_iff :
    "| LSP Active".toList <:+ (render connected bridged).tooltip.toList ↔ bridged = true := by
  cases connected <;> cases bridged <;> decide

theorem render_ne_initial : render connected bridged ≠ initial := by
  cases connected <;> cases bridged <;> decide

end Status

/-! ### What an action leaves as it is -/

/-- The stage with the flag up that a connection was tried. -/
def Stage.touch (stage : Stage) : Stage :=
  { stage with session.touched := true }

theorem Action.after_bind_congr {α β : Type} {first : Action α} {second : α → Action β}
    {stage other : Stage} (h : first stage = first other) :
    (first >>= second : Action β).after stage = (first >>= second : Action β).after other := by
  rw [after, after, bind_apply, bind_apply, h]

/-- From this stage, an action leaves a part of the session as it is. -/
def Action.Keeps {α γ : Type} (part : Session → γ) (action : Action α) (stage : Stage) : Prop :=
  part (action.after stage).session = part stage.session

namespace Action.Keeps

variable {α β γ : Type} {part : Session → γ} {action : Action α} {stage : Stage}

theorem of_session_eq (h : (action.after stage).session = stage.session) :
    action.Keeps part stage :=
  congrArg part h

theorem get_bind {second : Stage → Action β} (h : (second stage).Keeps part stage) :
    (get >>= second : Action β).Keeps part stage :=
  h

theorem bind {second : α → Action β} (hfirst : action.Keeps part stage)
    (hsecond : ∀ a next, action stage = .ok a next → (second a).Keeps part next) :
    (action >>= second : Action β).Keeps part stage := by
  unfold Keeps after at hfirst ⊢
  rw [bind_apply]
  cases h : action stage with
  | error error next =>
    rw [h] at hfirst
    exact hfirst
  | ok a next =>
    rw [h] at hfirst
    exact (hsecond a next h).trans hfirst

end Action.Keeps

namespace Session

open LiveCoding.Action (Keeps)

/-! ### Commands that try a connection -/

/-- A command that connects, or makes sure that there is a connection. -/
def Command.WantsConnection : Command → Prop
  | .connect | .startLanguageServer _ | .evaluate _ | .bootServer | .stopSound => True
  | _ => False

/-- Asked of this session, a command tries a connection.  One that only makes sure of it
does so if there is none. -/
def Command.Tries (command : Command) (session : Session) : Prop :=
  match command with
  | .connect | .startLanguageServer _ => True
  | .evaluate _ | .bootServer | .stopSound => ¬ session.isConnected
  | _ => False

theorem Command.WantsConnection.tries {command : Command} {session : Session}
    (wants : command.WantsConnection) (apart : ¬ session.isConnected) :
    command.Tries session := by
  cases command with
  | connect | startLanguageServer => trivial
  | evaluate | bootServer | stopSound => exact apart
  | _ => exact wants

theorem Command.Tries.wantsConnection {command : Command} {session : Session}
    (tries : command.Tries session) : command.WantsConnection := by
  cases command with
  | connect | startLanguageServer | evaluate | bootServer | stopSound => trivial
  | _ => exact tries

/-! ### What becomes of the flag -/

section Touched

variable (stage : Stage)

theorem keeps_send {γ : Type} (part : Session → γ) (message : Osc.Message) :
    (send message).Keeps part stage := by
  refine .of_session_eq ?_
  rw [Action.after, send_apply]
  cases stage.session.client.send stage.world.network message <;> rfl

theorem keeps_ensureConnected {γ : Type} (part : Session → γ) {stage : Stage}
    (connected : stage.session.isConnected) : ensureConnected.Keeps part stage := by
  refine .of_session_eq ?_
  rw [Action.after, ensureConnected_apply, if_pos connected]

theorem keeps_evaluateTarget {γ : Type} (part : Session → γ) {stage : Stage}
    (connected : stage.session.isConnected) (target? : Option Target) :
    (evaluateTarget target?).Keeps part stage := by
  refine Keeps.bind (keeps_ensureConnected part connected) fun _ next _ => ?_
  cases target? with
  | none => exact .of_session_eq rfl
  | some target => exact Keeps.bind (keeps_send next part _) fun _ _ _ => .of_session_eq rfl

theorem keeps_quitServer {γ : Type} (part : Session → γ) : quitServer.Keeps part stage := by
  refine Keeps.get_bind ?_
  dsimp only
  split
  · exact .of_session_eq rfl
  · exact keeps_send stage part _

theorem keeps_helpAt {γ : Type} (part : Session → γ) (document : Document)
    (position : Position) : (helpAt document position).Keeps part stage := by
  unfold helpAt
  split
  · exact .of_session_eq rfl
  · exact .of_session_eq rfl

theorem keeps_touched_launchInterpreter : launchInterpreter.Keeps touched stage := by
  refine Keeps.bind (.of_session_eq (by rw [isRunning_after])) fun _ next _ => ?_
  dsimp only
  split
  · exact .of_session_eq rfl
  · refine Keeps.get_bind ?_
    split <;> rfl

theorem keeps_touched_apply (settings : Settings) : (apply settings).Keeps touched stage := by
  refine Keeps.get_bind ?_
  split
  · rfl
  next h =>
    obtain ⟨-, -, -, rfl, -⟩ := applySettings_eq_ok_iff.mp h
    rfl

theorem keeps_touched_shutdown : shutdown.Keeps touched stage := by
  refine Keeps.get_bind ?_
  refine Keeps.bind rfl fun _ closed _ => ?_
  split
  · rfl
  · refine Keeps.get_bind ?_
    dsimp only
    split <;> rfl

/-- A command that tries no connection leaves the flag as it is. -/
theorem Command.keeps_touched {command : Command} (h : ¬ command.Tries stage.session) :
    (command.after stage).session.touched = stage.session.touched := by
  cases command with
  | connect | startLanguageServer => exact absurd trivial h
  | evaluate target? => exact keeps_evaluateTarget touched (Decidable.not_not.mp h) target?
  | bootServer | stopSound =>
    exact Keeps.bind (keeps_ensureConnected touched (Decidable.not_not.mp h)) fun _ next _ =>
      keeps_send next touched _
  | quitServer => exact keeps_quitServer stage touched
  | helpFor symbol => rfl
  | helpAt document position => exact keeps_helpAt stage touched document position
  | languageServerStopped => rfl
  | launchInterpreter => exact keeps_touched_launchInterpreter stage
  | pass milliseconds => rfl
  | apply settings => exact keeps_touched_apply stage settings
  | shutdown => exact keeps_touched_shutdown stage

/-- Making sure of a connection is connecting, if there is none. -/
theorem ensureConnected_of_apart {stage : Stage} (apart : ¬ stage.session.isConnected) :
    ensureConnected stage = (connect >>= fun _ => pure () : Action Unit) stage := by
  show (if stage.session.isConnected then _ else _ : Action Unit) stage = _
  rw [if_neg apart]

/-- A command that tries a connection raises the flag before anything else, so it makes no
difference whether the flag was up. -/
theorem Command.after_touch {command : Command} (h : command.Tries stage.session) :
    command.after stage = command.after stage.touch := by
  have ensured (apart : ¬ stage.session.isConnected) :
      ensureConnected stage = ensureConnected stage.touch := by
    rw [ensureConnected_of_apart apart, @ensureConnected_of_apart stage.touch apart]
    rfl
  cases command with
  | connect | startLanguageServer => rfl
  | evaluate | bootServer | stopSound => exact Action.after_bind_congr (ensured h)
  | _ => exact h.elim

/-- **The flag is up after a command** if it was up before, or the command tries a
connection, whatever comes of it. -/
theorem Command.touched_after_iff (command : Command) :
    (command.after stage).session.touched = true ↔
      stage.session.touched = true ∨ command.Tries stage.session := by
  constructor
  · intro up
    by_cases h : command.Tries stage.session
    · exact Or.inr h
    · exact Or.inl (command.keeps_touched stage h ▸ up)
  · rintro (up | h)
    · exact (command.changes stage).keep Change.touched up
    · rw [command.after_touch stage h]
      exact (command.changes _).keep Change.touched rfl

end Touched

/-! ### Whatever stands was tried -/

/-- Whatever stands was tried. -/
structure Tried (session : Session) : Prop where
  of_isConnected : session.isConnected → session.touched = true
  of_bridged : session.bridged = true → session.touched = true

/-- **No elementary change makes a connection that was not tried.** -/
theorem Change.tried {session next : Session} (change : Change session next)
    (tried : session.Tried) : next.Tried := by
  obtain ⟨connected, bridged⟩ := tried
  cases change with
  | touch => exact ⟨fun _ => rfl, fun _ => rfl⟩
  | connect touched | bridge touched => exact ⟨fun _ => touched, fun _ => touched⟩
  | unbridge => exact ⟨connected, Bool.noConfusion⟩
  | interpreter => exact ⟨connected, bridged⟩
  | apply h =>
    obtain ⟨oscPort, serverPort, -, rfl, -⟩ := applySettings_eq_ok_iff.mp h
    exact ⟨fun kept => connected (Osc.Client.isConnected_retarget_iff _ _ _ |>.mp kept).1, bridged⟩
  | close => exact ⟨Bool.noConfusion, Bool.noConfusion⟩

theorem Reachable.tried {session : Session} (reachable : session.Reachable) : session.Tried := by
  refine reachable.invariant (fun {settings timings session} h => ?_) Change.tried
  obtain ⟨-, -, -, rfl⟩ := ofSettings_eq_ok_iff.mp h
  exact ⟨Bool.noConfusion, Bool.noConfusion⟩

/-! ### Runs -/

/-- A command, and the session that it was asked of. -/
structure Turn where
  command : Command
  session : Session

/-- The command tries a connection. -/
def Turn.Tries (turn : Turn) : Prop :=
  turn.command.Tries turn.session

/-- The sessions that a user can bring about, with all that was asked on the way, the latest
first. -/
inductive Run : List Turn → Session → Prop where
  | fresh {settings : Settings} {timings : Timings} {session : Session}
    (h : ofSettings settings timings = .ok session) : Run [] session
  | step {turns : List Turn} {session : Session} (command : Command) (world : World)
    (h : Run turns session) :
    Run (⟨command, session⟩ :: turns) (command.after ⟨session, world⟩).session

/-- Every session comes about by some run. -/
theorem reachable_iff_exists_run {session : Session} :
    session.Reachable ↔ ∃ turns, Run turns session := by
  constructor
  · intro reachable
    induction reachable with
    | fresh h => exact ⟨[], .fresh h⟩
    | step command world _ ih =>
      obtain ⟨turns, run⟩ := ih
      exact ⟨_, run.step command world⟩
  · rintro ⟨turns, run⟩
    induction run with
    | fresh h => exact .fresh h
    | step command world _ ih => exact ih.step command world

/-- **The flag is up if a connection was ever tried**, and only then. -/
theorem Run.touched_iff {turns : List Turn} {session : Session} (run : Run turns session) :
    session.touched = true ↔ ∃ turn ∈ turns, turn.Tries := by
  induction run with
  | fresh h =>
    obtain ⟨-, -, -, rfl⟩ := ofSettings_eq_ok_iff.mp h
    simp
  | @step turns session command world _ ih =>
    simp only [command.touched_after_iff, ih, List.mem_cons, exists_eq_or_imp]
    exact or_comm

/-- To have tried a connection is to have been asked for what wants one. -/
theorem Run.exists_tries_iff {turns : List Turn} {session : Session} (run : Run turns session) :
    (∃ turn ∈ turns, turn.Tries) ↔ ∃ turn ∈ turns, turn.command.WantsConnection := by
  refine ⟨fun ⟨turn, mem, tries⟩ => ⟨turn, mem, tries.wantsConnection⟩, ?_⟩
  induction run with
  | fresh =>
    rintro ⟨turn, mem, -⟩
    contradiction
  | @step turns session command world run ih =>
    rintro ⟨turn, mem, wants⟩
    rcases List.mem_cons.mp mem with rfl | mem
    · -- a connection that stands already was tried earlier in the run
      by_cases connected : session.isConnected
      · have up := (reachable_iff_exists_run.mpr ⟨_, run⟩).tried.of_isConnected connected
        obtain ⟨turn, mem, tries⟩ := run.touched_iff.mp up
        exact ⟨turn, List.mem_cons_of_mem _ mem, tries⟩
      · exact ⟨_, List.mem_cons_self, wants.tries connected⟩
    · obtain ⟨turn, mem, tries⟩ := ih ⟨turn, mem, wants⟩
      exact ⟨turn, List.mem_cons_of_mem _ mem, tries⟩

/-! ### What the user sees -/

section Status

variable {session : Session}

theorem status_of_touched (up : session.touched = true) :
    session.status = .render session.isConnected session.bridged :=
  if_pos up

theorem status_of_not_touched (down : session.touched = false) : session.status = .initial := by
  rw [status, down, if_neg Bool.false_ne_true]

theorem status_eq_initial_iff : session.status = .initial ↔ session.touched = false := by
  refine ⟨fun shown => ?_, status_of_not_touched⟩
  refine Bool.eq_false_iff.mpr fun up => ?_
  rw [status_of_touched up] at shown
  exact Status.render_ne_initial _ _ shown

/-- Nothing stands where nothing was tried. -/
theorem Tried.apart (tried : session.Tried) (down : session.touched = false) :
    ¬ session.isConnected ∧ session.bridged = false := by
  refine ⟨fun connected => ?_, Bool.eq_false_iff.mpr fun bridged => ?_⟩
  · exact Bool.eq_false_iff.mp down (tried.of_isConnected connected)
  · exact Bool.eq_false_iff.mp down (tried.of_bridged bridged)

/-- **The symbol is that of a connection** if there is one. -/
theorem Tried.text_status_iff (tried : session.Tried) :
    session.status.text = Status.connectedText ↔ session.isConnected := by
  cases up : session.touched with
  | true => rw [status_of_touched up, Status.text_render_iff]
  | false =>
    rw [status_of_not_touched up]
    exact iff_of_false (by decide) (tried.apart up).1

/-- **The end tells of a bridge** if there is one. -/
theorem Tried.suffix_tooltip_status_iff (tried : session.Tried) :
    "| LSP Active".toList <:+ session.status.tooltip.toList ↔ session.bridged = true := by
  cases up : session.touched with
  | true => rw [status_of_touched up, Status.suffix_tooltip_render_iff]
  | false =>
    rw [status_of_not_touched up, (tried.apart up).2]
    exact iff_of_false (by decide) Bool.false_ne_true

end Status

/-- **The indicator shows what is so**, whatever was asked of the session and whatever came
of it.  Its symbol and its end tell of the two connections, and it invites to connect as
long as no connection was tried, which is as long as no command wanted one. -/
theorem Run.status_truthful {turns : List Turn} {session : Session} (run : Run turns session) :
    (session.status.text = Status.connectedText ↔ session.isConnected) ∧
      ("| LSP Active".toList <:+ session.status.tooltip.toList ↔ session.bridged = true) ∧
      (session.status = .initial ↔ ∀ turn ∈ turns, ¬ turn.Tries) ∧
      (session.status = .initial ↔ ∀ turn ∈ turns, ¬ turn.command.WantsConnection) ∧
      (session.status = .initial → ¬ session.isConnected ∧ session.bridged = false) := by
  have tried := (reachable_iff_exists_run.mpr ⟨_, run⟩).tried
  have untried : session.status = .initial ↔ ¬ ∃ turn ∈ turns, turn.Tries := by
    rw [status_eq_initial_iff, ← run.touched_iff, Bool.not_eq_true]
  refine ⟨tried.text_status_iff, tried.suffix_tooltip_status_iff, ?_, ?_, ?_⟩
  · rw [untried]
    simp
  · rw [untried, run.exists_tries_iff]
    simp
  · intro shown
    exact tried.apart (status_eq_initial_iff.mp shown)

/-- A session still invites after it was asked to quit the sound server.  Once it was asked
to evaluate, which connects though there is nothing to send, it never does again. -/
theorem Run.status_truthful_shut_down : ∃ (turn : Turn) (turns : List Turn) (early late : Session),
    Run [turn] early ∧ early.status = .initial ∧
      Run turns late ∧ turns.length = 3 ∧ late.status ≠ .initial ∧
      late.status.text ≠ Status.connectedText := by
  have quit := (Run.fresh ofSettings_default).step .quitServer {}
  have ended := (quit.step (.evaluate none) { network := .willing }).step .shutdown {}
  obtain ⟨-, -, -, early, -⟩ := quit.status_truthful
  obtain ⟨symbol, -, late, -, -⟩ := ended.status_truthful
  refine ⟨_, _, _, _, quit, early.mpr ?_, ended, rfl, fun shown => ?_, mt symbol.mp (by decide)⟩
  · rintro turn mem wants
    obtain rfl := List.mem_singleton.mp mem
    exact wants
  · exact late.mp shown _ (List.mem_cons_of_mem _ List.mem_cons_self) Bool.false_ne_true

end Session

end LiveCoding
