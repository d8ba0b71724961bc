import OomHero.Daemons.Audit
import OomHero.Daemons.Gauges
import OomHero.EventLogger.Replay
import OomHero.Foundations.Channel
import OomHero.Foundations.Schedule

/-!
# Threads

The program runs three threads: one waits for a signal to end the program, one logs
events, and the main thread runs the monitor.  They share a channel for events and one
that stops the monitor.  Once the monitor has stopped nothing waits for the logger: the
program ends then, whatever the logger has left to do and however much of it the logger
still does.

Main results:

- Theorem {lit}`Threads.run_accounted`: however the threads interleave, the monitor does
  what it does alone, and no event is lost, duplicated or reordered on its way.
- Theorem {lit}`Threads.log_determined`: the log does not depend on the interleaving.
- Theorem {lit}`Threads.log_audits`: every send is reported in the log or on its way.
- Theorem {lit}`Threads.stops_promptly`: once the stop channel has a message or is
  closed, the monitor only finishes the pass it is in.
- Theorem {lit}`Threads.can_finish`: no interleaving deadlocks.
-/

namespace OomHero

open Transducer

variable {F : Type}

/-- What the thread of the signal handler does. -/
inductive Handler where
  /-- It has not hooked the signals yet. -/
  | hooking
  /-- It waits for a signal. -/
  | waiting
  /-- It is blocked until the monitor takes its message. -/
  | notifying
  /-- Its end of the stop channel is closed. -/
  | finished
deriving DecidableEq, Repr

/-- Whether the monitor finds the stop channel with a message or closed. -/
def Handler.stops : Handler → Bool
  | hooking => false
  | waiting => false
  | notifying => true
  | finished => true

/-- The state of the three threads and of the channels between them. -/
structure Threads (F : Type) where
  handler : Handler
  /-- What the loop of the monitor carries. -/
  monitor : MonitorState
  /-- What is left to do of the pass the monitor is in. -/
  pending : List (Action F)
  /-- Whether the loop of the monitor has ended. -/
  stopped : Bool
  events : Channel (Event F)
  lastMessages : Cache Int32 (Event F)
  /-- The passes the monitor began, with the last look at the stop channel. -/
  passes : List (Pass F)
  /-- What the monitor did. -/
  performed : List (Action F)
  /-- What the logger received. -/
  arrivals : List (Arrival F)
  log : List (Event F)

/-- A move of one thread, with what the environment contributes to it. -/
inductive Move (F : Type) where
  /-- The handler hooks the signals, or fails to. -/
  | hook (hooked : Bool)
  /-- One of the signals arrives. -/
  | interrupt
  /-- The monitor wakes up and looks at the stop channel. -/
  | wake (p : Pass F)
  /-- The monitor does what is next in its pass. -/
  | act
  /-- The logger receives an event. -/
  | receive (lost : List Int32) (victim : Nat)
  /-- The logger is gone. -/
  | hangUp

/-- Whether the main thread makes a move. -/
def Move.byMonitor : Move F → Bool
  | wake _ => true
  | act => true
  | _ => false

/-- Send an event through the channel of the transmitter.  If that fails the event is
lost. -/
def Transmitter.send (channel : Channel (Event F)) (event : Event F) : Channel (Event F) :=
  channel.send event

/-- The channel of the events after an action.  Only a report uses it. -/
def Action.post (channel : Channel (Event F)) : Action F → Channel (Event F)
  | .event e => Transmitter.send channel e
  | _ => channel

@[simp]
theorem Action.sent_post (channel : Channel (Event F)) (action : Action F) :
    (action.post channel).sent = channel.sent ++ reports [action] := by
  cases action with
  | event e => exact Channel.sent_send channel e
  | signal attempt => exact (List.append_nil _).symm
  | gauges process data reportedAt => exact (List.append_nil _).symm

@[simp]
theorem Action.received_post (channel : Channel (Event F)) (action : Action F) :
    (action.post channel).received = channel.received := by
  cases action with
  | event e => exact Channel.received_send channel e
  | signal attempt => rfl
  | gauges process data reportedAt => rfl

@[simp]
theorem Action.connected_post (channel : Channel (Event F)) (action : Action F) :
    (action.post channel).connected = channel.connected := by
  cases action with
  | event e => exact Channel.connected_send channel e
  | signal attempt => rfl
  | gauges process data reportedAt => rfl

namespace Threads

/-- The threads when the monitor enters its loop. -/
def start (m : Monitor F) (startedAt : Nat) : Threads F where
  handler := .hooking
  monitor := m.initial startedAt
  pending := []
  stopped := false
  events := Channel.empty
  lastMessages := Cache.empty 1000
  passes := []
  performed := []
  arrivals := []
  log := []

variable [F32 F]

/-- One move, if the state allows it.  The monitor can only wake up between two passes,
and finds the stop channel as the handler left it. -/
def fire (m : Monitor F) (s : Threads F) : Move F → Option (Threads F)
  | .hook hooked =>
      if s.handler = .hooking then
        some { s with handler := if hooked then .waiting else .finished }
      else none
  | .interrupt =>
      if s.handler = .waiting then some { s with handler := .notifying } else none
  | .wake p =>
      if s.stopped || !s.pending.isEmpty || p.stop != s.handler.stops then none
      else if p.stop then
        some { s with handler := .finished, stopped := true, passes := s.passes ++ [p] }
      else
        let passed := m.iterate s.monitor p
        some { s with monitor := passed.1, pending := passed.2, passes := s.passes ++ [p] }
  | .act =>
      match s.pending with
      | [] => none
      | action :: rest =>
          some { s with
            pending := rest
            performed := s.performed ++ [action]
            events := action.post s.events }
  | .receive lost victim =>
      match s.events.receive? with
      | none => none
      | some (event, events) =>
          let arrival : Arrival F := { event, lost, victim }
          let logged := EventLogger.logEvent s.lastMessages arrival
          some { s with
            events
            lastMessages := logged.1
            arrivals := s.arrivals ++ [arrival]
            log := s.log ++ logged.2 }
  | .hangUp =>
      if s.events.connected then some { s with events := s.events.disconnect } else none

/-- What a move does to the threads, and when it can be made. -/
inductive Fires (m : Monitor F) (s : Threads F) : Move F → Threads F → Prop where
  | hook (hooked : Bool) (hhandler : s.handler = .hooking) :
      Fires m s (.hook hooked) { s with handler := if hooked then .waiting else .finished }
  | interrupt (hhandler : s.handler = .waiting) :
      Fires m s .interrupt { s with handler := .notifying }
  | stop (p : Pass F) (hrunning : s.stopped = false) (hidle : s.pending = [])
      (hlook : p.stop = s.handler.stops) (hstop : p.stop = true) :
      Fires m s (.wake p)
        { s with handler := .finished, stopped := true, passes := s.passes ++ [p] }
  | pass (p : Pass F) (hrunning : s.stopped = false) (hidle : s.pending = [])
      (hlook : p.stop = s.handler.stops) (hstop : p.stop = false) :
      Fires m s (.wake p)
        { s with
          monitor := (m.iterate s.monitor p).1
          pending := (m.iterate s.monitor p).2
          passes := s.passes ++ [p] }
  | act (action : Action F) (rest : List (Action F)) (hpending : s.pending = action :: rest) :
      Fires m s .act
        { s with
          pending := rest
          performed := s.performed ++ [action]
          events := action.post s.events }
  | receive (lost : List Int32) (victim : Nat) (event : Event F) (events : Channel (Event F))
      (hreceive : s.events.receive? = some (event, events)) :
      Fires m s (.receive lost victim)
        { s with
          events
          lastMessages := (EventLogger.logEvent s.lastMessages ⟨event, lost, victim⟩).1
          arrivals := s.arrivals ++ [⟨event, lost, victim⟩]
          log := s.log ++ (EventLogger.logEvent s.lastMessages ⟨event, lost, victim⟩).2 }
  | hangUp (hconnected : s.events.connected = true) :
      Fires m s .hangUp { s with events := s.events.disconnect }

theorem fire_eq_some_iff {m : Monitor F} {s t : Threads F} {move : Move F} :
    fire m s move = some t ↔ Fires m s move t := by
  constructor
  · intro hfire
    unfold fire at hfire
    cases move with
    | hook hooked =>
        obtain ⟨hhandler, hnext⟩ := Option.ite_none_right_eq_some.mp hfire
        cases hnext
        exact Fires.hook hooked hhandler
    | interrupt =>
        obtain ⟨hhandler, hnext⟩ := Option.ite_none_right_eq_some.mp hfire
        cases hnext
        exact Fires.interrupt hhandler
    | wake p =>
        obtain ⟨hawake, hnext⟩ := Option.ite_none_left_eq_some.mp hfire
        simp only [Bool.or_eq_true, not_or, Bool.not_eq_true, Bool.not_eq_false', List.isEmpty_iff,
          bne_eq_false_iff_eq] at hawake
        obtain ⟨⟨hrunning, hidle⟩, hlook⟩ := hawake
        cases hstop : p.stop with
        | true =>
            rw [if_pos hstop] at hnext
            cases hnext
            exact Fires.stop p hrunning hidle hlook hstop
        | false =>
            rw [if_neg (by rw [hstop]; exact Bool.false_ne_true)] at hnext
            cases hnext
            exact Fires.pass p hrunning hidle hlook hstop
    | act =>
        dsimp only at hfire
        split at hfire <;> rename_i hpending
        · cases hfire
        · rename_i action rest
          cases hfire
          exact Fires.act action rest hpending
    | receive lost victim =>
        dsimp only at hfire
        split at hfire <;> rename_i hreceive
        · cases hfire
        · cases hfire
          exact Fires.receive lost victim _ _ hreceive
    | hangUp =>
        obtain ⟨hconnected, hnext⟩ := Option.ite_none_right_eq_some.mp hfire
        cases hnext
        exact Fires.hangUp hconnected
  · intro hfires
    unfold fire
    cases hfires with
    | hook hooked hhandler => exact if_pos hhandler
    | interrupt hhandler => exact if_pos hhandler
    | stop p hrunning hidle hlook hstop =>
        rw [hlook] at hstop
        simp [hrunning, hidle, hlook, hstop]
    | pass p hrunning hidle hlook hstop =>
        rw [hlook] at hstop
        simp [hrunning, hidle, hlook, hstop]
    | act action rest hpending => simp only [hpending]
    | receive lost victim event events hreceive => simp only [hreceive]
    | hangUp hconnected => exact if_pos hconnected

/-- The threads after a schedule. -/
def run (m : Monitor F) (startedAt : Nat) (moves : List (Move F)) : Option (Threads F) :=
  Schedule.run (fire m) (start m startedAt) moves

/-! ## What the threads keep -/

/-- What holds of the threads at any time. -/
structure Accounted (m : Monitor F) (startedAt : Nat) (s : Threads F) : Prop where
  monitor : m.run startedAt s.passes = (s.monitor, s.performed ++ s.pending)
  running : s.stopped = false → ∀ p ∈ s.passes, p.stop = false
  ended : s.stopped = true → s.handler = .finished ∧ s.pending = []
  sent : s.events.sent = reports s.performed
  received : s.events.received = s.arrivals.map Arrival.event
  logger : Transducer.run EventLogger.logEvent (Cache.empty 1000) s.arrivals =
    (s.lastMessages, s.log)

theorem start_accounted (m : Monitor F) (startedAt : Nat) :
    Accounted m startedAt (start m startedAt) where
  monitor := rfl
  running := fun _ _ hp => by cases hp
  ended := nofun
  sent := rfl
  received := rfl
  logger := rfl

/-- One more pass after a run that goes on. -/
theorem run_concat_running (m : Monitor F) (startedAt : Nat) {passes : List (Pass F)}
    (hrunning : ∀ p ∈ passes, p.stop = false) (p : Pass F) :
    m.run startedAt (passes ++ [p]) =
      if p.stop then m.run startedAt passes
      else
        ((m.iterate (m.run startedAt passes).1 p).1,
          (m.run startedAt passes).2 ++ (m.iterate (m.run startedAt passes).1 p).2) := by
  rw [m.run_split startedAt hrunning, List.takeWhile_cons]
  cases p.stop with
  | true => simp
  | false => simp

/-- What the run of the monitor becomes when it wakes up. -/
theorem Accounted.run_next {m : Monitor F} {startedAt : Nat} {s : Threads F} {p : Pass F}
    (h : Accounted m startedAt s) (hrunning : s.stopped = false) (hidle : s.pending = []) :
    m.run startedAt (s.passes ++ [p]) =
      if p.stop then (s.monitor, s.performed)
      else ((m.iterate s.monitor p).1, s.performed ++ (m.iterate s.monitor p).2) := by
  have hmonitor := h.monitor
  rw [hidle, List.append_nil] at hmonitor
  rw [run_concat_running m startedAt (h.running hrunning) p, hmonitor]

/-- One move of any thread. -/
theorem Accounted.fire {m : Monitor F} {startedAt : Nat} {s t : Threads F} {move : Move F}
    (h : Accounted m startedAt s) (hfire : fire m s move = some t) :
    Accounted m startedAt t := by
  cases fire_eq_some_iff.mp hfire with
  | hook hooked hhandler =>
      refine { h with ended := fun hstopped => ?_ }
      rw [(h.ended hstopped).1] at hhandler
      cases hhandler
  | interrupt hhandler =>
      refine { h with ended := fun hstopped => ?_ }
      rw [(h.ended hstopped).1] at hhandler
      cases hhandler
  | stop p hrunning hidle hlook hstop =>
      have hnext := h.run_next (p := p) hrunning hidle
      rw [if_pos hstop] at hnext
      exact { h with
        monitor := by rw [hnext, hidle, List.append_nil]
        running := nofun
        ended := fun _ => ⟨rfl, hidle⟩ }
  | pass p hrunning hidle hlook hstop =>
      have hnext := h.run_next (p := p) hrunning hidle
      rw [if_neg (by rw [hstop]; exact Bool.false_ne_true)] at hnext
      refine { h with monitor := hnext, running := fun _ q hq => ?_, ended := fun hstopped => ?_ }
      · rcases List.mem_append.mp hq with hold | hnew
        · exact h.running hrunning q hold
        · rw [List.mem_singleton.mp hnew, hstop]
      · rw [hrunning] at hstopped
        cases hstopped
  | act action rest hpending =>
      refine { h with monitor := ?_, ended := fun hstopped => ?_, sent := ?_, received := ?_ }
      · rw [h.monitor, hpending, List.append_assoc, List.singleton_append]
      · rw [(h.ended hstopped).2] at hpending
        cases hpending
      · rw [reports_append, ← h.sent, Action.sent_post]
      · rw [← h.received, Action.received_post]
  | receive lost victim event events hreceive =>
      obtain ⟨-, hreceived, hsent⟩ := Channel.receive?_eq_some hreceive
      refine { h with sent := ?_, received := ?_, logger := ?_ }
      · rw [hsent, h.sent]
      · rw [hreceived, h.received, List.map_append]
        rfl
      · rw [run_concat, h.logger]
  | hangUp hconnected =>
      exact { h with sent := h.sent, received := h.received }

/-- All schedules. -/
theorem accounted_of_run {m : Monitor F} {startedAt : Nat} {moves : List (Move F)}
    {s : Threads F} (hrun : run m startedAt moves = some s) : Accounted m startedAt s :=
  Schedule.run_invariant (fun _ _ _ h hfire => h.fire hfire) hrun (start_accounted m startedAt)

/-- An event that was reported is received, waits, or is lost. -/
theorem Accounted.reported {m : Monitor F} {startedAt : Nat} {s : Threads F}
    (h : Accounted m startedAt s) :
    reports s.performed = s.arrivals.map Arrival.event ++ s.events.queue ++ s.events.dropped := by
  rw [← h.sent, ← h.received, s.events.accounted]

/-- The log is that of the events received. -/
theorem Accounted.logged {m : Monitor F} {startedAt : Nat} {s : Threads F}
    (h : Accounted m startedAt s) : s.log = EventLogger.startEventLogger s.arrivals := by
  unfold EventLogger.startEventLogger EventLogger.logged
  rw [h.logger]

/-! ## A warned process -/

/-- A monitor that warns from a score of one on. -/
def warner : Monitor ℚ :=
  Monitor.new (fun data => .ok (if 0 < data.oomScore then .warning else .none)) 99

/-- A process with a score of one. -/
def scored (pid : Int32) : Visit ℚ where
  process := ⟨pid, "worker"⟩
  collected := .ok { (default : CollectedData ℚ) with oomScore := 1 }
  collectedAt := 0
  reportedAt := 0
  lost := []
  checkedAt := 0
  startedAt := 0
  outcome := .ok ()
  victim := 0

/-- Two processes are warned.  The signal to end the program comes while the second is,
and the logger receives one report before the monitor ends. -/
def warnedMoves : List (Move ℚ) :=
  [.hook true, .wake ⟨false, .ok [scored 5, scored 6], 0, 0⟩, .act, .act, .act, .act, .interrupt,
    .receive [] 0]

/-- What is left to do after that. -/
def endingMoves : List (Move ℚ) :=
  [.act, .act, .wake ⟨true, .ok [], 0, 0⟩]

/-- The threads after these moves. -/
def warned : Threads ℚ :=
  (run warner 0 warnedMoves).get (by decide +kernel)

/-- The threads when the monitor has ended. -/
def warnedEnd : Threads ℚ :=
  (Schedule.run (fire warner) warned endingMoves).get (by decide +kernel)

theorem run_warned : run warner 0 warnedMoves = some warned :=
  (Option.some_get _).symm

theorem run_warnedEnd : Schedule.run (fire warner) warned endingMoves = some warnedEnd :=
  (Option.some_get _).symm

theorem warned_plain : EventLogger.PlainMap warned.arrivals where
  fewPids := by decide +kernel
  keeps := by decide +kernel

/-! ## Interleavings -/

/-- However the threads interleave, the monitor does what it does alone, and an event it
reports is logged or skipped by the logger, waits for it, or is lost because the logger is
gone, in the order of the reports. -/
theorem run_accounted (m : Monitor F) (startedAt : Nat) (moves : List (Move F)) (s : Threads F)
    (hrun : run m startedAt moves = some s) :
    (m.run startedAt s.passes).2 = s.performed ++ s.pending ∧
      reports s.performed = s.arrivals.map Arrival.event ++ s.events.queue ++ s.events.dropped ∧
      (s.events.connected = true → s.events.dropped = []) ∧
      s.log = EventLogger.startEventLogger s.arrivals := by
  have h := accounted_of_run hrun
  refine ⟨?_, h.reported, s.events.kept, h.logged⟩
  rw [h.monitor]

/-- One report is logged and the others are still to come. -/
theorem warned_accounted :
    (warner.run 0 warned.passes).2 = warned.performed ++ warned.pending ∧
      reports warned.performed = warned.arrivals.map Arrival.event ++ warned.events.queue ++
        warned.events.dropped ∧
      (warned.events.connected = true → warned.events.dropped = []) ∧
      warned.log = EventLogger.startEventLogger warned.arrivals :=
  run_accounted warner 0 warnedMoves warned run_warned

/-- What the logger received is what the monitor reported first. -/
theorem Accounted.arrived {m : Monitor F} {startedAt : Nat} {s : Threads F}
    (h : Accounted m startedAt s) :
    s.arrivals.map Arrival.event <+: reports (m.run startedAt s.passes).2 := by
  have hprefix := s.events.received_prefix
  rw [h.sent, h.received] at hprefix
  rw [h.monitor, reports_append]
  exact hprefix.trans (List.prefix_append _ _)

/-- While the cache of the logger is a plain map, the log is the beginning of one that the
passes determine, and all of it once the logger has caught up with the monitor. -/
theorem log_determined (m : Monitor F) (startedAt : Nat) (moves : List (Move F)) (s : Threads F)
    (hrun : run m startedAt moves = some s) (hplain : EventLogger.PlainMap s.arrivals) :
    s.log <+: EventLogger.plainGate.passed 1000 (reports (m.run startedAt s.passes).2) ∧
      (s.pending = [] → s.events.queue = [] → s.events.connected = true →
        s.log = EventLogger.plainGate.passed 1000 (reports (m.run startedAt s.passes).2)) := by
  have h := accounted_of_run hrun
  have hlog : s.log = EventLogger.plainGate.passed 1000 (s.arrivals.map Arrival.event) := by
    rw [← EventLogger.startEventLogger_plain hplain, h.logged]
  constructor
  · rw [hlog]
    exact Gate.passed_prefix EventLogger.plainGate h.arrived
  · intro hidle hqueue hthere
    have hall := Channel.received_eq_sent hqueue hthere
    rw [h.received, h.sent] at hall
    rw [hlog, hall, h.monitor, hidle, List.append_nil]

/-- The log of the warnings so far. -/
theorem warned_log_determined :
    warned.log <+: EventLogger.plainGate.passed 1000 (reports (warner.run 0 warned.passes).2) :=
  (log_determined warner 0 warnedMoves warned run_warned warned_plain).1

/-- The logger skips no report of a send. -/
theorem logged_audited (arrivals : List (Arrival F)) :
    (EventLogger.startEventLogger arrivals).filter Event.audited =
      (arrivals.map Arrival.event).filter Event.audited := by
  have hhigh : (EventLogger.startEventLogger arrivals).filter (fun e => e.priority = .high) =
      (arrivals.map Arrival.event).filter fun e => e.priority = .high :=
    EventLogger.logged_high arrivals
  have haudited : ∀ events : List (Event F), events.filter Event.audited =
      (events.filter fun e => e.priority = .high).filter fun e => e.pid ≠ 0 := by
    intro events
    rw [List.filter_filter]
    apply List.filter_congr
    intro e _
    unfold Event.audited
    rw [Bool.and_comm]
  rw [haudited, haudited, hhigh]

theorem Accounted.audits {m : Monitor F} {startedAt : Nat} {s : Threads F}
    (h : Accounted m startedAt s) :
    (s.log ++ s.events.queue ++ s.events.dropped ++ reports s.pending).filter Event.audited =
      sendReports (m.run startedAt s.passes).2 := by
  have haudits := m.run_audits startedAt s.passes
  unfold Audits at haudits
  rw [← haudits, h.monitor, reports_append, h.reported, h.logged]
  simp only [List.filter_append, logged_audited]

/-- However the threads interleave and whatever the cache of the logger loses, the events
of high priority about a process that are in the log, on their way or lost with the logger
are the reports of the sends, one for each and in their order. -/
theorem log_audits (m : Monitor F) (startedAt : Nat) (moves : List (Move F)) (s : Threads F)
    (hrun : run m startedAt moves = some s) :
    (s.log ++ s.events.queue ++ s.events.dropped ++ reports s.pending).filter Event.audited =
      sendReports (m.run startedAt s.passes).2 :=
  (accounted_of_run hrun).audits

/-- Both warnings are accounted for, though only one is logged yet. -/
theorem warned_log_audits :
    (warned.log ++ warned.events.queue ++ warned.events.dropped ++
        reports warned.pending).filter Event.audited =
      sendReports (warner.run 0 warned.passes).2 :=
  log_audits warner 0 warnedMoves warned run_warned

/-! ## Stopping -/

/-- How many moves the main thread has left once the stop channel tells it to stop. -/
def remaining (s : Threads F) : Nat :=
  s.pending.length + if s.stopped then 0 else 1

/-- Once the stop channel tells the monitor to stop, it begins nothing new, and each of
its moves is one of those it has left. -/
theorem fire_stopping {m : Monitor F} {s t : Threads F} {move : Move F}
    (hstops : s.handler.stops = true) (hfire : fire m s move = some t) :
    t.handler.stops = true ∧ t.performed ++ t.pending = s.performed ++ s.pending ∧
      t.remaining + (if move.byMonitor then 1 else 0) ≤ s.remaining := by
  cases fire_eq_some_iff.mp hfire with
  | hook hooked hhandler =>
      rw [hhandler] at hstops
      cases hstops
  | interrupt hhandler =>
      rw [hhandler] at hstops
      cases hstops
  | stop p hrunning hidle hlook hstop =>
      refine ⟨rfl, rfl, ?_⟩
      unfold remaining Move.byMonitor
      simp [hrunning]
  | pass p hrunning hidle hlook hstop =>
      rw [hstops, hstop] at hlook
      cases hlook
  | act action rest hpending =>
      refine ⟨hstops, ?_, ?_⟩
      · rw [hpending, List.append_assoc, List.singleton_append]
      · unfold remaining Move.byMonitor
        rw [hpending, List.length_cons]
        simp only [if_true]
        omega
  | receive lost victim event events hreceive => exact ⟨hstops, rfl, le_refl _⟩
  | hangUp hconnected => exact ⟨hstops, rfl, le_refl _⟩

/-- While the monitor has not stopped, it has a next move: the next thing of its pass, or
another look at the stop channel. -/
theorem exists_monitor_move (m : Monitor F) {s : Threads F} (hrunning : s.stopped = false) :
    ∃ move : Move F, move.byMonitor = true ∧ (fire m s move).isSome = true := by
  simp only [Option.isSome_iff_exists, fire_eq_some_iff]
  cases hpending : s.pending with
  | nil =>
      refine ⟨.wake ⟨s.handler.stops, .ok [], 0, 0⟩, rfl, ?_⟩
      cases hstops : s.handler.stops with
      | true => exact ⟨_, Fires.stop _ hrunning hpending hstops.symm rfl⟩
      | false => exact ⟨_, Fires.pass _ hrunning hpending hstops.symm rfl⟩
  | cons action rest => exact ⟨.act, rfl, _, Fires.act action rest hpending⟩

/-- Only a signal to end the program, or a failure to hook those signals, makes the stop
channel tell the monitor to stop. -/
theorem fire_turning {m : Monitor F} {s t : Threads F} {move : Move F}
    (hfire : fire m s move = some t) (hs : ¬ s.handler.stops = true)
    (ht : t.handler.stops = true) : move = .interrupt ∨ move = .hook false := by
  cases fire_eq_some_iff.mp hfire with
  | hook hooked hhandler =>
      cases hooked with
      | false => exact Or.inr rfl
      | true => cases ht
  | interrupt hhandler => exact Or.inl rfl
  | stop p hrunning hidle hlook hstop => exact absurd (hlook ▸ hstop) hs
  | pass p hrunning hidle hlook hstop => exact absurd ht hs
  | act action rest hpending => exact absurd ht hs
  | receive lost victim event events hreceive => exact absurd ht hs
  | hangUp hconnected => exact absurd ht hs

/-- The monitor is told to stop only after a signal to end the program, or a failure to
hook those signals.  However the schedule goes on, it then finishes the pass it is in,
looks at the stop channel once and ends, and until it has ended nothing blocks it. -/
theorem stops_promptly (m : Monitor F) (startedAt : Nat) (moves later : List (Move F))
    (s t : Threads F) (hrun : run m startedAt moves = some s) (hstops : s.handler.stops = true)
    (hlater : Schedule.run (fire m) s later = some t) :
    (∃ move ∈ moves, move = .interrupt ∨ move = .hook false) ∧
      t.performed ++ t.pending = s.performed ++ s.pending ∧
      later.countP Move.byMonitor ≤ s.pending.length + 1 ∧
      (t.stopped = false →
        ∃ move : Move F, move.byMonitor = true ∧ (fire m t move).isSome = true) := by
  -- what is left to do of the pass does not change any more
  let Stopping := fun r : Threads F =>
    r.handler.stops = true ∧ r.performed ++ r.pending = s.performed ++ s.pending
  have hkept : ∀ r move next, Stopping r → fire m r move = some next → Stopping next := by
    intro r move next hr hfire
    obtain ⟨hnext, hsame, -⟩ := fire_stopping hr.1 hfire
    exact ⟨hnext, hsame.trans hr.2⟩
  have hranked : ∀ r move next, Stopping r → fire m r move = some next →
      next.remaining + (if move.byMonitor then 1 else 0) ≤ r.remaining :=
    fun r move next hr hfire => (fire_stopping hr.1 hfire).2.2
  have hstart : Stopping s := ⟨hstops, rfl⟩
  refine ⟨?_, (Schedule.run_invariant hkept hlater hstart).2, ?_, exists_monitor_move m⟩
  · obtain ⟨move, hmove, before, after, hfire, hbefore, hafter⟩ :=
      Schedule.exists_turning_move (P := fun r : Threads F => r.handler.stops = true) hrun
        (by simp [start, Handler.stops]) hstops
    exact ⟨move, hmove, fire_turning hfire hbefore hafter⟩
  · have hcount := Schedule.countP_add_rank_le hkept hranked hlater hstart
    have hlast : s.remaining ≤ s.pending.length + 1 := by
      unfold remaining
      split <;> omega
    omega

/-- The monitor sends the second warning before it ends. -/
theorem warned_stops_promptly :
    warnedEnd.performed ++ warnedEnd.pending = warned.performed ++ warned.pending ∧
      endingMoves.countP Move.byMonitor ≤ warned.pending.length + 1 :=
  have hstops := stops_promptly warner 0 warnedMoves endingMoves warned warnedEnd run_warned
    (by decide +kernel) run_warnedEnd
  ⟨hstops.2.1, hstops.2.2.1⟩

/-! ## No deadlock -/

/-- Left alone, the monitor finishes the pass it is in. -/
theorem finish_pass (m : Monitor F) (s : Threads F) :
    ∃ t, Schedule.run (fire m) s (List.replicate s.pending.length .act) = some t ∧
      t.pending = [] ∧ t.performed = s.performed ++ s.pending ∧ t.stopped = s.stopped ∧
      t.events.connected = s.events.connected := by
  induction hpending : s.pending generalizing s with
  | nil => exact ⟨s, rfl, hpending, (List.append_nil _).symm, rfl, rfl⟩
  | cons action rest ih =>
      have hact : ∃ next, fire m s .act = some next ∧ next.pending = rest ∧
          next.performed = s.performed ++ [action] ∧ next.stopped = s.stopped ∧
          next.events.connected = s.events.connected :=
        ⟨_, fire_eq_some_iff.mpr (Fires.act action rest hpending), rfl, rfl, rfl,
          Action.connected_post s.events action⟩
      obtain ⟨next, hnext, hrest, hdone, hstopped, hthere⟩ := hact
      obtain ⟨t, hrun, hidle, hall, hstopped', hthere'⟩ := ih next hrest
      refine ⟨t, ?_, hidle, ?_, hstopped'.trans hstopped, hthere'.trans hthere⟩
      · rw [List.length_cons, List.replicate_succ, Schedule.run_cons_eq_some_iff]
        exact ⟨next, hnext, hrun⟩
      · rw [hall, hdone, List.append_assoc, List.singleton_append]

/-- Left alone, the logger takes all events from the channel. -/
theorem catch_up (m : Monitor F) (s : Threads F) :
    ∃ t, Schedule.run (fire m) s
        (List.replicate s.events.queue.length (.receive [] 0)) = some t ∧
      t.events.queue = [] ∧ t.pending = s.pending ∧ t.performed = s.performed ∧
      t.stopped = s.stopped ∧ t.events.connected = s.events.connected := by
  induction hqueue : s.events.queue generalizing s with
  | nil => exact ⟨s, rfl, hqueue, rfl, rfl, rfl, rfl⟩
  | cons event rest ih =>
      have hsome : s.events.receive?.isSome = true := by
        rw [Channel.receive?_isSome_iff, hqueue]
        exact List.cons_ne_nil _ _
      obtain ⟨⟨first, events⟩, hreceive⟩ := Option.isSome_iff_exists.mp hsome
      obtain ⟨hsplit, -, -⟩ := Channel.receive?_eq_some hreceive
      rw [hqueue] at hsplit
      have hreceived : ∃ next, fire m s (.receive [] 0) = some next ∧
          next.events = events ∧ next.pending = s.pending ∧ next.performed = s.performed ∧
            next.stopped = s.stopped :=
        ⟨_, fire_eq_some_iff.mpr (Fires.receive _ _ first events hreceive), rfl, rfl, rfl, rfl⟩
      obtain ⟨next, hnext, hevents, hpending, hperformed, hstopped⟩ := hreceived
      have hrest : next.events.queue = rest := by
        rw [hevents]
        exact (List.cons.inj hsplit).2.symm
      obtain ⟨t, hrun, hempty, hpending', hperformed', hstopped', hthere'⟩ := ih next hrest
      refine ⟨t, ?_, hempty, hpending'.trans hpending, hperformed'.trans hperformed,
        hstopped'.trans hstopped, ?_⟩
      · rw [List.length_cons, List.replicate_succ, Schedule.run_cons_eq_some_iff]
        exact ⟨next, hnext, hrun⟩
      · rw [hthere', hevents]
        exact Channel.connected_receive? hreceive

/-- Between two passes the program can be brought to its end. -/
theorem end_loop (m : Monitor F) {s : Threads F} (hrunning : s.stopped = false)
    (hidle : s.pending = []) :
    ∃ prior t, ∃ p : Pass F, Schedule.run (fire m) s (prior ++ [.wake p]) = some t ∧
      p.stop = true ∧ t.stopped = true ∧ t.performed = s.performed ∧ t.events = s.events := by
  have hstopping : ∃ moves r, Schedule.run (fire m) s moves = some r ∧
      r.handler.stops = true ∧ r.stopped = s.stopped ∧ r.pending = s.pending ∧
      r.performed = s.performed ∧ r.events = s.events := by
    cases hhandler : s.handler with
    | hooking =>
        refine ⟨[.hook false], { s with handler := .finished }, ?_, rfl, rfl, rfl, rfl, rfl⟩
        exact Schedule.run_cons_eq_some_iff.mpr
          ⟨_, fire_eq_some_iff.mpr (Fires.hook false hhandler), rfl⟩
    | waiting =>
        refine ⟨[.interrupt], { s with handler := .notifying }, ?_, rfl, rfl, rfl, rfl, rfl⟩
        exact Schedule.run_cons_eq_some_iff.mpr
          ⟨_, fire_eq_some_iff.mpr (Fires.interrupt hhandler), rfl⟩
    | notifying => exact ⟨[], s, rfl, by rw [hhandler]; rfl, rfl, rfl, rfl, rfl⟩
    | finished => exact ⟨[], s, rfl, by rw [hhandler]; rfl, rfl, rfl, rfl, rfl⟩
  obtain ⟨moves, r, hmoves, hstops, hstopped, hpending, hperformed, hevents⟩ := hstopping
  have hwake : ∃ t, fire m r (.wake ⟨true, .ok [], 0, 0⟩) = some t ∧ t.stopped = true ∧
      t.performed = r.performed ∧ t.events = r.events :=
    ⟨_, fire_eq_some_iff.mpr (Fires.stop _ (hstopped.trans hrunning) (hpending.trans hidle)
      hstops.symm rfl), rfl, rfl, rfl⟩
  obtain ⟨t, hlast, hend, hperformed', hevents'⟩ := hwake
  refine ⟨moves, t, ⟨true, .ok [], 0, 0⟩, ?_, rfl, hend, hperformed'.trans hperformed,
    hevents'.trans hevents⟩
  rw [Schedule.run_append_eq_some_iff]
  exact ⟨r, hmoves, Schedule.run_cons_eq_some_iff.mpr ⟨t, hlast, rfl⟩⟩

/-- No interleaving deadlocks: from every state the threads reach, they can still reach
one where the monitor has ended after finishing its pass and the logger has received all
that was reported, if it was still there.  Unless the monitor has ended already, its end
is the last thing that happens then. -/
theorem can_finish (m : Monitor F) (startedAt : Nat) (moves : List (Move F)) (s : Threads F)
    (hrun : run m startedAt moves = some s) :
    ∃ later t, run m startedAt (moves ++ later) = some t ∧ t.stopped = true ∧
      t.performed = (m.run startedAt s.passes).2 ∧ t.events.queue = [] ∧
      (s.events.connected = true → t.arrivals.map Arrival.event = reports t.performed) ∧
      (s.stopped = false → ∃ prior, ∃ p : Pass F, later = prior ++ [.wake p] ∧ p.stop = true) := by
  have h := accounted_of_run hrun
  have hends : ∃ later t, Schedule.run (fire m) s later = some t ∧ t.stopped = true ∧
      t.performed = s.performed ++ s.pending ∧ t.events.queue = [] ∧
      t.events.connected = s.events.connected ∧
      (s.stopped = false → ∃ prior, ∃ p : Pass F, later = prior ++ [.wake p] ∧ p.stop = true) := by
    cases hstopped : s.stopped with
    | true =>
        obtain ⟨t, hcatch, hempty, -, hdone, hend, hthere⟩ := catch_up m s
        refine ⟨_, t, hcatch, hend.trans hstopped, ?_, hempty, hthere, nofun⟩
        rw [hdone, (h.ended hstopped).2, List.append_nil]
    | false =>
        -- the logger catches up between the pass and the end of the loop
        obtain ⟨idle, hfinish, hidle, hdone, hrunning, hthere⟩ := finish_pass m s
        obtain ⟨r, hcatch, hempty, hidle', hdone', hrunning', hthere'⟩ := catch_up m idle
        obtain ⟨prior, t, p, hlast, hstop, hend, hkept, hevents⟩ :=
          end_loop m (hrunning'.trans (hrunning.trans hstopped)) (hidle'.trans hidle)
        generalize List.replicate s.pending.length Move.act = acts at hfinish
        generalize List.replicate idle.events.queue.length (Move.receive [] 0) = receipts at hcatch
        have hrun' : Schedule.run (fire m) s (acts ++ receipts ++ prior ++ [.wake p]) = some t := by
          rw [List.append_assoc, Schedule.run_append_eq_some_iff]
          exact ⟨r, Schedule.run_append_eq_some_iff.mpr ⟨idle, hfinish, hcatch⟩, hlast⟩
        refine ⟨_, t, hrun', hend, hkept.trans (hdone'.trans hdone), ?_, ?_,
          fun _ => ⟨_, p, rfl, hstop⟩⟩
        · rw [hevents, hempty]
        · rw [hevents, hthere', hthere]
  obtain ⟨later, t, hlater, hend, hdone, hempty, hthere, hlast⟩ := hends
  have hwhole : run m startedAt (moves ++ later) = some t :=
    Schedule.run_append_eq_some_iff.mpr ⟨s, hrun, hlater⟩
  refine ⟨later, t, hwhole, hend, ?_, hempty, ?_, hlast⟩
  · rw [hdone, h.monitor]
  · intro hstart
    have h' := accounted_of_run hwhole
    rw [← h'.received, ← h'.sent]
    exact Channel.received_eq_sent hempty (hthere.trans hstart)

/-- The warned process can be left with a complete log. -/
theorem warned_can_finish :
    ∃ later t, run warner 0 (warnedMoves ++ later) = some t ∧ t.stopped = true ∧
      t.performed = (warner.run 0 warned.passes).2 ∧ t.events.queue = [] ∧
      (warned.events.connected = true → t.arrivals.map Arrival.event = reports t.performed) ∧
      (warned.stopped = false →
        ∃ prior, ∃ p : Pass ℚ, later = prior ++ [.wake p] ∧ p.stop = true) :=
  can_finish warner 0 warnedMoves warned run_warned

end Threads
end OomHero
