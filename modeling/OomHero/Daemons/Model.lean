import OomHero.Arguments
import OomHero.Events
import OomHero.Foundations.Cache
import OomHero.Foundations.Transducer

/-!
# Daemons - The monitor

The loop that lists the processes, checks each of them against the thresholds and
signals those that cross them.  What the environment contributes comes as input:
what a listing finds, what collecting the data of a process yields, the readings
of the clock, the outcome of a send, and what the cache loses and evicts.
-/

namespace OomHero

/-! ## Time

Readings of the monotonic clock and spans between them are in nanoseconds. -/

def fromSecs (secs : Nat) : Nat := secs * 1000000000

def fromMillis (millis : Nat) : Nat := millis * 1000000

/-- The whole seconds of a span. -/
def asSecs (span : Nat) : Nat := span / 1000000000

/-- The time since an earlier reading, zero if it is not earlier. -/
def elapsed (now earlier : Nat) : Nat := now - earlier

/-! ## State -/

/-- What is kept of a send. -/
structure SignalRecord where
  when : Nat
  severity : CheckerResult
  success : Bool
deriving DecidableEq, Repr

/-- The last send to each pid. -/
abbrev LastSignals : Type := Cache Int32 SignalRecord

/-- The monitor.  {lit}`thresholds` checks collected data against the expressions,
{lit}`maxCapacity` is that of {lit}`last_signals`, and {lit}`oomheroPid` is the process it
runs in. -/
structure Monitor (F : Type) where
  thresholds : CollectedData F → Except Error CheckerResult
  loopInterval : Nat
  maxCapacity : Nat
  cooldownInterval : Nat
  oomheroPid : Int32

/-- What the loop carries from one pass to the next. -/
structure MonitorState where
  lastSignals : LastSignals
  lastPass : Nat
  passes : Int

/-! ## Inputs and outputs -/

/-- A call of the sender: what it is told, when it started and how it ended. -/
structure Attempt (F : Type) where
  process : Process
  severity : CheckerResult
  data : CollectedData F
  when : Nat
  outcome : Except Error Unit

/-- A call of {lit}`send_signal`, with what the environment contributes to it: the pids
whose records the cache has lost by then, the readings of the clock before the cooldown
check and before the send, the outcome of the send, and the entry the cache evicts if the
record needs room. -/
structure Call (F : Type) where
  process : Process
  severity : CheckerResult
  data : CollectedData F
  lost : List Int32
  checkedAt : Nat
  startedAt : Nat
  outcome : Except Error Unit
  victim : Nat

/-- A listed process, with what the environment contributes to its turn: what collecting
its data yields, the readings of the clock when they are collected and when its gauges are
updated, and the rest of a call for it. -/
structure Visit (F : Type) where
  process : Process
  collected : Except Error (CollectedData F)
  collectedAt : Nat
  reportedAt : Nat
  lost : List Int32
  checkedAt : Nat
  startedAt : Nat
  outcome : Except Error Unit
  victim : Nat

/-- An iteration of the loop, with what the environment contributes to it. -/
structure Pass (F : Type) where
  /-- Whether the stop channel has a message or is closed. -/
  stop : Bool
  listed : Except Error (List (Visit F))
  endedAt : Nat
  resetAt : Nat

/-- What the monitor does. -/
inductive Action (F : Type) where
  | signal (attempt : Attempt F)
  | event (event : Event F)
  | gauges (process : Process) (data : CollectedData F) (reportedAt : Nat)

variable {F : Type}

/-- The record of a send. -/
def Attempt.record (a : Attempt F) : SignalRecord where
  when := a.when
  severity := a.severity
  success := a.outcome.isOk

/-- The send a call makes unless it is suppressed. -/
def Call.attempt (c : Call F) : Attempt F where
  process := c.process
  severity := c.severity
  data := c.data
  when := c.startedAt
  outcome := c.outcome

/-- The call for a severity found while visiting a process. -/
def Visit.call (v : Visit F) (severity : CheckerResult) (data : CollectedData F) : Call F where
  process := v.process
  severity := severity
  data := data
  lost := v.lost
  checkedAt := v.checkedAt
  startedAt := v.startedAt
  outcome := v.outcome
  victim := v.victim

namespace Monitor

/-- A monitor with the default intervals and a history of 1_000 different pids. -/
def new (thresholds : CollectedData F → Except Error CheckerResult) (oomheroPid : Int32) :
    Monitor F where
  thresholds := thresholds
  loopInterval := fromMillis 100
  maxCapacity := 1000
  cooldownInterval := fromSecs 30
  oomheroPid := oomheroPid

def withLoopInterval (m : Monitor F) (loopInterval : Nat) : Monitor F :=
  { m with loopInterval }

/-- Set the minimum time between sends of the same signal. -/
def withCooldownInterval (m : Monitor F) (cooldownInterval : Nat) : Monitor F :=
  { m with cooldownInterval }

/-! ## Sending signals -/

/-- A record keeps a call from sending: it has the same severity and is younger
than the cooldown, or than one second if that send failed. -/
def suppresses (m : Monitor F) (last : SignalRecord) (c : Call F) : Bool :=
  last.severity = c.severity &&
    elapsed c.checkedAt last.when < if last.success then m.cooldownInterval else fromSecs 1

variable [F32 F]

/-- Send a signal to a process unless the record of its pid suppresses it. -/
def sendSignal (m : Monitor F) (lastSignals : LastSignals) (c : Call F) :
    LastSignals × List (Action F) :=
  let lastSignals := lastSignals.discard c.lost
  if (lastSignals.get? c.process.pid).any fun last => m.suppresses last c then (lastSignals, [])
  else
    let record : SignalRecord := { when := c.startedAt, severity := c.severity, success := true }
    match c.outcome with
    | .error err =>
        (lastSignals.insert c.victim c.process.pid { record with success := false },
          [.signal c.attempt,
            .event ((Event.highPrio.withProcessCollectedData c.process c.data).withMessage
              s!"error sending {c.severity.debug} signal: {err}")])
    | .ok () =>
        (lastSignals.insert c.victim c.process.pid record,
          [.signal c.attempt,
            .event ((Event.highPrio.withProcessCollectedData c.process c.data).withMessage
              s!"{c.severity.display} signal sent successfully")])

/-! ## The loop -/

/-- The turn of one listed process.  Gauges are reported in the first pass of each
window only. -/
def visit (m : Monitor F) (passes : Int) (lastSignals : LastSignals) (v : Visit F) :
    LastSignals × List (Action F) :=
  -- the pause container and our own process
  if v.process.pid = 1 ∨ v.process.pid = m.oomheroPid then (lastSignals, [])
  else
    match v.collected with
    | .error err =>
        (lastSignals, [.event ((Event.lowPrio.withProcess v.process).withMessage
          s!"error collecting process data: {err}")])
    | .ok data =>
        let gauges := if passes = 0 then [.gauges v.process data v.reportedAt] else []
        match m.thresholds data with
        | .ok .none =>
            (lastSignals, gauges ++
              [.event ((Event.lowPrio.withProcessCollectedData v.process data).withMessage
                "process usage within limits")])
        | .ok severity =>
            let sent := m.sendSignal lastSignals (v.call severity data)
            (sent.1, gauges ++ sent.2)
        | .error err =>
            (lastSignals, gauges ++ [.event ((Event.lowPrio.withProcess v.process).withMessage
              s!"error evaluating process data: {err}")])

/-- The turns of all listed processes. -/
def scan (m : Monitor F) (passes : Int) (lastSignals : LastSignals) (visits : List (Visit F)) :
    LastSignals × List (Action F) :=
  Transducer.run (m.visit passes) lastSignals visits

/-- One iteration of the loop. -/
def iterate (m : Monitor F) (s : MonitorState) (p : Pass F) : MonitorState × List (Action F) :=
  match p.listed with
  | .error err => (s, [.event (Event.highPrio.withMessage s!"error listing processes: {err}")])
  | .ok visits =>
      let scanned := m.scan s.passes s.lastSignals visits
      let passes := s.passes + 1
      let sinceLastPass := elapsed p.endedAt s.lastPass
      if asSecs sinceLastPass < 30 then
        ({ s with lastSignals := scanned.1, passes }, scanned.2)
      else
        let perSecond := passes / (asSecs sinceLastPass : Int)
        ({ lastSignals := scanned.1, lastPass := p.resetAt, passes := 0 },
          scanned.2 ++ [.event (Event.lowPrio.withMessage s!"scans per second: {perSecond}")])

omit [F32 F] in
/-- The state the loop starts in. -/
def initial (m : Monitor F) (startedAt : Nat) : MonitorState where
  lastSignals := Cache.empty m.maxCapacity
  lastPass := startedAt
  passes := 0

/-- A run of the monitor.  It ends at the first pass that finds the channel stopped. -/
def run (m : Monitor F) (startedAt : Nat) (passes : List (Pass F)) :
    MonitorState × List (Action F) :=
  Transducer.run m.iterate (m.initial startedAt) (passes.takeWhile fun p => !p.stop)

end Monitor
end OomHero
