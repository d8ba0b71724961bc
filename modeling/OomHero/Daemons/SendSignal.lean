import OomHero.Daemons.Model
import OomHero.Foundations.Gate

/-!
# Daemons - Sending signals

What the loop sends, by the calls of {lit}`send_signal` it makes: the calls run
through a gate that is keyed by pid and remembers the last send to each of them.

Main results:

- Theorem {lit}`Monitor.sendSignal_eq`: a call is one step of the gate.
- Theorem {lit}`Monitor.sendSignal_outputs`: it does nothing, or it sends and reports.
- Theorem {lit}`Monitor.visit_turn`: what the turn of a process can do.
- Theorem {lit}`Monitor.visit_gate`: it is a step of the gate, or leaves the gate alone.
- Theorem {lit}`Monitor.run_gate`: a whole run is a run of the gate over its calls.
-/

namespace OomHero

open Transducer

variable {F : Type}

/-- The send an action is. -/
def Action.attempt? : Action F → Option (Attempt F)
  | signal attempt => some attempt
  | event _ => none
  | gauges _ _ _ => none

/-- The sends among some actions. -/
def sends (actions : List (Action F)) : List (Attempt F) :=
  actions.filterMap Action.attempt?

@[simp]
theorem sends_append (actions actions' : List (Action F)) :
    sends (actions ++ actions') = sends actions ++ sends actions' :=
  List.filterMap_append

/-- The event that reports how a send ended. -/
def Attempt.report [F32 F] (a : Attempt F) : Event F :=
  (Event.highPrio.withProcessCollectedData a.process a.data).withMessage
    (match a.outcome with
      | .error err => s!"error sending {a.severity.debug} signal: {err}"
      | .ok () => s!"{a.severity.display} signal sent successfully")

namespace Monitor

/-- The gate the calls of {lit}`send_signal` run through. -/
def gate (m : Monitor F) : Gate (Call F) Int32 SignalRecord where
  key c := c.process.pid
  passes slot c := !slot.any fun last => m.suppresses last c
  record c := c.attempt.record
  lost := Call.lost
  victim := Call.victim

@[simp]
theorem gate_key (m : Monitor F) (c : Call F) : m.gate.key c = c.process.pid :=
  rfl

@[simp]
theorem gate_record (m : Monitor F) (c : Call F) : m.gate.record c = c.attempt.record :=
  rfl

/-- A call consults the record of its pid, if the cache has not lost it. -/
theorem gate_slot (m : Monitor F) (pre : List (Call F)) {c : Call F} (hkeeps : c.lost = []) :
    m.gate.slot m.maxCapacity pre c = (m.gate.after m.maxCapacity pre).get? c.process.pid := by
  have hlost : m.gate.lost c = [] := hkeeps
  unfold Gate.slot
  rw [hlost, Cache.discard_nil, gate_key]

/-- A call passes unless a record suppresses it. -/
theorem gate_passes (m : Monitor F) (slot : Option SignalRecord) (c : Call F) :
    m.gate.passes slot c = true ↔ ∀ last, slot = some last → m.suppresses last c = false := by
  unfold gate
  cases slot <;> simp

/-- The pause container and our own process are not monitored. -/
def Excluded (m : Monitor F) (process : Process) : Prop :=
  process.pid = 1 ∨ process.pid = m.oomheroPid

/-- The call of {lit}`send_signal` the turn of a process makes, if it makes one. -/
def call? (m : Monitor F) (v : Visit F) : Option (Call F) :=
  if v.process.pid = 1 ∨ v.process.pid = m.oomheroPid then none
  else
    match v.collected with
    | .error _ => none
    | .ok data =>
        match m.thresholds data with
        | .ok .none => none
        | .ok severity => some (v.call severity data)
        | .error _ => none

/-- The calls of an iteration, in order. -/
def passCalls (m : Monitor F) (p : Pass F) : List (Call F) :=
  match p.listed with
  | .error _ => []
  | .ok visits => visits.filterMap m.call?

/-- The calls of a run, in order. -/
def calls (m : Monitor F) (passes : List (Pass F)) : List (Call F) :=
  (passes.takeWhile fun p => !p.stop).flatMap m.passCalls

/-- A turn makes a call exactly when the data it collects crosses a threshold. -/
theorem call?_eq_some_iff (m : Monitor F) (v : Visit F) (c : Call F) :
    m.call? v = some c ↔
      v.process.pid ≠ 1 ∧ v.process.pid ≠ m.oomheroPid ∧ ∃ data severity,
        v.collected = .ok data ∧ m.thresholds data = .ok severity ∧ severity ≠ .none ∧
          v.call severity data = c := by
  unfold call?
  split <;> rename_i hexcluded
  · simp only [reduceCtorEq, false_iff, not_and]
    intro hpause hown
    exact absurd hexcluded (not_or.mpr ⟨hpause, hown⟩)
  · rw [not_or] at hexcluded
    cases hcollected : v.collected with
    | error err => simp
    | ok data =>
        cases hseverity : m.thresholds data with
        | error err => simp [hseverity]
        | ok severity => cases severity <;> simp [hexcluded, hseverity]

variable [F32 F]

/-- The sends of a run, in order. -/
def attempts (m : Monitor F) (startedAt : Nat) (passes : List (Pass F)) :
    List (Attempt F) :=
  sends (m.run startedAt passes).2

/-! ## One call -/

/-- A call is one step of the gate; one that passes sends and reports. -/
theorem sendSignal_eq (m : Monitor F) (lastSignals : LastSignals) (c : Call F) :
    m.sendSignal lastSignals c =
      ((m.gate.step lastSignals c).1,
        (m.gate.step lastSignals c).2.flatMap fun c =>
          [.signal c.attempt, .event c.attempt.report]) := by
  have hlost : m.gate.lost c = c.lost := rfl
  unfold sendSignal Gate.step
  dsimp only
  rw [hlost]
  generalize lastSignals.discard c.lost = lastSignals
  by_cases hheld : (lastSignals.get? c.process.pid).any fun last => m.suppresses last c
  · simp [gate, hheld]
  · cases houtcome : c.outcome <;>
      simp [gate, hheld, houtcome, Attempt.report, Call.attempt, Attempt.record, Except.isOk,
        Except.toBool]

/-- A call is held back by the record of its pid, or it sends and reports. -/
theorem sendSignal_outputs (m : Monitor F) (lastSignals : LastSignals) (c : Call F) :
    (m.sendSignal lastSignals c).2 =
      if ((lastSignals.discard c.lost).get? c.process.pid).any fun last => m.suppresses last c then
        []
      else [.signal c.attempt, .event c.attempt.report] := by
  unfold sendSignal
  dsimp only
  split
  · rfl
  · unfold Attempt.report Call.attempt
    cases c.outcome <;> rfl

/-- The sends of a call are those of the gate. -/
theorem sends_sendSignal (m : Monitor F) (lastSignals : LastSignals) (c : Call F) :
    sends (m.sendSignal lastSignals c).2 =
      (m.gate.step lastSignals c).2.map Call.attempt := by
  rw [sendSignal_eq]
  induction (m.gate.step lastSignals c).2 with
  | nil => rfl
  | cons c rest ih =>
      rw [List.flatMap_cons, sends_append, ih]
      rfl

/-- A call steps the gate. -/
theorem sendSignal_gate (m : Monitor F) (lastSignals : LastSignals) (c : Call F) :
    (Transducer.run m.gate.step lastSignals [c]).1 = (m.sendSignal lastSignals c).1 ∧
      (Transducer.run m.gate.step lastSignals [c]).2.map Call.attempt =
        sends (m.sendSignal lastSignals c).2 := by
  rw [run_cons, run_nil, List.append_nil, sends_sendSignal, sendSignal_eq]
  exact ⟨rfl, rfl⟩

omit [F32 F] in
/-- A machine whose steps run the gate over the calls they make runs it over all of them. -/
theorem run_gate_of_step {σ ι : Type} (m : Monitor F) (step : σ → ι → σ × List (Action F))
    (lastSignals : σ → LastSignals) (callsOf : ι → List (Call F))
    (hstep : ∀ s i,
      (Transducer.run m.gate.step (lastSignals s) (callsOf i)).1 = lastSignals (step s i).1 ∧
        (Transducer.run m.gate.step (lastSignals s) (callsOf i)).2.map Call.attempt =
          sends (step s i).2) (s : σ) (is : List ι) :
    (Transducer.run m.gate.step (lastSignals s) (is.flatMap callsOf)).1 =
        lastSignals (Transducer.run step s is).1 ∧
      (Transducer.run m.gate.step (lastSignals s) (is.flatMap callsOf)).2.map Call.attempt =
        sends (Transducer.run step s is).2 := by
  have hrun := run_refines step m.gate.step lastSignals callsOf (fun c => [c.attempt])
    (fun action => action.attempt?.toList) (fun s i => (hstep s i).1)
    (fun s i => by
      rw [← List.map_eq_flatMap, ← List.filterMap_eq_flatMap_toList]
      exact (hstep s i).2) s is
  rw [← List.map_eq_flatMap, ← List.filterMap_eq_flatMap_toList] at hrun
  exact hrun

/-! ## One turn -/

/-- The gauges of a turn. -/
def turnGauges (passes : Int) (v : Visit F) (data : CollectedData F) : List (Action F) :=
  if passes = 0 then [.gauges v.process data v.reportedAt] else []

/-- All that the turn of a process can do, with the call it makes. -/
inductive Turn (m : Monitor F) (passes : Int) (lastSignals : LastSignals) (v : Visit F) :
    LastSignals × List (Action F) → Option (Call F) → Prop
  | excluded (hexcluded : m.Excluded v.process) :
      Turn m passes lastSignals v (lastSignals, []) none
  | uncollected (err : Error) (message : String) (hmonitored : ¬ m.Excluded v.process)
      (hcollected : v.collected = .error err) :
      Turn m passes lastSignals v
        (lastSignals, [.event ((Event.lowPrio.withProcess v.process).withMessage message)]) none
  | unevaluated (data : CollectedData F) (err : Error) (message : String)
      (hmonitored : ¬ m.Excluded v.process) (hcollected : v.collected = .ok data)
      (hevaluated : m.thresholds data = .error err) :
      Turn m passes lastSignals v
        (lastSignals, turnGauges passes v data ++
          [.event ((Event.lowPrio.withProcess v.process).withMessage message)]) none
  | within (data : CollectedData F) (message : String) (hmonitored : ¬ m.Excluded v.process)
      (hcollected : v.collected = .ok data) (hevaluated : m.thresholds data = .ok .none) :
      Turn m passes lastSignals v
        (lastSignals, turnGauges passes v data ++
          [.event ((Event.lowPrio.withProcessCollectedData v.process data).withMessage message)])
        none
  | crossed (data : CollectedData F) (severity : CheckerResult)
      (hmonitored : ¬ m.Excluded v.process) (hcollected : v.collected = .ok data)
      (hevaluated : m.thresholds data = .ok severity) (hcrossed : severity ≠ .none) :
      Turn m passes lastSignals v
        ((m.sendSignal lastSignals (v.call severity data)).1,
          turnGauges passes v data ++ (m.sendSignal lastSignals (v.call severity data)).2)
        (some (v.call severity data))

/-- The turn of a process is one of these. -/
theorem visit_turn (m : Monitor F) (passes : Int) (lastSignals : LastSignals) (v : Visit F) :
    m.Turn passes lastSignals v (m.visit passes lastSignals v) (m.call? v) := by
  unfold visit call?
  split <;> rename_i hexcluded
  · exact .excluded hexcluded
  · cases hcollected : v.collected with
    | error err => exact .uncollected err _ hexcluded hcollected
    | ok data =>
        dsimp only
        cases hevaluated : m.thresholds data with
        | error err => exact .unevaluated data err _ hexcluded hcollected hevaluated
        | ok severity =>
            cases severity with
            | none => exact .within data _ hexcluded hcollected hevaluated
            | warning => exact .crossed data _ hexcluded hcollected hevaluated nofun
            | critical => exact .crossed data _ hexcluded hcollected hevaluated nofun

omit [F32 F] in
/-- The gauges of a turn contain no send. -/
theorem sends_gauges (passes : Int) (v : Visit F) (data : CollectedData F) :
    sends (turnGauges passes v data) = [] := by
  unfold turnGauges
  split <;> rfl

/-- The turn of a process steps the gate for the call it makes, if it makes one. -/
theorem visit_gate (m : Monitor F) (passes : Int) (lastSignals : LastSignals) (v : Visit F) :
    (Transducer.run m.gate.step lastSignals (m.call? v).toList).1 =
        (m.visit passes lastSignals v).1 ∧
      (Transducer.run m.gate.step lastSignals (m.call? v).toList).2.map Call.attempt =
        sends (m.visit passes lastSignals v).2 := by
  have hturn := m.visit_turn passes lastSignals v
  generalize m.visit passes lastSignals v = r, m.call? v = call at hturn ⊢
  cases hturn with
  | excluded hexcluded => exact ⟨rfl, rfl⟩
  | uncollected err message hmonitored hcollected => exact ⟨rfl, rfl⟩
  | unevaluated data err message hmonitored hcollected hevaluated =>
      dsimp only
      rw [sends_append, sends_gauges]
      exact ⟨rfl, rfl⟩
  | within data message hmonitored hcollected hevaluated =>
      dsimp only
      rw [sends_append, sends_gauges]
      exact ⟨rfl, rfl⟩
  | crossed data severity hmonitored hcollected hevaluated hcrossed =>
      dsimp only
      rw [sends_append, sends_gauges]
      exact m.sendSignal_gate lastSignals _

/-! ## Whole runs -/

/-- A scan is a run of the gate over its calls. -/
theorem scan_gate (m : Monitor F) (passes : Int) (lastSignals : LastSignals)
    (visits : List (Visit F)) :
    (Transducer.run m.gate.step lastSignals (visits.filterMap m.call?)).1 =
        (m.scan passes lastSignals visits).1 ∧
      (Transducer.run m.gate.step lastSignals (visits.filterMap m.call?)).2.map Call.attempt =
        sends (m.scan passes lastSignals visits).2 := by
  have hrun := m.run_gate_of_step (m.visit passes) id (fun v => (m.call? v).toList)
    (fun s v => m.visit_gate passes s v) lastSignals visits
  rw [← List.filterMap_eq_flatMap_toList] at hrun
  exact hrun

/-- An iteration is a run of the gate over its calls. -/
theorem iterate_gate (m : Monitor F) (s : MonitorState) (p : Pass F) :
    (Transducer.run m.gate.step s.lastSignals (m.passCalls p)).1 =
        (m.iterate s p).1.lastSignals ∧
      (Transducer.run m.gate.step s.lastSignals (m.passCalls p)).2.map Call.attempt =
        sends (m.iterate s p).2 := by
  unfold iterate passCalls
  cases p.listed with
  | error err => exact ⟨rfl, rfl⟩
  | ok visits =>
      have hscan := m.scan_gate s.passes s.lastSignals visits
      dsimp only
      split
      · exact hscan
      · rw [sends_append]
        exact ⟨hscan.1, hscan.2.trans (List.append_nil _).symm⟩

/-- A whole run is a run of the gate over its calls. -/
theorem run_gate (m : Monitor F) (startedAt : Nat) (passes : List (Pass F)) :
    (m.run startedAt passes).1.lastSignals = m.gate.after m.maxCapacity (m.calls passes) ∧
      m.attempts startedAt passes =
        (m.gate.passed m.maxCapacity (m.calls passes)).map Call.attempt := by
  have hrun := m.run_gate_of_step m.iterate MonitorState.lastSignals m.passCalls
    (fun s p => m.iterate_gate s p) (m.initial startedAt) (passes.takeWhile fun p => !p.stop)
  exact ⟨hrun.1.symm, hrun.2.symm⟩

/-- A run that goes on continues where its first passes left off. -/
theorem run_split (m : Monitor F) (startedAt : Nat) {before : List (Pass F)}
    (hrunning : ∀ p ∈ before, p.stop = false) (after : List (Pass F)) :
    m.run startedAt (before ++ after) =
      ((Transducer.run m.iterate (m.run startedAt before).1
          (after.takeWhile fun p => !p.stop)).1,
        (m.run startedAt before).2 ++ (Transducer.run m.iterate (m.run startedAt before).1
          (after.takeWhile fun p => !p.stop)).2) := by
  have hall : ∀ p ∈ before, (!p.stop) = true := fun p hp => congrArg not (hrunning p hp)
  unfold run
  rw [List.takeWhile_append_of_pos hall, List.takeWhile_eq_self_iff.mpr hall, run_append]

/-! ## A monitor by score -/

/-- A monitor that warns from a score of one on and is critical from two on. -/
def scoreMonitor : Monitor Whole :=
  Monitor.new (ThresholdsChecker.against sampleFasteval
    ⟨moreThan "oom_score" 0, moreThan "oom_score" 1⟩) 99

end Monitor

/-- A visit of a process with a given score, at one time. -/
def scoreVisit (process : Process) (score : Int32) (time : Nat)
    (outcome : Except Error Unit) : Visit Whole where
  process := process
  collected := .ok { (default : CollectedData Whole) with oomScore := score }
  collectedAt := time
  reportedAt := time
  lost := []
  checkedAt := time
  startedAt := time
  outcome := outcome
  victim := 0

/-- A pass over some visits, at one time. -/
def scorePass (visits : List (Visit Whole)) (time : Nat) : Pass Whole where
  stop := false
  listed := .ok visits
  endedAt := time
  resetAt := time

end OomHero
