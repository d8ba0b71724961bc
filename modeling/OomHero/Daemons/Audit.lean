import OomHero.Daemons.SendSignal

/-!
# Daemons - Reports of sends

Every send is followed by an event of high priority that tells how it ended.  The only
other events of high priority are those of failed listings, which are about no process.

Main results:

- Theorem {lit}`Monitor.run_audits`: the events of high priority about a process are
  the reports of the sends, one for each and in their order.
-/

namespace OomHero

open Transducer

variable {F : Type}

/-- The event an action reports. -/
def Action.event? : Action F → Option (Event F)
  | event e => some e
  | signal _ => none
  | gauges _ _ _ => none

/-- The events among some actions. -/
def reports (actions : List (Action F)) : List (Event F) :=
  actions.filterMap Action.event?

@[simp]
theorem reports_append (actions actions' : List (Action F)) :
    reports (actions ++ actions') = reports actions ++ reports actions' :=
  List.filterMap_append

/-- Whether an event of high priority is about a process. -/
def Event.audited (e : Event F) : Bool :=
  e.priority = .high && e.pid ≠ 0

variable [F32 F]

/-- The reports of the sends among some actions. -/
def sendReports (actions : List (Action F)) : List (Event F) :=
  ((sends actions).filter fun a => a.process.pid ≠ 0).map Attempt.report

/-- The events of high priority about a process are the reports of the sends. -/
def Audits (actions : List (Action F)) : Prop :=
  (reports actions).filter Event.audited = sendReports actions

theorem audits_nil : Audits ([] : List (Action F)) :=
  rfl

theorem Audits.append {actions actions' : List (Action F)} (h : Audits actions)
    (h' : Audits actions') : Audits (actions ++ actions') := by
  unfold Audits sendReports at h h' ⊢
  rw [reports_append, sends_append, List.filter_append, List.filter_append, List.map_append, h, h']

namespace Monitor

/-- An event that is not audited needs no send. -/
theorem audits_event {e : Event F} (h : e.audited = false) : Audits [Action.event e] := by
  unfold Audits reports sendReports sends
  simp [Action.event?, Action.attempt?, h]

theorem audits_gauges (passes : Int) (v : Visit F) (data : CollectedData F) :
    Audits (turnGauges passes v data) := by
  unfold turnGauges
  split <;> rfl

/-- A send and its report. -/
theorem audits_sent (c : Call F) : Audits [.signal c.attempt, .event c.attempt.report] := by
  have hreports : reports [.signal c.attempt, .event c.attempt.report] = [c.attempt.report] := rfl
  have hsends : sends [.signal c.attempt, .event c.attempt.report] = [c.attempt] := rfl
  have haudited : c.attempt.report.audited = decide (c.attempt.process.pid ≠ 0) :=
    Bool.true_and _
  unfold Audits sendReports
  rw [hreports, hsends, List.filter_singleton, List.filter_singleton, haudited]
  cases decide (c.attempt.process.pid ≠ 0) <;> rfl

/-- A call reports what it sends. -/
theorem sendSignal_audits (m : Monitor F) (lastSignals : LastSignals) (c : Call F) :
    Audits (m.sendSignal lastSignals c).2 := by
  rw [sendSignal_outputs]
  split
  · exact audits_nil
  · exact audits_sent c

/-- So does the turn of a process: its other events have low priority. -/
theorem visit_audits (m : Monitor F) (passes : Int) (lastSignals : LastSignals) (v : Visit F) :
    Audits (m.visit passes lastSignals v).2 := by
  have hturn := m.visit_turn passes lastSignals v
  generalize m.visit passes lastSignals v = r, m.call? v = call at hturn ⊢
  cases hturn with
  | excluded hexcluded => rfl
  | uncollected err message hmonitored hcollected => exact audits_event rfl
  | unevaluated data err message hmonitored hcollected hevaluated =>
      exact (audits_gauges passes v data).append (audits_event rfl)
  | within data message hmonitored hcollected hevaluated =>
      exact (audits_gauges passes v data).append (audits_event rfl)
  | crossed data severity hmonitored hcollected hevaluated hcrossed =>
      exact (audits_gauges passes v data).append (m.sendSignal_audits lastSignals _)

/-- So does an iteration: a failed listing is about no process. -/
theorem iterate_audits (m : Monitor F) (s : MonitorState) (p : Pass F) :
    Audits (m.iterate s p).2 := by
  have hscan : ∀ visits, Audits (m.scan s.passes s.lastSignals visits).2 :=
    run_outputs audits_nil Audits.append (m.visit_audits s.passes) s.lastSignals
  unfold iterate
  cases p.listed with
  | error err => exact audits_event rfl
  | ok visits =>
      dsimp only
      split
      · exact hscan visits
      · exact (hscan visits).append (audits_event rfl)

/-- The events of high priority about a process are the reports of the sends. -/
theorem run_audits (m : Monitor F) (startedAt : Nat) (passes : List (Pass F)) :
    Audits (m.run startedAt passes).2 :=
  run_outputs audits_nil Audits.append m.iterate_audits _ _

end Monitor
end OomHero
