import OomHero.Daemons.Audit
import OomHero.Daemons.Gauges
import OomHero.Foundations.Batches

/-!
# Daemons - Windows of passes

The monitor counts the passes that list the processes.  A pass that ends thirty seconds
after the current window was opened closes it: the monitor reports how many passes a
second it made, and starts over.  The gauges are exported in the first pass of a window.

Main results:

- Theorem {lit}`Monitor.iterate_gathers`: an iteration gathers the pass in the window.
- Theorem {lit}`Monitor.run_windows`: the passes of a run fall into windows, one for each
  report, and the gauges exported are those of the first pass of each window.
-/

namespace OomHero

open Transducer

variable {F : Type}

/-! ## Windows -/

/-- The passes of a window, which was opened at some time. -/
abbrev PassWindow (F : Type) : Type :=
  Batch Nat (Pass F)

/-- A pass closes a window that was opened thirty seconds before it ends. -/
def Pass.closesWindow (openedAt : Nat) (p : Pass F) : Bool :=
  30 ≤ asSecs (elapsed p.endedAt openedAt)

/-- The windows of a loop. -/
abbrev windowStep : PassWindow F → Pass F → PassWindow F × List (PassWindow F) :=
  Batch.step Pass.closesWindow Pass.resetAt

/-- The pass itself if it lists the processes. -/
def Pass.counted (p : Pass F) : List (Pass F) :=
  if p.listed.isOk then [p] else []

theorem flatMap_counted (passes : List (Pass F)) :
    passes.flatMap Pass.counted = passes.filter fun p => p.listed.isOk := by
  induction passes with
  | nil => rfl
  | cons p passes ih =>
      rw [List.flatMap_cons, List.filter_cons, ih, Pass.counted]
      split <;> rfl

namespace PassWindow

/-- The seconds between opening a window and the end of its last pass. -/
def seconds (w : PassWindow F) : Nat :=
  (w.gathered.getLast?.map fun p => asSecs (elapsed p.endedAt w.mark)).getD 0

/-- The last pass of a window that a pass is added to is this one. -/
theorem seconds_gather (w : PassWindow F) (p : Pass F) :
    seconds (w.gather p) = asSecs (elapsed p.endedAt w.mark) := by
  simp [seconds, Batch.gather]

/-- How many passes a second were made. -/
def perSecond (w : PassWindow F) : Int :=
  (w.gathered.length : Int) / (w.seconds : Int)

/-- The event that reports them. -/
def report [F32 F] (w : PassWindow F) : Event F :=
  Event.lowPrio.withMessage s!"scans per second: {w.perSecond}"

end PassWindow

/-- Whether an event reports the scans per second. -/
def Event.isScanReport (e : Event F) : Bool :=
  "scans per second: ".toList.isPrefixOf e.message.toList

/-- The reports of the scans per second among some actions. -/
def scanReports (actions : List (Action F)) : List (Event F) :=
  (reports actions).filter Event.isScanReport

theorem scanReports_append (actions actions' : List (Action F)) :
    scanReports (actions ++ actions') = scanReports actions ++ scanReports actions' := by
  unfold scanReports
  rw [reports_append, List.filter_append]

/-- The gauges an action exports: a process, its data and the time. -/
def Action.exported? : Action F → Option (Process × CollectedData F × Nat)
  | .gauges process data reportedAt => some (process, data, reportedAt)
  | .signal _ => none
  | .event _ => none

/-- The gauges that some actions export. -/
def exports (actions : List (Action F)) : List (Process × CollectedData F × Nat) :=
  actions.filterMap Action.exported?

theorem exports_append (actions actions' : List (Action F)) :
    exports (actions ++ actions') = exports actions ++ exports actions' :=
  List.filterMap_append

/-! ## What is reported -/

theorem head?_append_of_eq {s t : String} {c : Char} (h : s.toList.head? = some c) :
    (s ++ t).toList.head? = some c := by
  rw [String.toList_append, List.head?_append, h]
  rfl

/-- A message that begins with another letter reports no scans. -/
theorem Event.not_scanReport {e : Event F} {c : Char} (hhead : e.message.toList.head? = some c)
    (hc : c ≠ 's') : e.isScanReport = false := by
  unfold isScanReport
  rw [← Bool.not_eq_true, List.isPrefixOf_iff_prefix]
  intro hprefix
  have hfirst : "scans per second: ".toList.head? = some 's' := by decide
  obtain ⟨rest, hrest⟩ := hprefix
  rw [← hrest, List.head?_append, hfirst] at hhead
  exact hc (Option.some.inj hhead).symm

namespace Monitor

theorem scanReports_event {e : Event F} {c : Char} (hhead : e.message.toList.head? = some c)
    (hc : c ≠ 's') : scanReports [Action.event e] = [] := by
  have hnot := Event.not_scanReport hhead hc
  unfold scanReports reports
  simp [Action.event?, hnot]

variable [F32 F]

theorem scanReports_report (w : PassWindow F) :
    scanReports [Action.event (PassWindow.report w)] = [PassWindow.report w] := by
  have hreport : (PassWindow.report w).isScanReport = true := by
    have hprefix : "scans per second: ".toList <+:
        ("scans per second: " ++ toString w.perSecond).toList := by
      rw [String.toList_append]
      exact List.prefix_append _ _
    exact List.isPrefixOf_iff_prefix.mpr hprefix
  unfold scanReports reports
  simp [Action.event?, hreport]

/-- The event of a send reports no scans. -/
theorem report_not_scanReport (a : Attempt F) : a.report.isScanReport = false := by
  unfold Attempt.report
  cases a.outcome with
  | error err =>
      exact Event.not_scanReport (c := 'e')
        (head?_append_of_eq (head?_append_of_eq (head?_append_of_eq (by decide)))) (by decide)
  | ok done =>
      cases a.severity with
      | none => exact Event.not_scanReport (c := 'n') (head?_append_of_eq (by decide)) (by decide)
      | warning =>
          exact Event.not_scanReport (c := 'w') (head?_append_of_eq (by decide)) (by decide)
      | critical =>
          exact Event.not_scanReport (c := 'c') (head?_append_of_eq (by decide)) (by decide)

theorem scanReports_sendSignal (m : Monitor F) (lastSignals : LastSignals) (c : Call F) :
    scanReports (m.sendSignal lastSignals c).2 = [] := by
  have hevent := report_not_scanReport c.attempt
  rw [sendSignal_outputs]
  split
  · rfl
  · unfold scanReports reports
    simp [Action.event?, hevent]

/-- The turn of a process reports no scans. -/
theorem scanReports_visit (m : Monitor F) (passes : Int) (lastSignals : LastSignals) (v : Visit F) :
    scanReports (m.visit passes lastSignals v).2 = [] := by
  have hgauges : ∀ data : CollectedData F, scanReports
      (if passes = 0 then [Action.gauges v.process data v.reportedAt] else []) = [] := by
    intro data
    split <;> rfl
  unfold visit
  split
  · rfl
  · split
    · exact scanReports_event (c := 'e') (head?_append_of_eq (by decide)) (by decide)
    · rename_i data hcollected
      dsimp only
      split
      · have hfirst : "process usage within limits".toList.head? = some 'p' := by decide
        rw [scanReports_append, hgauges]
        exact scanReports_event hfirst (by decide)
      · rw [scanReports_append, hgauges, scanReports_sendSignal, List.append_nil]
      · rw [scanReports_append, hgauges]
        exact scanReports_event (c := 'e') (head?_append_of_eq (by decide)) (by decide)

/-- The gauges of a turn that is the first one for its process. -/
def exported? (m : Monitor F) (v : Visit F) : Option (Process × CollectedData F × Nat) :=
  if m.Excluded v.process then none
  else v.collected.toOption.map fun data => (v.process, data, v.reportedAt)

/-- The gauges of a pass that is the first one of a window. -/
def passExports (m : Monitor F) (p : Pass F) : List (Process × CollectedData F × Nat) :=
  p.visits.filterMap m.exported?

/-- The windows of a loop, and what their first passes export. -/
def windowExports (m : Monitor F) :
    PassWindow F → Pass F → PassWindow F × List (Process × CollectedData F × Nat) :=
  Batch.headStep Pass.closesWindow Pass.resetAt m.passExports

theorem exports_sendSignal (m : Monitor F) (lastSignals : LastSignals) (c : Call F) :
    exports (m.sendSignal lastSignals c).2 = [] := by
  rw [sendSignal_outputs]
  split <;> rfl

/-- A turn exports gauges if the counter is at zero. -/
theorem exports_visit (m : Monitor F) (passes : Int) (lastSignals : LastSignals) (v : Visit F) :
    exports (m.visit passes lastSignals v).2 =
      if passes = 0 then (m.exported? v).toList else [] := by
  have hgauges : ∀ data, exports (turnGauges passes v data) =
      if passes = 0 then [(v.process, data, v.reportedAt)] else [] := by
    intro data
    unfold turnGauges
    split <;> rfl
  have hturn := m.visit_turn passes lastSignals v
  generalize m.visit passes lastSignals v = r, m.call? v = call at hturn ⊢
  unfold exported?
  cases hturn with
  | excluded hexcluded =>
      rw [if_pos hexcluded]
      split <;> rfl
  | uncollected err message hmonitored hcollected =>
      rw [if_neg hmonitored, hcollected]
      split <;> rfl
  | unevaluated data err message hmonitored hcollected hevaluated =>
      rw [if_neg hmonitored, hcollected, exports_append, hgauges]
      exact List.append_nil _
  | within data message hmonitored hcollected hevaluated =>
      rw [if_neg hmonitored, hcollected, exports_append, hgauges]
      exact List.append_nil _
  | crossed data severity hmonitored hcollected hevaluated hcrossed =>
      rw [if_neg hmonitored, hcollected, exports_append, hgauges, exports_sendSignal]
      exact List.append_nil _

/-- A scan reports no scans, and exports the gauges of the pass if the counter is at zero. -/
theorem scan_shows (m : Monitor F) (passes : Int) (lastSignals : LastSignals)
    (visits : List (Visit F)) :
    scanReports (m.scan passes lastSignals visits).2 = [] ∧
      exports (m.scan passes lastSignals visits).2 =
        if passes = 0 then visits.filterMap m.exported? else [] := by
  unfold scan
  induction visits generalizing lastSignals with
  | nil => simp [scanReports, reports, exports]
  | cons v visits ih =>
      have hrest := ih (m.visit passes lastSignals v).1
      rw [run_cons]
      constructor
      · rw [scanReports_append, scanReports_visit, hrest.1]
        rfl
      · rw [exports_append, exports_visit, hrest.2]
        split
        · cases hexported : m.exported? v <;> simp [hexported]
        · rfl

/-! ## Windows of a run -/

/-- The state of the loop follows the window it is in. -/
structure Counts (s : MonitorState) (w : PassWindow F) : Prop where
  passes : s.passes = w.gathered.length
  lastPass : s.lastPass = w.mark

/-- An iteration gathers the pass in the window if it lists the processes.  It reports the
window it closes, and it exports the gauges of the first pass of one. -/
theorem iterate_gathers (m : Monitor F) {s : MonitorState} {w : PassWindow F} (h : Counts s w)
    (p : Pass F) :
    Counts (m.iterate s p).1 (Transducer.run windowStep w p.counted).1 ∧
      scanReports (m.iterate s p).2 =
        (Transducer.run windowStep w p.counted).2.map PassWindow.report ∧
      exports (m.iterate s p).2 = (Transducer.run m.windowExports w p.counted).2 := by
  unfold iterate
  cases hlisted : p.listed with
  | error err =>
      -- the loop goes on before it counts the pass
      have hcounted : p.counted = [] := by
        unfold Pass.counted
        rw [hlisted]
        rfl
      rw [hcounted]
      refine ⟨h, ?_, rfl⟩
      exact scanReports_event (c := 'e') (head?_append_of_eq (by decide)) (by decide)
  | ok visits =>
      have hcounted : p.counted = [p] := by
        unfold Pass.counted
        rw [hlisted]
        rfl
      have hshows := m.scan_shows s.passes s.lastSignals visits
      have hfirst : s.passes = 0 ↔ w.gathered = [] := by
        rw [h.passes, Int.natCast_eq_zero, List.length_eq_zero_iff]
      have hexports : exports (m.scan s.passes s.lastSignals visits).2 =
          (m.windowExports w p).2 := by
        rw [hshows.2]
        unfold windowExports Batch.headStep passExports Pass.visits
        rw [hlisted]
        simp only [hfirst]
      have hcount : s.passes + 1 = ((w.gather p).gathered.length : Int) := by
        unfold Batch.gather
        rw [h.passes, List.length_append, List.length_singleton]
        rfl
      rw [hcounted, run_cons, run_nil, run_cons, run_nil, ← hexports, h.lastPass]
      dsimp only
      unfold windowStep Batch.step Pass.closesWindow
      split <;> rename_i hopen
      · rw [if_neg (by simpa using hopen)]
        exact ⟨⟨hcount, rfl⟩, hshows.1, (List.append_nil _).symm⟩
      · rw [if_pos (by simpa using hopen)]
        have hreport : Event.lowPrio.withMessage
            s!"scans per second: {(s.passes + 1) / (asSecs (elapsed p.endedAt w.mark) : Int)}" =
              PassWindow.report (w.gather p) := by
          unfold PassWindow.report PassWindow.perSecond
          rw [PassWindow.seconds_gather, ← hcount]
        refine ⟨⟨rfl, rfl⟩, ?_, ?_⟩
        · rw [scanReports_append, hshows.1, hreport]
          exact scanReports_report (w.gather p)
        · exact exports_append _ _

/-- The reports of a run are those of the windows it closes. -/
theorem run_gathers (m : Monitor F) {s : MonitorState} {w : PassWindow F} (h : Counts s w)
    (passes : List (Pass F)) :
    Counts (Transducer.run m.iterate s passes).1
        (Transducer.run windowStep w (passes.flatMap Pass.counted)).1 ∧
      scanReports (Transducer.run m.iterate s passes).2 =
        (Transducer.run windowStep w (passes.flatMap Pass.counted)).2.map PassWindow.report := by
  apply run_simulates (R := Counts) scanReports_append (fun _ _ => List.map_append) ?_ h
  intro s w p hs
  have hone := m.iterate_gathers hs p
  exact ⟨hone.1, hone.2.1⟩

/-- The gauges a run exports are those of the first passes of its windows. -/
theorem run_exports (m : Monitor F) {s : MonitorState} {w : PassWindow F} (h : Counts s w)
    (passes : List (Pass F)) :
    exports (Transducer.run m.iterate s passes).2 =
      (Transducer.run m.windowExports w (passes.flatMap Pass.counted)).2 := by
  have hstep : ∀ s w p, Counts s w →
      Counts (m.iterate s p).1 (Transducer.run m.windowExports w p.counted).1 ∧
        exports (m.iterate s p).2 = (Transducer.run m.windowExports w p.counted).2 := by
    intro s w p hs
    have hone := m.iterate_gathers hs p
    refine ⟨?_, hone.2.2⟩
    unfold windowExports
    rw [Batch.run_headStep_fst]
    exact hone.1
  have hrun : Counts (Transducer.run m.iterate s passes).1 _ ∧
      exports (Transducer.run m.iterate s passes).2 =
        id (Transducer.run m.windowExports w (passes.flatMap Pass.counted)).2 :=
    run_simulates exports_append (fun _ _ => rfl) hstep h passes
  exact hrun.2

omit [F32 F] in
/-- A closed window lasts thirty seconds at least. -/
theorem thirty_le_seconds {w : PassWindow F}
    (h : ∃ p ∈ w.gathered.getLast?, Pass.closesWindow w.mark p = true) :
    30 ≤ PassWindow.seconds w := by
  obtain ⟨p, hlast, hcloses⟩ := h
  unfold PassWindow.seconds
  rw [Option.mem_def.mp hlast]
  exact of_decide_eq_true hcloses

/-- The passes of a run that list the processes fall into windows.  Each of them is counted
once, in a report or in the counter.  A window is closed by the first pass that ends thirty
seconds after it was opened, so no rate is over no time, and for each closed window the run
reports how many passes a second it had.  The gauges exported are those of the first pass of
each window, and no others. -/
theorem run_windows (m : Monitor F) (startedAt : Nat) (passes : List (Pass F)) :
    ∃ windows : List (PassWindow F), ∃ current : PassWindow F,
      Batch.Partitions Pass.closesWindow Pass.resetAt startedAt
          ((performed passes).filter fun p => p.listed.isOk) windows current ∧
        scanReports (m.run startedAt passes).2 = windows.map PassWindow.report ∧
        (∀ w ∈ windows, 30 ≤ PassWindow.seconds w) ∧
        ((windows.flatMap Batch.gathered).length : Int) + (m.run startedAt passes).1.passes =
          ((performed passes).filter fun p => p.listed.isOk).length ∧
        exports (m.run startedAt passes).2 =
          (windows ++ [current]).flatMap (Batch.head m.passExports) := by
  have hinitial : Counts (m.initial startedAt) (Batch.opened startedAt : PassWindow F) :=
    ⟨rfl, rfl⟩
  have hgathers := m.run_gathers hinitial (performed passes)
  have hexports := m.run_exports hinitial (performed passes)
  rw [← flatMap_counted]
  have hpartitions : Batch.Partitions Pass.closesWindow Pass.resetAt startedAt
      ((performed passes).flatMap Pass.counted)
        (Transducer.run windowStep (.opened startedAt) ((performed passes).flatMap Pass.counted)).2
        (Transducer.run windowStep (.opened startedAt)
          ((performed passes).flatMap Pass.counted)).1 :=
    Batch.run_partitions startedAt _
  refine ⟨_, _, hpartitions, hgathers.2, ?_, ?_, ?_⟩
  · intro w hw
    exact thirty_le_seconds (hpartitions.closes_last w hw)
  · have hlength := congrArg List.length hpartitions.inputs
    rw [List.length_append] at hlength
    have hcount : (m.run startedAt passes).1.passes = _ := hgathers.1.passes
    rw [hcount, ← hlength]
    exact (Nat.cast_add _ _).symm
  · rw [← Batch.run_headStep]
    exact hexports

end Monitor
end OomHero
