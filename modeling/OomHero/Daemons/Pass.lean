import OomHero.Daemons.History

/-!
# Daemons - One pass

What a pass does is told process by process: every listed process has its own
fragment of the trace, and only a send to a process touches the record of its pid.

Main results:

- Theorem {lit}`Monitor.visit_fragment`: what the turn of a process does.
- Theorem {lit}`Monitor.iterate_isolates`: from every reachable state, an iteration
  accounts for each listed process on its own.
-/

namespace OomHero

open Transducer

variable {F : Type}

/-! ## Fragments -/

/-- Whether an action is a send or an event.  The gauges are metrics. -/
def Action.traced : Action F → Bool
  | signal _ => true
  | event _ => true
  | gauges _ _ _ => false

/-- The sends and events among some actions. -/
def trace (actions : List (Action F)) : List (Action F) :=
  actions.filter Action.traced

@[simp]
theorem trace_append (actions actions' : List (Action F)) :
    trace (actions ++ actions') = trace actions ++ trace actions' :=
  List.filter_append _ _

/-- An event about a process. -/
structure Event.Concerns (e : Event F) (process : Process) (priority : Priority) : Prop where
  pid : e.pid = process.pid
  cmdline : e.cmdline = process.cmdline
  priority : e.priority = priority

namespace Monitor

/-- What the turn of a process may do, given the records at its start. -/
inductive Fragment (m : Monitor F) (lastSignals : LastSignals) (v : Visit F) :
    List (Action F) → Prop
  | excluded (hexcluded : m.Excluded v.process) : Fragment m lastSignals v []
  | uncollected (err : Error) (e : Event F) (hmonitored : ¬ m.Excluded v.process)
      (hcollected : v.collected = .error err) (hevent : e.Concerns v.process .low) :
      Fragment m lastSignals v [.event e]
  | unevaluated (data : CollectedData F) (err : Error) (e : Event F)
      (hmonitored : ¬ m.Excluded v.process) (hcollected : v.collected = .ok data)
      (hevaluated : m.thresholds data = .error err) (hevent : e.Concerns v.process .low) :
      Fragment m lastSignals v [.event e]
  | within (data : CollectedData F) (e : Event F) (hmonitored : ¬ m.Excluded v.process)
      (hcollected : v.collected = .ok data) (hevaluated : m.thresholds data = .ok .none)
      (hevent : e.Concerns v.process .low) : Fragment m lastSignals v [.event e]
  | suppressed (data : CollectedData F) (severity : CheckerResult) (last : SignalRecord)
      (hmonitored : ¬ m.Excluded v.process) (hcollected : v.collected = .ok data)
      (hevaluated : m.thresholds data = .ok severity) (hcrossed : severity ≠ .none)
      (hlast : lastSignals.get? v.process.pid = some last)
      (hheld : m.suppresses last (v.call severity data) = true) : Fragment m lastSignals v []
  | sent (data : CollectedData F) (severity : CheckerResult) (a : Attempt F) (e : Event F)
      (hmonitored : ¬ m.Excluded v.process) (hcollected : v.collected = .ok data)
      (hevaluated : m.thresholds data = .ok severity) (hcrossed : severity ≠ .none)
      (hfree : ∀ last ∈ lastSignals.get? v.process.pid,
        m.suppresses last (v.call severity data) = false)
      (hprocess : a.process = v.process) (hdata : a.data = data) (hseverity : a.severity = severity)
      (hevent : e.Concerns v.process .high) :
      Fragment m lastSignals v [.signal a, .event e]

variable [F32 F]

theorem concerns_withData (process : Process) (data : CollectedData F) (message : String) :
    ((Event.highPrio.withProcessCollectedData process data).withMessage message).Concerns
        process .high ∧
      ((Event.lowPrio.withProcessCollectedData process data).withMessage message).Concerns
        process .low :=
  ⟨⟨rfl, rfl, rfl⟩, ⟨rfl, rfl, rfl⟩⟩

theorem concerns_process (process : Process) (message : String) :
    (((Event.lowPrio : Event F).withProcess process).withMessage message).Concerns process .low :=
  ⟨rfl, rfl, rfl⟩

omit [F32 F] in
/-- The gauges of a turn leave no trace. -/
theorem trace_gauges (passes : Int) (v : Visit F) (data : CollectedData F) :
    trace (turnGauges passes v data) = [] := by
  unfold turnGauges
  split <;> rfl

/-- A call that crossed a threshold is suppressed, or sends and reports. -/
theorem sendSignal_fragment (m : Monitor F) (lastSignals : LastSignals) {v : Visit F}
    {data : CollectedData F} {severity : CheckerResult} (hmonitored : ¬ m.Excluded v.process)
    (hcollected : v.collected = .ok data) (hevaluated : m.thresholds data = .ok severity)
    (hcrossed : severity ≠ .none) (hkeeps : v.lost = []) :
    m.Fragment lastSignals v (trace (m.sendSignal lastSignals (v.call severity data)).2) := by
  have hlost : (v.call severity data).lost = [] := hkeeps
  rw [sendSignal_outputs, hlost, Cache.discard_nil]
  split <;> rename_i hany
  · obtain ⟨last, hlast, hheld⟩ := Option.any_eq_true _ _ |>.mp hany
    exact .suppressed data severity last hmonitored hcollected hevaluated hcrossed hlast hheld
  · have hfree : ∀ last ∈ lastSignals.get? v.process.pid,
        m.suppresses last (v.call severity data) = false := by
      intro last hlast
      by_contra hheld
      apply hany
      rw [Option.any_eq_true]
      exact ⟨last, hlast, by simpa using hheld⟩
    exact .sent data severity _ _ hmonitored hcollected hevaluated hcrossed hfree rfl rfl rfl
      (concerns_withData v.process data _).1

/-- The turn of a process does what one fragment tells. -/
theorem visit_fragment (m : Monitor F) (passes : Int) (lastSignals : LastSignals) {v : Visit F}
    (hkeeps : ∀ c ∈ m.call? v, c.lost = []) :
    m.Fragment lastSignals v (trace (m.visit passes lastSignals v).2) := by
  have hturn := m.visit_turn passes lastSignals v
  generalize m.visit passes lastSignals v = r, m.call? v = call at hturn hkeeps ⊢
  cases hturn with
  | excluded hexcluded => exact .excluded hexcluded
  | uncollected err message hmonitored hcollected =>
      exact .uncollected err _ hmonitored hcollected (concerns_process _ _)
  | unevaluated data err message hmonitored hcollected hevaluated =>
      dsimp only
      rw [trace_append, trace_gauges]
      exact .unevaluated data err _ hmonitored hcollected hevaluated (concerns_process _ _)
  | within data message hmonitored hcollected hevaluated =>
      dsimp only
      rw [trace_append, trace_gauges]
      exact .within data _ hmonitored hcollected hevaluated (concerns_withData _ _ _).2
  | crossed data severity hmonitored hcollected hevaluated hcrossed =>
      dsimp only
      rw [trace_append, trace_gauges]
      exact m.sendSignal_fragment lastSignals hmonitored hcollected hevaluated hcrossed
        (hkeeps _ rfl)

/-! ## Reachable states -/

/-- The states an iteration starts in, with the calls made until then. -/
inductive Reached (m : Monitor F) : List (Call F) → MonitorState → Prop
  | initial (startedAt : Nat) : Reached m [] (m.initial startedAt)
  | iterate {calls : List (Call F)} {s : MonitorState} (p : Pass F) (h : Reached m calls s)
      (hstop : p.stop = false) : Reached m (calls ++ m.passCalls p) (m.iterate s p).1

/-- Every run ends in a reached state. -/
theorem run_reached (m : Monitor F) (startedAt : Nat) (passes : List (Pass F)) :
    m.Reached (m.calls passes) (m.run startedAt passes).1 := by
  have key : ∀ done : List (Pass F), (∀ p ∈ done, p.stop = false) →
      m.Reached (done.flatMap m.passCalls)
        (Transducer.run m.iterate (m.initial startedAt) done).1 := by
    intro done
    induction done using List.reverseRecOn with
    | nil => exact fun _ => .initial startedAt
    | append_singleton done p ih =>
        intro hrunning
        have hdone := ih fun q hq => hrunning q (by simp [hq])
        rw [List.flatMap_append, List.flatMap_singleton, run_concat]
        exact hdone.iterate p (hrunning p (by simp))
  apply key
  intro p hp
  simpa using List.mem_takeWhile_imp hp

/-- A reached cache is the one the gate leaves after the calls. -/
theorem Reached.lastSignals_eq {m : Monitor F} {calls : List (Call F)} {s : MonitorState}
    (h : m.Reached calls s) : s.lastSignals = m.gate.after m.maxCapacity calls := by
  induction h with
  | initial startedAt => rfl
  | @iterate calls s p _ _ ih =>
      rw [← (m.iterate_gate s p).1, ih, Gate.after_append]

/-- The record of a pid after an iteration: that of the last send to it in the
iteration, or the one from before. -/
theorem get?_iterate {m : Monitor F} {calls : List (Call F)} {s : MonitorState}
    (h : m.Reached calls s) {p : Pass F} (hplain : m.PlainMap (calls ++ m.passCalls p))
    (pid : Int32) :
    (m.iterate s p).1.lastSignals.get? pid =
      ((lastSend pid (sends (m.iterate s p).2)).map Attempt.record).or
        (s.lastSignals.get? pid) := by
  have hold := h.lastSignals_eq
  have hgate := m.iterate_gate s p
  have hnew : (m.iterate s p).1.lastSignals =
      m.gate.after m.maxCapacity (calls ++ m.passCalls p) := by
    rw [← hgate.1, hold, Gate.after_append]
  have hbefore : m.PlainMap calls := hplain.of_subset fun c hc => List.mem_append_left _ hc
  rw [hnew, ← hgate.2, hold, Gate.get?_after hplain.retains, Gate.get?_after hbefore.retains,
    Gate.passed_append, Gate.lastUnder_append, Option.map_or, lastSend_eq, Option.map_map]
  rfl

/-! ## Isolation -/

/-- What an iteration emits after the turns of the processes: nothing, or the scan
rate, which is about no process. -/
def RateReport (report : List (Action F)) : Prop :=
  report = [] ∨ ∃ e : Event F, report = [.event e] ∧ e.pid = 0 ∧ e.priority = .low

/-- An iteration accounts for each listed process on its own. -/
structure Isolates (m : Monitor F) (s : MonitorState) (p : Pass F)
    (visits : List (Visit F)) : Prop where
  /-- The trace has one fragment per process, in order. -/
  accounted : ∃ (fragments : List (List (Action F))) (report : List (Action F)),
    trace (m.iterate s p).2 = fragments.flatten ++ report ∧ RateReport report ∧
      fragments.length = visits.length ∧
      ∀ before v after, visits = before ++ v :: after →
        ∃ fragment ∈ fragments[before.length]?,
          m.Fragment (m.scan s.passes s.lastSignals before).1 v fragment
  /-- Only a send to a pid changes its record. -/
  untouched : ∀ pid, (∀ a ∈ sends (m.iterate s p).2, a.process.pid ≠ pid) →
    (m.iterate s p).1.lastSignals.get? pid = s.lastSignals.get? pid
  /-- A send leaves its record. -/
  recorded : ∀ pid a, lastSend pid (sends (m.iterate s p).2) = some a →
    (m.iterate s p).1.lastSignals.get? pid = some a.record
  /-- A process that is sent nothing can be left out: only what its own turn does is
  missing then. -/
  separate : ∀ before v after, visits = before ++ v :: after →
    sends (m.visit s.passes (m.scan s.passes s.lastSignals before).1 v).2 = [] →
    ∃ earlier later,
      (m.iterate s p).2 =
        earlier ++ (m.visit s.passes (m.scan s.passes s.lastSignals before).1 v).2 ++ later ∧
      m.iterate s { p with listed := .ok (before ++ after) } =
        ((m.iterate s p).1, earlier ++ later)
  /-- No process changes what the turn of another pid does. -/
  independent : ∀ before v between w after, visits = before ++ v :: between ++ w :: after →
    v.process.pid ≠ w.process.pid →
    (m.visit s.passes (m.scan s.passes s.lastSignals (before ++ v :: between)).1 w).2 =
      (m.visit s.passes (m.scan s.passes s.lastSignals (before ++ between)).1 w).2

/-- A turn that sends nothing leaves the cache alone. -/
theorem visit_of_no_sends {m : Monitor F} {passes : Int} {lastSignals : LastSignals}
    {v : Visit F} (hkeeps : ∀ c ∈ m.call? v, c.lost = [])
    (hnone : sends (m.visit passes lastSignals v).2 = []) :
    (m.visit passes lastSignals v).1 = lastSignals := by
  have hgate := m.visit_gate passes lastSignals v
  rw [← hgate.1]
  rw [hnone] at hgate
  cases hcall : m.call? v with
  | none => rfl
  | some c =>
      rw [hcall, Option.toList_some, run_cons, run_nil, List.append_nil] at hgate
      rw [Option.toList_some, run_cons, run_nil]
      unfold Gate.step at hgate ⊢
      dsimp only at hgate ⊢
      split <;> rename_i hpass
      · rw [if_pos hpass] at hgate
        cases hgate.2
      · have hlost : m.gate.lost c = [] := hkeeps c hcall
        rw [hlost, Cache.discard_nil]

/-- An iteration emits what its scan emits and at most a report after it.  Another
list of processes that leaves the same cache leaves the same state and report. -/
theorem iterate_of_scan {m : Monitor F} {s : MonitorState} {p : Pass F}
    {visits visits' : List (Visit F)} (hlisted : p.listed = .ok visits)
    (hsame : (m.scan s.passes s.lastSignals visits').1 =
      (m.scan s.passes s.lastSignals visits).1) :
    ∃ report, RateReport report ∧
      (m.iterate s p).2 = (m.scan s.passes s.lastSignals visits).2 ++ report ∧
      m.iterate s { p with listed := .ok visits' } =
        ((m.iterate s p).1, (m.scan s.passes s.lastSignals visits').2 ++ report) := by
  unfold iterate
  rw [hlisted]
  dsimp only
  rw [hsame]
  split
  · refine ⟨[], Or.inl rfl, ?_, ?_⟩
    · rw [List.append_nil]
    · rw [List.append_nil]
  · refine ⟨_, Or.inr ⟨_, rfl, ?_, ?_⟩, rfl, rfl⟩
    · rfl
    · rfl

/-- The fragments of an iteration, in the order of the list. -/
theorem iterate_accounted {m : Monitor F} {s : MonitorState} {p : Pass F}
    {visits : List (Visit F)} (hlisted : p.listed = .ok visits)
    (hkeeps : ∀ c ∈ m.passCalls p, c.lost = []) :
    ∃ (fragments : List (List (Action F))) (report : List (Action F)),
      trace (m.iterate s p).2 = fragments.flatten ++ report ∧ RateReport report ∧
        fragments.length = visits.length ∧
        ∀ before v after, visits = before ++ v :: after →
          ∃ fragment ∈ fragments[before.length]?,
            m.Fragment (m.scan s.passes s.lastSignals before).1 v fragment := by
  obtain ⟨report, hreport, houtputs, -⟩ := iterate_of_scan hlisted (m := m) (s := s) rfl
  have hscanned := flatten_fragments (m.visit s.passes) s.lastSignals visits
  refine ⟨(fragments (m.visit s.passes) s.lastSignals visits).map trace, report,
    ?_, hreport, ?_, ?_⟩
  · have hkept : trace report = report := by
      rcases hreport with rfl | ⟨e, rfl, -, -⟩ <;> rfl
    have hflat : ((fragments (m.visit s.passes) s.lastSignals visits).map trace).flatten =
        trace (m.scan s.passes s.lastSignals visits).2 := by
      unfold scan
      rw [← hscanned]
      exact List.filter_flatten.symm
    rw [houtputs, trace_append, hkept, hflat]
  · rw [List.length_map, fragments_length]
  · intro before v after hsplit
    have hturn : ∀ c ∈ m.call? v, c.lost = [] := by
      intro c hc
      refine hkeeps c ?_
      unfold passCalls
      rw [hlisted]
      exact List.mem_filterMap.mpr ⟨v, by simp [hsplit], hc⟩
    refine ⟨_, ?_, m.visit_fragment s.passes _ hturn⟩
    rw [hsplit, List.getElem?_map, fragments_getElem?]
    rfl

/-- A process that is sent nothing can be left out of the list. -/
theorem iterate_separate {m : Monitor F} {s : MonitorState} {p : Pass F}
    {before after : List (Visit F)} {v : Visit F} (hlisted : p.listed = .ok (before ++ v :: after))
    (hkeeps : ∀ c ∈ m.call? v, c.lost = [])
    (hnone : sends (m.visit s.passes (m.scan s.passes s.lastSignals before).1 v).2 = []) :
    ∃ earlier later,
      (m.iterate s p).2 =
        earlier ++ (m.visit s.passes (m.scan s.passes s.lastSignals before).1 v).2 ++ later ∧
      m.iterate s { p with listed := .ok (before ++ after) } =
        ((m.iterate s p).1, earlier ++ later) := by
  have hkeep := visit_of_no_sends hkeeps hnone
  obtain ⟨hsame, later, hshort, hlong⟩ := run_drop hkeep after
  obtain ⟨report, -, houtputs, hiterate⟩ := iterate_of_scan hlisted hsame
  refine ⟨(m.scan s.passes s.lastSignals before).2, later ++ report, ?_, ?_⟩
  · rw [houtputs, ← List.append_assoc]
    exact congrArg (· ++ report) hlong
  · rw [hiterate, ← List.append_assoc]
    exact congrArg (fun outputs => ((m.iterate s p).1, outputs ++ report)) hshort

/-- A turn depends on the cache through the record of its own pid only. -/
theorem visit_congr {m : Monitor F} {passes : Int} {lastSignals lastSignals' : LastSignals}
    {v : Visit F}
    (hsame : lastSignals.get? v.process.pid = lastSignals'.get? v.process.pid) :
    (m.visit passes lastSignals v).2 = (m.visit passes lastSignals' v).2 := by
  have hsend : ∀ (severity : CheckerResult) (data : CollectedData F),
      (m.sendSignal lastSignals (v.call severity data)).2 =
        (m.sendSignal lastSignals' (v.call severity data)).2 := by
    intro severity data
    have hpid : (v.call severity data).process.pid = v.process.pid := rfl
    rw [sendSignal_outputs, sendSignal_outputs, hpid, Cache.get?_discard, Cache.get?_discard, hsame]
  unfold visit
  split
  · rfl
  · split
    · rfl
    · dsimp only
      split
      · rfl
      · rw [hsend]
      · rfl

/-- The cache in the middle of a pass. -/
theorem Reached.scan_eq {m : Monitor F} {calls : List (Call F)} {s : MonitorState}
    (h : m.Reached calls s) (visits : List (Visit F)) :
    (m.scan s.passes s.lastSignals visits).1 =
      m.gate.after m.maxCapacity (calls ++ visits.filterMap m.call?) := by
  rw [← (m.scan_gate s.passes s.lastSignals visits).1, h.lastSignals_eq, Gate.after_append]

/-- Leaving out a process changes nothing for the turn of another pid. -/
theorem visit_independent {m : Monitor F} {calls : List (Call F)} {s : MonitorState}
    (h : m.Reached calls s) {before between : List (Visit F)} {v w : Visit F}
    (hplain : m.PlainMap (calls ++ (before ++ v :: between).filterMap m.call?))
    (hother : v.process.pid ≠ w.process.pid) :
    (m.visit s.passes (m.scan s.passes s.lastSignals (before ++ v :: between)).1 w).2 =
      (m.visit s.passes (m.scan s.passes s.lastSignals (before ++ between)).1 w).2 := by
  apply visit_congr
  rw [h.scan_eq, h.scan_eq]
  rw [List.filterMap_append, List.filterMap_cons] at hplain ⊢
  rw [List.filterMap_append]
  cases hcall : m.call? v with
  | none => rfl
  | some c =>
      rw [hcall] at hplain
      have hkey : m.gate.key c ≠ w.process.pid := by
        rw [gate_key, call?_process hcall]
        exact hother
      have hkept : Gate.Thins m.gate m.maxCapacity w.process.pid (calls ++ before.filterMap m.call?)
          (calls ++ before.filterMap m.call?) := Gate.Thins.refl _ _ _
      have hthin := (hkept.drop c (Or.inl hkey)).append (between.filterMap m.call?)
      rw [List.append_assoc, List.append_assoc, List.append_assoc] at hthin
      have hfewer : m.PlainMap
          (calls ++ (before.filterMap m.call? ++ between.filterMap m.call?)) := by
        apply hplain.of_subset
        intro c' hc'
        simp only [List.mem_append, List.mem_cons] at hc' ⊢
        tauto
      have hsame := Gate.thins_passed hthin hplain.retains hfewer.retains
      dsimp only
      rw [Gate.get?_after hfewer.retains]
      apply (Gate.get?_after hplain.retains _).trans
      unfold Gate.lastUnder
      exact congrArg (fun under => under.getLast?.map m.gate.record) hsame

/-- From every reachable state, an iteration accounts for each listed process on its
own, whatever their turns come to. -/
theorem iterate_isolates {m : Monitor F} {calls : List (Call F)} {s : MonitorState}
    (hreached : m.Reached calls s) {p : Pass F} {visits : List (Visit F)}
    (hlisted : p.listed = .ok visits) (hplain : m.PlainMap (calls ++ m.passCalls p)) :
    m.Isolates s p visits := by
  have hget := fun pid => get?_iterate hreached hplain pid
  have hcalls : m.passCalls p = visits.filterMap m.call? := by
    unfold passCalls
    rw [hlisted]
  have hkeeps : ∀ c ∈ m.passCalls p, c.lost = [] :=
    fun c hc => hplain.keeps c (List.mem_append_right _ hc)
  constructor
  · exact iterate_accounted hlisted hkeeps
  · intro pid hnone
    have hlast : lastSend pid (sends (m.iterate s p).2) = none := by
      unfold lastSend
      simpa using hnone
    rw [hget pid, hlast]
    rfl
  · intro pid a hlast
    rw [hget pid, hlast]
    rfl
  · intro before v after hsplit hnone
    subst hsplit
    refine iterate_separate hlisted (fun c hc => hkeeps c ?_) hnone
    rw [hcalls]
    exact List.mem_filterMap.mpr ⟨v, by simp, hc⟩
  · intro before v between w after hsplit hother
    refine visit_independent hreached (hplain.of_subset ?_) hother
    intro c hc
    rw [hcalls, hsplit, List.filterMap_append]
    rw [List.mem_append] at hc ⊢
    rw [List.mem_append]
    tauto

/-- A process that is gone, the pause container and a process over its limits. -/
def mixedVisits : List (Visit Whole) :=
  [{ scoreVisit ⟨7, "gone"⟩ 0 0 (.ok ()) with collected := .error (.io "no such process") },
    scoreVisit ⟨1, "pause"⟩ 2 0 (.ok ()), scoreVisit ⟨5, "worker"⟩ 2 0 (.ok ())]

/-- They are told apart in the pass after one that warned another process. -/
theorem iterate_isolates_mixed :
    scoreMonitor.Isolates
      (scoreMonitor.run 0 [scorePass [scoreVisit ⟨6, "server"⟩ 1 0 (.ok ())] 0]).1
      (scorePass mixedVisits 0) mixedVisits :=
  iterate_isolates (scoreMonitor.run_reached 0 _) rfl (by decide +kernel)

end Monitor
end OomHero
