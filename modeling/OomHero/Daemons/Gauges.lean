import OomHero.Daemons.SendSignal
import OomHero.Foundations.Window

/-!
# Daemons - How fresh the gauges are

The gauges of a process are updated in the first pass of each window of thirty
seconds only, from the data collected in that pass.  The exporter drops a gauge that
is not updated for a minute.

Main results:

- Theorem {lit}`Monitor.iterate_tracks`: for one process an iteration is a tick of a
  loop that reports once a window.
- Theorem {lit}`Monitor.run_gauges_fresh`: the gauges of a live process are updated
  once a minute if no first pass of a window fails to collect its data.
- Theorem {lit}`Monitor.gauges_stale_when_missed`: one such failure can leave them
  without an update for more than a minute.
-/

namespace OomHero

open Transducer

variable {F : Type}

/-! ## One process -/

/-- The processes a pass finds, if the listing succeeds. -/
def Pass.visits (p : Pass F) : List (Visit F) :=
  match p.listed with
  | .ok visits => visits
  | .error _ => []

/-- The turns of a process in a pass. -/
def Pass.turns (process : Process) (p : Pass F) : List (Visit F) :=
  p.visits.filter fun v => v.process = process

/-- When the data of a turn were collected, if they were. -/
def Visit.collectedAt? (v : Visit F) : Option Nat :=
  if v.collected.isOk then some v.collectedAt else none

/-- When the gauges are updated with the data of a turn. -/
def Visit.reportedAt? (v : Visit F) : Option Nat :=
  if v.collected.isOk then some v.reportedAt else none

/-- When the data of a process were collected in a pass. -/
def Pass.collections (process : Process) (p : Pass F) : List Nat :=
  (p.turns process).filterMap Visit.collectedAt?

/-- When they update the gauges of the process. -/
def Pass.reportings (process : Process) (p : Pass F) : List Nat :=
  (p.turns process).filterMap Visit.reportedAt?

/-- The reading of an action that updates the gauges of a process. -/
def Action.updatedAt? (process : Process) : Action F → Option Nat
  | .gauges updated _ reportedAt => if updated = process then some reportedAt else none
  | .signal _ => none
  | .event _ => none

/-- When the gauges of a process were updated. -/
def updates (process : Process) (actions : List (Action F)) : List Nat :=
  actions.filterMap (Action.updatedAt? process)

@[simp]
theorem updates_append (process : Process) (actions actions' : List (Action F)) :
    updates process (actions ++ actions') = updates process actions ++ updates process actions' :=
  List.filterMap_append

/-- The readings of the clock in a turn that collects its data. -/
def Visit.readings (v : Visit F) : List Nat :=
  if v.collected.isOk then [v.collectedAt, v.reportedAt] else []

/-- The readings of the clock in a pass. -/
def Pass.readings (p : Pass F) : List Nat :=
  p.visits.flatMap Visit.readings ++ [p.endedAt, p.resetAt]

/-- The readings of a run never decrease. -/
def ReadingsOrdered (startedAt : Nat) (passes : List (Pass F)) : Prop :=
  (startedAt :: passes.flatMap Pass.readings).Pairwise (· ≤ ·)

instance (startedAt : Nat) (passes : List (Pass F)) :
    Decidable (ReadingsOrdered startedAt passes) :=
  decidable_of_iff _ List.isChain_iff_pairwise

/-- A process that every pass lists, and whose data are collected at least once a
second.  No turn takes longer than that to come from the data to the gauges. -/
structure Live (process : Process) (passes : List (Pass F)) : Prop where
  listed : ∀ p ∈ passes, (p.turns process).length = 1
  steady : (passes.flatMap (Pass.collections process)).IsChain
    fun t t' => elapsed t' t ≤ fromSecs 1
  prompt : ∀ p ∈ passes, ∀ v ∈ p.turns process, v.collected.isOk = true →
    elapsed v.reportedAt v.collectedAt ≤ fromSecs 1

instance (process : Process) (passes : List (Pass F)) : Decidable (Live process passes) :=
  decidable_of_iff ((∀ p ∈ passes, (p.turns process).length = 1) ∧
      ((passes.flatMap (Pass.collections process)).IsChain
        fun t t' => elapsed t' t ≤ fromSecs 1) ∧
      ∀ p ∈ passes, ∀ v ∈ p.turns process, v.collected.isOk = true →
        elapsed v.reportedAt v.collectedAt ≤ fromSecs 1)
    ⟨fun h => ⟨h.1, h.2.1, h.2.2⟩, fun h => ⟨h.listed, h.steady, h.prompt⟩⟩

/-- The tick a pass is for a process. -/
def Pass.tick (process : Process) (p : Pass F) : Tick where
  beat := (p.collections process).head?
  endedAt := p.endedAt
  resetAt := p.resetAt

namespace Monitor

instance (m : Monitor F) (process : Process) : Decidable (m.Excluded process) :=
  inferInstanceAs (Decidable (_ ∨ _))

/-- The passes of a run: it ends at the first one that finds the channel stopped. -/
def performed (passes : List (Pass F)) : List (Pass F) :=
  passes.takeWhile fun p => !p.stop

variable [F32 F]

/-- A pass with the counter at zero collects the data of a process whose gauges were
updated before. -/
def Reports (m : Monitor F) (startedAt : Nat) (process : Process) (pre : List (Pass F))
    (p : Pass F) : Prop :=
  (Transducer.run m.iterate (m.initial startedAt) pre).1.passes = 0 →
    updates process (Transducer.run m.iterate (m.initial startedAt) pre).2 ≠ [] →
      p.collections process ≠ []

instance (m : Monitor F) (startedAt : Nat) (process : Process) (pre : List (Pass F))
    (p : Pass F) : Decidable (m.Reports startedAt process pre p) :=
  inferInstanceAs (Decidable (_ → _ → _))

/-! ## Updates -/

/-- A call of {lit}`send_signal` updates no gauges. -/
theorem updates_sendSignal (m : Monitor F) (process : Process) (lastSignals : LastSignals)
    (c : Call F) : updates process (m.sendSignal lastSignals c).2 = [] := by
  rw [sendSignal_outputs]
  split <;> rfl

omit [F32 F] in
/-- The gauges of a turn are those of its process, if the counter is at zero. -/
theorem updates_turnGauges (process : Process) (passes : Int) (v : Visit F)
    (data : CollectedData F) :
    updates process (turnGauges passes v data) =
      if passes = 0 ∧ v.process = process then [v.reportedAt] else [] := by
  unfold turnGauges
  by_cases hpasses : passes = 0 <;> by_cases hprocess : v.process = process <;>
    simp [updates, Action.updatedAt?, hpasses, hprocess]

/-- A turn updates the gauges of its process if the counter is at zero, the process is
monitored and its data are collected. -/
theorem updates_visit (m : Monitor F) (process : Process) (passes : Int)
    (lastSignals : LastSignals) (v : Visit F) :
    updates process (m.visit passes lastSignals v).2 =
      if (passes = 0 ∧ v.process = process) ∧ ¬ m.Excluded v.process then v.reportedAt?.toList
      else [] := by
  have hturn := m.visit_turn passes lastSignals v
  generalize m.visit passes lastSignals v = r, m.call? v = call at hturn ⊢
  have hgauges : ∀ data : CollectedData F, v.collected = .ok data → ¬ m.Excluded v.process →
      updates process (turnGauges passes v data) =
        if (passes = 0 ∧ v.process = process) ∧ ¬ m.Excluded v.process then
          v.reportedAt?.toList
        else [] := by
    intro data hcollected hmonitored
    have hsome : v.reportedAt? = some v.reportedAt := by
      simp [Visit.reportedAt?, hcollected, Except.isOk, Except.toBool]
    rw [updates_turnGauges, hsome, Option.toList_some]
    simp only [hmonitored, not_false_eq_true, and_true]
  cases hturn with
  | excluded hexcluded =>
      rw [if_neg (fun h => h.2 hexcluded)]
      rfl
  | uncollected err message hmonitored hcollected =>
      simp [updates, Action.updatedAt?, Visit.reportedAt?, hcollected, Except.isOk, Except.toBool]
  | unevaluated data err message hmonitored hcollected hevaluated =>
      rw [← hgauges data hcollected hmonitored, updates_append]
      exact List.append_nil _
  | within data message hmonitored hcollected hevaluated =>
      rw [← hgauges data hcollected hmonitored, updates_append]
      exact List.append_nil _
  | crossed data severity hmonitored hcollected hevaluated hcrossed =>
      rw [← hgauges data hcollected hmonitored, updates_append, updates_sendSignal]
      exact List.append_nil _

/-- A scan updates the gauges of a monitored process when it collects its data. -/
theorem updates_scan (m : Monitor F) (process : Process) (passes : Int)
    (lastSignals : LastSignals) (visits : List (Visit F)) :
    updates process (m.scan passes lastSignals visits).2 =
      if passes = 0 ∧ ¬ m.Excluded process then
        (visits.filter fun v => v.process = process).filterMap Visit.reportedAt?
      else [] := by
  unfold scan
  induction visits generalizing lastSignals with
  | nil => simp [updates]
  | cons v visits ih =>
      rw [run_cons, updates_append, ih, m.updates_visit]
      by_cases hdue : passes = 0 ∧ ¬ m.Excluded process
      · by_cases hprocess : v.process = process
        · cases hreported : v.reportedAt? <;> simp [hdue, hprocess, hreported]
        · simp [hdue, hprocess]
      · have hnot : ¬ ((passes = 0 ∧ v.process = process) ∧ ¬ m.Excluded v.process) :=
          fun h => hdue ⟨h.1.1, h.1.2 ▸ h.2⟩
        rw [if_neg hnot, if_neg hdue, if_neg hdue, List.append_nil]

/-- So does an iteration: its other actions update no gauges. -/
theorem updates_iterate (m : Monitor F) (process : Process) (s : MonitorState) (p : Pass F) :
    updates process (m.iterate s p).2 =
      if s.passes = 0 ∧ ¬ m.Excluded process then p.reportings process else [] := by
  unfold iterate Pass.reportings Pass.turns Pass.visits
  cases p.listed with
  | error err => simp [updates, Action.updatedAt?]
  | ok visits =>
      dsimp only
      rw [← m.updates_scan process s.passes s.lastSignals visits]
      split
      · rfl
      · rw [updates_append]
        exact List.append_nil _

/-- The gauges of a process that is not monitored are never updated. -/
theorem updates_excluded (m : Monitor F) {process : Process} (hexcluded : m.Excluded process)
    (startedAt : Nat) (passes : List (Pass F)) :
    updates process (Transducer.run m.iterate (m.initial startedAt) passes).2 = [] := by
  induction passes using List.reverseRecOn with
  | nil => rfl
  | append_singleton pre p ih =>
      rw [run_concat, updates_append, ih, updates_iterate, if_neg (fun h => h.2 hexcluded)]
      rfl

/-! ## Passes as ticks -/

/-- The window of the monitor: it is fresh while the counter is at zero. -/
structure Tracks (s : MonitorState) (w : Window) : Prop where
  openedAt : s.lastPass = w.openedAt
  fresh : w.fresh = true ↔ s.passes = 0
  counted : 0 ≤ s.passes

omit [F32 F] in
/-- A pass that lists a process once collects its data at most once. -/
theorem collections_of_listed {process : Process} {p : Pass F}
    (hlisted : (p.turns process).length = 1) :
    p.collections process = (p.tick process).beat.toList := by
  obtain ⟨v, hv⟩ := List.length_eq_one_iff.mp hlisted
  unfold Pass.tick
  dsimp only
  unfold Pass.collections
  rw [hv]
  cases hcollected : v.collectedAt? <;> simp [hcollected]

/-- An update is made at most a second after the data of the gauges were collected. -/
def UpdatedInTime (collected updated : Nat) : Prop :=
  collected ≤ updated ∧ updated ≤ collected + fromSecs 1

/-- An iteration is a tick for every monitored process it lists, and updates the gauges of
the process for each report of the tick. -/
theorem iterate_tracks (m : Monitor F) {process : Process} (hmonitored : ¬ m.Excluded process)
    {s : MonitorState} {w : Window} (h : Tracks s w) {p : Pass F}
    (hlisted : (p.turns process).length = 1)
    (hprompt : List.Forall₂ UpdatedInTime (p.collections process) (p.reportings process)) :
    Tracks (m.iterate s p).1 (w.step (fromSecs 30) (p.tick process)).1 ∧
      List.Forall₂ UpdatedInTime (w.step (fromSecs 30) (p.tick process)).2
        (updates process (m.iterate s p).2) := by
  have hcounted := h.counted
  constructor
  · have hwidth : asSecs (elapsed p.endedAt s.lastPass) < 30 ↔
        (p.tick process).endedAt - w.openedAt < fromSecs 30 := by
      rw [← h.openedAt]
      unfold asSecs elapsed fromSecs Pass.tick
      dsimp only
      omega
    unfold iterate
    cases hlist : p.listed with
    | error err =>
        unfold Pass.turns Pass.visits at hlisted
        rw [hlist] at hlisted
        simp at hlisted
    | ok visits =>
        dsimp only
        unfold Window.step
        dsimp only
        by_cases hin : asSecs (elapsed p.endedAt s.lastPass) < 30
        · rw [if_pos hin, if_pos (hwidth.mp hin)]
          exact ⟨h.openedAt, by simp; omega, by simp; omega⟩
        · rw [if_neg hin, if_neg (fun h => hin (hwidth.mpr h))]
          exact ⟨rfl, by simp, by simp⟩
  · rw [updates_iterate, Window.step_snd, ← collections_of_listed hlisted]
    by_cases hpasses : s.passes = 0
    · rw [if_pos (h.fresh.mpr hpasses), if_pos ⟨hpasses, hmonitored⟩]
      exact hprompt
    · rw [if_neg (fun h' => hpasses (h.fresh.mp h')), if_neg (fun h => hpasses h.1)]
      exact .nil

/-- A run is a run of ticks. -/
theorem run_tracks (m : Monitor F) {process : Process} (hmonitored : ¬ m.Excluded process)
    (startedAt : Nat) {passes : List (Pass F)}
    (hlisted : ∀ p ∈ passes, (p.turns process).length = 1)
    (hprompt : ∀ p ∈ passes,
      List.Forall₂ UpdatedInTime (p.collections process) (p.reportings process)) :
    Tracks (Transducer.run m.iterate (m.initial startedAt) passes).1
        (Transducer.run (Window.step (fromSecs 30)) (Window.initial startedAt)
          (passes.map (Pass.tick process))).1 ∧
      List.Forall₂ UpdatedInTime
        (Transducer.run (Window.step (fromSecs 30)) (Window.initial startedAt)
          (passes.map (Pass.tick process))).2
        (updates process (Transducer.run m.iterate (m.initial startedAt) passes).2) := by
  induction passes using List.reverseRecOn with
  | nil => exact ⟨⟨rfl, by simp [initial, Window.initial], le_refl _⟩, .nil⟩
  | append_singleton pre p ih =>
      obtain ⟨htracks, hupdates⟩ := ih (fun q hq => hlisted q (List.mem_append_left _ hq))
        fun q hq => hprompt q (List.mem_append_left _ hq)
      obtain ⟨hnext, hnow⟩ :=
        m.iterate_tracks hmonitored htracks (hlisted p (by simp)) (hprompt p (by simp))
      rw [List.map_append, List.map_singleton, run_concat, run_concat, updates_append]
      exact ⟨hnext, List.rel_append hupdates hnow⟩

omit [F32 F] in
/-- The ticks of a process read the clock when its pass does. -/
theorem tick_readings_sublist {process : Process} {p : Pass F}
    (hlisted : (p.turns process).length = 1) :
    (Window.readings (p.tick process)).Sublist p.readings := by
  have hcollected : ∀ visits : List (Visit F),
      (visits.filterMap Visit.collectedAt?).Sublist (visits.flatMap Visit.readings) := by
    intro visits
    induction visits with
    | nil => exact List.Sublist.slnil
    | cons v visits ih =>
        rw [List.flatMap_cons]
        by_cases hok : v.collected.isOk = true
        · rw [List.filterMap_cons_some (b := v.collectedAt) (by simp [Visit.collectedAt?, hok])]
          unfold Visit.readings
          rw [if_pos hok]
          exact (ih.cons _).cons_cons _
        · rw [List.filterMap_cons_none (by simp [Visit.collectedAt?, hok])]
          exact ih.trans (List.sublist_append_right _ _)
  have hturns : (p.turns process).Sublist p.visits := List.filter_sublist
  unfold Window.readings Pass.readings
  rw [← collections_of_listed hlisted]
  exact ((hcollected _).trans (hturns.flatMap _)).append (List.Sublist.refl _)

omit [F32 F] in
/-- In a live pass the gauges are updated in time. -/
theorem updatedInTime_of_live {startedAt : Nat} {process : Process} {passes : List (Pass F)}
    (hclock : ReadingsOrdered startedAt passes) (hlive : Live process passes) {p : Pass F}
    (hp : p ∈ passes) :
    List.Forall₂ UpdatedInTime (p.collections process) (p.reportings process) := by
  obtain ⟨v, hv⟩ := List.length_eq_one_iff.mp (hlive.listed p hp)
  have hturn : v ∈ p.turns process := by simp [hv]
  unfold Pass.collections Pass.reportings
  rw [hv]
  by_cases hok : v.collected.isOk = true
  · have hprompt := hlive.prompt p hp v hturn hok
    have hordered : [v.collectedAt, v.reportedAt].Sublist
        (startedAt :: passes.flatMap Pass.readings) := by
      have hvisit : (Visit.readings v).Sublist p.readings := by
        unfold Pass.readings
        exact (List.sublist_flatten_of_mem
          (List.mem_map_of_mem (List.mem_of_mem_filter hturn))).trans
          (List.sublist_append_left _ _)
      have hpass : p.readings.Sublist (passes.flatMap Pass.readings) :=
        List.sublist_flatten_of_mem (List.mem_map_of_mem hp)
      unfold Visit.readings at hvisit
      rw [if_pos hok] at hvisit
      exact (hvisit.trans hpass).trans (List.sublist_cons_self _ _)
    have hle := List.pairwise_pair.mp (List.Pairwise.sublist hordered hclock)
    have hcollected : [v].filterMap Visit.collectedAt? = [v.collectedAt] := by
      simp [Visit.collectedAt?, hok]
    have hreported : [v].filterMap Visit.reportedAt? = [v.reportedAt] := by
      simp [Visit.reportedAt?, hok]
    rw [hcollected, hreported]
    unfold elapsed at hprompt
    exact .cons ⟨hle, by omega⟩ .nil
  · simp [Visit.collectedAt?, Visit.reportedAt?, hok]

/-- If every pass that starts with the counter at zero collects the data of a process
whose gauges were updated before, then its gauges are updated once a minute, whatever
else fails. -/
theorem run_gauges_fresh (m : Monitor F) (startedAt : Nat) (passes : List (Pass F))
    (process : Process) (hclock : ReadingsOrdered startedAt (performed passes))
    (hlive : Live process (performed passes))
    (hreports : AtEach (m.Reports startedAt process) (performed passes)) :
    (updates process (m.run startedAt passes).2).IsChain
      fun t t' => elapsed t' t ≤ fromSecs 60 := by
  by_cases hexcluded : m.Excluded process
  · have hnone : updates process (m.run startedAt passes).2 = [] :=
      m.updates_excluded hexcluded startedAt (performed passes)
    rw [hnone]
    exact .nil
  · have hprompt := fun p hp => updatedInTime_of_live hclock hlive (p := p) hp
    have hticks := m.run_tracks hexcluded startedAt hlive.listed hprompt
    have hclock' : (startedAt :: ((performed passes).map (Pass.tick process)).flatMap
        Window.readings).Pairwise (· ≤ ·) := by
      rw [List.flatMap_map]
      refine List.Pairwise.sublist ?_ hclock
      apply List.Sublist.cons_cons
      apply List.Sublist.flatMap_right
      intro p hp
      exact tick_readings_sublist (hlive.listed p hp)
    have hbeats : (((performed passes).map (Pass.tick process)).filterMap Tick.beat).IsChain
        fun a a' => a' ≤ a + fromSecs 1 := by
      have hsame : ((performed passes).map (Pass.tick process)).filterMap Tick.beat =
          (performed passes).flatMap (Pass.collections process) := by
        rw [List.filterMap_map, List.filterMap_eq_flatMap_toList]
        apply List.flatMap_congr
        intro p hp
        exact (collections_of_listed (hlive.listed p hp)).symm
      rw [hsame]
      apply hlive.steady.imp
      intro a a' h
      unfold elapsed at h
      omega
    have hdue : AtEach (Window.Due (fromSecs 30) startedAt)
        ((performed passes).map (Pass.tick process)) := by
      apply AtEach.map
      intro pre p hpre hfresh hreported
      obtain ⟨htracks, hupdates⟩ := m.run_tracks hexcluded startedAt
        (fun q hq => hlive.listed q (hpre.subset (List.mem_append_left _ hq)))
        fun q hq => hprompt q (hpre.subset (List.mem_append_left _ hq))
      have hupdated : updates process
          (Transducer.run m.iterate (m.initial startedAt) pre).2 ≠ [] := by
        intro hnone
        rw [hnone, List.forall₂_nil_right_iff] at hupdates
        exact hreported hupdates
      have hcollects := hreports pre p hpre (htracks.fresh.mp hfresh) hupdated
      rw [collections_of_listed (hlive.listed p (hpre.subset (by simp)))] at hcollects
      intro hnone
      rw [hnone] at hcollects
      exact hcollects rfl
    have hchain := Window.done_chain hticks.2 (Window.reports_chain hclock' hbeats hdue)
    apply hchain.imp
    intro t t' h
    unfold elapsed
    unfold fromSecs at h ⊢
    omega

/-! ## A window without an update -/

/-- A monitor that finds every process within its limits. -/
def quietMonitor : Monitor Whole :=
  (Monitor.new (fun _ => .ok .none) 99).withLoopInterval (fromMillis 450)

/-- A pass every 450 milliseconds that finds one process.  Its data cannot be collected
in the pass numbered {lit}`missed`. -/
def periodicPasses (count missed : Nat) : List (Pass Whole) :=
  (List.range count).map fun k =>
    let time := fromMillis (450 * (k + 1))
    let visit := scoreVisit ⟨5, "postgres"⟩ 0 time (.ok ())
    let collected := if k = missed then .error (.io "No such process") else visit.collected
    scorePass [{ visit with collected }] time

/-- A failure in the middle of a window does no harm. -/
theorem gauges_fresh_when_reported :
    (updates ⟨5, "postgres"⟩ (quietMonitor.run 0 (periodicPasses 70 30)).2).IsChain
      fun t t' => elapsed t' t ≤ fromSecs 60 :=
  quietMonitor.run_gauges_fresh 0 (periodicPasses 70 30) ⟨5, "postgres"⟩ (by decide +kernel)
    (by decide +kernel) (by decide +kernel)

/-- A failure in the first pass of a window leaves the gauges without an update for
more than a minute, although data are collected at least once a second. -/
theorem gauges_stale_when_missed :
    ReadingsOrdered 0 (performed (periodicPasses 135 67)) ∧
      Live ⟨5, "postgres"⟩ (performed (periodicPasses 135 67)) ∧
      ¬ (updates ⟨5, "postgres"⟩ (quietMonitor.run 0 (periodicPasses 135 67)).2).IsChain
        fun t t' => elapsed t' t ≤ fromSecs 60 := by
  decide +kernel

end Monitor
end OomHero
