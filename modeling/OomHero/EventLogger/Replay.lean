import OomHero.EventLogger

/-!
# The event logger - Replaying a log

While the cache of the logger loses nothing, which events are logged depends on the
events alone, and on those of one pid at a time.

Main results:

- Theorem {lit}`EventLogger.startEventLogger_plain`: the logger is then the gate that
  keeps a plain map.
- Theorem {lit}`EventLogger.startEventLogger_replay`: the events of a log are all
  logged again, and what is logged for a pid depends on the events of that pid only.
-/

namespace OomHero
namespace EventLogger

variable {F : Type} [F32 F]

/-- The events of one pid, in order. -/
def ofPid (pid : Int32) (events : List (Event F)) : List (Event F) :=
  events.filter fun e => e.pid = pid

/-- The cache loses no entry before any of the arrivals. -/
def NothingLost (arrivals : List (Arrival F)) : Prop :=
  ∀ a ∈ arrivals, a.lost = []

instance (arrivals : List (Arrival F)) : Decidable (NothingLost arrivals) :=
  List.decidableBAll _ _

/-- The cache is a plain map: all pids have room in it and it loses no entry. -/
structure PlainMap (arrivals : List (Arrival F)) : Prop where
  fewPids : (arrivals.map fun a => a.event.pid).toFinset.card ≤ 1000
  keeps : NothingLost arrivals

omit [F32 F] in
/-- Arrivals of no other pids leave the cache a plain map. -/
theorem PlainMap.of_pids {arrivals others : List (Arrival F)} (h : PlainMap arrivals)
    (hkeeps : NothingLost others)
    (hpids : ∀ b ∈ others, ∃ a ∈ arrivals, a.event.pid = b.event.pid) : PlainMap others where
  fewPids := by
    refine (Finset.card_le_card ?_).trans h.fewPids
    intro pid hpid
    rw [List.mem_toFinset, List.mem_map] at hpid ⊢
    obtain ⟨b, hb, rfl⟩ := hpid
    exact hpids b hb
  keeps := hkeeps

theorem PlainMap.retains {arrivals : List (Arrival F)} (h : PlainMap arrivals) :
    gate.Retains 1000 arrivals where
  fits := by
    refine ⟨_, h.fewPids, fun a ha _ => ?_⟩
    rw [List.mem_toFinset]
    exact List.mem_map_of_mem ha
  keeps := h.keeps

/-! ## The logger over a plain map -/

/-- The gate of the logger for events that find every entry where it was left. -/
def plainGate : Gate (Event F) Int32 (Event F) where
  key := Event.pid
  passes previous event :=
    event.priority = .high ∨
      previous.all fun previousEvent => event.deviatesSignificantly previousEvent
  record := id
  lost _ := []
  victim _ := 0

theorem PlainMap.plainRetains {arrivals : List (Arrival F)} (h : PlainMap arrivals) :
    plainGate.Retains 1000 (arrivals.map Arrival.event) where
  fits := by
    refine ⟨_, h.fewPids, fun e he _ => ?_⟩
    obtain ⟨a, ha, rfl⟩ := List.mem_map.mp he
    rw [List.mem_toFinset]
    exact List.mem_map_of_mem ha
  keeps _ _ := rfl

/-- Over a plain map the logger only looks at the events. -/
theorem startEventLogger_plain {arrivals : List (Arrival F)} (h : PlainMap arrivals) :
    startEventLogger arrivals = plainGate.passed 1000 (arrivals.map Arrival.event) := by
  have hmap : plainGate.passed 1000 (arrivals.map Arrival.event) =
      (gate.passed 1000 arrivals).map Arrival.event :=
    Gate.passed_map (fun _ => rfl) (fun _ => rfl) (fun _ _ => rfl) h.retains h.plainRetains
  unfold startEventLogger
  rw [logged_eq, hmap]

/-- Every event of a log comes from an arrival of its pid. -/
theorem exists_arrival_of_logged {arrivals : List (Arrival F)} {e : Event F}
    (h : e ∈ startEventLogger arrivals) : ∃ a ∈ arrivals, a.event = e := by
  unfold startEventLogger at h
  rw [logged_eq] at h
  obtain ⟨a, ha, rfl⟩ := List.mem_map.mp h
  exact ⟨a, (gate.passed_sublist arrivals).subset ha, rfl⟩

/-- A replayed log is logged again, event by event. -/
theorem startEventLogger_idempotent {arrivals replay : List (Arrival F)} (h : PlainMap arrivals)
    (hreplay : replay.map Arrival.event = startEventLogger arrivals) (hkeeps : NothingLost replay) :
    startEventLogger replay = startEventLogger arrivals := by
  have hplain : PlainMap replay := by
    refine h.of_pids hkeeps fun b hb => ?_
    have hlogged : b.event ∈ startEventLogger arrivals := by
      rw [← hreplay]
      exact List.mem_map_of_mem hb
    obtain ⟨a, ha, hevent⟩ := exists_arrival_of_logged hlogged
    exact ⟨a, ha, congrArg Event.pid hevent⟩
  rw [startEventLogger_plain hplain, hreplay, startEventLogger_plain h,
    Gate.passed_passed h.plainRetains]

/-- What is logged for a pid is what the logger logs of its events alone. -/
theorem ofPid_startEventLogger {arrivals : List (Arrival F)} (h : PlainMap arrivals)
    (pid : Int32) :
    ofPid pid (startEventLogger arrivals) =
      plainGate.passed 1000 (ofPid pid (arrivals.map Arrival.event)) := by
  rw [startEventLogger_plain h]
  exact Gate.passed_filter_key h.plainRetains pid

/-- Deduplication is idempotent and works pid by pid. -/
theorem startEventLogger_replay {arrivals : List (Arrival ℚ)} (hplain : PlainMap arrivals) :
    (∀ replay, replay.map Arrival.event = startEventLogger arrivals → NothingLost replay →
      startEventLogger replay = startEventLogger arrivals) ∧
    (∀ others, PlainMap others → ∀ pid,
      ofPid pid (others.map Arrival.event) = ofPid pid (arrivals.map Arrival.event) →
        ofPid pid (startEventLogger others) = ofPid pid (startEventLogger arrivals)) := by
  constructor
  · intro replay hreplay hkeeps
    exact startEventLogger_idempotent hplain hreplay hkeeps
  · intro others hothers pid hsame
    rw [ofPid_startEventLogger hothers, ofPid_startEventLogger hplain, hsame]

/-- An observation of low priority that only differs in its pid and memory usage. -/
def usageOf (pid : Int32) (memoryUsage : ℚ) : Arrival ℚ :=
  { event := { (default : Event ℚ) with pid, memoryUsage }, lost := [], victim := 0 }

/-- A slow drift of one pid, with an observation of another in between. -/
def driftArrivals : List (Arrival ℚ) :=
  [usageOf 5 0, usageOf 6 50, usageOf 5 8, usageOf 5 16]

/-- The drift is logged at its second step only, and again so when its log is replayed or
the pid is observed alone. -/
theorem drift_replayed :
    startEventLogger [usageOf 5 0, usageOf 6 50, usageOf 5 16] = startEventLogger driftArrivals ∧
      ofPid 5 (startEventLogger [usageOf 5 0, usageOf 5 8, usageOf 5 16]) =
        ofPid 5 (startEventLogger driftArrivals) := by
  have hplain : PlainMap driftArrivals :=
    ⟨by decide +kernel, by decide +kernel⟩
  have halone : PlainMap [usageOf 5 0, usageOf 5 8, usageOf 5 16] :=
    ⟨by decide +kernel, by decide +kernel⟩
  obtain ⟨hreplay, hpid⟩ := startEventLogger_replay hplain
  exact ⟨hreplay _ (by decide +kernel) (by decide +kernel),
    hpid _ halone 5 (by decide +kernel)⟩

end EventLogger
end OomHero
