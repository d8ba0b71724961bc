import OomHero.Events
import OomHero.Foundations.Gate

/-!
# The event logger

The thread that logs the events of the daemon.  It remembers the last event it
logged for a pid and skips events of low priority that do not deviate from it.

Main results:

- Theorem {lit}`EventLogger.logged_eq`: the logger is a keyed gate.
- Theorem {lit}`EventLogger.startEventLogger_no_drift`: the last event logged for a pid
  is close to the last one received, however few entries the cache holds and whatever
  it loses.
-/

namespace OomHero

/-- An event on the channel, with what the cache does when it arrives: the keys
it has lost by then, and the entry an insert evicts if there is no room. -/
structure Arrival (F : Type) where
  event : Event F
  lost : List Int32
  victim : Nat

namespace EventLogger

open Transducer

variable {F : Type} [F32 F]

/-- Log one event, or skip it. -/
def logEvent (lastMessages : Cache Int32 (Event F)) (arrival : Arrival F) :
    Cache Int32 (Event F) × List (Event F) :=
  let event := arrival.event
  let lastMessages := lastMessages.discard arrival.lost
  if event.priority = .high then
    (lastMessages.insert arrival.victim event.pid event, [event])
  else
    match lastMessages.get? event.pid with
    | some previousEvent =>
        if !event.deviatesSignificantly previousEvent then (lastMessages, [])
        else (lastMessages.insert arrival.victim event.pid event, [event])
    | none => (lastMessages.insert arrival.victim event.pid event, [event])

/-- The events a logger logs when the arrivals are all it receives. -/
def logged (capacity : Nat) (arrivals : List (Arrival F)) : List (Event F) :=
  (run logEvent (Cache.empty capacity) arrivals).2

/-- The logger remembers 1_000 different pids. -/
def startEventLogger (arrivals : List (Arrival F)) : List (Event F) :=
  logged 1000 arrivals

/-! ## The logger as a gate -/

/-- The gate that decides which arrivals are logged. -/
def gate : Gate (Arrival F) Int32 (Event F) where
  key arrival := arrival.event.pid
  passes previous arrival :=
    arrival.event.priority = .high ∨
      previous.all fun previousEvent => arrival.event.deviatesSignificantly previousEvent
  record := Arrival.event
  lost := Arrival.lost
  victim := Arrival.victim

@[simp]
theorem gate_key (arrival : Arrival F) : gate.key arrival = arrival.event.pid :=
  rfl

@[simp]
theorem gate_record (arrival : Arrival F) : gate.record arrival = arrival.event :=
  rfl

/-- One step of the logger is one step of the gate. -/
theorem logEvent_eq (lastMessages : Cache Int32 (Event F)) (arrival : Arrival F) :
    logEvent lastMessages arrival =
      ((gate.step lastMessages arrival).1,
        (gate.step lastMessages arrival).2.map Arrival.event) := by
  unfold logEvent Gate.step gate
  dsimp only
  by_cases hhigh : arrival.event.priority = .high
  · simp [hhigh]
  · cases hslot : (lastMessages.discard arrival.lost).get? arrival.event.pid with
    | none => simp [hhigh]
    | some previousEvent =>
        cases hdeviates : arrival.event.deviatesSignificantly previousEvent <;>
          simp [hhigh, hdeviates]

variable {capacity : Nat}

/-- The logger logs the events of the arrivals that pass the gate. -/
theorem logged_eq (arrivals : List (Arrival F)) :
    logged capacity arrivals = (gate.passed capacity arrivals).map Arrival.event := by
  have hstep : ∀ (c : Cache Int32 (Event F)) (arrival : Arrival F),
      run logEvent c [arrival] =
        ((gate.step c arrival).1, (gate.step c arrival).2.map Arrival.event) := by
    intro c arrival
    rw [run_cons, logEvent_eq, run_nil, List.append_nil]
  have hrun := run_refines gate.step logEvent id (fun a => [a])
    (fun e => [e]) (fun a => [a.event]) (fun c a => congrArg Prod.fst (hstep c a))
    (fun c a => by rw [id_eq, hstep c a, List.flatMap_singleton', List.map_eq_flatMap])
    (Cache.empty capacity) arrivals
  rw [List.flatMap_singleton', List.flatMap_singleton', ← List.map_eq_flatMap] at hrun
  exact hrun.2

/-- The logger logs an arrival exactly when it passes the gate. -/
theorem logged_concat (pre : List (Arrival F)) (a : Arrival F) :
    logged capacity (pre ++ [a]) =
      logged capacity pre ++
        if gate.passes (gate.slot capacity pre a) a then [a.event] else [] := by
  rw [logged_eq, logged_eq, Gate.passed_concat, List.map_append]
  split <;> rfl

/-- The last event logged for a pid. -/
def lastLogged (capacity : Nat) (pid : Int32) (arrivals : List (Arrival F)) :
    Option (Event F) :=
  ((logged capacity arrivals).filter fun e => e.pid = pid).getLast?

theorem lastLogged_eq (pid : Int32) (arrivals : List (Arrival F)) :
    lastLogged capacity pid arrivals =
      (gate.lastUnder pid (gate.passed capacity arrivals)).map Arrival.event := by
  unfold lastLogged Gate.lastUnder
  rw [logged_eq, List.filter_map, List.getLast?_map]
  rfl

/-- What the cache remembers is the last event logged for the pid. -/
theorem slot_lastLogged {pre : List (Arrival F)} {a : Arrival F} {e : Event F}
    (h : gate.slot capacity pre a = some e) : lastLogged capacity a.event.pid pre = some e := by
  rw [lastLogged_eq]
  exact Gate.slot_some h

/-! ## What the log shows -/

/-- The logger only drops events. -/
theorem logged_sublist (arrivals : List (Arrival F)) :
    (logged capacity arrivals).Sublist (arrivals.map Arrival.event) := by
  rw [logged_eq]
  exact (gate.passed_sublist arrivals).map Arrival.event

/-- Every event of high priority is logged. -/
theorem logged_high (arrivals : List (Arrival F)) :
    (logged capacity arrivals).filter (fun e => e.priority = .high) =
      (arrivals.map Arrival.event).filter fun e => e.priority = .high := by
  induction arrivals using List.reverseRecOn with
  | nil => rfl
  | append_singleton pre a ih =>
      rw [logged_concat, List.map_append, List.filter_append, List.filter_append, ih]
      congr 1
      by_cases hhigh : a.event.priority = .high
      · have hpass : ∀ slot, gate.passes slot a = true := by
          intro slot
          simp [gate, hhigh]
        rw [if_pos (hpass _)]
        rfl
      · split <;> simp [hhigh]

/-- An event that is not logged does not deviate from the last one logged for its pid. -/
theorem held_by_last {pre : List (Arrival F)} {a : Arrival F}
    (h : gate.passes (gate.slot capacity pre a) a = false) :
    ∃ last, lastLogged capacity a.event.pid pre = some last ∧
      a.event.deviatesSignificantly last = false := by
  cases hslot : gate.slot capacity pre a with
  | none =>
      rw [hslot] at h
      simp [gate] at h
  | some last =>
      rw [hslot] at h
      refine ⟨last, slot_lastLogged hslot, ?_⟩
      simp only [gate, Option.all_some, decide_eq_false_iff_not, not_or, Bool.not_eq_true] at h
      exact h.2

/-- After every arrival the last event logged for its pid is close to it. -/
theorem logged_last_close (pre : List (Arrival ℚ)) (a : Arrival ℚ) :
    ∃ last, lastLogged capacity a.event.pid (pre ++ [a]) = some last ∧ a.event.Close last := by
  unfold lastLogged
  rw [logged_concat]
  split <;> rename_i hpass
  · refine ⟨a.event, ?_, Event.Close.refl a.event⟩
    simp [List.filter_append]
  · obtain ⟨last, hlast, hnear⟩ := held_by_last (Bool.not_eq_true _ ▸ hpass)
    rw [List.append_nil]
    exact ⟨last, hlast, (a.event.deviatesSignificantly_eq_false_iff last).mp hnear⟩

/-- The log never lets a reading drift unseen, however few entries the cache holds and
whatever it loses: it is a part of the stream with all events of high priority, and
after every event the last one logged for its pid is close to it. -/
theorem startEventLogger_no_drift (capacity : Nat) (arrivals : List (Arrival ℚ)) :
    (logged capacity arrivals).Sublist (arrivals.map Arrival.event) ∧
    (logged capacity arrivals).filter (fun e => e.priority = .high) =
      (arrivals.map Arrival.event).filter (fun e => e.priority = .high) ∧
    (∀ pre a, pre ++ [a] <+: arrivals →
      ∃ last, ((logged capacity (pre ++ [a])).filter fun e => e.pid = a.event.pid).getLast? =
        some last ∧ a.event.Close last) ∧
    (∀ pre a, pre ++ [a] <+: arrivals → a.event.priority = .low →
      logged capacity (pre ++ [a]) = logged capacity pre →
        ∃ b ∈ pre, b.event.pid = a.event.pid) := by
  refine ⟨logged_sublist arrivals, logged_high arrivals, fun pre a _ => logged_last_close pre a, ?_⟩
  intro pre a _ _ hsame
  rw [logged_concat] at hsame
  split at hsame <;> rename_i hpass
  · have hlength := congrArg List.length hsame
    simp at hlength
  · obtain ⟨last, hlast, -⟩ := held_by_last (Bool.not_eq_true _ ▸ hpass)
    rw [lastLogged_eq] at hlast
    rcases Option.map_eq_some_iff.mp hlast with ⟨b, hb, -⟩
    have hunder := Gate.lastUnder_some hb
    exact ⟨b, (gate.passed_sublist pre).subset hunder.1, hunder.2⟩

end EventLogger
end OomHero
