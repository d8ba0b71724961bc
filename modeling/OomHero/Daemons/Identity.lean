import OomHero.Daemons.History

/-!
# Daemons - Whose record suppresses

A call is held back by a recent send of its severity.  The records are kept by pid
and outlive the processes, so that send may have gone to another process that had
the pid before.

Main results:

- Theorem {lit}`Monitor.attempts_turn`: the sends of a run up to a turn, and in it.
- Theorem {lit}`Monitor.suppression_justified`: a suppressed call comes shortly after
  a send of its severity to its pid, whatever the cache loses.
- Theorem {lit}`Monitor.reused_pid_suppressed`: that send may be to another process.
-/

namespace OomHero

open Transducer

variable {F : Type}

namespace Monitor

/-- A send of the severity of a call, less than the cooldown before it, or less than
one second if the send failed. -/
def Recent (m : Monitor F) (a : Attempt F) (c : Call F) : Prop :=
  a.severity = c.severity ∧
    elapsed c.checkedAt a.when < if a.outcome.isOk then m.cooldownInterval else fromSecs 1

instance (m : Monitor F) (a : Attempt F) (c : Call F) : Decidable (m.Recent a c) :=
  inferInstanceAs (Decidable (_ ∧ _))

/-- A record suppresses a call exactly when its send is recent. -/
theorem suppresses_record_iff (m : Monitor F) (a : Attempt F) (c : Call F) :
    m.suppresses a.record c = true ↔ m.Recent a c := by
  unfold suppresses Recent
  rw [Bool.and_eq_true, decide_eq_true_eq, decide_eq_true_eq]
  rfl

variable [F32 F]

section Identity

variable {κ : Type} [DecidableEq κ]

/-- A suppressed call comes shortly after a send of its severity to a process of the
same identity. -/
def Justified (m : Monitor F) (identity : Process → κ) (pre : List (Call F)) (c : Call F) :
    Prop :=
  sends (m.sendSignal (m.sendAll pre).1 c).2 = [] →
    ∃ a ∈ sends (m.sendAll pre).2, identity a.process = identity c.process ∧ m.Recent a c

/-- The first call for an identity sends. -/
def FirstSends (m : Monitor F) (identity : Process → κ) (pre : List (Call F)) (c : Call F) :
    Prop :=
  (∀ c' ∈ pre, identity c'.process ≠ identity c.process) →
    sends (m.sendSignal (m.sendAll pre).1 c).2 ≠ []

instance (m : Monitor F) (identity : Process → κ) (pre : List (Call F)) (c : Call F) :
    Decidable (m.Justified identity pre c) :=
  inferInstanceAs (Decidable (_ → _))

instance (m : Monitor F) (identity : Process → κ) (pre : List (Call F)) (c : Call F) :
    Decidable (m.FirstSends identity pre c) :=
  inferInstanceAs (Decidable (_ → _))

end Identity

/-- All earlier calls for the pid of a call were for its process. -/
def KeptPid (pre : List (Call F)) (c : Call F) : Prop :=
  ∀ c' ∈ pre, c'.process.pid = c.process.pid → c'.process = c.process

/-- A call that sends nothing was held back by the last send to its pid. -/
theorem suppressed_by_last {m : Monitor F} {pre : List (Call F)} {c : Call F}
    (hnone : sends (m.sendSignal (m.sendAll pre).1 c).2 = []) :
    ∃ last ∈ pre, last.attempt ∈ sends (m.sendAll pre).2 ∧
      last.process.pid = c.process.pid ∧ m.Recent last.attempt c := by
  rw [(m.sendAll_gate pre).1, sends_sendSignal_after] at hnone
  split at hnone <;> rename_i hpass
  · cases hnone
  · rw [gate_passes] at hpass
    push Not at hpass
    obtain ⟨record, hslot, hheld⟩ := hpass
    -- a record the cache still has belongs to the last send, whatever it lost
    obtain ⟨last, hlast, rfl⟩ := Option.map_eq_some_iff.mp (Gate.slot_some hslot)
    obtain ⟨hpassed, hpid⟩ := Gate.lastUnder_some hlast
    refine ⟨last, (m.gate.passed_sublist pre).subset hpassed, ?_, hpid, ?_⟩
    · rw [(m.sendAll_gate pre).2]
      exact List.mem_map_of_mem hpassed
    · rw [← suppresses_record_iff]
      simpa using hheld

/-! ## Turns of a run -/

/-- What is sent before a turn: in some passes, and in the turns before it in its own pass. -/
def sentBefore (m : Monitor F) (startedAt : Nat) (before : List (Pass F))
    (earlier : List (Visit F)) : List (Attempt F) :=
  let s := (m.run startedAt before).1
  m.attempts startedAt before ++ sends (m.scan s.passes s.lastSignals earlier).2

/-- What is sent in the turn of a visit. -/
def turnSends (m : Monitor F) (startedAt : Nat) (before : List (Pass F))
    (earlier : List (Visit F)) (v : Visit F) : List (Attempt F) :=
  let s := (m.run startedAt before).1
  sends (m.visit s.passes (m.scan s.passes s.lastSignals earlier).1 v).2

/-- The calls before a turn. -/
def callsBefore (m : Monitor F) (before : List (Pass F)) (earlier : List (Visit F)) :
    List (Call F) :=
  m.calls before ++ earlier.filterMap m.call?

/-- The sends of a run are those before a turn, those of the turn and some later ones. -/
theorem attempts_turn {m : Monitor F} (startedAt : Nat) {before after : List (Pass F)}
    {p : Pass F} (hrunning : ∀ q ∈ before ++ [p], q.stop = false) {earlier later : List (Visit F)}
    {v : Visit F} (hlisted : p.listed = .ok (earlier ++ v :: later)) :
    ∃ rest, m.attempts startedAt (before ++ p :: after) =
      m.sentBefore startedAt before earlier ++ m.turnSends startedAt before earlier v ++ rest := by
  obtain ⟨hbefore, hp⟩ := List.forall_mem_append.mp hrunning
  have hpass : ∀ s : MonitorState, sends (m.iterate s p).2 =
      sends (m.scan s.passes s.lastSignals (earlier ++ v :: later)).2 := by
    intro s
    unfold iterate
    rw [hlisted]
    dsimp only
    split
    · rfl
    · rw [sends_append]
      exact List.append_nil _
  unfold attempts sentBefore turnSends
  rw [m.run_split startedAt hbefore, List.takeWhile_cons_of_pos (by simpa using hp), run_cons,
    sends_append, sends_append, hpass]
  unfold attempts scan
  rw [run_append, run_cons, sends_append, sends_append]
  simp only [List.append_assoc]
  exact ⟨_, rfl⟩

/-- Before and in a turn the monitor sends what a run of its calls does. -/
theorem turn_sendAll (m : Monitor F) (startedAt : Nat) (before : List (Pass F))
    (earlier : List (Visit F)) {v : Visit F} {c : Call F} (hcall : m.call? v = some c) :
    m.sentBefore startedAt before earlier = sends (m.sendAll (m.callsBefore before earlier)).2 ∧
      m.turnSends startedAt before earlier v =
        sends (m.sendSignal (m.sendAll (m.callsBefore before earlier)).1 c).2 := by
  have hrun := m.run_gate startedAt before
  have hscan := m.scan_gate (m.run startedAt before).1.passes
    (m.run startedAt before).1.lastSignals earlier
  have hafter : (m.scan (m.run startedAt before).1.passes
      (m.run startedAt before).1.lastSignals earlier).1 =
        m.gate.after m.maxCapacity (m.callsBefore before earlier) := by
    rw [← hscan.1, hrun.1]
    exact (m.gate.after_append _ _).symm
  rw [(m.sendAll_gate _).1, (m.sendAll_gate _).2]
  constructor
  · unfold sentBefore callsBefore
    dsimp only
    rw [hrun.2, ← hscan.2, hrun.1, Gate.passed_append, List.map_append]
  · unfold turnSends
    dsimp only
    rw [hafter, sends_visit_after, hcall, sends_sendSignal_after]

/-- Whatever the cache loses, every suppressed call of a run is justified by a send to
its pid, which is a send to its process unless the pid was observed under another
command line, and the first call for a pid sends.  So does every turn of a run that makes
a call. -/
theorem suppression_justified (m : Monitor F) (passes : List (Pass F)) :
    AtEach (fun pre c => m.Justified Process.pid pre c ∧ m.FirstSends Process.pid pre c ∧
      (KeptPid pre c → m.Justified id pre c)) (m.calls passes) ∧
    ∀ startedAt before p after, passes = before ++ p :: after →
      (∀ q ∈ before ++ [p], q.stop = false) →
      ∀ earlier v later, p.listed = .ok (earlier ++ v :: later) →
        (∃ rest, m.attempts startedAt passes = m.sentBefore startedAt before earlier ++
          m.turnSends startedAt before earlier v ++ rest) ∧
        ∀ c, m.call? v = some c →
          (m.turnSends startedAt before earlier v = [] →
            ∃ a ∈ m.sentBefore startedAt before earlier, a.process.pid = v.process.pid ∧
              m.Recent a c ∧ (KeptPid (m.callsBefore before earlier) c → a.process = v.process)) ∧
          ((∀ c' ∈ m.callsBefore before earlier, c'.process.pid ≠ v.process.pid) →
            m.turnSends startedAt before earlier v ≠ []) := by
  refine ⟨fun pre c _ => ⟨?_, ?_, ?_⟩, ?_⟩
  · intro hnone
    obtain ⟨last, -, hsent, hpid, hrecent⟩ := suppressed_by_last hnone
    exact ⟨last.attempt, hsent, hpid, hrecent⟩
  · intro hfirst hnone
    obtain ⟨last, hlast, -, hpid, -⟩ := suppressed_by_last hnone
    exact hfirst last hlast hpid
  · intro hkept hnone
    obtain ⟨last, hlast, hsent, hpid, hrecent⟩ := suppressed_by_last hnone
    exact ⟨last.attempt, hsent, hkept last hlast hpid, hrecent⟩
  · rintro startedAt before p after rfl hrunning earlier v later hlisted
    refine ⟨attempts_turn startedAt hrunning hlisted, fun c hcall => ?_⟩
    obtain ⟨hsent, hturn⟩ := m.turn_sendAll startedAt before earlier hcall
    have hprocess := call?_process hcall
    rw [hsent, hturn, ← hprocess]
    refine ⟨fun hnone => ?_, fun hfirst hnone => ?_⟩
    · obtain ⟨last, hlast, hsent, hpid, hrecent⟩ := suppressed_by_last hnone
      exact ⟨last.attempt, hsent, hpid, hrecent, fun hkept => hkept last hlast hpid⟩
    · obtain ⟨last, hlast, -, hpid, -⟩ := suppressed_by_last hnone
      exact hfirst last hlast hpid

/-- A pid that a second process takes over between two passes. -/
def reusedPidPasses : List (Pass Whole) :=
  [scorePass [scoreVisit ⟨5, "first"⟩ 1 0 (.ok ())] 0,
    scorePass [scoreVisit ⟨5, "second"⟩ 1 (fromSecs 1) (.ok ())] (fromSecs 1)]

/-- The first warning of the second process is suppressed, without any send to it. -/
theorem reused_pid_suppressed :
    ¬ AtEach (scoreMonitor.Justified id) (scoreMonitor.calls reusedPidPasses) ∧
      ¬ AtEach (scoreMonitor.FirstSends id) (scoreMonitor.calls reusedPidPasses) :=
  ⟨by decide +kernel, by decide +kernel⟩

end Monitor
end OomHero
