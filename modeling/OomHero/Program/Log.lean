import OomHero.Program
import OomHero.Threads

/-!
# The program - What the log tells

The log is written by a thread of its own.  Its lines of high priority about a process can
be trusted all the same.

Main results:

- Theorem {lit}`Program.log_justified`: however the threads interleave, each such line is
  the report of a justified send, and each send has such a line once the log is complete.
-/

namespace OomHero

variable {F V : Type} [F32 F] [F64 V] [Widen F V]

namespace Program

/-- However the threads interleave and whatever the cache of the logger loses, every line of
high priority about a process in the log reports how a send ended, of a severity that the
files of a listed process had in its turn.  Once nothing is left to do and the logger has
not gone, there is such a line for every send. -/
theorem log_justified (g : Program V) (startedAt : Nat) (moves : List (Move F)) (s : Threads F)
    (hrun : Threads.run g.monitor startedAt moves = some s) (sweeps : List (Sweep F))
    (hpasses : s.passes = sweeps.map g.pass) :
    (∀ e ∈ s.log, e.audited = true → ∃ a ∈ g.attempts startedAt sweeps, e = a.report ∧
        g.Justified sweeps a.severity a.process a.data) ∧
      (s.pending = [] → s.events.queue = [] → s.events.connected = true →
        ∀ a ∈ g.attempts startedAt sweeps, a.process.pid ≠ 0 → a.report ∈ s.log) := by
  have haudits := (Threads.accounted_of_run hrun).audits
  rw [hpasses] at haudits
  constructor
  · intro e he haudited
    have hreport : e ∈ sendReports (g.monitor.run startedAt (sweeps.map g.pass)).2 := by
      rw [← haudits]
      exact List.mem_filter.mpr ⟨by simp [he], haudited⟩
    obtain ⟨a, hsent, rfl⟩ := List.mem_map.mp hreport
    have ha : a ∈ g.attempts startedAt sweeps := (List.mem_filter.mp hsent).1
    exact ⟨a, ha, rfl, justified_of_attempt ha⟩
  · intro hidle hqueue hthere a ha hpid
    have hreport : a.report ∈ sendReports (g.monitor.run startedAt (sweeps.map g.pass)).2 :=
      List.mem_map_of_mem (List.mem_filter.mpr ⟨ha, by simpa using hpid⟩)
    rw [← haudits, hidle, hqueue, s.events.kept hthere] at hreport
    simpa [reports] using (List.mem_filter.mp hreport).1

/-! ## A worker that is warned -/

/-- A pass that lists a worker, all of whose files hold a one. -/
def workerSweep (stop : Bool) : Sweep Whole where
  stop := stop
  readDir := fun _ => .ok [.ok ⟨some "5", .ok true⟩]
  cmdlines := fun _ _ => .ok "worker"
  turns := fun _ =>
    { files := { contents := fun _ _ => .ok "1", statfs := fun _ _ => .ok 0 }
      collectedAt := 0
      reportedAt := 0
      lost := []
      checkedAt := 0
      startedAt := 0
      answer := fun _ => .ok ()
      victim := 0 }
  endedAt := 0
  resetAt := 0

/-- The worker is warned, and the report is logged before the program ends. -/
def workerMoves : List (Move Whole) :=
  [.hook true, .wake (scoreProgram.pass (workerSweep false)), .act, .act, .act,
    .receive [] 0, .interrupt, .wake (scoreProgram.pass (workerSweep true))]

def workerThreads : Threads Whole :=
  (Threads.run scoreProgram.monitor 0 workerMoves).get (by decide +kernel)

/-- The line for the worker is justified. -/
theorem worker_log_justified :
    ∃ e ∈ workerThreads.log, ∃ a ∈ scoreProgram.attempts 0 [workerSweep false, workerSweep true],
      e = a.report ∧ scoreProgram.Justified [workerSweep false, workerSweep true] a.severity
        a.process a.data := by
  obtain ⟨e, he⟩ := List.exists_mem_of_length_pos
    (show 0 < (workerThreads.log.filter Event.audited).length by decide +kernel)
  obtain ⟨hlogged, haudited⟩ := List.mem_filter.mp he
  have hjustified := scoreProgram.log_justified 0 workerMoves workerThreads
    (Option.some_get _).symm [workerSweep false, workerSweep true] rfl
  exact ⟨e, hlogged, hjustified.1 e hlogged haudited⟩

end Program
end OomHero
