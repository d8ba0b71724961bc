import OomHero.Daemons.Cadence
import OomHero.Processes.Failures
import OomHero.Program

/-!
# The program - Sends

What a send rests on, and when there is one.  A send is decided by reads of the files of its
process, all of which succeeded.  In the other direction, what those reads find over a
threshold is answered.

Main results:

- Theorem {lit}`Program.attempts_evidence`: the reads behind a send.
- Theorem {lit}`Program.crossed_requested`: whenever the files of a listed process hold
  data over a threshold, the program requests a signal for it, or has done so recently.
-/

namespace OomHero

variable {F V : Type} [F32 F] [F64 V] [Widen F V]

namespace Program

/-! ## What a send rests on -/

/-- Behind every send of a run is a call that collected its data in a turn of its process.
No read of this call failed, each was of a file in the directory of the process, and found
what the file held at that time. -/
theorem attempts_evidence (g : Program V) (startedAt : Nat) (sweeps : List (Sweep F))
    (a : Attempt F) (ha : a ∈ g.attempts startedAt sweeps) :
    ∃ s ∈ sweeps, ∃ turns, g.listed s = .ok turns ∧ ∃ turn, (a.process, turn) ∈ turns ∧
      ∃ reads, (g.system.reader.collectProcessData a.process.pid).exec turn.files [] =
          (.ok a.data, reads) ∧
        ∀ k access, reads[k]? = some access → g.system.IsWithin a.process.pid access.path ∧
          ∃ content, access.content = .ok content ∧ turn.files k access.path = .ok content := by
  obtain ⟨-, -, -, -, s, hs, -, turns, hturns, turn, hturn, hcollected⟩ :=
    exists_turn_of_attempt ha
  have hlocal := ProcFsReader.local_collectProcessData (F := F) (r := g.system.reader)
    (g.system.provider_within a.process.pid)
  obtain ⟨reads, hreads, hwithin⟩ := hlocal.reads turn.files []
  obtain ⟨reads', hreads', hheeds⟩ :=
    ProcFsReader.prompt_collectProcessData (F := F) g.system.reader a.process.pid turn.files []
  obtain rfl : reads' = reads := List.append_cancel_left (hreads'.symm.trans hreads)
  have hresult : ((g.system.reader.collectProcessData a.process.pid).exec turn.files []).1 =
      .ok a.data := hcollected
  rw [hresult] at hheeds
  refine ⟨s, hs, turns, hturns, turn, hturn, reads', Prod.ext hresult hreads, ?_⟩
  intro k access hk
  have haccess := List.mem_of_getElem? hk
  obtain ⟨content, hcontent⟩ := hheeds.isOk access haccess
  refine ⟨hwithin access haccess, content, hcontent, ?_⟩
  rw [← hcontent, hheeds.found k access hk, List.length_nil, Nat.zero_add]

/-- What the warning of the first worker rests on. -/
theorem worker_evidence :
    ∃ a ∈ scoreProgram.attempts 0 [workersSweep "0"], ∃ turn : Turn Whole, ∃ reads,
      (scoreProgram.system.reader.collectProcessData a.process.pid).exec turn.files [] =
          (.ok a.data, reads) ∧
        ∀ k access, reads[k]? = some access →
          scoreProgram.system.IsWithin a.process.pid access.path ∧
            ∃ content, access.content = .ok content ∧ turn.files k access.path = .ok content := by
  obtain ⟨a, ha⟩ := List.exists_mem_of_length_pos
    (show 0 < (scoreProgram.attempts 0 [workersSweep "0"]).length by decide +kernel)
  obtain ⟨s, -, turns, -, turn, -, reads, hevidence⟩ :=
    scoreProgram.attempts_evidence 0 [workersSweep "0"] a ha
  exact ⟨a, ha, turn, reads, hevidence⟩

/-! ## When there is a send -/

/-- The call of a turn in which the data of a process cross a threshold. -/
theorem call_mem {g : Program V} {sweeps : List (Sweep F)} {s : Sweep F}
    (hs : s ∈ sweeps.takeWhile fun s => !s.stop) {turns : List (Process × Turn F)}
    (hturns : g.listed s = .ok turns) {process : Process} {turn : Turn F}
    (hturn : (process, turn) ∈ turns) (hpause : process.pid ≠ 1)
    (hown : process.pid ≠ g.oomheroPid) {data : CollectedData F}
    (hcollected : g.collect turn process.pid = .ok data) {severity : CheckerResult}
    (hcrossed : severity ≠ .none)
    (hevaluated : g.thresholdsChecker.against g.engine data = .ok severity) :
    (g.visit process turn).call severity data ∈ g.monitor.calls (sweeps.map g.pass) := by
  have hcall : g.monitor.call? (g.visit process turn) =
      some ((g.visit process turn).call severity data) :=
    (g.monitor.call?_eq_some_iff _ _).mpr
      ⟨hpause, hown, data, severity, hcollected, hevaluated, hcrossed, rfl⟩
  unfold Monitor.calls
  rw [List.takeWhile_map, List.flatMap_map]
  refine List.mem_flatMap.mpr ⟨s, hs, ?_⟩
  have hlisted : (g.pass s).listed =
      .ok (turns.map fun turn => g.visit turn.1 turn.2) := by
    unfold pass
    rw [hturns]
    rfl
  unfold Monitor.passCalls
  rw [hlisted]
  exact List.mem_filterMap.mpr ⟨_, List.mem_map_of_mem hturn, hcall⟩

/-- Every send is a request. -/
theorem request_mem {g : Program V} {startedAt : Nat} {sweeps : List (Sweep F)} {a : Attempt F}
    (ha : a ∈ g.attempts startedAt sweeps) :
    g.signalSender.request a.severity a.process a.data ∈ g.requests startedAt sweeps := by
  have hcrossed := (exists_turn_of_attempt ha).2.2.1
  refine List.mem_flatMap.mpr ⟨a, ha, ?_⟩
  rw [g.signalSender.send_crossed _ hcrossed]
  exact List.mem_singleton_self _

/-- Running on takes back no send. -/
theorem attempts_append (g : Program V) (startedAt : Nat) {pre : List (Sweep F)}
    (hrunning : ∀ s ∈ pre, s.stop = false) (post : List (Sweep F)) :
    g.attempts startedAt pre <+: g.attempts startedAt (pre ++ post) := by
  have hpasses : ∀ p ∈ pre.map g.pass, p.stop = false := by
    intro p hp
    obtain ⟨s, hs, rfl⟩ := List.mem_map.mp hp
    exact hrunning s hs
  unfold attempts Monitor.attempts
  rw [List.map_append, g.monitor.run_split startedAt hpasses, sends_append]
  exact List.prefix_append _ _

/-- Whenever the procfs lists a process that is neither the pause container nor the program
itself, and the reads of its files find data over a threshold, the program has made a request
for its pid with their severity by the end of the pass: about these data, or about some it
found less than the interval of that send before.  However the run goes on, the request
remains. -/
theorem crossed_requested (g : Program V) (startedAt : Nat) (before : List (Sweep F))
    (s : Sweep F) (hrunning : ∀ s' ∈ before ++ [s], s'.stop = false)
    (turns : List (Process × Turn F)) (hturns : g.listed s = .ok turns) (process : Process)
    (turn : Turn F) (hturn : (process, turn) ∈ turns) (hpause : process.pid ≠ 1)
    (hown : process.pid ≠ g.oomheroPid) (data : CollectedData F)
    (hdata : g.system.reader.Finds process.pid turn.files data) (severity : CheckerResult)
    (hcrossed : severity ≠ .none)
    (hevaluated : g.thresholdsChecker.against g.engine data = .ok severity) :
    ∃ a ∈ g.attempts startedAt (before ++ [s]), a.process.pid = process.pid ∧
      (a = ((g.visit process turn).call severity data).attempt ∨
        turn.checkedAt < a.when + g.monitor.interval a) ∧
      ∀ after, g.signalSender.request severity a.process a.data ∈
        g.requests startedAt (before ++ [s] ++ after) := by
  have hs : s ∈ (before ++ [s]).takeWhile fun s => !s.stop := by
    rw [List.takeWhile_eq_self_iff.mpr fun s' hs' => congrArg not (hrunning s' hs')]
    exact List.mem_append_right _ (List.mem_singleton_self s)
  have hcollected := (g.collect_eq_ok_iff turn process.pid data).mpr hdata
  have hcall := g.call_mem hs hturns hturn hpause hown hcollected hcrossed hevaluated
  obtain ⟨a, ha, hpid, hcases⟩ := Monitor.exists_attempt_of_call startedAt hcall
  have hseverity : a.severity = severity := by
    rcases hcases with rfl | hheld
    · rfl
    · exact hheld.severity
  refine ⟨a, ha, hpid, hcases.imp id Monitor.HeldBy.recent, ?_⟩
  intro after
  rw [← hseverity]
  exact request_mem ((g.attempts_append startedAt hrunning after).subset ha)

/-- The data of the first worker. -/
def workerData : CollectedData Whole :=
  { (default : CollectedData Whole) with
    memoryMax := 1, memoryCurrent := 1, oomScore := 1, oomScoreAdj := 1 }

theorem workers_listed : ∃ turns, scoreProgram.listed (workersSweep "0") = .ok turns ∧
    (⟨5, "worker"⟩, (workersSweep "0").turns 0) ∈ turns := by
  refine ⟨_, rfl, ?_⟩
  exact List.mem_cons_self

/-- The first worker is warned. -/
theorem worker_answered :
    ∃ a ∈ scoreProgram.attempts 0 [workersSweep "0"], a.process.pid = 5 ∧
      scoreProgram.signalSender.request .warning a.process a.data ∈
        scoreProgram.requests 0 [workersSweep "0"] := by
  obtain ⟨turns, hturns, hturn⟩ := workers_listed
  have hfinds : scoreProgram.system.reader.Finds 5 ((workersSweep "0").turns 0).files workerData :=
    (scoreProgram.collect_eq_ok_iff _ _ _).mp (by decide +kernel)
  have hrunning : ∀ s ∈ [] ++ [workersSweep "0"], s.stop = false := by
    intro s hs
    rw [List.mem_singleton.mp hs]
    rfl
  obtain ⟨a, ha, hpid, -, hrequest⟩ := scoreProgram.crossed_requested 0 [] (workersSweep "0")
    hrunning turns hturns ⟨5, "worker"⟩ ((workersSweep "0").turns 0) hturn (by decide) (by decide)
    workerData hfinds .warning nofun (by decide +kernel)
  exact ⟨a, ha, hpid, hrequest []⟩

end Program
end OomHero
