import OomHero.Program

/-!
# The program - What is not measured

Not everything an expression can mention is measured for every process.  There is no
pressure in version 1 cgroups, and no memory data without a limit.  What is not measured
counts as zero, so expressions over it have the same value for every process.

Main results:

- Theorem {lit}`Program.attempts_version1`: on version 1 cgroups, expressions over
  pressures send every process the severity of no pressure.
- Theorem {lit}`Program.attempts_unlimited`: expressions over the memory send a process
  without a limit the severity of no memory.
-/

namespace OomHero

variable {F V : Type} [F32 F]

/-- The variables of the memory. -/
def memoryVariables : List String :=
  ["memory_usage", "memory_current", "memory_max"]

section Lookup

variable [F64 V] [Widen F V]

/-- The variables of the memory depend on the limit and the memory in use only. -/
theorem CollectedData.lookup_memory {cd cd' : CollectedData F} {name : String}
    (hname : name ∈ memoryVariables) (hmax : cd.memoryMax = cd'.memoryMax)
    (hcurrent : cd.memoryCurrent = cd'.memoryCurrent) :
    (cd.lookup name : Option V) = cd'.lookup name := by
  have husage : cd.memoryUsage = cd'.memoryUsage := by
    unfold CollectedData.memoryUsage
    rw [hmax, hcurrent]
  simp only [memoryVariables, List.mem_cons, List.not_mem_nil, or_false] at hname
  rcases hname with rfl | rfl | rfl
  · exact congrArg (fun usage => some (Widen.widen usage)) husage
  · exact congrArg (fun current => some (F64.ofU64 current)) hcurrent
  · exact congrArg (fun max => some (F64.ofU64 max)) hmax

end Lookup

namespace ProcFsReader

variable {r : ProcFsReader} {pid : Int32} {fs : FileSystem} {data : CollectedData F}

/-- There is no pressure in version 1 cgroups. -/
theorem Finds.pressure_eq_default (h : r.Finds pid fs data)
    (hversion : ∀ k, r.system.cgroupsVersion (fs.statfs k none) = .ok .cgroupsV1) :
    data.pressure = default := by
  obtain ⟨reads, -, hpressure⟩ := h.rest
  generalize data.pressure = pressure at hpressure ⊢
  cases hpressure with
  | version1 hversion1 => rfl
  | version2 memoryPath ioPath cpuPath pressure hversion2 =>
      rw [hversion] at hversion2
      cases hversion2

/-- There are no memory data without a limit. -/
theorem Finds.memory_eq_zero (h : r.Finds pid fs data)
    (hunlimited : ∀ path content,
      r.system.pathToMemoryMax pid (fs.statfs 2 (some .memoryMax)) = .ok path →
        fs 2 path = .ok content → (parseBytes content).isOk = false) :
    data.memoryMax = 0 ∧ data.memoryCurrent = 0 := by
  obtain ⟨reads, hmemory, -⟩ := h.rest
  generalize data.memoryMax = max, data.memoryCurrent = current at hmemory ⊢
  cases hmemory with
  | unlimited path content hpath hcontent hnone => exact ⟨rfl, rfl⟩
  | limited path content maxPath currentPath memoryMax memoryCurrent hpath hcontent hlimited =>
      rw [hunlimited path content hpath hcontent] at hlimited
      cases hlimited

end ProcFsReader

namespace Program

variable [F64 V] [Widen F V]

/-- The identifiers of both expressions. -/
def idents (g : Program V) : List String :=
  g.thresholdsChecker.critical.idents ++ g.thresholdsChecker.warning.idents

omit [F32 F] [F64 V] [Widen F V] in
theorem mem_observed {g : Program V} {s : Sweep F} {turns : List (Process × Turn F)}
    {o : Process × Turn F} (hturns : g.listed s = .ok turns) (ho : o ∈ turns) :
    o ∈ g.observed o.1.pid s := by
  unfold observed
  rw [hturns]
  exact List.mem_filter.mpr ⟨ho, decide_eq_true rfl⟩

omit [F32 F] [F64 V] [Widen F V] in
theorem exists_turn_of_observed {g : Program V} {pid : Int32} {s : Sweep F}
    {o : Process × Turn F} (ho : o ∈ g.observed pid s) : ∃ k, o.2 = s.turns k := by
  unfold observed listed at ho
  cases hlist : g.system.reader.list s.readDir s.cmdlines with
  | error err =>
      rw [hlist] at ho
      cases ho
  | ok processes =>
      rw [hlist] at ho
      obtain ⟨process, -, rfl⟩ := List.mem_map.mp (List.mem_filter.mp ho).1
      exact ⟨process.2, rfl⟩

/-- While the kernel reports version 1 cgroups, expressions that mention no scalar do not tell
processes apart: whatever is sent has the severity of no pressure at all.  Nothing is sent
if that crosses no threshold. -/
theorem attempts_version1 (g : Program V)
    (hidents : ∀ name ∈ g.idents, name ∉ scalarVariables) (startedAt : Nat)
    (sweeps : List (Sweep F))
    (hversion : ∀ s ∈ sweeps, ∀ turns, g.listed s = .ok turns → ∀ o ∈ turns, ∀ k,
      g.system.cgroupsVersion (o.2.files.statfs k none) = .ok .cgroupsV1)
    (a : Attempt F) (ha : a ∈ g.attempts startedAt sweeps) :
    a.severity ≠ .none ∧
      g.thresholdsChecker.against g.engine (default : CollectedData F) = .ok a.severity := by
  obtain ⟨-, -, hcrossed, hevaluated, s, hs, -, turns, hturns, turn, hturn, hcollected⟩ :=
    exists_turn_of_attempt ha
  have hpressure := ((g.collect_eq_ok_iff _ _ _).mp hcollected).pressure_eq_default
    (hversion s hs turns hturns _ hturn)
  refine ⟨hcrossed, ?_⟩
  rw [← hevaluated]
  apply ThresholdsChecker.against_congr
  intro name hname
  have hscalar := hidents name hname
  rw [CollectedData.lookup_eq_pressure _ hscalar, CollectedData.lookup_eq_pressure _ hscalar,
    hpressure]
  rfl

/-- A program that warns of any pressure, even none. -/
def pressureProgram : Program Int :=
  { scoreProgram with
    thresholdsChecker :=
      ⟨moreThan "io_pressure_full_avg10" (-1), moreThan "io_pressure_full_avg10" 0⟩ }

/-- It warns a worker on version 1 cgroups. -/
theorem worker_warned_of_none :
    ∃ a ∈ pressureProgram.attempts 0 [workersSweep "0"], a.severity ≠ .none ∧
      pressureProgram.thresholdsChecker.against pressureProgram.engine
        (default : CollectedData Whole) = .ok a.severity := by
  obtain ⟨a, ha⟩ := List.exists_mem_of_length_pos
    (show 0 < (pressureProgram.attempts 0 [workersSweep "0"]).length by decide +kernel)
  refine ⟨a, ha, pressureProgram.attempts_version1 (by decide) 0 [workersSweep "0"] ?_ a ha⟩
  intro s hs turns hturns o ho k
  obtain ⟨j, hturn⟩ := exists_turn_of_observed (mem_observed hturns ho)
  rw [hturn, List.mem_singleton.mp hs]
  rfl

/-- Expressions over the memory do not tell processes without a limit apart: whatever is sent
to such a process has the severity of no memory in use.  Nothing is sent if that crosses no
threshold. -/
theorem attempts_unlimited (g : Program V) (hidents : ∀ name ∈ g.idents, name ∈ memoryVariables)
    (startedAt : Nat) (sweeps : List (Sweep F)) (pid : Int32)
    (hunlimited : ∀ s ∈ sweeps, ∀ o ∈ g.observed pid s, ∀ path content,
      g.system.pathToMemoryMax pid (o.2.files.statfs 2 (some .memoryMax)) = .ok path →
        o.2.files 2 path = .ok content → (parseBytes content).isOk = false)
    (a : Attempt F) (ha : a ∈ g.attempts startedAt sweeps) (hpid : a.process.pid = pid) :
    a.severity ≠ .none ∧
      g.thresholdsChecker.against g.engine (default : CollectedData F) = .ok a.severity := by
  obtain ⟨-, -, hcrossed, hevaluated, s, hs, -, turns, hturns, turn, hturn, hcollected⟩ :=
    exists_turn_of_attempt ha
  subst hpid
  have hmemory := ((g.collect_eq_ok_iff _ _ _).mp hcollected).memory_eq_zero
    (hunlimited s hs (a.process, turn) (mem_observed hturns hturn))
  refine ⟨hcrossed, ?_⟩
  rw [← hevaluated]
  apply ThresholdsChecker.against_congr
  intro name hname
  exact CollectedData.lookup_memory (hidents name hname) hmemory.1.symm hmemory.2.symm

/-- A program that warns of any memory usage, even none. -/
def usageProgram : Program Int :=
  { scoreProgram with
    thresholdsChecker := ⟨moreThan "memory_usage" (-1), moreThan "memory_usage" 0⟩ }

/-- A pass that finds no limit. -/
def unlimitedSweep : Sweep Whole :=
  { workersSweep "0" with
    turns := fun _ =>
      { files :=
          { contents := fun k _ => .ok (if k = 2 then "max" else "1")
            statfs := fun _ _ => .ok 0 }
        collectedAt := 0
        reportedAt := 0
        lost := []
        checkedAt := 0
        startedAt := 0
        answer := fun _ => .ok ()
        victim := 0 } }

/-- It warns a worker without a limit. -/
theorem worker_warned_unlimited :
    ∃ a ∈ usageProgram.attempts 0 [unlimitedSweep], a.severity ≠ .none ∧
      usageProgram.thresholdsChecker.against usageProgram.engine
        (default : CollectedData Whole) = .ok a.severity := by
  obtain ⟨a, ha⟩ := List.exists_mem_of_length_pos
    (show 0 < (usageProgram.attempts 0 [unlimitedSweep]).length by decide +kernel)
  refine ⟨a, ha, usageProgram.attempts_unlimited (by decide) 0 [unlimitedSweep] a.process.pid ?_ a
    ha rfl⟩
  intro s hs o ho path content hpath hcontent
  obtain ⟨k, hturn⟩ := exists_turn_of_observed ho
  rw [List.mem_singleton.mp hs] at hturn
  rw [hturn] at hcontent
  cases hcontent
  decide

end Program
end OomHero
