import OomHero.Processes.Reader

/-!
# Processes - When collecting succeeds

Files change while they are read, and a process can vanish at any time.  Collecting its
data succeeds exactly when every read it makes finds what it needs, and the data are what
those reads found.

Main results:

- Theorem {lit}`Io.exec_bind_eq_ok_iff`: a computation in two parts succeeds when both do.
- Theorem {lit}`ProcFsReader.collectProcessData_eq_ok_iff`: the reads a call depends on,
  for both versions of the cgroups.
-/

namespace OomHero

/-! ## Computations that succeed -/

namespace Io

variable {α β : Type} {fs : FileSystem} {log log' : List Access}

theorem exec_bind_eq_ok_iff {m : Io α} {f : α → Io β} {b : β} :
    (m >>= f).exec fs log = (.ok b, log') ↔
      ∃ a middle, m.exec fs log = (.ok a, middle) ∧ (f a).exec fs middle = (.ok b, log') := by
  rw [exec_bind]
  rcases m.exec fs log with ⟨result, middle⟩
  cases result with
  | error e => simp
  | ok a => simp

theorem exists_exec_bind_iff {m : Io α} {f : α → Io β} {b : β} :
    (∃ log', (m >>= f).exec fs log = (.ok b, log')) ↔
      ∃ a middle, m.exec fs log = (.ok a, middle) ∧
        ∃ log', (f a).exec fs middle = (.ok b, log') := by
  simp only [exec_bind_eq_ok_iff]
  constructor
  · rintro ⟨log', a, middle, hfirst, hrest⟩
    exact ⟨a, middle, hfirst, log', hrest⟩
  · rintro ⟨a, middle, hfirst, log', hrest⟩
    exact ⟨log', a, middle, hfirst, hrest⟩

theorem exec_lookup_eq_ok_iff {file : Option File} {answer : Lookup α} {a : α} :
    (lookup file answer).exec fs log = (.ok a, log') ↔
      answer (fs.statfs log.length file) = .ok a ∧ log' = log := by
  rw [exec_lookup, Prod.mk.injEq, eq_comm (a := log)]

theorem exec_readWith_eq_ok_iff {file : File} {path : String} {parse : String → Except Error α}
    {a : α} :
    (readWith file path parse).exec fs log = (.ok a, log') ↔
      fs log.length path >>= parse = .ok a ∧
        log' = log ++ [⟨file, path, fs log.length path⟩] := by
  rw [exec_readWith, Prod.mk.injEq, eq_comm (a := _ ++ _)]

end Io

namespace ProcFsReader

variable {F : Type} [F32 F]

/-! ## What a call depends on -/

/-- What a call finds of the memory, and how many reads it has made by then. -/
inductive MemoryFound (r : ProcFsReader) (pid : Int32) (fs : FileSystem) :
    UInt64 → UInt64 → Nat → Prop
  | unlimited (path content : String)
      (hpath : r.system.pathToMemoryMax pid (fs.statfs 2 (some .memoryMax)) = .ok path)
      (hcontent : fs 2 path = .ok content) (hunlimited : (parseBytes content).isOk = false) :
      MemoryFound r pid fs 0 0 3
  | limited (path content maxPath currentPath : String) (memoryMax memoryCurrent : UInt64)
      (hpath : r.system.pathToMemoryMax pid (fs.statfs 2 (some .memoryMax)) = .ok path)
      (hcontent : fs 2 path = .ok content) (hlimited : (parseBytes content).isOk = true)
      (hmaxPath : r.system.pathToMemoryMax pid (fs.statfs 3 (some .memoryMax)) = .ok maxPath)
      (hmax : fs 3 maxPath >>= parseBytes = .ok memoryMax)
      (hcurrentPath :
        r.system.pathToMemoryCurrent pid (fs.statfs 4 (some .memoryCurrent)) = .ok currentPath)
      (hcurrent : fs 4 currentPath >>= parseBytes = .ok memoryCurrent) :
      MemoryFound r pid fs memoryMax memoryCurrent 5

/-- What a call finds of the pressure with the reads from number {lit}`k` on.  Version 1
has none. -/
inductive PressureFound (r : ProcFsReader) (pid : Int32) (fs : FileSystem) (k : Nat) :
    Pressure F → Prop
  | version1 (hversion : r.system.cgroupsVersion (fs.statfs k none) = .ok .cgroupsV1) :
      PressureFound r pid fs k default
  | version2 (memoryPath ioPath cpuPath : String) (pressure : Pressure F)
      (hversion : r.system.cgroupsVersion (fs.statfs k none) = .ok .cgroupsV2)
      (hmemoryPath :
        r.system.pathToMemoryPressure pid (fs.statfs k (some .memoryPressure)) = .ok memoryPath)
      (hioPath : r.system.pathToIoPressure pid (fs.statfs (k + 1) (some .ioPressure)) = .ok ioPath)
      (hcpuPath :
        r.system.pathToCpuPressure pid (fs.statfs (k + 2) (some .cpuPressure)) = .ok cpuPath)
      (hmemory : fs k memoryPath >>= parsePressureDataFile = .ok pressure.memory)
      (hio : fs (k + 1) ioPath >>= parsePressureDataFile = .ok pressure.io)
      (hcpu : fs (k + 2) cpuPath >>= parsePressureDataFile = .ok pressure.cpu) :
      PressureFound r pid fs k pressure

/-- A call finds some data. -/
structure Finds (r : ProcFsReader) (pid : Int32) (fs : FileSystem) (data : CollectedData F) :
    Prop where
  scores : r.ScoresAt pid fs 0 data.oomScore data.oomScoreAdj
  rest : ∃ reads, r.MemoryFound pid fs data.memoryMax data.memoryCurrent reads ∧
    r.PressureFound pid fs reads data.pressure

/-! ## The parts of a call -/

section Parts

variable {r : ProcFsReader} {pid : Int32} {fs : FileSystem} {log log' : List Access}

theorem oomScore_eq_ok_iff {scores : Int32 × Int32} :
    (r.oomScore pid).exec fs log = (.ok scores, log') ↔
      r.ScoresAt pid fs log.length scores.1 scores.2 ∧
        log' = log ++ [⟨.oomScore, r.system.pathToOomScore pid,
            fs log.length (r.system.pathToOomScore pid)⟩] ++
          [⟨.oomScoreAdj, r.system.pathToOomScoreAdj pid,
            fs (log.length + 1) (r.system.pathToOomScoreAdj pid)⟩] := by
  obtain ⟨oomScore, oomScoreAdj⟩ := scores
  unfold ProcFsReader.oomScore
  simp only [Io.exec_bind_eq_ok_iff, Io.exec_readWith_eq_ok_iff, Io.exec_pure, Prod.mk.injEq,
    Except.ok.injEq]
  constructor
  · rintro ⟨score, middle, ⟨hscore, rfl⟩, adj, middle', ⟨hadj, rfl⟩, ⟨rfl, rfl⟩, rfl⟩
    rw [List.length_append, List.length_singleton] at hadj ⊢
    exact ⟨⟨hscore, hadj⟩, rfl⟩
  · rintro ⟨⟨hscore, hadj⟩, rfl⟩
    refine ⟨_, _, ⟨hscore, rfl⟩, _, _, ⟨?_, rfl⟩, ⟨rfl, rfl⟩, ?_⟩
    · rw [List.length_append, List.length_singleton]
      exact hadj
    · rw [List.length_append, List.length_singleton]

theorem hasMemoryLimit_eq_ok_iff {limited : Bool} :
    (r.hasMemoryLimit pid).exec fs log = (.ok limited, log') ↔
      ∃ path content,
        r.system.pathToMemoryMax pid (fs.statfs log.length (some .memoryMax)) = .ok path ∧
        fs log.length path = .ok content ∧ limited = (parseBytes content).isOk ∧
          log' = log ++ [⟨.memoryMax, path, .ok content⟩] := by
  unfold hasMemoryLimit
  simp only [Io.exec_bind_eq_ok_iff, Io.exec_lookup_eq_ok_iff, Io.exec_readToString,
    Io.exec_pure, Prod.mk.injEq, Except.ok.injEq]
  constructor
  · rintro ⟨path, middle, ⟨hpath, rfl⟩, content, middle', ⟨hcontent, rfl⟩, rfl, rfl⟩
    exact ⟨path, content, hpath, hcontent, rfl, by rw [hcontent]⟩
  · rintro ⟨path, content, hpath, hcontent, rfl, rfl⟩
    exact ⟨path, log, ⟨hpath, rfl⟩, content, _, ⟨hcontent, rfl⟩, rfl, by rw [hcontent]⟩

theorem memoryStats_eq_ok_iff {stats : UInt64 × UInt64} :
    (r.memoryStats pid).exec fs log = (.ok stats, log') ↔
      ∃ path currentPath,
        r.system.pathToMemoryMax pid (fs.statfs log.length (some .memoryMax)) = .ok path ∧
        fs log.length path >>= parseBytes = .ok stats.2 ∧
        r.system.pathToMemoryCurrent pid (fs.statfs (log.length + 1) (some .memoryCurrent)) =
          .ok currentPath ∧
        fs (log.length + 1) currentPath >>= parseBytes = .ok stats.1 ∧
          log' = log ++ [⟨.memoryMax, path, fs log.length path⟩] ++
            [⟨.memoryCurrent, currentPath, fs (log.length + 1) currentPath⟩] := by
  obtain ⟨memoryCurrent, memoryMax⟩ := stats
  unfold memoryStats
  simp only [Io.exec_bind_eq_ok_iff, Io.exec_lookup_eq_ok_iff, Io.exec_readWith_eq_ok_iff,
    Io.exec_pure, Prod.mk.injEq, Except.ok.injEq]
  constructor
  · rintro ⟨path, middle, ⟨hpath, rfl⟩, max, middle', ⟨hmax, rfl⟩, currentPath, middle'',
      ⟨hcurrentPath, rfl⟩, current, lastLog, ⟨hcurrent, rfl⟩, ⟨rfl, rfl⟩, rfl⟩
    rw [List.length_append, List.length_singleton] at hcurrentPath hcurrent ⊢
    exact ⟨path, currentPath, hpath, hmax, hcurrentPath, hcurrent, rfl⟩
  · rintro ⟨path, currentPath, hpath, hmax, hcurrentPath, hcurrent, rfl⟩
    refine ⟨path, log, ⟨hpath, rfl⟩, memoryMax, _, ⟨hmax, rfl⟩, currentPath, _,
      ⟨?_, rfl⟩, memoryCurrent, _, ⟨?_, rfl⟩, ⟨rfl, rfl⟩, ?_⟩
    · rw [List.length_append, List.length_singleton]
      exact hcurrentPath
    · rw [List.length_append, List.length_singleton]
      exact hcurrent
    · rw [List.length_append, List.length_singleton]

theorem pressure_eq_ok_iff {pressure : Pressure F} :
    (∃ log', (r.pressure pid).exec fs log = (.ok pressure, log')) ↔
      ∃ memoryPath ioPath cpuPath,
        r.system.pathToMemoryPressure pid (fs.statfs log.length (some .memoryPressure)) =
          .ok memoryPath ∧
        fs log.length memoryPath >>= parsePressureDataFile = .ok pressure.memory ∧
        r.system.pathToIoPressure pid (fs.statfs (log.length + 1) (some .ioPressure)) =
          .ok ioPath ∧
        fs (log.length + 1) ioPath >>= parsePressureDataFile = .ok pressure.io ∧
        r.system.pathToCpuPressure pid (fs.statfs (log.length + 2) (some .cpuPressure)) =
          .ok cpuPath ∧
        fs (log.length + 2) cpuPath >>= parsePressureDataFile = .ok pressure.cpu := by
  obtain ⟨memory, io, cpu⟩ := pressure
  unfold ProcFsReader.pressure memoryPressure ioPressure cpuPressure
  simp only [Io.exec_bind_eq_ok_iff, Io.exec_lookup_eq_ok_iff, Io.exec_readWith_eq_ok_iff,
    Io.exec_pure, Prod.mk.injEq, Except.ok.injEq, Pressure.mk.injEq]
  constructor
  · rintro ⟨log', memory, _, ⟨memoryPath, _, ⟨hmemoryPath, rfl⟩, hmemory, rfl⟩, io, _,
      ⟨ioPath, _, ⟨hioPath, rfl⟩, hio, rfl⟩, cpu, _, ⟨cpuPath, _, ⟨hcpuPath, rfl⟩, hcpu, rfl⟩,
      ⟨rfl, rfl, rfl⟩, rfl⟩
    simp only [List.length_append, List.length_singleton] at hioPath hio hcpuPath hcpu
    exact ⟨memoryPath, ioPath, cpuPath, hmemoryPath, hmemory, hioPath, hio, hcpuPath, hcpu⟩
  · rintro ⟨memoryPath, ioPath, cpuPath, hmemoryPath, hmemory, hioPath, hio, hcpuPath, hcpu⟩
    refine ⟨_, memory, _, ⟨memoryPath, log, ⟨hmemoryPath, rfl⟩, hmemory, rfl⟩, io, _,
      ⟨ioPath, _, ⟨?_, rfl⟩, ?_, rfl⟩, cpu, _, ⟨cpuPath, _, ⟨?_, rfl⟩, ?_, rfl⟩,
      ⟨rfl, rfl, rfl⟩, rfl⟩
    · rw [List.length_append, List.length_singleton]
      exact hioPath
    · rw [List.length_append, List.length_singleton]
      exact hio
    · rw [List.length_append, List.length_append, List.length_singleton, List.length_singleton]
      exact hcpuPath
    · rw [List.length_append, List.length_append, List.length_singleton, List.length_singleton]
      exact hcpu

/-- The end of a call, which depends on the version of the cgroups. -/
theorem exec_version_eq_ok_iff {result data : CollectedData F}
    (hresult : result.pressure = default) :
    (∃ log', (do
        match ← Io.lookup none r.system.cgroupsVersion with
        | .cgroupsV1 => return result
        | .cgroupsV2 =>
            let pressure ← r.pressure pid
            return { result with pressure } : Io (CollectedData F)).exec fs log =
          (.ok data, log')) ↔
      ∃ pressure, r.PressureFound pid fs log.length pressure ∧ data = { result with pressure } := by
  simp only [Io.exec_bind_eq_ok_iff, Io.exec_lookup_eq_ok_iff]
  constructor
  · rintro ⟨log', version, _, ⟨hversion, rfl⟩, hrest⟩
    cases version with
    | cgroupsV1 =>
        have hdata : result = data := by
          simpa only [Io.exec_pure, Prod.mk.injEq, Except.ok.injEq] using
            And.left (Prod.mk.inj hrest)
        refine ⟨default, .version1 hversion, ?_⟩
        rw [← hdata, ← hresult]
    | cgroupsV2 =>
        obtain ⟨pressure, middle, hpressure, hlast⟩ := Io.exec_bind_eq_ok_iff.mp hrest
        have hdata : { result with pressure } = data := by
          simpa only [Io.exec_pure, Prod.mk.injEq, Except.ok.injEq] using
            And.left (Prod.mk.inj hlast)
        obtain ⟨memoryPath, ioPath, cpuPath, hmemoryPath, hmemory, hioPath, hio, hcpuPath, hcpu⟩ :=
          pressure_eq_ok_iff.mp ⟨middle, hpressure⟩
        exact ⟨pressure, .version2 memoryPath ioPath cpuPath pressure hversion hmemoryPath hioPath
          hcpuPath hmemory hio hcpu, hdata.symm⟩
  · rintro ⟨pressure, hfound, rfl⟩
    cases hfound with
    | version1 hversion =>
        refine ⟨log, .cgroupsV1, log, ⟨hversion, rfl⟩, ?_⟩
        dsimp only
        rw [Io.exec_pure, ← hresult]
    | version2 memoryPath ioPath cpuPath pressure hversion hmemoryPath hioPath hcpuPath hmemory hio
        hcpu =>
        obtain ⟨middle, hpressure⟩ := pressure_eq_ok_iff.mpr
          ⟨memoryPath, ioPath, cpuPath, hmemoryPath, hmemory, hioPath, hio, hcpuPath, hcpu⟩
        refine ⟨middle, .cgroupsV2, log, ⟨hversion, rfl⟩, ?_⟩
        exact Io.exec_bind_eq_ok_iff.mpr ⟨pressure, middle, hpressure, Io.exec_pure ..⟩

end Parts

/-- Collecting the data of a process succeeds exactly when each of its reads finds what the
call needs at that time.  The scores come first.  Whether the limit is a number when it is
first read decides if it is read again, and all of the memory data stay zero if it is not.
The version of the cgroups, which the kernel is asked for again at every lookup, decides
where the files are and if the pressure is read at all. -/
theorem collectProcessData_eq_ok_iff (r : ProcFsReader) (pid : Int32) (fs : FileSystem)
    (data : CollectedData F) :
    (∃ log, (r.collectProcessData pid).exec fs [] = (.ok data, log)) ↔ r.Finds pid fs data := by
  obtain ⟨memoryMax, memoryCurrent, oomScore, oomScoreAdj, pressure⟩ := data
  unfold collectProcessData
  simp only [Io.exists_exec_bind_iff, oomScore_eq_ok_iff, hasMemoryLimit_eq_ok_iff]
  constructor
  · rintro ⟨scores, _, ⟨hscores, rfl⟩, limited, _, ⟨path, content, hpath, hcontent, rfl, rfl⟩,
      hrest⟩
    cases hlimited : (parseBytes content).isOk with
    | false =>
        rw [hlimited, if_neg Bool.false_ne_true] at hrest
        obtain ⟨found, hfound, hdata⟩ := (exec_version_eq_ok_iff rfl).mp hrest
        cases hdata
        exact ⟨hscores, 3, .unlimited path content hpath hcontent hlimited, hfound⟩
    | true =>
        rw [hlimited, if_pos rfl] at hrest
        obtain ⟨stats, _, hstats, hlast⟩ := Io.exists_exec_bind_iff.mp hrest
        obtain ⟨maxPath, currentPath, hmaxPath, hmax, hcurrentPath, hcurrent, rfl⟩ :=
          memoryStats_eq_ok_iff.mp hstats
        obtain ⟨found, hfound, hdata⟩ := (exec_version_eq_ok_iff rfl).mp hlast
        cases hdata
        exact ⟨hscores, 5, .limited path content maxPath currentPath _ _ hpath hcontent hlimited
          hmaxPath hmax hcurrentPath hcurrent, hfound⟩
  · rintro ⟨hscores, reads, hmemory, hpressure⟩
    cases hmemory with
    | unlimited path content hpath hcontent hunlimited =>
        refine ⟨(oomScore, oomScoreAdj), _, ⟨hscores, rfl⟩, false, _,
          ⟨path, content, hpath, hcontent, hunlimited.symm, rfl⟩, ?_⟩
        rw [if_neg Bool.false_ne_true]
        exact (exec_version_eq_ok_iff rfl).mpr ⟨pressure, hpressure, rfl⟩
    | limited path content maxPath currentPath _ _ hpath hcontent hlimited hmaxPath hmax
        hcurrentPath hcurrent =>
        refine ⟨(oomScore, oomScoreAdj), _, ⟨hscores, rfl⟩, true, _,
          ⟨path, content, hpath, hcontent, hlimited.symm, rfl⟩, ?_⟩
        rw [if_pos rfl]
        apply Io.exists_exec_bind_iff.mpr
        refine ⟨(memoryCurrent, memoryMax), _, memoryStats_eq_ok_iff.mpr
          ⟨maxPath, currentPath, hmaxPath, hmax, hcurrentPath, hcurrent, rfl⟩, ?_⟩
        exact (exec_version_eq_ok_iff rfl).mpr ⟨pressure, hpressure, rfl⟩

end ProcFsReader
end OomHero
