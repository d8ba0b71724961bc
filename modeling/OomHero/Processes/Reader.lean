import OomHero.Processes.Psi
import OomHero.System

/-!
# Processes - Reading the files of a process

{lit}`ProcFsReader` collects the data of a process from the files its provider
points to.  Other parties may rewrite the files while it reads them, so a file
system answers every read of a call on its own, and so does the kernel when the
provider asks for the version of the cgroups.  A call leaves a log of what it read.

Main results:

- Theorems {lit}`ProcFsReader.collectProcessData_unlimited`,
  {lit}`ProcFsReader.collectProcessData_limited` and
  {lit}`ProcFsReader.collectProcessData_lifted`: what a call reports, and what it
  reads of the limit, when the first read finds no number, when both reads find
  one, and when only the first one does.
- Theorem {lit}`SystemCGroups.provider_v2`: on version 2 cgroups every file of a
  process has a path.
- Theorem {lit}`ProcFsReader.collectProcessData_limitLaw_iff`: rewriting the limit
  during a call goes unnoticed or is reported properly exactly when the first
  read finds no limit, or finds one that the second read does not find lifted.
-/

namespace OomHero

/-! ## Reading files -/

/-- The files read while collecting. -/
inductive File where
  | oomScore
  | oomScoreAdj
  | memoryMax
  | memoryCurrent
  | memoryPressure
  | ioPressure
  | cpuPressure
deriving DecidableEq, Repr

/-- What the read number {lit}`k` of a call finds at a path. -/
abbrev Contents : Type :=
  Nat → String → Except Error String

/-- What a call finds: the contents of files, and the file system type the kernel reports for
{lit}`/sys/fs/cgroup` after some reads.  The label only tells the lookups between two reads
apart. -/
structure FileSystem where
  contents : Contents
  statfs : Nat → Option File → Except Error Nat

instance : CoeFun FileSystem fun _ => Contents :=
  ⟨FileSystem.contents⟩

/-- A read and what it found.  The label only tells the reads of a call apart. -/
structure Access where
  file : File
  path : String
  content : Except Error String

/-- A computation that reads files, may fail, and logs its reads. -/
abbrev Io : Type → Type :=
  ReaderT FileSystem (ExceptT Error (StateM (List Access)))

namespace Io

/-- Run a computation, with the log of the reads before it. -/
def exec {α : Type} (m : Io α) (fs : FileSystem) (log : List Access) :
    Except Error α × List Access :=
  (ReaderT.run m fs).run.run log

/-- A computation that only may fail. -/
def ofExcept {α : Type} (x : Except Error α) : Io α :=
  fun _ => ExceptT.mk (pure x)

/-- Ask a provider where a file is, or for the version of the cgroups. -/
def lookup {α : Type} (file : Option File) (answer : Lookup α) : Io α :=
  fun fs => ExceptT.mk fun log => (answer (fs.statfs log.length file), log)

/-- {lit}`fs::read_to_string`. -/
def readToString (file : File) (path : String) : Io String :=
  fun fs => ExceptT.mk fun log =>
    let content := fs log.length path
    (content, log ++ [⟨file, path, content⟩])

variable {α β : Type}

@[simp]
theorem exec_pure (a : α) (fs : FileSystem) (log : List Access) :
    (pure a : Io α).exec fs log = (.ok a, log) :=
  rfl

@[simp]
theorem exec_lookup (file : Option File) (answer : Lookup α) (fs : FileSystem)
    (log : List Access) :
    (lookup file answer).exec fs log = (answer (fs.statfs log.length file), log) :=
  rfl

@[simp]
theorem exec_readToString (file : File) (path : String) (fs : FileSystem)
    (log : List Access) :
    (readToString file path).exec fs log =
      (fs log.length path, log ++ [⟨file, path, fs log.length path⟩]) :=
  rfl

theorem ok_bind (a : α) (f : α → Except Error β) : (.ok a >>= f : Except Error β) = f a :=
  rfl

theorem exec_bind (m : Io α) (f : α → Io β) (fs : FileSystem) (log : List Access) :
    (m >>= f).exec fs log =
      match m.exec fs log with
      | (.ok a, log') => (f a).exec fs log'
      | (.error e, log') => (.error e, log') := by
  simp only [exec, ReaderT.run_bind, ExceptT.run_bind, StateT.run_bind]
  rcases hm : ((ReaderT.run m fs).run.run log : Except Error α × List Access) with ⟨r, log'⟩
  cases r with
  | ok a => simp [bind]
  | error e =>
      simp [bind, pure]
      rfl

/-- Read a file and parse what it holds. -/
def readWith (file : File) (path : String) (parse : String → Except Error α) : Io α := do
  let content ← readToString file path
  ofExcept (parse content)

@[simp]
theorem exec_readWith (file : File) (path : String) (parse : String → Except Error α)
    (fs : FileSystem) (log : List Access) :
    (readWith file path parse).exec fs log =
      (fs log.length path >>= parse, log ++ [⟨file, path, fs log.length path⟩]) := by
  unfold readWith
  rw [exec_bind, exec_readToString]
  cases fs log.length path <;> rfl

end Io

/-! ## The reader -/

/-- The reader of the procfs. -/
structure ProcFsReader where
  system : Provider

/-- The paths of the files in the cgroup of a process. -/
structure CGroupPaths where
  memoryMax : String
  memoryCurrent : String
  memoryPressure : String
  ioPressure : String
  cpuPressure : String
deriving DecidableEq, Repr

/-- A call finds version 2 cgroups, and the paths of the files in that of a process. -/
structure Provider.Resolves (p : Provider) (pid : Int32) (fs : FileSystem)
    (paths : CGroupPaths) : Prop where
  version : ∀ k, p.cgroupsVersion (fs.statfs k none) = .ok .cgroupsV2
  memoryMax : ∀ k, p.pathToMemoryMax pid (fs.statfs k (some .memoryMax)) = .ok paths.memoryMax
  memoryCurrent : ∀ k,
    p.pathToMemoryCurrent pid (fs.statfs k (some .memoryCurrent)) = .ok paths.memoryCurrent
  memoryPressure : ∀ k,
    p.pathToMemoryPressure pid (fs.statfs k (some .memoryPressure)) = .ok paths.memoryPressure
  ioPressure : ∀ k, p.pathToIoPressure pid (fs.statfs k (some .ioPressure)) = .ok paths.ioPressure
  cpuPressure : ∀ k,
    p.pathToCpuPressure pid (fs.statfs k (some .cpuPressure)) = .ok paths.cpuPressure

namespace SystemCGroups

/-- A file of the version 2 cgroup of a process. -/
def pathToCgroupFile (s : SystemCGroups) (pid : Int32) (name : String) : String :=
  s!"{s.procfsRoot}/{pid}/root/sys/fs/cgroup/{name}"

/-- The paths of the files of a process in a version 2 cgroup. -/
def paths (s : SystemCGroups) (pid : Int32) : CGroupPaths where
  memoryMax := s.pathToCgroupFile pid "memory.max"
  memoryCurrent := s.pathToCgroupFile pid "memory.current"
  memoryPressure := s.pathToCgroupFile pid "memory.pressure"
  ioPressure := s.pathToCgroupFile pid "io.pressure"
  cpuPressure := s.pathToCgroupFile pid "cpu.pressure"

/-- A running system resolves them while the kernel reports version 2 cgroups. -/
theorem provider_v2 (s : SystemCGroups) (pid : Int32) {fs : FileSystem}
    (hstatfs : ∀ k file, fs.statfs k file = .ok cgroup2SuperMagic) :
    s.provider.Resolves pid fs (s.paths pid) := by
  have hv2 : s.cgroupsVersion (.ok cgroup2SuperMagic) = .ok .cgroupsV2 := rfl
  have hmemory : ∀ v1 v2, s.pathToMemoryFile v1 v2 pid (.ok cgroup2SuperMagic) =
      .ok (s.pathToCgroupFile pid v2) := by
    intro v1 v2
    unfold pathToMemoryFile
    rw [hv2]
    rfl
  have hpressure : ∀ resource, s.pathToPressureFile pid resource (.ok cgroup2SuperMagic) =
      .ok (s.pathToCgroupFile pid (resource ++ ".pressure")) := by
    intro resource
    refine (s.pathToPressureFile_eq pid resource _ _).mpr ⟨hv2, String.toList_inj.mp ?_⟩
    simp [pathToCgroupFile, toString]
  constructor <;> intro k <;> rw [hstatfs]
  · exact hv2
  · exact hmemory "memory/memory.limit_in_bytes" _
  · exact hmemory "memory/memory.usage_in_bytes" _
  · exact hpressure "memory"
  · exact hpressure "io"
  · exact hpressure "cpu"

/-- The reader of a running system. -/
abbrev reader (s : SystemCGroups) : ProcFsReader :=
  ⟨s.provider⟩

end SystemCGroups

/-- Parse a score. -/
def parseScore (content : String) : Except Error Int32 :=
  (Decimal.parseI32 (Text.trim content)).mapError .parseIntError

/-- Parse an amount of memory. -/
def parseBytes (content : String) : Except Error UInt64 :=
  (Decimal.parseU64 (Text.trim content)).mapError .parseIntError

namespace ProcFsReader

variable {F : Type} [F32 F]

/-- The score of a process and its adjustment. -/
def oomScore (r : ProcFsReader) (pid : Int32) : Io (Int32 × Int32) := do
  let oomScore ← Io.readWith .oomScore (r.system.pathToOomScore pid) parseScore
  let oomScoreAdj ← Io.readWith .oomScoreAdj (r.system.pathToOomScoreAdj pid) parseScore
  return (oomScore, oomScoreAdj)

/-- The memory in use and the limit. -/
def memoryStats (r : ProcFsReader) (pid : Int32) : Io (UInt64 × UInt64) := do
  let path ← Io.lookup (some .memoryMax) (r.system.pathToMemoryMax pid)
  let memoryMax ← Io.readWith .memoryMax path parseBytes
  let path ← Io.lookup (some .memoryCurrent) (r.system.pathToMemoryCurrent pid)
  let memoryCurrent ← Io.readWith .memoryCurrent path parseBytes
  return (memoryCurrent, memoryMax)

/-- Whether there is a limit: the kernel writes {lit}`max` when there is none. -/
def hasMemoryLimit (r : ProcFsReader) (pid : Int32) : Io Bool := do
  let path ← Io.lookup (some .memoryMax) (r.system.pathToMemoryMax pid)
  let content ← Io.readToString .memoryMax path
  return (parseBytes content).isOk

def memoryPressure (r : ProcFsReader) (pid : Int32) : Io (PressureData F) := do
  let path ← Io.lookup (some .memoryPressure) (r.system.pathToMemoryPressure pid)
  Io.readWith .memoryPressure path parsePressureDataFile

def ioPressure (r : ProcFsReader) (pid : Int32) : Io (PressureData F) := do
  let path ← Io.lookup (some .ioPressure) (r.system.pathToIoPressure pid)
  Io.readWith .ioPressure path parsePressureDataFile

def cpuPressure (r : ProcFsReader) (pid : Int32) : Io (PressureData F) := do
  let path ← Io.lookup (some .cpuPressure) (r.system.pathToCpuPressure pid)
  Io.readWith .cpuPressure path parsePressureDataFile

/-- The pressure on every resource. -/
def pressure (r : ProcFsReader) (pid : Int32) : Io (Pressure F) := do
  let memory ← r.memoryPressure pid
  let io ← r.ioPressure pid
  let cpu ← r.cpuPressure pid
  return { memory, io, cpu }

/-- Collect the data of a process.  Version 1 has no pressure files, and the
memory of a process without a limit is not reported. -/
def collectProcessData (r : ProcFsReader) (pid : Int32) : Io (CollectedData F) := do
  let (oomScore, oomScoreAdj) ← r.oomScore pid
  let mut result : CollectedData F := { (default : CollectedData F) with oomScore, oomScoreAdj }
  if ← r.hasMemoryLimit pid then
    let (memoryCurrent, memoryMax) ← r.memoryStats pid
    result := { result with memoryCurrent, memoryMax }
  match ← Io.lookup none r.system.cgroupsVersion with
  | .cgroupsV1 => return result
  | .cgroupsV2 =>
      let pressure ← r.pressure pid
      return { result with pressure }

/-! ## What a call reads -/

/-- The scores that the reads from number {lit}`k` on find. -/
structure ScoresAt (r : ProcFsReader) (pid : Int32) (fs : FileSystem) (k : Nat)
    (oomScore oomScoreAdj : Int32) : Prop where
  oomScore : fs k (r.system.pathToOomScore pid) >>= parseScore = .ok oomScore
  oomScoreAdj : fs (k + 1) (r.system.pathToOomScoreAdj pid) >>= parseScore = .ok oomScoreAdj

/-- The pressure that the reads from number {lit}`k` on find. -/
structure PressureAt (fs : FileSystem) (paths : CGroupPaths) (k : Nat)
    (pressure : Pressure F) : Prop where
  memory : fs k paths.memoryPressure >>= parsePressureDataFile = .ok pressure.memory
  io : fs (k + 1) paths.ioPressure >>= parsePressureDataFile = .ok pressure.io
  cpu : fs (k + 2) paths.cpuPressure >>= parsePressureDataFile = .ok pressure.cpu

/-- The contents found by the reads of the limit. -/
def limitContents (log : List Access) : List (Except Error String) :=
  (log.filter fun a => a.file = .memoryMax).map Access.content

@[simp]
theorem limitContents_append (log log' : List Access) :
    limitContents (log ++ log') = limitContents log ++ limitContents log' := by
  simp [limitContents]

/-- Reading the scores. -/
theorem oomScore_exec {r : ProcFsReader} {pid : Int32} {fs : FileSystem}
    {oomScore oomScoreAdj : Int32} (log : List Access)
    (h : r.ScoresAt pid fs log.length oomScore oomScoreAdj) :
    ∃ reads, (r.oomScore pid).exec fs log = (.ok (oomScore, oomScoreAdj), log ++ reads) ∧
      reads.length = 2 ∧ limitContents reads = [] := by
  have hadj := h.oomScoreAdj
  refine ⟨[⟨.oomScore, r.system.pathToOomScore pid, fs log.length (r.system.pathToOomScore pid)⟩,
    ⟨.oomScoreAdj, r.system.pathToOomScoreAdj pid,
      fs (log.length + 1) (r.system.pathToOomScoreAdj pid)⟩], ?_, rfl, rfl⟩
  unfold ProcFsReader.oomScore
  rw [Io.exec_bind, Io.exec_readWith, h.oomScore]
  dsimp only
  rw [Io.exec_bind, Io.exec_readWith, List.length_append, List.length_singleton, hadj]
  simp

/-- Reading the pressure files. -/
theorem pressure_exec {r : ProcFsReader} {pid : Int32} {paths : CGroupPaths} {fs : FileSystem}
    {pressure : Pressure F} (log : List Access) (hpaths : r.system.Resolves pid fs paths)
    (h : PressureAt fs paths log.length pressure) :
    ∃ reads, (r.pressure pid).exec fs log = (.ok pressure, log ++ reads) ∧
      limitContents reads = [] := by
  have hio := h.io
  have hcpu := h.cpu
  refine ⟨[⟨.memoryPressure, paths.memoryPressure, fs log.length paths.memoryPressure⟩,
    ⟨.ioPressure, paths.ioPressure, fs (log.length + 1) paths.ioPressure⟩,
    ⟨.cpuPressure, paths.cpuPressure, fs (log.length + 2) paths.cpuPressure⟩], ?_, rfl⟩
  unfold ProcFsReader.pressure memoryPressure ioPressure cpuPressure
  simp only [hpaths.memoryPressure, hpaths.ioPressure, hpaths.cpuPressure, Io.exec_bind,
    Io.exec_lookup, Io.exec_readWith, h.memory, List.length_append, List.length_singleton,
    hio, hcpu]
  simp

/-- Reading the limit to see whether there is one. -/
theorem hasMemoryLimit_exec {r : ProcFsReader} {pid : Int32} {paths : CGroupPaths}
    {fs : FileSystem} {content : String} (log : List Access)
    (hpaths : r.system.Resolves pid fs paths) (h : fs log.length paths.memoryMax = .ok content) :
    (r.hasMemoryLimit pid).exec fs log =
      (.ok (parseBytes content).isOk, log ++ [⟨.memoryMax, paths.memoryMax, .ok content⟩]) := by
  unfold hasMemoryLimit
  simp only [hpaths.memoryMax, Io.exec_bind, Io.exec_lookup, Io.exec_readToString, h]
  rfl

/-- Reading the limit and the memory in use. -/
theorem memoryStats_exec {r : ProcFsReader} {pid : Int32} {paths : CGroupPaths}
    {fs : FileSystem} {content : String} {memoryMax memoryCurrent : UInt64} (log : List Access)
    (hpaths : r.system.Resolves pid fs paths)
    (hcontent : fs log.length paths.memoryMax = .ok content)
    (hmax : parseBytes content = .ok memoryMax)
    (hcurrent : fs (log.length + 1) paths.memoryCurrent >>= parseBytes = .ok memoryCurrent) :
    ∃ reads, (r.memoryStats pid).exec fs log = (.ok (memoryCurrent, memoryMax), log ++ reads) ∧
      reads.length = 2 ∧ limitContents reads = [.ok content] := by
  refine ⟨[⟨.memoryMax, paths.memoryMax, .ok content⟩,
    ⟨.memoryCurrent, paths.memoryCurrent, fs (log.length + 1) paths.memoryCurrent⟩],
    ?_, rfl, rfl⟩
  unfold memoryStats
  simp only [hpaths.memoryMax, hpaths.memoryCurrent, Io.exec_bind, Io.exec_lookup,
    Io.exec_readWith, hcontent, Io.ok_bind, hmax, List.length_append, List.length_singleton,
    hcurrent]
  simp

/-- A limit that does not parse when it is read again fails the call. -/
theorem memoryStats_exec_error {r : ProcFsReader} {pid : Int32} {paths : CGroupPaths}
    {fs : FileSystem} {content : String} {e : Error} (log : List Access)
    (hpaths : r.system.Resolves pid fs paths)
    (hcontent : fs log.length paths.memoryMax = .ok content)
    (hmax : parseBytes content = .error e) :
    (r.memoryStats pid).exec fs log =
      (.error e, log ++ [⟨.memoryMax, paths.memoryMax, .ok content⟩]) := by
  unfold memoryStats
  simp only [hpaths.memoryMax, Io.exec_bind, Io.exec_lookup, Io.exec_readWith, hcontent, Io.ok_bind,
    hmax]

/-! ## Collecting -/

/-- The reading of a process whose limit does not parse at the first read. -/
theorem collectProcessData_unlimited {r : ProcFsReader} {pid : Int32} {paths : CGroupPaths}
    {fs : FileSystem} {oomScore oomScoreAdj : Int32} {pressure : Pressure F} {first : String}
    (hpaths : r.system.Resolves pid fs paths) (hscores : r.ScoresAt pid fs 0 oomScore oomScoreAdj)
    (hfirst : fs 2 paths.memoryMax = .ok first) (hnone : (parseBytes first).isOk = false)
    (hpressure : PressureAt fs paths 3 pressure) :
    ∃ log, (r.collectProcessData pid).exec fs [] =
        (.ok ⟨0, 0, oomScore, oomScoreAdj, pressure⟩, log) ∧
      limitContents log = [.ok first] := by
  rcases oomScore_exec [] hscores with ⟨scoreReads, hscore, hlength, hquiet⟩
  rw [List.nil_append] at hscore
  have hlimit := hasMemoryLimit_exec scoreReads hpaths (hlength.symm ▸ hfirst)
  rcases pressure_exec (scoreReads ++ [⟨.memoryMax, paths.memoryMax, .ok first⟩]) hpaths
    (by simpa [hlength] using hpressure) with ⟨pressureReads, hpressures, hsilent⟩
  refine ⟨scoreReads ++ [⟨.memoryMax, paths.memoryMax, .ok first⟩] ++ pressureReads, ?_, ?_⟩
  · unfold collectProcessData
    simp only [Io.exec_bind, hscore, hlimit, hnone, hpaths.version, Bool.false_eq_true,
      if_false, Io.exec_lookup, hpressures, Io.exec_pure]
    rfl
  · rw [limitContents_append, limitContents_append, hquiet, hsilent]
    rfl

/-- The reading of a process whose limit parses at both reads. -/
theorem collectProcessData_limited {r : ProcFsReader} {pid : Int32} {paths : CGroupPaths}
    {fs : FileSystem} {oomScore oomScoreAdj : Int32} {pressure : Pressure F}
    {first second : String} {memoryMax memoryCurrent : UInt64}
    (hpaths : r.system.Resolves pid fs paths) (hscores : r.ScoresAt pid fs 0 oomScore oomScoreAdj)
    (hfirst : fs 2 paths.memoryMax = .ok first) (hsome : (parseBytes first).isOk = true)
    (hsecond : fs 3 paths.memoryMax = .ok second) (hmax : parseBytes second = .ok memoryMax)
    (hcurrent : fs 4 paths.memoryCurrent >>= parseBytes = .ok memoryCurrent)
    (hpressure : PressureAt fs paths 5 pressure) :
    ∃ log, (r.collectProcessData pid).exec fs [] =
        (.ok ⟨memoryMax, memoryCurrent, oomScore, oomScoreAdj, pressure⟩, log) ∧
      limitContents log = [.ok first, .ok second] := by
  rcases oomScore_exec [] hscores with ⟨scoreReads, hscore, hlength, hquiet⟩
  rw [List.nil_append] at hscore
  have hlimit := hasMemoryLimit_exec scoreReads hpaths (hlength.symm ▸ hfirst)
  rcases memoryStats_exec (scoreReads ++ [⟨.memoryMax, paths.memoryMax, .ok first⟩]) hpaths
    (by simpa [hlength] using hsecond) hmax (by simpa [hlength] using hcurrent)
    with ⟨statReads, hstats, hlength', hfound⟩
  rcases pressure_exec
    (scoreReads ++ [⟨.memoryMax, paths.memoryMax, .ok first⟩] ++ statReads) hpaths
    (by simpa [hlength, hlength'] using hpressure) with ⟨pressureReads, hpressures, hsilent⟩
  refine ⟨scoreReads ++ [⟨.memoryMax, paths.memoryMax, .ok first⟩] ++ statReads ++ pressureReads,
    ?_, ?_⟩
  · unfold collectProcessData
    simp only [Io.exec_bind, hscore, hlimit, hsome, hpaths.version, if_true, hstats,
      Io.exec_lookup, hpressures, Io.exec_pure]
  · rw [limitContents_append, limitContents_append, limitContents_append, hquiet, hfound, hsilent]
    rfl

/-- A limit that is lifted between its two reads fails the call. -/
theorem collectProcessData_lifted {r : ProcFsReader} {pid : Int32} {paths : CGroupPaths}
    {fs : FileSystem} {oomScore oomScoreAdj : Int32} {first second : String} {e : Error}
    (hpaths : r.system.Resolves pid fs paths) (hscores : r.ScoresAt pid fs 0 oomScore oomScoreAdj)
    (hfirst : fs 2 paths.memoryMax = .ok first) (hsome : (parseBytes first).isOk = true)
    (hsecond : fs 3 paths.memoryMax = .ok second) (hnone : parseBytes second = .error e) :
    ∃ log, (r.collectProcessData (F := F) pid).exec fs [] = (.error e, log) ∧
      limitContents log = [.ok first, .ok second] := by
  rcases oomScore_exec [] hscores with ⟨scoreReads, hscore, hlength, hquiet⟩
  rw [List.nil_append] at hscore
  have hlimit := hasMemoryLimit_exec scoreReads hpaths (hlength.symm ▸ hfirst)
  have hstats := memoryStats_exec_error
    (scoreReads ++ [⟨.memoryMax, paths.memoryMax, .ok first⟩]) hpaths
    (by simpa [hlength] using hsecond) hnone
  refine ⟨scoreReads ++ [⟨.memoryMax, paths.memoryMax, .ok first⟩] ++
    [⟨.memoryMax, paths.memoryMax, .ok second⟩], ?_, ?_⟩
  · unfold collectProcessData
    simp only [Io.exec_bind, hscore, hlimit, hsome, if_true, hstats]
  · rw [limitContents_append, limitContents_append, hquiet]
    rfl

/-! ## Rewriting the limit during a call -/

/-- All files of a process but the limit are well formed at every read. -/
structure SteadyFiles (F : Type) [F32 F] (r : ProcFsReader) (pid : Int32) (paths : CGroupPaths)
    (fs : FileSystem) : Prop where
  oomScore : ∀ k, ∃ v, fs k (r.system.pathToOomScore pid) >>= parseScore = .ok v
  oomScoreAdj : ∀ k, ∃ v, fs k (r.system.pathToOomScoreAdj pid) >>= parseScore = .ok v
  memoryCurrent : ∀ k, ∃ v, fs k paths.memoryCurrent >>= parseBytes = .ok v
  memoryPressure : ∀ k, ∃ v : PressureData F,
    fs k paths.memoryPressure >>= parsePressureDataFile = .ok v
  ioPressure : ∀ k, ∃ v : PressureData F,
    fs k paths.ioPressure >>= parsePressureDataFile = .ok v
  cpuPressure : ∀ k, ∃ v : PressureData F,
    fs k paths.cpuPressure >>= parsePressureDataFile = .ok v

/-- Well formed files have scores and pressure from any read on. -/
theorem SteadyFiles.found {r : ProcFsReader} {pid : Int32} {paths : CGroupPaths}
    {fs : FileSystem} (h : SteadyFiles F r pid paths fs) (k : Nat) :
    (∃ oomScore oomScoreAdj, r.ScoresAt pid fs k oomScore oomScoreAdj) ∧
      ∃ pressure : Pressure F, PressureAt fs paths k pressure := by
  rcases h.oomScore k with ⟨score, hscore⟩
  rcases h.oomScoreAdj (k + 1) with ⟨adj, hadj⟩
  rcases h.memoryPressure k with ⟨memory, hmemory⟩
  rcases h.ioPressure (k + 1) with ⟨io, hio⟩
  rcases h.cpuPressure (k + 2) with ⟨cpu, hcpu⟩
  exact ⟨⟨score, adj, hscore, hadj⟩, ⟨⟨memory, io, cpu⟩, hmemory, hio, hcpu⟩⟩

/-- A content of the limit file that is a number. -/
def IsNumber (content : Except Error String) : Prop :=
  ∃ n, content >>= parseBytes = .ok n

/-- A content of the limit file that means something: a number or {lit}`max`. -/
def IsLimit (content : Except Error String) : Prop :=
  IsNumber content ∨ content.map Text.trim = .ok "max"

/-- When every content read of the limit means something, the call returns: with
nothing in use and no limit when the first one is no number, and with a limit
that was read otherwise.  A content that means nothing fails the call. -/
def LimitLaw (call : Except Error (CollectedData F) × List Access) : Prop :=
  ((∀ content ∈ limitContents call.2, IsLimit content) →
    ∃ cd first rest, call.1 = .ok cd ∧ limitContents call.2 = first :: rest ∧
      (¬ IsNumber first → cd.memoryMax = 0 ∧ cd.memoryCurrent = 0) ∧
      (IsNumber first →
        ∃ content ∈ first :: rest, content >>= parseBytes = .ok cd.memoryMax)) ∧
  ((∃ content ∈ limitContents call.2, ¬ IsLimit content) → ∃ e, call.1 = .error e)

/-- {lit}`max` is not a number. -/
theorem parseBytes_max {content : String} (h : Text.trim content = "max") :
    parseBytes content = .error (.parseIntError .invalidDigit) := by
  unfold parseBytes
  rw [h]
  rfl

/-- A content that parses is a number. -/
theorem isNumber_of_bytes {content : String} {n : UInt64} (h : parseBytes content = .ok n) :
    IsNumber (.ok content) :=
  ⟨n, (Io.ok_bind content parseBytes).trans h⟩

/-- A content that does not parse is no number. -/
theorem not_isNumber {content : String} {e : Error} (h : parseBytes content = .error e) :
    ¬ IsNumber (.ok content) := by
  rintro ⟨n, hn⟩
  rw [Io.ok_bind, h] at hn
  cases hn

/-- A number is a limit. -/
theorem isLimit_of_bytes {content : String} {n : UInt64} (h : parseBytes content = .ok n) :
    IsLimit (.ok content) :=
  Or.inl (isNumber_of_bytes h)

/-- Among the contents that are no number only {lit}`max` is a limit. -/
theorem isLimit_iff_max {content : String} {e : Error} (h : parseBytes content = .error e) :
    IsLimit (.ok content) ↔ Text.trim content = "max" := by
  constructor
  · rintro (hnumber | hmax)
    · exact absurd hnumber (not_isNumber h)
    · exact Except.ok.inj hmax
  · intro hmax
    exact Or.inr (congrArg Except.ok hmax)

omit [F32 F] in
/-- A call that reads one content and reports no limit meets the law for {lit}`max`. -/
theorem limitLaw_unlimited {first : String} {e : Error} {cd : CollectedData F}
    {log : List Access} (hfirst : parseBytes first = .error e)
    (hlog : limitContents log = [.ok first]) (hmax : cd.memoryMax = 0)
    (hcurrent : cd.memoryCurrent = 0) :
    LimitLaw (.ok cd, log) ↔ Text.trim first = "max" := by
  have hlimit := isLimit_iff_max hfirst
  unfold LimitLaw
  rw [hlog]
  constructor
  · rintro ⟨-, hreject⟩
    by_contra hne
    have hno : ¬ IsLimit (.ok first) := fun h => hne (hlimit.mp h)
    rcases hreject ⟨_, List.mem_singleton_self _, hno⟩ with ⟨e', he'⟩
    cases he'
  · intro htrim
    refine ⟨fun _ => ⟨cd, _, _, rfl, rfl, fun _ => ⟨hmax, hcurrent⟩, ?_⟩, ?_⟩
    · exact fun hnumber => absurd hnumber (not_isNumber hfirst)
    rintro ⟨content, hcontent, hno⟩
    rw [List.mem_singleton.mp hcontent] at hno
    exact absurd (hlimit.mpr htrim) hno

omit [F32 F] in
/-- A call that reads two numbers and reports the second one meets the law. -/
theorem limitLaw_limited {first second : String} {n : UInt64} {cd : CollectedData F}
    {log : List Access} (hfirst : parseBytes first = .ok n)
    (hsecond : parseBytes second = .ok cd.memoryMax)
    (hlog : limitContents log = [.ok first, .ok second]) : LimitLaw (.ok cd, log) := by
  unfold LimitLaw
  rw [hlog]
  constructor
  · refine fun _ => ⟨cd, _, _, rfl, rfl, fun hno => ?_, fun _ => ?_⟩
    · exact absurd (isNumber_of_bytes hfirst) hno
    · exact ⟨.ok second, by simp, (Io.ok_bind second parseBytes).trans hsecond⟩
  · rintro ⟨content, hcontent, hno⟩
    rcases List.mem_pair.mp hcontent with hcase | hcase
    · rw [hcase] at hno
      exact absurd (isLimit_of_bytes hfirst) hno
    · rw [hcase] at hno
      exact absurd (isLimit_of_bytes hsecond) hno

omit [F32 F] in
/-- A call that fails after a number and another content meets the law unless that
content is {lit}`max`. -/
theorem limitLaw_lifted {first second : String} {n : UInt64} {e : Error} {log : List Access}
    (hfirst : parseBytes first = .ok n) (hsecond : parseBytes second = .error e)
    (hlog : limitContents log = [.ok first, .ok second]) :
    LimitLaw ((.error e, log) : Except Error (CollectedData F) × List Access) ↔
      Text.trim second ≠ "max" := by
  have hlimit := isLimit_iff_max hsecond
  unfold LimitLaw
  rw [hlog]
  constructor
  · rintro ⟨haccept, -⟩ hmax
    have hall : ∀ content ∈ [Except.ok first, Except.ok second], IsLimit content := by
      intro content hcontent
      rcases List.mem_pair.mp hcontent with hcase | hcase
      · rw [hcase]
        exact isLimit_of_bytes hfirst
      · rw [hcase]
        exact hlimit.mpr hmax
    rcases haccept hall with ⟨cd, -, -, hok, -⟩
    cases hok
  · intro hkept
    refine ⟨fun hall => ?_, fun _ => ⟨e, rfl⟩⟩
    exact absurd (hlimit.mp (hall _ (by simp))) hkept

/-- A pressure file. -/
def plainPressure : String :=
  "some avg10=1 avg60=2 avg300=3 total=4\nfull avg10=0 avg60=0 avg300=0 total=0\n"

/-- The reader of the default procfs. -/
abbrev plainReader : ProcFsReader :=
  (default : SystemCGroups).reader

/-- The files of process 7 in its version 2 cgroup. -/
def plainPaths : CGroupPaths where
  memoryMax := "/proc/7/root/sys/fs/cgroup/memory.max"
  memoryCurrent := "/proc/7/root/sys/fs/cgroup/memory.current"
  memoryPressure := "/proc/7/root/sys/fs/cgroup/memory.pressure"
  ioPressure := "/proc/7/root/sys/fs/cgroup/io.pressure"
  cpuPressure := "/proc/7/root/sys/fs/cgroup/cpu.pressure"

theorem plainReader_resolves {fs : FileSystem}
    (hstatfs : ∀ k file, fs.statfs k file = .ok SystemCGroups.cgroup2SuperMagic) :
    plainReader.system.Resolves 7 fs plainPaths := by
  have hpaths : plainPaths = (default : SystemCGroups).paths 7 := by decide +kernel
  rw [hpaths]
  exact SystemCGroups.provider_v2 default 7 hstatfs

/-- Its scores. -/
theorem plainReader_scores :
    plainReader.system.pathToOomScore 7 = "/proc/7/oom_score" ∧
      plainReader.system.pathToOomScoreAdj 7 = "/proc/7/oom_score_adj" := by
  decide +kernel

/-- The files of a process whose limit is rewritten after its first read. -/
def rewrittenLimit (first second : String) : FileSystem where
  contents := fun k path =>
    if path = plainPaths.memoryMax then .ok (if k < 3 then first else second)
    else if path = plainPaths.memoryCurrent then .ok "50\n"
    else if path = "/proc/7/oom_score" then .ok "10\n"
    else if path = "/proc/7/oom_score_adj" then .ok "-20\n"
    else .ok plainPressure
  statfs := fun _ _ => .ok SystemCGroups.cgroup2SuperMagic

/-- What the reads of those files find, apart from the limit. -/
theorem rewrittenLimit_finds (first second : String) (k : Nat) :
    rewrittenLimit first second k "/proc/7/oom_score" >>= parseScore = .ok 10 ∧
      rewrittenLimit first second k "/proc/7/oom_score_adj" >>= parseScore = .ok (-20) ∧
      rewrittenLimit first second k plainPaths.memoryCurrent >>= parseBytes = .ok 50 ∧
      ∀ path ∈ [plainPaths.memoryPressure, plainPaths.ioPressure, plainPaths.cpuPressure],
        rewrittenLimit first second k path >>= parsePressureDataFile =
          .ok (⟨⟨1, 2, 3, 4⟩, ⟨0, 0, 0, 0⟩⟩ : PressureData Whole) := by
  have hscore : parseScore "10\n" = .ok 10 := by decide +kernel
  have hadj : parseScore "-20\n" = .ok (-20) := by decide +kernel
  have hcurrent : parseBytes "50\n" = .ok 50 := by decide +kernel
  have hpressure : parsePressureDataFile plainPressure =
      .ok (⟨⟨1, 2, 3, 4⟩, ⟨0, 0, 0, 0⟩⟩ : PressureData Whole) := by decide +kernel
  simp [rewrittenLimit, plainPaths, Io.ok_bind, hscore, hadj, hcurrent, hpressure]

theorem rewrittenLimit_steady (first second : String) :
    SteadyFiles Whole plainReader 7 plainPaths (rewrittenLimit first second) := by
  have hfinds := rewrittenLimit_finds first second
  constructor
  · exact fun k => ⟨10, plainReader_scores.1 ▸ (hfinds k).1⟩
  · exact fun k => ⟨-20, plainReader_scores.2 ▸ (hfinds k).2.1⟩
  · exact fun k => ⟨50, (hfinds k).2.2.1⟩
  · exact fun k => ⟨_, (hfinds k).2.2.2 _ (by simp)⟩
  · exact fun k => ⟨_, (hfinds k).2.2.2 _ (by simp)⟩
  · exact fun k => ⟨_, (hfinds k).2.2.2 _ (by simp)⟩

/-- Its scores are found from the start. -/
theorem rewrittenLimit_scoresAt (first second : String) :
    plainReader.ScoresAt 7 (rewrittenLimit first second) 0 10 (-20) := by
  constructor
  · rw [plainReader_scores.1]
    exact (rewrittenLimit_finds first second 0).1
  · rw [plainReader_scores.2]
    exact (rewrittenLimit_finds first second 1).2.1

/-- The two reads of the limit find the two contents. -/
theorem rewrittenLimit_limit (first second : String) :
    rewrittenLimit first second 2 plainPaths.memoryMax = .ok first ∧
      rewrittenLimit first second 3 plainPaths.memoryMax = .ok second := by
  simp [rewrittenLimit]

/-- A limit that is lifted between its two reads fails the call, although both
contents mean something. -/
theorem limitLaw_fails_when_lifted :
    plainReader.system.Resolves 7 (rewrittenLimit "100\n" "max\n") plainPaths ∧
      SteadyFiles Whole plainReader 7 plainPaths (rewrittenLimit "100\n" "max\n") ∧
      ¬ LimitLaw ((plainReader.collectProcessData (F := Whole) 7).exec
        (rewrittenLimit "100\n" "max\n") []) := by
  have hpaths : plainReader.system.Resolves 7 (rewrittenLimit "100\n" "max\n") plainPaths :=
    plainReader_resolves fun _ _ => rfl
  refine ⟨hpaths, rewrittenLimit_steady _ _, ?_⟩
  have hlimits := rewrittenLimit_limit "100\n" "max\n"
  have hnumber : parseBytes "100\n" = .ok 100 := by decide +kernel
  have hmax : Text.trim "max\n" = "max" := by decide +kernel
  have hsome : (parseBytes "100\n").isOk = true := by
    rw [hnumber]
    rfl
  rcases collectProcessData_lifted (F := Whole) hpaths (rewrittenLimit_scoresAt _ _) hlimits.1 hsome
    hlimits.2 (parseBytes_max hmax) with ⟨log, hcall, hcontents⟩
  rw [hcall, limitLaw_lifted hnumber (parseBytes_max hmax) hcontents]
  exact not_not_intro hmax

/-- The limit law holds exactly when the first read finds no limit, or finds one
that the second read does not find lifted. -/
theorem collectProcessData_limitLaw_iff {r : ProcFsReader} {pid : Int32} {paths : CGroupPaths}
    {fs : FileSystem} {first second : String} (hpaths : r.system.Resolves pid fs paths)
    (hfiles : SteadyFiles F r pid paths fs) (hfirst : fs 2 paths.memoryMax = .ok first)
    (hsecond : fs 3 paths.memoryMax = .ok second) :
    LimitLaw ((r.collectProcessData (F := F) pid).exec fs []) ↔
      Text.trim first = "max" ∨
        (∃ n, parseBytes first = .ok n) ∧ Text.trim second ≠ "max" := by
  rcases hfiles.found 0 with ⟨⟨score, adj, hscores⟩, -⟩
  cases hparse : parseBytes first with
  | error e =>
      rcases hfiles.found 3 with ⟨-, pressure, hpressure⟩
      rcases collectProcessData_unlimited hpaths hscores hfirst (by rw [hparse]; rfl) hpressure
        with ⟨log, hcall, hcontents⟩
      rw [hcall, limitLaw_unlimited hparse hcontents rfl rfl]
      simp
  | ok n =>
      have hnomax : Text.trim first ≠ "max" := by
        intro hmax
        rw [parseBytes_max hmax] at hparse
        cases hparse
      have hsome : (parseBytes first).isOk = true := by
        rw [hparse]
        rfl
      cases hparse' : parseBytes second with
      | ok memoryMax =>
          rcases hfiles.memoryCurrent 4 with ⟨memoryCurrent, hcurrent⟩
          rcases hfiles.found 5 with ⟨-, pressure, hpressure⟩
          rcases collectProcessData_limited hpaths hscores hfirst hsome hsecond hparse' hcurrent
            hpressure with ⟨log, hcall, hcontents⟩
          have hkept : Text.trim second ≠ "max" := by
            intro hmax
            rw [parseBytes_max hmax] at hparse'
            cases hparse'
          rw [hcall]
          exact iff_of_true (limitLaw_limited hparse hparse' hcontents)
            (Or.inr ⟨⟨n, rfl⟩, hkept⟩)
      | error e =>
          rcases collectProcessData_lifted (F := F) hpaths hscores hfirst hsome hsecond hparse'
            with ⟨log, hcall, hcontents⟩
          rw [hcall, limitLaw_lifted hparse hparse' hcontents]
          simp [hnomax]

/-- A limit that is only raised between its two reads is reported as it then is. -/
theorem limitLaw_holds_when_raised :
    LimitLaw ((plainReader.collectProcessData (F := Whole) 7).exec
      (rewrittenLimit "100\n" "200\n") []) ∧
      ((plainReader.collectProcessData (F := Whole) 7).exec
        (rewrittenLimit "100\n" "200\n") []).1.map CollectedData.memoryMax = .ok 200 := by
  have hpaths : plainReader.system.Resolves 7 (rewrittenLimit "100\n" "200\n") plainPaths :=
    plainReader_resolves fun _ _ => rfl
  have hfiles := rewrittenLimit_steady "100\n" "200\n"
  have hlimits := rewrittenLimit_limit "100\n" "200\n"
  have hnumber : parseBytes "100\n" = .ok 100 := by decide +kernel
  have hraised : parseBytes "200\n" = .ok 200 := by decide +kernel
  have hkept : Text.trim "200\n" ≠ "max" := by decide +kernel
  constructor
  · exact (collectProcessData_limitLaw_iff hpaths hfiles hlimits.1 hlimits.2).mpr
      (Or.inr ⟨⟨100, hnumber⟩, hkept⟩)
  · rcases (hfiles.found 5).2 with ⟨pressure, hpressure⟩
    rcases collectProcessData_limited hpaths (rewrittenLimit_scoresAt _ _) hlimits.1
      (by rw [hnumber]; rfl) hlimits.2 hraised (rewrittenLimit_finds "100\n" "200\n" 4).2.2.1
      hpressure with ⟨log, hcall, -⟩
    rw [hcall]
    rfl

end ProcFsReader
end OomHero
