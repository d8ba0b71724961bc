import OomHero.Errors

/-!
# System providers

A provider tells where the files of a process are.  {lit}`SystemCGroups` derives
the paths from the root of the procfs and from the version of the cgroups, which
it asks the kernel for at every lookup.

Main results:

- Theorem {lit}`SystemCGroups.pathToPressureFile_eq`: pressure files exist on
  version 2 only, and the path names the resource.
-/

namespace OomHero

/-- The supported versions of the kernel cgroups. -/
inductive CGroupsVersions where
  | cgroupsV1
  | cgroupsV2
deriving DecidableEq, Repr

/-- What a provider answers when the kernel reports some file system type, or an error,
for {lit}`/sys/fs/cgroup`. -/
abbrev Lookup (α : Type) : Type :=
  Except Error Nat → Except Error α

/-- The trait {lit}`system::Provider`. -/
structure Provider where
  cgroupsVersion : Lookup CGroupsVersions
  pathToMemoryMax : Int32 → Lookup String
  pathToMemoryCurrent : Int32 → Lookup String
  pathToMemoryPressure : Int32 → Lookup String
  pathToIoPressure : Int32 → Lookup String
  pathToCpuPressure : Int32 → Lookup String
  pathToOomScore : Int32 → String
  pathToOomScoreAdj : Int32 → String
  pathToCmdline : Int32 → String
  pathToProcfs : String

/-- The provider of a running system. -/
structure SystemCGroups where
  procfsRoot : String

instance : Inhabited SystemCGroups :=
  ⟨{ procfsRoot := "/proc" }⟩

namespace SystemCGroups

/-- The type of a version 2 cgroup file system. -/
def cgroup2SuperMagic : Nat := 0x63677270

/-- The version the mounted file system type stands for. -/
def cgroupsVersion (_ : SystemCGroups) : Lookup CGroupsVersions := fun statfs => do
  let filesystemType ← statfs
  if filesystemType = cgroup2SuperMagic then pure .cgroupsV2 else pure .cgroupsV1

/-- A file of the cgroup of a process, whose name depends on the version. -/
def pathToMemoryFile (s : SystemCGroups) (v1 v2 : String) (pid : Int32) : Lookup String :=
  fun statfs => (s.cgroupsVersion statfs).map fun
    | .cgroupsV1 => s!"{s.procfsRoot}/{pid}/root/sys/fs/cgroup/{v1}"
    | .cgroupsV2 => s!"{s.procfsRoot}/{pid}/root/sys/fs/cgroup/{v2}"

def pathToMemoryMax (s : SystemCGroups) (pid : Int32) : Lookup String :=
  s.pathToMemoryFile "memory/memory.limit_in_bytes" "memory.max" pid

def pathToMemoryCurrent (s : SystemCGroups) (pid : Int32) : Lookup String :=
  s.pathToMemoryFile "memory/memory.usage_in_bytes" "memory.current" pid

/-- Pressure is not supported on version 1. -/
def pathToPressureFile (s : SystemCGroups) (pid : Int32) (resource : String) : Lookup String :=
    fun statfs => do
  match ← s.cgroupsVersion statfs with
  | .cgroupsV1 => throw (.message "pressure not supported on v1")
  | .cgroupsV2 => pure s!"{s.procfsRoot}/{pid}/root/sys/fs/cgroup/{resource}.pressure"

def pathToMemoryPressure (s : SystemCGroups) (pid : Int32) : Lookup String :=
  s.pathToPressureFile pid "memory"

def pathToIoPressure (s : SystemCGroups) (pid : Int32) : Lookup String :=
  s.pathToPressureFile pid "io"

def pathToCpuPressure (s : SystemCGroups) (pid : Int32) : Lookup String :=
  s.pathToPressureFile pid "cpu"

/-- A file of a process directly under the procfs. -/
def pathToProcFile (s : SystemCGroups) (pid : Int32) (name : String) : String :=
  s!"{s.procfsRoot}/{pid}/{name}"

def pathToOomScore (s : SystemCGroups) (pid : Int32) : String :=
  s.pathToProcFile pid "oom_score"

def pathToOomScoreAdj (s : SystemCGroups) (pid : Int32) : String :=
  s.pathToProcFile pid "oom_score_adj"

def pathToCmdline (s : SystemCGroups) (pid : Int32) : String :=
  s.pathToProcFile pid "cmdline"

/-- {lit}`SystemCGroups` as a provider. -/
def provider (s : SystemCGroups) : Provider where
  cgroupsVersion := s.cgroupsVersion
  pathToMemoryMax := s.pathToMemoryMax
  pathToMemoryCurrent := s.pathToMemoryCurrent
  pathToMemoryPressure := s.pathToMemoryPressure
  pathToIoPressure := s.pathToIoPressure
  pathToCpuPressure := s.pathToCpuPressure
  pathToOomScore := s.pathToOomScore
  pathToOomScoreAdj := s.pathToOomScoreAdj
  pathToCmdline := s.pathToCmdline
  pathToProcfs := s.procfsRoot

/-- A pressure path is granted exactly on version 2. -/
theorem pathToPressureFile_eq (s : SystemCGroups) (pid : Int32) (resource path : String)
    (statfs : Except Error Nat) :
    s.pathToPressureFile pid resource statfs = .ok path ↔
      s.cgroupsVersion statfs = .ok .cgroupsV2 ∧
        path = s!"{s.procfsRoot}/{pid}/root/sys/fs/cgroup/{resource}.pressure" := by
  unfold pathToPressureFile
  cases s.cgroupsVersion statfs with
  | error e => simp [bind, Except.bind]
  | ok version =>
      cases version <;>
        simp [bind, Except.bind, pure, Except.pure, throw, throwThe, MonadExceptOf.throw, eq_comm]

end SystemCGroups

end OomHero
