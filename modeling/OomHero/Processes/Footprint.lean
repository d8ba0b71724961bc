import OomHero.Processes.Reader

/-!
# Processes - What a call may read

Collecting the data of a process reads files of its own directory in the procfs only, and
asks the kernel for the version of the cgroups.  Other processes may change their files in
any way and at any time.

Main results:

- Theorem {lit}`ProcFsReader.collectProcessData_of_kind`: what holds of single reads and
  of compositions holds of a whole call.
- Theorem {lit}`Io.Local.bind`: computations that are local to some paths compose.
- Theorem {lit}`SystemCGroups.eq_of_within`: no path is in the directories of two
  processes.
- Theorem {lit}`SystemCGroups.collectProcessData_footprint`: a call depends on the
  directory of its process and on the version of the cgroups only, and reads nothing else.
-/

namespace OomHero

/-! ## Kinds of computations -/

namespace Io

/-- What a computation may return. -/
def Yields {α : Type} (m : Io α) (a : α) : Prop :=
  ∃ fs log, (m.exec fs log).1 = .ok a

/-- A kind of computations that contains the lookups and the reads of some paths, and is
closed under composition. -/
structure Kind (P : String → Prop) (C : (α : Type) → Io α → Prop) : Prop where
  lookup : ∀ {α : Type} (file : Option File) (answer : Lookup α), C α (Io.lookup file answer)
  readToString : ∀ (file : File) {path : String}, P path → C String (Io.readToString file path)
  bind : ∀ {α β : Type} {m : Io α} {f : α → Io β},
    C α m → (∀ a, Yields m a → C β (f a)) → C β (m >>= f)

section Kinds

variable {α β : Type} {P : String → Prop} {C : (α : Type) → Io α → Prop}

/-- To compute without any file is to look up something that is known. -/
theorem Kind.ofExcept (h : Kind P C) (x : Except Error α) : C α (Io.ofExcept x) :=
  h.lookup none fun _ => x

theorem Kind.pure (h : Kind P C) (a : α) : C α (Pure.pure a) :=
  h.ofExcept (.ok a)

/-- Only the paths that a lookup may answer have to be among the paths. -/
theorem Kind.bindLookup (h : Kind P C) {file : Option File} {answer : Lookup α} {f : α → Io β}
    (hf : ∀ statfs a, answer statfs = .ok a → C β (f a)) : C β (Io.lookup file answer >>= f) :=
  h.bind (h.lookup file answer) fun a ⟨fs, log, ha⟩ => hf (fs.statfs log.length file) a ha

theorem Kind.readWith (h : Kind P C) (file : File) {path : String} (hpath : P path)
    (parse : String → Except Error α) : C α (Io.readWith file path parse) :=
  h.bind (h.readToString file hpath) fun content _ => h.ofExcept (parse content)

end Kinds

/-! ## Local computations -/

/-- File systems that answer alike at some paths, in kernels that report alike. -/
structure AgreeOn (P : String → Prop) (fs fs' : FileSystem) : Prop where
  contents : ∀ k path, P path → fs k path = fs' k path
  statfs : ∀ k file, fs.statfs k file = fs'.statfs k file

/-- A computation that only reads some paths: its reads are of them, and file systems that
answer alike there are the same to it. -/
structure Local {α : Type} (P : String → Prop) (m : Io α) : Prop where
  reads : ∀ fs log, ∃ reads, (m.exec fs log).2 = log ++ reads ∧ ∀ a ∈ reads, P a.path
  same : ∀ {fs fs' : FileSystem}, AgreeOn P fs fs' → ∀ log, m.exec fs log = m.exec fs' log

variable {α β : Type} {P : String → Prop}

theorem Local.lookup (file : Option File) (answer : Lookup α) :
    Local P (Io.lookup file answer) where
  reads := fun _ log => ⟨[], (List.append_nil log).symm, by simp⟩
  same := by
    intro fs fs' hagree log
    rw [exec_lookup, exec_lookup, hagree.statfs]

theorem Local.readToString (file : File) {path : String} (h : P path) :
    Local P (Io.readToString file path) where
  reads := by
    intro fs log
    refine ⟨[⟨file, path, fs log.length path⟩], rfl, fun a ha => ?_⟩
    rw [List.mem_singleton.mp ha]
    exact h
  same := by
    intro fs fs' hagree log
    rw [exec_readToString, exec_readToString, hagree.contents log.length path h]

/-- Local computations compose. -/
theorem Local.bind {m : Io α} {f : α → Io β} (hm : Local P m)
    (hf : ∀ a, Yields m a → Local P (f a)) : Local P (m >>= f) where
  reads := by
    intro fs log
    obtain ⟨first, hfirst, hwithin⟩ := hm.reads fs log
    rw [exec_bind]
    rcases hexec : m.exec fs log with ⟨result, log'⟩
    rw [hexec] at hfirst
    dsimp only at hfirst ⊢
    cases result with
    | error e => exact ⟨first, hfirst, hwithin⟩
    | ok a =>
        obtain ⟨second, hsecond, hwithin'⟩ :=
          (hf a ⟨fs, log, congrArg Prod.fst hexec⟩).reads fs log'
        refine ⟨first ++ second, ?_, fun access haccess => ?_⟩
        · rw [hsecond, hfirst, List.append_assoc]
        · rcases List.mem_append.mp haccess with h | h
          · exact hwithin access h
          · exact hwithin' access h
  same := by
    intro fs fs' hagree log
    rw [exec_bind, exec_bind, hm.same hagree log]
    rcases hexec : m.exec fs' log with ⟨result, log'⟩
    cases result with
    | error e => rfl
    | ok a => exact (hf a ⟨fs', log, congrArg Prod.fst hexec⟩).same hagree log'

/-- Local computations are a kind. -/
theorem kind_local (P : String → Prop) : Kind P fun _ m => Local P m where
  lookup := Local.lookup
  readToString := Local.readToString
  bind := Local.bind

end Io

/-! ## The files of a process -/

/-- All paths a provider answers for a process are among some paths. -/
structure Provider.Within (p : Provider) (pid : Int32) (P : String → Prop) : Prop where
  memoryMax : ∀ statfs path, p.pathToMemoryMax pid statfs = .ok path → P path
  memoryCurrent : ∀ statfs path, p.pathToMemoryCurrent pid statfs = .ok path → P path
  memoryPressure : ∀ statfs path, p.pathToMemoryPressure pid statfs = .ok path → P path
  ioPressure : ∀ statfs path, p.pathToIoPressure pid statfs = .ok path → P path
  cpuPressure : ∀ statfs path, p.pathToCpuPressure pid statfs = .ok path → P path
  oomScore : P (p.pathToOomScore pid)
  oomScoreAdj : P (p.pathToOomScoreAdj pid)

namespace ProcFsReader

open Io

variable {F : Type} [F32 F] {r : ProcFsReader} {pid : Int32} {P : String → Prop}

/-- Collecting the data of a process is of every kind that has the reads of its files. -/
theorem collectProcessData_of_kind {C : (α : Type) → Io α → Prop} (hkind : Kind P C)
    (h : r.system.Within pid P) : C _ (r.collectProcessData (F := F) pid) := by
  have hscores : C _ (r.oomScore pid) :=
    hkind.bind (hkind.readWith .oomScore h.oomScore parseScore) fun _ _ =>
      hkind.bind (hkind.readWith .oomScoreAdj h.oomScoreAdj parseScore) fun _ _ => hkind.pure _
  have hlimited : C _ (r.hasMemoryLimit pid) :=
    hkind.bindLookup fun statfs path hpath =>
      hkind.bind (hkind.readToString .memoryMax (h.memoryMax statfs path hpath)) fun _ _ =>
        hkind.pure _
  have hstats : C _ (r.memoryStats pid) :=
    hkind.bindLookup fun statfs path hpath =>
      hkind.bind (hkind.readWith .memoryMax (h.memoryMax statfs path hpath) parseBytes) fun _ _ =>
        hkind.bindLookup fun statfs path hpath =>
          hkind.bind (hkind.readWith .memoryCurrent (h.memoryCurrent statfs path hpath) parseBytes)
            fun _ _ => hkind.pure _
  have hpressure : C _ (r.pressure (F := F) pid) :=
    hkind.bind (hkind.bindLookup fun statfs path hpath =>
        hkind.readWith .memoryPressure (h.memoryPressure statfs path hpath) _) fun _ _ =>
      hkind.bind (hkind.bindLookup fun statfs path hpath =>
          hkind.readWith .ioPressure (h.ioPressure statfs path hpath) _) fun _ _ =>
        hkind.bind (hkind.bindLookup fun statfs path hpath =>
            hkind.readWith .cpuPressure (h.cpuPressure statfs path hpath) _) fun _ _ => hkind.pure _
  unfold collectProcessData
  refine hkind.bind hscores fun scores _ => hkind.bind hlimited fun limited _ => ?_
  cases limited with
  | true =>
      refine hkind.bind hstats fun stats _ => hkind.bind (hkind.lookup none _) fun version _ => ?_
      cases version with
      | cgroupsV1 => exact hkind.pure _
      | cgroupsV2 => exact hkind.bind hpressure fun _ _ => hkind.pure _
  | false =>
      refine hkind.bind (hkind.lookup none _) fun version _ => ?_
      cases version with
      | cgroupsV1 => exact hkind.pure _
      | cgroupsV2 => exact hkind.bind hpressure fun _ _ => hkind.pure _

/-- Collecting the data of a process is local to its paths. -/
theorem local_collectProcessData (h : r.system.Within pid P) :
    Local P (r.collectProcessData (F := F) pid) :=
  collectProcessData_of_kind (kind_local P) h

end ProcFsReader

namespace SystemCGroups

/-- The directory of a process in the procfs. -/
def processDir (s : SystemCGroups) (pid : Int32) : String :=
  s!"{s.procfsRoot}/{pid}/"

/-- A path is in the directory of a process. -/
def IsWithin (s : SystemCGroups) (pid : Int32) (path : String) : Prop :=
  (s.processDir pid).toList <+: path.toList

instance (s : SystemCGroups) (pid : Int32) (path : String) : Decidable (s.IsWithin pid path) :=
  inferInstanceAs (Decidable (_ <+: _))

theorem toList_processDir (s : SystemCGroups) (pid : Int32) :
    (s.processDir pid).toList =
      s.procfsRoot.toList ++ '/' :: ((toString pid.toInt).toList ++ ['/']) := by
  have htext : ∀ text : String, toString text = text := fun _ => rfl
  have hpid : toString pid = toString pid.toInt := rfl
  simp [processDir, htext, hpid]

/-- A path that continues the one of the directory is in it. -/
theorem isWithin_append {s : SystemCGroups} {pid : Int32} {path : String} (name : String)
    (h : path.toList = (s.processDir pid).toList ++ name.toList) : s.IsWithin pid path := by
  unfold IsWithin
  rw [h]
  exact List.prefix_append _ _

/-- All files of a process are in its directory. -/
theorem provider_within (s : SystemCGroups) (pid : Int32) :
    s.provider.Within pid (s.IsWithin pid) := by
  have htext : ∀ text : String, toString text = text := fun _ => rfl
  have hpid : toString pid = toString pid.toInt := rfl
  have hcgroup : ∀ name : String,
      s.IsWithin pid s!"{s.procfsRoot}/{pid}/root/sys/fs/cgroup/{name}" := by
    intro name
    apply isWithin_append s!"root/sys/fs/cgroup/{name}"
    rw [toList_processDir]
    simp [htext, hpid]
  have hmemory : ∀ v1 v2 statfs path, s.pathToMemoryFile v1 v2 pid statfs = .ok path →
      s.IsWithin pid path := by
    intro v1 v2 statfs path hpath
    unfold pathToMemoryFile at hpath
    cases hversion : s.cgroupsVersion statfs with
    | error e =>
        rw [hversion] at hpath
        cases hpath
    | ok version =>
        rw [hversion] at hpath
        cases version with
        | cgroupsV1 =>
            cases hpath
            exact hcgroup v1
        | cgroupsV2 =>
            cases hpath
            exact hcgroup v2
  have hpressure : ∀ resource statfs path, s.pathToPressureFile pid resource statfs = .ok path →
      s.IsWithin pid path := by
    intro resource statfs path hpath
    obtain ⟨-, rfl⟩ := (s.pathToPressureFile_eq pid resource path statfs).mp hpath
    apply isWithin_append s!"root/sys/fs/cgroup/{resource}.pressure"
    rw [toList_processDir]
    simp [htext, hpid]
  have hproc : ∀ name, s.IsWithin pid (s.pathToProcFile pid name) := by
    intro name
    apply isWithin_append name
    rw [toList_processDir]
    simp [pathToProcFile, htext, hpid]
  exact ⟨hmemory _ _, hmemory _ _, hpressure _, hpressure _, hpressure _, hproc _, hproc _⟩

/-- The digits of a pid, with its sign, have no slash. -/
theorem slash_notMem (pid : Int32) : '/' ∉ (toString pid.toInt).toList := by
  have hdigits : ∀ n : Nat, '/' ∉ (toString n).toList := by
    intro n hslash
    have hlist : (toString n).toList = Nat.toDigits 10 n := Nat.toList_repr
    rw [hlist] at hslash
    exact absurd (Nat.isDigit_of_mem_toDigits (by decide) (by decide) hslash) (by decide)
  cases pid.toInt with
  | ofNat n => exact hdigits n
  | negSucc n =>
      have hrepr : toString (Int.negSucc n) = "-" ++ toString (n + 1) := rfl
      rw [hrepr, String.toList_append, List.mem_append]
      rintro (hsign | hdigit)
      · exact absurd hsign (by decide)
      · exact hdigits (n + 1) hdigit

/-- No path is in the directories of two processes. -/
theorem eq_of_within {s : SystemCGroups} {pid pid' : Int32} {path : String}
    (h : s.IsWithin pid path) (h' : s.IsWithin pid' path) : pid = pid' := by
  unfold IsWithin at h h'
  obtain ⟨rest, hrest⟩ := h
  obtain ⟨rest', hrest'⟩ := h'
  rw [toList_processDir] at hrest hrest'
  have hsame := hrest.trans hrest'.symm
  simp only [List.append_assoc, List.cons_append, List.append_cancel_left_eq, List.cons.injEq,
    true_and, List.nil_append] at hsame
  -- both names end at the first slash
  have hsplit := congrArg (List.splitOn '/') hsame
  rw [List.splitOn_append_cons_self_of_not_mem (slash_notMem pid),
    List.splitOn_append_cons_self_of_not_mem (slash_notMem pid')] at hsplit
  have hparse := Decimal.parseI32_toString pid
  rw [String.toList_inj.mp (List.cons.inj hsplit).1, Decimal.parseI32_toString] at hparse
  exact (Except.ok.inj hparse).symm

/-- Collecting the data of a process reads files of its directory only, which are in the
directory of no other process, and it does the same in all file systems that answer alike
there and have the same answers for the version of the cgroups. -/
theorem collectProcessData_footprint {F : Type} [F32 F] (s : SystemCGroups) (pid : Int32)
    {fs fs' : FileSystem} (hagree : Io.AgreeOn (s.IsWithin pid) fs fs') :
    (s.reader.collectProcessData (F := F) pid).exec fs [] =
        (s.reader.collectProcessData (F := F) pid).exec fs' [] ∧
      ∀ a ∈ ((s.reader.collectProcessData (F := F) pid).exec fs []).2,
        ∀ pid', s.IsWithin pid' a.path ↔ pid' = pid := by
  have hlocal := ProcFsReader.local_collectProcessData (F := F) (r := s.reader)
    (s.provider_within pid)
  refine ⟨hlocal.same hagree [], fun a ha pid' => ?_⟩
  obtain ⟨reads, hlog, hwithin⟩ := hlocal.reads fs []
  rw [hlog, List.nil_append] at ha
  constructor
  · exact fun h => eq_of_within h (hwithin a ha)
  · rintro rfl
    exact hwithin a ha

/-- The files of two processes on version 2 cgroups.  All hold a one, apart from those of the
second. -/
def neighbourFiles (content : String) : FileSystem where
  contents := fun _ path =>
    if (default : SystemCGroups).IsWithin 6 path then .ok content else .ok "1"
  statfs := fun _ _ => .ok cgroup2SuperMagic

/-- What the files of a neighbour hold makes no difference. -/
theorem footprint_beside_neighbour :
    ((default : SystemCGroups).reader.collectProcessData (F := Whole) 5).exec
        (neighbourFiles "max") [] =
      ((default : SystemCGroups).reader.collectProcessData (F := Whole) 5).exec
        (neighbourFiles "100") [] := by
  have hagree : Io.AgreeOn ((default : SystemCGroups).IsWithin 5) (neighbourFiles "max")
      (neighbourFiles "100") := by
    refine ⟨fun k path hpath => ?_, fun _ _ => rfl⟩
    have hown : ¬ (default : SystemCGroups).IsWithin 6 path :=
      fun h => absurd (eq_of_within h hpath) (by decide)
    dsimp only [neighbourFiles]
    rw [if_neg hown, if_neg hown]
  exact ((default : SystemCGroups).collectProcessData_footprint 5 hagree).1

end SystemCGroups
end OomHero
