import OomHero.Processes.Reader

/-!
# Processes - Listing

The processes are the directories of the procfs whose names are numbers.  Processes come
and go while the directory is read: an entry that cannot be read is skipped, and a
process whose command line cannot be read is listed without one.

Main results:

- Theorem {lit}`ProcFsReader.mem_list`: a listed process has a directory of its own.
- Theorem {lit}`ProcFsReader.list_eq_ok_iff`: the processes a directory lays out are
  listed, in its order, and nothing else in it matters.
-/

namespace OomHero

/-- An entry of a directory.  It has no name here if its name is not Unicode. -/
structure DirEntry where
  fileName : Option String
  /-- Whether its metadata are those of a directory. -/
  isDir : Except Error Bool

/-- What reading a directory yields. -/
abbrev ReadDir : Type :=
  String → Except Error (List (Except Error DirEntry))

/-- The first part of a command line file: its parts end in a NUL. -/
def firstPart (content : String) : String :=
  (Text.splitOn '\x00' content).head?.getD ""

namespace ProcFsReader

/-- The command line of a process, without its arguments. -/
def cmdline (r : ProcFsReader) (fs : Contents) (k : Nat) (pid : Int32) :
    Except Error String :=
  (fs k (r.system.pathToCmdline pid)).map firstPart

/-- The process an entry of the procfs stands for, if it stands for one.  The read of its
command line has the number of the entry. -/
def listEntry (r : ProcFsReader) (fs : Contents) (k : Nat) (entry : Except Error DirEntry) :
    Option Process :=
  match entry with
  | .error _ => none
  | .ok entry =>
      if !(entry.isDir.toOption.getD false) then none
      else
        match entry.fileName with
        | none => none
        | some name =>
            match Decimal.parseI32 name with
            | .error _ => none
            | .ok pid => some { pid, cmdline := (r.cmdline fs k pid).toOption.getD "" }

/-- List the processes. -/
def list (r : ProcFsReader) (readDir : ReadDir) (fs : Contents) : Except Error (List Process) :=
  (readDir r.system.pathToProcfs).map fun entries =>
    entries.zipIdx.filterMap fun entry => r.listEntry fs entry.2 entry.1

/-! ## Entries -/

/-- An entry is the directory of a pid. -/
def IsDirectoryOf (entry : Except Error DirEntry) (pid : Int32) : Prop :=
  ∃ name, entry = .ok ⟨some name, .ok true⟩ ∧ Decimal.parseI32 name = .ok pid

/-- An entry stands for a process exactly when it is the directory of its pid. -/
theorem listEntry_eq_some_iff (r : ProcFsReader) (fs : Contents) (k : Nat)
    (entry : Except Error DirEntry) (p : Process) :
    r.listEntry fs k entry = some p ↔
      IsDirectoryOf entry p.pid ∧ p.cmdline = (r.cmdline fs k p.pid).toOption.getD "" := by
  unfold listEntry IsDirectoryOf
  cases entry with
  | error e => simp
  | ok entry =>
      obtain ⟨fileName, isDir⟩ := entry
      cases isDir with
      | error e => simp [Except.toOption]
      | ok dir =>
          cases dir with
          | false => simp [Except.toOption]
          | true =>
              cases fileName with
              | none => simp [Except.toOption]
              | some name =>
                  cases hpid : Decimal.parseI32 name with
                  | error e => simp [Except.toOption, hpid]
                  | ok pid =>
                      obtain ⟨pid', cmdline⟩ := p
                      simp only [Except.toOption, Option.getD_some, Bool.not_true,
                        Bool.false_eq_true, if_false, Option.some_inj, Process.mk.injEq,
                        Except.ok.injEq, DirEntry.mk.injEq, and_true, exists_eq_left', hpid]
                      constructor
                      · rintro ⟨rfl, rfl⟩
                        exact ⟨rfl, rfl⟩
                      · rintro ⟨rfl, rfl⟩
                        exact ⟨rfl, rfl⟩

/-- An entry that is the directory of no pid stands for no process. -/
theorem listEntry_eq_none {entry : Except Error DirEntry}
    (h : ∀ pid, ¬ IsDirectoryOf entry pid) (r : ProcFsReader) (fs : Contents) (k : Nat) :
    r.listEntry fs k entry = none := by
  rw [Option.eq_none_iff_forall_ne_some]
  intro p hp
  exact h p.pid ((r.listEntry_eq_some_iff fs k entry p).mp hp).1

/-- A listed process has a directory of its own. -/
theorem mem_list {r : ProcFsReader} {readDir : ReadDir} {fs : Contents} {ps : List Process}
    (hlist : r.list readDir fs = .ok ps) {p : Process} (hp : p ∈ ps) :
    ∃ entries, readDir r.system.pathToProcfs = .ok entries ∧
      ∃ entry ∈ entries, IsDirectoryOf entry p.pid := by
  unfold list at hlist
  cases hdir : readDir r.system.pathToProcfs with
  | error e =>
      rw [hdir] at hlist
      cases hlist
  | ok entries =>
      rw [hdir] at hlist
      cases hlist
      obtain ⟨⟨entry, k⟩, hentry, hsome⟩ := List.mem_filterMap.mp hp
      exact ⟨entries, rfl, entry, (List.mem_zipIdx' hentry).2 ▸ List.getElem_mem _,
        ((r.listEntry_eq_some_iff fs k entry p).mp hsome).1⟩

/-! ## Command lines -/

/-- A text is what another begins with, up to its first NUL or its end. -/
def IsFirstPart (part content : String) : Prop :=
  '\x00' ∉ part.toList ∧ (content = part ∨ ∃ rest, content = part ++ "\x00" ++ rest)

/-- The first part of a command line file is what it begins with. -/
theorem firstPart_eq_iff (content part : String) :
    firstPart content = part ↔ IsFirstPart part content := by
  unfold firstPart IsFirstPart
  constructor
  · intro h
    obtain ⟨first, rest, hsplit⟩ := List.exists_cons_of_ne_nil
      (fun hnil => List.splitOn_ne_nil '\x00' content.toList (List.map_eq_nil_iff.mp hnil) :
        Text.splitOn '\x00' content ≠ [])
    have hpieces := (Text.splitOn_eq_iff '\x00' content (List.cons_ne_nil first rest)).mp hsplit
    rw [hsplit, List.head?_cons, Option.getD_some] at h
    subst h
    refine ⟨hpieces.2 first List.mem_cons_self, ?_⟩
    cases rest with
    | nil =>
        left
        rw [← String.toList_inj, hpieces.1]
        simp
    | cons second rest =>
        right
        refine ⟨String.ofList (['\x00'].intercalate ((second :: rest).map String.toList)), ?_⟩
        rw [← String.toList_inj, hpieces.1]
        simp [List.intercalate_cons_cons]
  · rintro ⟨hnul, rfl | ⟨rest, rfl⟩⟩
    · unfold Text.splitOn
      rw [List.splitOn_eq_singleton hnul]
      simp
    · have hsplit : (part ++ "\x00" ++ rest).toList = part.toList ++ '\x00' :: rest.toList := by
        simp
      unfold Text.splitOn
      rw [hsplit, List.splitOn_append_cons_self_of_not_mem hnul]
      simp

/-- What is listed as the command line of a process: what its file begins with, or nothing
if the file cannot be read. -/
def Shows (r : ProcFsReader) (fs : Contents) (k : Nat) (p : Process) : Prop :=
  (∃ content, fs k (r.system.pathToCmdline p.pid) = .ok content ∧ IsFirstPart p.cmdline content) ∨
    (∃ e, fs k (r.system.pathToCmdline p.pid) = .error e) ∧ p.cmdline = ""

theorem shows_iff (r : ProcFsReader) (fs : Contents) (k : Nat) (p : Process) :
    r.Shows fs k p ↔ p.cmdline = (r.cmdline fs k p.pid).toOption.getD "" := by
  unfold Shows cmdline
  cases fs k (r.system.pathToCmdline p.pid) with
  | ok content =>
      simp only [Except.ok.injEq, exists_eq_left', reduceCtorEq, exists_false, false_and, or_false]
      rw [← firstPart_eq_iff]
      exact eq_comm
  | error e => simp [Except.map, Except.toOption]

/-! ## Layouts -/

/-- A directory, from the entry number {lit}`k` on, that lays out some processes: each has
an entry of its own, and the other entries are directories of no pid. -/
inductive Lays (r : ProcFsReader) (fs : Contents) :
    Nat → List (Except Error DirEntry) → List Process → Prop
  | nil (k : Nat) : Lays r fs k [] []
  | other {k : Nat} {entries : List (Except Error DirEntry)} {ps : List Process}
      (entry : Except Error DirEntry) (hother : ∀ pid, ¬ IsDirectoryOf entry pid)
      (rest : Lays r fs (k + 1) entries ps) : Lays r fs k (entry :: entries) ps
  | process {k : Nat} {entries : List (Except Error DirEntry)} {ps : List Process}
      (entry : Except Error DirEntry) (p : Process) (hentry : IsDirectoryOf entry p.pid)
      (hshows : r.Shows fs k p) (rest : Lays r fs (k + 1) entries ps) :
      Lays r fs k (entry :: entries) (p :: ps)

/-- The entries from a number on lay out exactly the processes they stand for. -/
theorem lays_iff (r : ProcFsReader) (fs : Contents) (k : Nat)
    (entries : List (Except Error DirEntry)) (ps : List Process) :
    r.Lays fs k entries ps ↔
      (entries.zipIdx k).filterMap (fun entry => r.listEntry fs entry.2 entry.1) = ps := by
  constructor
  · intro h
    induction h with
    | nil k => rfl
    | @other k entries ps entry hother rest ih =>
        have hentry := listEntry_eq_none hother r fs k
        rw [List.zipIdx_cons, List.filterMap_cons, hentry, ih]
    | @process k entries ps entry p hentry hshows rest ih =>
        have hsome := (r.listEntry_eq_some_iff fs k entry p).mpr
          ⟨hentry, (r.shows_iff fs k p).mp hshows⟩
        rw [List.zipIdx_cons, List.filterMap_cons, hsome, ih]
  · intro h
    induction entries generalizing k ps with
    | nil =>
        subst h
        exact .nil k
    | cons entry entries ih =>
        rw [List.zipIdx_cons, List.filterMap_cons] at h
        cases hentry : r.listEntry fs k entry with
        | none =>
            rw [hentry] at h
            refine .other entry (fun pid hpid => ?_) (ih (k + 1) ps h)
            have hsome := (r.listEntry_eq_some_iff fs k entry
              ⟨pid, (r.cmdline fs k pid).toOption.getD ""⟩).mpr ⟨hpid, rfl⟩
            rw [hentry] at hsome
            cases hsome
        | some p =>
            rw [hentry] at h
            subst h
            obtain ⟨hdirectory, hcmdline⟩ := (r.listEntry_eq_some_iff fs k entry p).mp hentry
            exact .process entry p hdirectory ((r.shows_iff fs k p).mpr hcmdline)
              (ih (k + 1) _ rfl)

/-- The processes listed are those the procfs lays out, in its order: one for every
directory of a pid, whatever else is in the procfs, with what the command line file begins
with, or with nothing if the process is gone by then. -/
theorem list_eq_ok_iff (r : ProcFsReader) (readDir : ReadDir) (fs : Contents)
    (ps : List Process) :
    r.list readDir fs = .ok ps ↔
      ∃ entries, readDir r.system.pathToProcfs = .ok entries ∧ r.Lays fs 0 entries ps := by
  unfold list
  cases readDir r.system.pathToProcfs with
  | error e => simp [Except.map]
  | ok entries =>
      simp only [Except.map, Except.ok.injEq, exists_eq_left', lays_iff]

end ProcFsReader
end OomHero
