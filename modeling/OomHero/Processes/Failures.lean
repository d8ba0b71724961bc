import OomHero.Processes.Footprint

/-!
# Processes - Failed reads

A process can vanish while its files are read.  A call that cannot read one of them gives
up: it reads nothing more and returns the error of that read.

Main results:

- Theorem {lit}`Io.Prompt.bind`: computations that give up at a failed read compose.
- Theorem {lit}`ProcFsReader.prompt_collectProcessData`: collecting the data of a process
  is one of them.
-/

namespace OomHero
namespace Io

/-- What a computation did with its reads, the first of which had the number {lit}`start`:
each found what the file system had at that time, and one that failed was the last one and
gave the result. -/
structure Heeds {α : Type} (fs : FileSystem) (start : Nat) (reads : List Access)
    (result : Except Error α) : Prop where
  found : ∀ k a, reads[k]? = some a → a.content = fs (start + k) a.path
  failed : ∀ k a err, reads[k]? = some a → a.content = .error err →
    k + 1 = reads.length ∧ result = .error err

/-- A computation that gives up at the first failed read. -/
def Prompt {α : Type} (m : Io α) : Prop :=
  ∀ fs log, ∃ reads, (m.exec fs log).2 = log ++ reads ∧
    Heeds fs log.length reads (m.exec fs log).1

variable {α β : Type}

/-- No read of a computation that succeeds has failed. -/
theorem Heeds.isOk {fs : FileSystem} {start : Nat} {reads : List Access} {a : α}
    (h : Heeds fs start reads (.ok a)) :
    ∀ access ∈ reads, ∃ content, access.content = .ok content := by
  intro access haccess
  obtain ⟨k, hk⟩ := List.mem_iff_getElem?.mp haccess
  cases hcontent : access.content with
  | ok content => exact ⟨content, rfl⟩
  | error err => cases (h.failed k access err hk hcontent).2

theorem Prompt.lookup (file : Option File) (answer : Lookup α) :
    Prompt (Io.lookup file answer) := by
  intro fs log
  have hnone : ∀ (k : Nat) (a : Access), ([] : List Access)[k]? ≠ some a := by simp
  exact ⟨[], (List.append_nil log).symm, fun k a hk => absurd hk (hnone k a),
    fun k a _ hk => absurd hk (hnone k a)⟩

theorem Prompt.readToString (file : File) (path : String) : Prompt (Io.readToString file path) := by
  intro fs log
  rw [exec_readToString]
  have honly : ∀ k a, [(⟨file, path, fs log.length path⟩ : Access)][k]? = some a →
      k = 0 ∧ a = ⟨file, path, fs log.length path⟩ := by
    intro k a hk
    rw [List.getElem?_singleton] at hk
    split at hk <;> rename_i hzero
    · exact ⟨hzero, (Option.some.inj hk).symm⟩
    · cases hk
  refine ⟨[⟨file, path, fs log.length path⟩], rfl, ?_, ?_⟩
  · intro k a hk
    obtain ⟨rfl, rfl⟩ := honly k a hk
    rfl
  · intro k a err hk herr
    obtain ⟨rfl, rfl⟩ := honly k a hk
    exact ⟨rfl, herr⟩

/-- Computations that give up at a failed read compose. -/
theorem Prompt.bind {m : Io α} {f : α → Io β} (hm : Prompt m)
    (hf : ∀ a, Yields m a → Prompt (f a)) : Prompt (m >>= f) := by
  intro fs log
  obtain ⟨first, hfirst, hheeds⟩ := hm fs log
  rw [exec_bind]
  rcases hexec : m.exec fs log with ⟨result, log'⟩
  rw [hexec] at hfirst hheeds
  dsimp only at hfirst hheeds ⊢
  cases result with
  | error e =>
      refine ⟨first, hfirst, hheeds.found, ?_⟩
      intro k a err hk herr
      obtain ⟨hlast, hresult⟩ := hheeds.failed k a err hk herr
      cases hresult
      exact ⟨hlast, rfl⟩
  | ok a =>
      obtain ⟨second, hsecond, hheeds'⟩ := hf a ⟨fs, log, congrArg Prod.fst hexec⟩ fs log'
      have hlength : log'.length = log.length + first.length := by
        rw [hfirst, List.length_append]
      refine ⟨first ++ second, by rw [hsecond, hfirst, List.append_assoc], ?_, ?_⟩
      · intro k access hk
        by_cases hlt : k < first.length
        · rw [List.getElem?_append_left hlt] at hk
          exact hheeds.found k access hk
        · rw [List.getElem?_append_right (by omega)] at hk
          have hlater := hheeds'.found _ access hk
          rw [hlater, hlength]
          congr 1
          omega
      · intro k access err hk herr
        by_cases hlt : k < first.length
        · rw [List.getElem?_append_left hlt] at hk
          cases (hheeds.failed k access err hk herr).2
        · rw [List.getElem?_append_right (by omega)] at hk
          obtain ⟨hlast, hresult⟩ := hheeds'.failed _ access err hk herr
          refine ⟨?_, hresult⟩
          rw [List.length_append]
          omega

/-- They are a kind. -/
theorem kind_prompt (P : String → Prop) : Kind P fun _ m => Prompt m where
  lookup := Prompt.lookup
  readToString := fun file _ _ => Prompt.readToString file _
  bind := Prompt.bind

end Io

namespace ProcFsReader

variable {F : Type} [F32 F]

/-- Collecting the data of a process gives up at the first failed read. -/
theorem prompt_collectProcessData (r : ProcFsReader) (pid : Int32) :
    Io.Prompt (r.collectProcessData (F := F) pid) := by
  have hwithin : r.system.Within pid fun _ => True :=
    ⟨fun _ _ _ => trivial, fun _ _ _ => trivial, fun _ _ _ => trivial, fun _ _ _ => trivial,
      fun _ _ _ => trivial, trivial, trivial⟩
  exact collectProcessData_of_kind (Io.kind_prompt fun _ => True) hwithin

end ProcFsReader
end OomHero
