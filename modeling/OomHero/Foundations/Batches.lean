import OomHero.Foundations.Transducer

/-!
# Foundations - Batches

A loop that gathers its inputs and hands them over from time to time.  An input closes
the batch it is gathered in, depending on the mark the batch was opened with, and gives
the mark of the next one.

Main results:

- Theorem {lit}`Batch.run_partitions`: a run of the loop cuts its inputs into batches.
- Theorem {lit}`Batch.Partitions.inputs`: none is lost and none is counted twice.
- Theorem {lit}`Batch.run_headStep`: what a step does with the first input of its batch
  only is done for each batch of a run.
-/

namespace OomHero

open Transducer

/-- Some inputs, and the mark they were opened with. -/
structure Batch (μ ι : Type) where
  mark : μ
  gathered : List ι

namespace Batch

variable {μ ι : Type}

/-- A batch without inputs yet. -/
def opened (mark : μ) : Batch μ ι where
  mark := mark
  gathered := []

/-- Add an input to a batch. -/
def gather (b : Batch μ ι) (i : ι) : Batch μ ι :=
  { b with gathered := b.gathered ++ [i] }

/-- Gather an input, and hand the batch over if this closes it. -/
def step (closes : μ → ι → Bool) (renew : ι → μ) (b : Batch μ ι) (i : ι) :
    Batch μ ι × List (Batch μ ι) :=
  if closes b.mark i then (opened (renew i), [b.gather i]) else (b.gather i, [])

/-- None of the inputs closes the batch. -/
def Pending (closes : μ → ι → Bool) (b : Batch μ ι) : Prop :=
  ∀ i ∈ b.gathered, closes b.mark i = false

theorem Pending.opened (closes : μ → ι → Bool) (mark : μ) :
    (Batch.opened mark : Batch μ ι).Pending closes :=
  nofun

theorem Pending.gather {closes : μ → ι → Bool} {b : Batch μ ι} (h : b.Pending closes) {i : ι}
    (hi : closes b.mark i = false) : (b.gather i).Pending closes := by
  intro j hj
  rcases List.mem_append.mp hj with hearlier | hlast
  · exact h j hearlier
  · rw [List.mem_singleton.mp hlast]
    exact hi

/-- Inputs cut into batches and one that is pending.  The last input of a batch closes it,
no earlier one does, and it gives the mark of the next batch. -/
inductive Partitions (closes : μ → ι → Bool) (renew : ι → μ) :
    μ → List ι → List (Batch μ ι) → Batch μ ι → Prop
  | pending (b : Batch μ ι) (hpending : b.Pending closes) :
      Partitions closes renew b.mark b.gathered [] b
  | closed (b : Batch μ ι) (i : ι) (is : List ι) (batches : List (Batch μ ι))
      (current : Batch μ ι) (hpending : b.Pending closes) (hcloses : closes b.mark i = true)
      (hrest : Partitions closes renew (renew i) is batches current) :
      Partitions closes renew b.mark (b.gathered ++ i :: is) (b.gather i :: batches) current

section Runs

variable {closes : μ → ι → Bool} {renew : ι → μ}

/-- Every input is in one batch, in order. -/
theorem Partitions.inputs {mark : μ} {is : List ι} {batches : List (Batch μ ι)}
    {current : Batch μ ι} (h : Partitions closes renew mark is batches current) :
    batches.flatMap gathered ++ current.gathered = is := by
  induction h with
  | pending b hpending => rfl
  | closed b i is batches current hpending hcloses hrest ih =>
      rw [List.flatMap_cons, List.append_assoc, ih]
      exact List.append_assoc _ _ _

/-- A batch has a last input, which closes it. -/
theorem Partitions.closes_last {mark : μ} {is : List ι} {batches : List (Batch μ ι)}
    {current : Batch μ ι} (h : Partitions closes renew mark is batches current) :
    ∀ b ∈ batches, ∃ i ∈ b.gathered.getLast?, closes b.mark i = true := by
  induction h with
  | pending b hpending => nofun
  | closed b i is batches current hpending hcloses hrest ih =>
      intro closed hclosed
      rcases List.mem_cons.mp hclosed with rfl | hlater
      · exact ⟨i, List.getLast?_concat, hcloses⟩
      · exact ih closed hlater

/-- A run cuts its inputs into the batches it hands over and the one it ends with. -/
theorem run_partitions_from {b : Batch μ ι} (hpending : b.Pending closes) (is : List ι) :
    Partitions closes renew b.mark (b.gathered ++ is) (run (step closes renew) b is).2
      (run (step closes renew) b is).1 := by
  induction is generalizing b with
  | nil =>
      rw [List.append_nil]
      exact .pending b hpending
  | cons i is ih =>
      rw [run_cons]
      cases hcloses : closes b.mark i with
      | true =>
          have hstep : b.step closes renew i = (opened (renew i), [b.gather i]) := if_pos hcloses
          rw [hstep]
          exact .closed b i is _ _ hpending hcloses (ih (.opened closes (renew i)))
      | false =>
          have hstep : b.step closes renew i = (b.gather i, []) :=
            if_neg (by rw [hcloses]; exact Bool.false_ne_true)
          have hrest := ih (hpending.gather hcloses)
          rw [hstep, ← List.singleton_append, ← List.append_assoc]
          exact hrest

theorem run_partitions (mark : μ) (is : List ι) :
    Partitions closes renew mark is (run (step closes renew) (opened mark) is).2
      (run (step closes renew) (opened mark) is).1 :=
  run_partitions_from (.opened closes mark) is

/-! ## First inputs -/

variable {ω : Type}

/-- What is done with the first input of a batch. -/
def head (f : ι → List ω) (b : Batch μ ι) : List ω :=
  b.gathered.head?.toList.flatMap f

/-- Gather an input, and do something with it if it is the first one of its batch. -/
def headStep (closes : μ → ι → Bool) (renew : ι → μ) (f : ι → List ω) (b : Batch μ ι) (i : ι) :
    Batch μ ι × List ω :=
  ((b.step closes renew i).1, if b.gathered = [] then f i else [])

theorem head_gather (f : ι → List ω) (b : Batch μ ι) (i : ι) :
    (b.gather i).head f = b.head f ++ (b.headStep closes renew f i).2 := by
  unfold head gather headStep
  cases b.gathered with
  | nil => simp
  | cons first rest => simp

/-- What is done does not change the batches. -/
theorem run_headStep_fst (f : ι → List ω) (b : Batch μ ι) (is : List ι) :
    (run (headStep closes renew f) b is).1 = (run (step closes renew) b is).1 := by
  induction is generalizing b with
  | nil => rfl
  | cons i is ih => exact ih _

/-- It is done with the first input of each batch of a run. -/
theorem run_headStep (f : ι → List ω) (b : Batch μ ι) (is : List ι) :
    b.head f ++ (run (headStep closes renew f) b is).2 =
      ((run (step closes renew) b is).2 ++
        [(run (step closes renew) b is).1]).flatMap (head f) := by
  induction is generalizing b with
  | nil => simp
  | cons i is ih =>
      rw [run_cons, run_cons, ← List.append_assoc, ← head_gather]
      unfold headStep step
      split
      · have hnext := ih (opened (renew i))
        have hempty : (opened (renew i) : Batch μ ι).head f = [] := rfl
        rw [hempty, List.nil_append] at hnext
        rw [List.append_assoc, List.flatMap_append, List.flatMap_singleton]
        exact congrArg (_ ++ ·) hnext
      · exact ih (b.gather i)

end Runs

end Batch
end OomHero
