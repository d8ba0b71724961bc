import Mathlib.Data.List.Basic
import Mathlib.Tactic

/-!
# Foundations - Transducers

A transducer reads one input at a time, moves to a next state and emits a list
of outputs.  The loops of a long-running program are runs of transducers, so
the facts about whole runs are stated once, here.

Main results:

- Theorem {lit}`run_append`: a run splits at every point of its input.
- Theorem {lit}`flatten_fragments`: the outputs of a run, input by input.
- Theorem {lit}`run_refines`: a step-by-step simulation is a simulation of whole
  runs, where one concrete input may stand for several abstract ones.
- Theorem {lit}`atEach_iff_getElem`: a property of each input after those before
  it can be computed.
-/

namespace OomHero
namespace Transducer

variable {σ ι ω : Type}

/-- Feed a list of inputs to a step function and collect the outputs in order. -/
def run (step : σ → ι → σ × List ω) : σ → List ι → σ × List ω
  | s, [] => (s, [])
  | s, i :: is =>
      let one := step s i
      let rest := run step one.1 is
      (rest.1, one.2 ++ rest.2)

@[simp]
theorem run_nil (step : σ → ι → σ × List ω) (s : σ) :
    run step s [] = (s, []) :=
  rfl

@[simp]
theorem run_cons (step : σ → ι → σ × List ω) (s : σ) (i : ι) (is : List ι) :
    run step s (i :: is) =
      ((run step (step s i).1 is).1, (step s i).2 ++ (run step (step s i).1 is).2) :=
  rfl

/-- A run over a concatenation continues in the state the first part reached. -/
theorem run_append (step : σ → ι → σ × List ω) (s : σ) (is js : List ι) :
    run step s (is ++ js) =
      ((run step (run step s is).1 js).1,
        (run step s is).2 ++ (run step (run step s is).1 js).2) := by
  induction is generalizing s with
  | nil => simp
  | cons i is ih =>
      simp only [List.cons_append, run_cons, ih, List.append_assoc]

/-- The last input of a run acts on the state the inputs before it reached. -/
theorem run_concat (step : σ → ι → σ × List ω) (s : σ) (is : List ι) (i : ι) :
    run step s (is ++ [i]) =
      ((step (run step s is).1 i).1,
        (run step s is).2 ++ (step (run step s is).1 i).2) := by
  rw [run_append]
  simp

/-- What holds of the outputs of every step and of joined outputs holds of those of a run. -/
theorem run_outputs {P : List ω → Prop} (hnil : P [])
    (happend : ∀ {xs ys}, P xs → P ys → P (xs ++ ys))
    {step : σ → ι → σ × List ω} (hstep : ∀ s i, P (step s i).2) (s : σ) (is : List ι) :
    P (run step s is).2 := by
  induction is generalizing s with
  | nil => exact hnil
  | cons i is ih => exact happend (hstep s i) (ih _)

/-! ## What each input emits -/

/-- The outputs of a run, input by input. -/
def fragments (step : σ → ι → σ × List ω) : σ → List ι → List (List ω)
  | _, [] => []
  | s, i :: is => (step s i).2 :: fragments step (step s i).1 is

@[simp]
theorem fragments_length (step : σ → ι → σ × List ω) (s : σ) (is : List ι) :
    (fragments step s is).length = is.length := by
  induction is generalizing s with
  | nil => rfl
  | cons i is ih =>
      unfold fragments
      rw [List.length_cons, List.length_cons, ih]

/-- The outputs of a run are those of its inputs, in order. -/
theorem flatten_fragments (step : σ → ι → σ × List ω) (s : σ) (is : List ι) :
    (fragments step s is).flatten = (run step s is).2 := by
  induction is generalizing s with
  | nil => rfl
  | cons i is ih =>
      unfold fragments
      rw [List.flatten_cons, ih, run_cons]

/-- What an input emits, it emits in the state the inputs before it reached. -/
theorem fragments_getElem? (step : σ → ι → σ × List ω) (s : σ) (pre : List ι) (i : ι)
    (post : List ι) :
    (fragments step s (pre ++ i :: post))[pre.length]? = some (step (run step s pre).1 i).2 := by
  induction pre generalizing s with
  | nil => rfl
  | cons j pre ih =>
      rw [List.cons_append]
      unfold fragments
      rw [List.length_cons, List.getElem?_cons_succ, ih, run_cons]

/-- An input that changes no state can be dropped, with what it emits. -/
theorem run_drop {step : σ → ι → σ × List ω} {s : σ} {pre : List ι} {i : ι}
    (hkeep : (step (run step s pre).1 i).1 = (run step s pre).1) (post : List ι) :
    (run step s (pre ++ post)).1 = (run step s (pre ++ i :: post)).1 ∧
      ∃ later, (run step s (pre ++ post)).2 = (run step s pre).2 ++ later ∧
        (run step s (pre ++ i :: post)).2 =
          (run step s pre).2 ++ (step (run step s pre).1 i).2 ++ later := by
  rw [run_append, run_append, run_cons, hkeep]
  refine ⟨rfl, _, rfl, ?_⟩
  rw [List.append_assoc]

/-! ## Simulation -/

/--
Simulation of whole runs.  Each concrete input {lit}`i` stands for the abstract
inputs {lit}`expand i`, and outputs of both sides show as observations.
-/
theorem run_refines {σ' ι' ω' τ : Type} (step : σ → ι → σ × List ω)
    (step' : σ' → ι' → σ' × List ω') (abs : σ → σ') (expand : ι → List ι')
    (show' : ω' → List τ) (show₀ : ω → List τ)
    (hstate : ∀ s i, (run step' (abs s) (expand i)).1 = abs (step s i).1)
    (hshown : ∀ s i, (run step' (abs s) (expand i)).2.flatMap show' = (step s i).2.flatMap show₀)
    (s : σ) (is : List ι) :
    (run step' (abs s) (is.flatMap expand)).1 = abs (run step s is).1 ∧
      (run step' (abs s) (is.flatMap expand)).2.flatMap show' =
        (run step s is).2.flatMap show₀ := by
  induction is generalizing s with
  | nil => exact ⟨rfl, rfl⟩
  | cons i is ih =>
      rw [List.flatMap_cons, run_append, hstate s i, run_cons]
      simp only [List.flatMap_append, hshown s i]
      exact ⟨(ih _).1, by rw [(ih _).2]⟩

/-- Simulation of whole runs up to a relation, where both sides show the same. -/
theorem run_simulates {σ' ι' ω' τ : Type} {step : σ → ι → σ × List ω}
    {step' : σ' → ι' → σ' × List ω'} {R : σ → σ' → Prop} {expand : ι → List ι'}
    {shown : List ω → List τ} {shown' : List ω' → List τ}
    (happend : ∀ xs ys, shown (xs ++ ys) = shown xs ++ shown ys)
    (happend' : ∀ xs ys, shown' (xs ++ ys) = shown' xs ++ shown' ys)
    (hstep : ∀ s s' i, R s s' → R (step s i).1 (run step' s' (expand i)).1 ∧
      shown (step s i).2 = shown' (run step' s' (expand i)).2)
    {s : σ} {s' : σ'} (h : R s s') (is : List ι) :
    R (run step s is).1 (run step' s' (is.flatMap expand)).1 ∧
      shown (run step s is).2 = shown' (run step' s' (is.flatMap expand)).2 := by
  induction is generalizing s s' with
  | nil =>
      have hnil : shown [] = [] := List.self_eq_append_left.mp (happend [] [])
      have hnil' : shown' [] = [] := List.self_eq_append_left.mp (happend' [] [])
      exact ⟨h, hnil.trans hnil'.symm⟩
  | cons i is ih =>
      have hone := hstep s s' i h
      have hrest := ih hone.1
      rw [List.flatMap_cons, run_append, run_cons, happend, happend', hone.2, hrest.2]
      exact ⟨hrest.1, rfl⟩

/-! ## Properties of each input -/

/-- A property of each input together with the inputs before it. -/
def AtEach (P : List ι → ι → Prop) (is : List ι) : Prop :=
  ∀ pre i, pre ++ [i] <+: is → P pre i

theorem AtEach.of_prefix {P : List ι → ι → Prop} {is js : List ι} (h : AtEach P is)
    (hpre : js <+: is) : AtEach P js :=
  fun pre i hi => h pre i (hi.trans hpre)

/-- A property of mapped inputs, input by input. -/
theorem AtEach.map {κ : Type} {P : List ι → ι → Prop} {is : List κ} (f : κ → ι)
    (h : AtEach (fun pre i => P (pre.map f) (f i)) is) : AtEach P (is.map f) := by
  intro pre i hpre
  obtain ⟨before, hbefore, hsplit⟩ := List.prefix_map_iff.mp hpre
  obtain ⟨earlier, last, rfl, rfl, hlast⟩ := List.map_eq_append_iff.mp hsplit.symm
  obtain ⟨j, rfl, rfl⟩ := List.map_eq_singleton_iff.mp hlast
  exact h earlier j hbefore

/-- The inputs by their index, each with those before it. -/
theorem atEach_iff_getElem (P : List ι → ι → Prop) (is : List ι) :
    AtEach P is ↔ ∀ i : Fin is.length, P (is.take i) is[i] := by
  constructor
  · intro h i
    apply h
    have htake : is.take (i + 1) = is.take i ++ [is[i]] := by simp
    rw [← htake]
    exact List.take_prefix _ _
  · intro h pre i hpre
    obtain ⟨post, rfl⟩ := hpre
    have hlen : pre.length < (pre ++ [i] ++ post).length := by simp
    simpa using h ⟨pre.length, hlen⟩

instance (P : List ι → ι → Prop) [∀ pre i, Decidable (P pre i)] (is : List ι) :
    Decidable (AtEach P is) :=
  decidable_of_iff' _ (atEach_iff_getElem P is)

end Transducer
end OomHero
