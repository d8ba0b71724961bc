import Mathlib.Data.List.Sigma
import Mathlib.Tactic

/-!
# Foundations - Records filled by assignments

A parser for key-value text folds over its inputs; each input fails or spells
some assignments, and the assignments overwrite slots of a record.  The values
of two slots may have different types.

Main results:

- Theorem {lit}`Slots.fill_eq`: a fold that decodes and assigns input by input is
  the decoding of all inputs, followed by all assignments in order.
- Theorem {lit}`Slots.get_assign`: the last assignment to a slot wins, and a slot
  without assignments keeps its value.
- Theorem {lit}`Slots.mapM_eq_ok_iff`: decoding succeeds exactly when it does on
  every input.
-/

namespace OomHero

/-- A type of records with one slot for each key. -/
structure Slots (κ : Type) [DecidableEq κ] (β : κ → Type) (σ : Type) where
  get : σ → (k : κ) → β k
  set : σ → (k : κ) → β k → σ
  get_set : ∀ s k v, get (set s k v) = Function.update (get s) k v
  ext : ∀ s s', (∀ k, get s k = get s' k) → s = s'

namespace Slots

variable {κ σ ι ε : Type} [DecidableEq κ] {β : κ → Type}

/-- Make a list of assignments in order. -/
def assign (r : Slots κ β σ) (s : σ) (as : List (Sigma β)) : σ :=
  as.foldl (fun s a => r.set s a.1 a.2) s

/-- Decode the inputs in order, making the assignments of each one at once. -/
def fill (r : Slots κ β σ) (decode : ι → Except ε (List (Sigma β))) (s : σ)
    (is : List ι) : Except ε σ :=
  is.foldlM (fun s i => (decode i).map (r.assign s)) s

@[simp]
theorem assign_append (r : Slots κ β σ) (s : σ) (as bs : List (Sigma β)) :
    r.assign s (as ++ bs) = r.assign (r.assign s as) bs := by
  simp [assign]

/-! ## The last assignment wins -/

/-- After a list of assignments a slot holds the last value assigned to it. -/
theorem get_assign (r : Slots κ β σ) (s : σ) (as : List (Sigma β)) (k : κ) :
    r.get (r.assign s as) k = (as.lookupAll k).getLast?.getD (r.get s k) := by
  induction as generalizing s with
  | nil => rfl
  | cons a as ih =>
      have htail : r.get (r.assign s (a :: as)) k =
          (as.lookupAll k).getLast?.getD (r.get (r.set s a.1 a.2) k) := ih (r.set s a.1 a.2)
      rw [htail, r.get_set]
      rcases a with ⟨k', v⟩
      by_cases hk : k = k'
      · subst hk
        rw [Function.update_self, List.lookupAll_cons_eq, List.getLast?_cons]
        rfl
      · rw [Function.update_of_ne hk, List.lookupAll_cons_ne _ ⟨k', v⟩ hk]

/-- The values assigned to a slot by a concatenation. -/
theorem lookupAll_append (k : κ) (as bs : List (Sigma β)) :
    (as ++ bs).lookupAll k = as.lookupAll k ++ bs.lookupAll k := by
  induction as with
  | nil => rfl
  | cons a as ih =>
      rcases a with ⟨k', v⟩
      rw [List.cons_append]
      by_cases hk : k = k'
      · subst hk
        rw [List.lookupAll_cons_eq, List.lookupAll_cons_eq, ih, List.cons_append]
      · rw [List.lookupAll_cons_ne _ ⟨k', v⟩ hk, List.lookupAll_cons_ne _ ⟨k', v⟩ hk, ih]

/-! ## Decoding -/

/-- Decoding and assigning input by input is decoding first and assigning then. -/
theorem fill_eq (r : Slots κ β σ) (decode : ι → Except ε (List (Sigma β))) (s : σ)
    (is : List ι) :
    r.fill decode s is = (is.mapM decode).map fun ass => r.assign s ass.flatten := by
  unfold fill
  induction is generalizing s with
  | nil => rfl
  | cons i is ih =>
      rw [List.foldlM_cons, List.mapM_cons]
      cases decode i with
      | error e => rfl
      | ok as =>
          have htail := ih (r.assign s as)
          cases hrest : is.mapM decode with
          | error e =>
              rw [hrest] at htail
              exact htail
          | ok ass =>
              rw [hrest] at htail
              have hjoin : r.assign (r.assign s as) ass.flatten =
                  r.assign s (as :: ass).flatten := by
                rw [List.flatten_cons, assign_append]
              exact htail.trans (congrArg Except.ok hjoin)

omit [DecidableEq κ] in
/-- Decoding every input yields a value for each of them. -/
theorem mapM_eq_ok_iff {α : Type} (f : ι → Except ε α) (is : List ι) (as : List α) :
    is.mapM f = .ok as ↔ List.Forall₂ (fun i a => f i = .ok a) is as := by
  induction is generalizing as with
  | nil => cases as <;> simp [pure, Except.pure]
  | cons i is ih =>
      rw [List.mapM_cons]
      cases hi : f i with
      | error e => cases as <;> simp [bind, Except.bind, hi]
      | ok a =>
          cases hrest : is.mapM f with
          | error e => cases as <;> simp [bind, Except.bind, ← ih, hrest, hi]
          | ok rest =>
              cases as <;> simp [bind, Except.bind, pure, Except.pure, ← ih, hrest, hi]

omit [DecidableEq κ] in
/-- Decoding all inputs succeeds exactly when decoding each of them does. -/
theorem mapM_ok_iff {α : Type} (f : ι → Except ε α) (is : List ι) :
    (∃ as, is.mapM f = .ok as) ↔ ∀ i ∈ is, ∃ a, f i = .ok a := by
  constructor
  · rintro ⟨as, h⟩ i hi
    have hall := (mapM_eq_ok_iff f is as).mp h
    clear h
    induction hall with
    | nil => cases hi
    | @cons j a is as hj _ ih =>
        rcases List.mem_cons.mp hi with rfl | htail
        · exact ⟨a, hj⟩
        · exact ih htail
  · intro h
    induction is with
    | nil => exact ⟨[], rfl⟩
    | cons i is ih =>
        rcases h i (by simp) with ⟨a, ha⟩
        rcases ih fun j hj => h j (by simp [hj]) with ⟨as, has⟩
        exact ⟨a :: as, (mapM_eq_ok_iff f _ _).mpr (.cons ha ((mapM_eq_ok_iff f _ _).mp has))⟩

/-- When the values each input assigns to a slot are known, so are those of all inputs. -/
theorem lookupAll_mapM {τ : Type} {decode : ι → Except ε (List (Sigma β))} {k : κ}
    {texts : ι → List τ} {read : τ → Option (β k)}
    (hone : ∀ i as, decode i = .ok as → (texts i).map read = (as.lookupAll k).map some)
    {is : List ι} {ass : List (List (Sigma β))} (h : is.mapM decode = .ok ass) :
    (is.flatMap texts).map read = (ass.flatten.lookupAll k).map some := by
  have hall := (mapM_eq_ok_iff decode is ass).mp h
  clear h
  induction hall with
  | nil => rfl
  | @cons i as is ass hi _ ih =>
      rw [List.flatMap_cons, List.map_append, List.flatten_cons, lookupAll_append,
        List.map_append, hone i as hi, ih]

/-- Filling succeeds exactly when every input decodes. -/
theorem fill_ok_iff (r : Slots κ β σ) (decode : ι → Except ε (List (Sigma β))) (s : σ)
    (is : List ι) :
    (∃ s', r.fill decode s is = .ok s') ↔ ∀ i ∈ is, ∃ as, decode i = .ok as := by
  rw [fill_eq, ← mapM_ok_iff]
  cases is.mapM decode <;> simp [Except.map]

end Slots
end OomHero
