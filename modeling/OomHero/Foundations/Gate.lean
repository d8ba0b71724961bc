import OomHero.Foundations.Cache
import OomHero.Foundations.Transducer

/-!
# Foundations - Keyed gates

A keyed gate lets inputs pass or holds them back.  It decides on an input from
the record of the last input that passed under the same key, as far as a
bounded cache still remembers it: only an input that passes leaves a record.
Rate limiters and change filters are gates.

Main results:

- Theorem {lit}`Gate.get?_after_some`: whatever the cache evicts or discards, a
  remembered record is that of the last input that passed under its key.
- Theorem {lit}`Gate.get?_after`: while the passing keys fit the cache and
  nothing is discarded, that record is always remembered.
- Theorem {lit}`Gate.find?_run_after`: which input passes next under a key is
  decided by the last record under it.
- Theorem {lit}`Gate.thins_passed`: dropping inputs that were held back, or that
  have another key, changes nothing for a key.
- Theorem {lit}`Gate.passed_filter_key`: what passes under a key depends on the
  inputs under that key only.
- Theorem {lit}`Gate.passed_passed`: a gate keeps what it let pass before.
- Theorem {lit}`Gate.passed_map`: which inputs pass does not depend on what the
  gate does not look at.
- Theorem {lit}`Gate.passed_chain`: how far apart inputs come bounds how far apart they
  pass.
- Theorem {lit}`Gate.exists_victim_forgets`: one key more than fit can make the
  cache forget any of them.
-/

namespace OomHero

/-- A filter with one remembered record per key. -/
structure Gate (ι κ ν : Type) where
  key : ι → κ
  passes : Option ν → ι → Bool
  record : ι → ν
  /-- Keys the cache has discarded by the time the input arrives. -/
  lost : ι → List κ
  /-- The eviction choice of the insert the input may cause. -/
  victim : ι → Nat

namespace Gate

open Transducer

variable {ι κ ν : Type} [DecidableEq κ] {capacity : Nat}

/-- Decide on one input, and store its record when it passes. -/
def step (g : Gate ι κ ν) (c : Cache κ ν) (i : ι) : Cache κ ν × List ι :=
  let kept := c.discard (g.lost i)
  if g.passes (kept.get? (g.key i)) i then
    (kept.insert (g.victim i) (g.key i) (g.record i), [i])
  else (kept, [])

/-- The cache after a run from the empty cache. -/
def after (g : Gate ι κ ν) (capacity : Nat) (is : List ι) : Cache κ ν :=
  (run g.step (Cache.empty capacity) is).1

/-- The inputs that pass in a run from the empty cache. -/
def passed (g : Gate ι κ ν) (capacity : Nat) (is : List ι) : List ι :=
  (run g.step (Cache.empty capacity) is).2

/-- The record consulted for {lit}`i` when it arrives after {lit}`is`. -/
def slot (g : Gate ι κ ν) (capacity : Nat) (is : List ι) (i : ι) : Option ν :=
  ((g.after capacity is).discard (g.lost i)).get? (g.key i)

/-- The last input of a list with a given key. -/
def lastUnder (g : Gate ι κ ν) (k : κ) (is : List ι) : Option ι :=
  (is.filter fun i => g.key i = k).getLast?

@[simp]
theorem after_nil (g : Gate ι κ ν) : g.after capacity [] = Cache.empty capacity :=
  rfl

@[simp]
theorem passed_nil (g : Gate ι κ ν) : g.passed capacity [] = [] :=
  rfl

/-- A run continues from the cache its first part left. -/
theorem after_append (g : Gate ι κ ν) (is js : List ι) :
    g.after capacity (is ++ js) = (run g.step (g.after capacity is) js).1 := by
  unfold after
  rw [run_append]

theorem passed_append (g : Gate ι κ ν) (is js : List ι) :
    g.passed capacity (is ++ js) =
      g.passed capacity is ++ (run g.step (g.after capacity is) js).2 := by
  unfold passed after
  rw [run_append]

theorem after_concat (g : Gate ι κ ν) (is : List ι) (i : ι) :
    g.after capacity (is ++ [i]) =
      if g.passes (g.slot capacity is i) i then
        ((g.after capacity is).discard (g.lost i)).insert (g.victim i) (g.key i) (g.record i)
      else (g.after capacity is).discard (g.lost i) := by
  unfold after slot after
  rw [run_concat]
  unfold step
  dsimp only
  split <;> rfl

theorem passed_concat (g : Gate ι κ ν) (is : List ι) (i : ι) :
    g.passed capacity (is ++ [i]) =
      g.passed capacity is ++ if g.passes (g.slot capacity is i) i then [i] else [] := by
  unfold passed slot after
  rw [run_concat]
  unfold step
  dsimp only
  split <;> rfl

/-- One more input after a run. -/
theorem step_after (g : Gate ι κ ν) (is : List ι) (i : ι) :
    g.step (g.after capacity is) i =
      (g.after capacity (is ++ [i]), if g.passes (g.slot capacity is i) i then [i] else []) := by
  rw [after_concat]
  unfold step slot
  dsimp only
  split <;> rfl

/-- A run keeps the capacity. -/
@[simp]
theorem capacity_after (g : Gate ι κ ν) (is : List ι) :
    (g.after capacity is).capacity = capacity := by
  induction is using List.reverseRecOn with
  | nil => rfl
  | append_singleton is i ih =>
      rw [after_concat]
      split <;> simp [ih]

theorem lastUnder_concat (g : Gate ι κ ν) (k : κ) (is : List ι) (i : ι) :
    g.lastUnder k (is ++ [i]) = if g.key i = k then some i else g.lastUnder k is := by
  unfold lastUnder
  by_cases hk : g.key i = k <;> simp [List.filter_append, hk]

theorem lastUnder_append (g : Gate ι κ ν) (k : κ) (is js : List ι) :
    g.lastUnder k (is ++ js) = (g.lastUnder k js).or (g.lastUnder k is) := by
  unfold lastUnder
  rw [List.filter_append, List.getLast?_append]

/-- The last input under a key is one of the list, and has that key. -/
theorem lastUnder_some {g : Gate ι κ ν} {k : κ} {is : List ι} {i : ι}
    (h : g.lastUnder k is = some i) : i ∈ is ∧ g.key i = k := by
  have hmem := List.mem_of_getLast? h
  simpa using hmem

/-- Once an input has a key, the inputs with that key have a last one. -/
theorem exists_lastUnder {g : Gate ι κ ν} {k : κ} {is : List ι} {i : ι} (hi : i ∈ is)
    (hk : g.key i = k) :
    ∃ init last, (is.filter fun i => g.key i = k) = init ++ [last] ∧
      g.lastUnder k is = some last := by
  have hmem : i ∈ is.filter fun i => g.key i = k :=
    List.mem_filter.mpr ⟨hi, decide_eq_true hk⟩
  unfold lastUnder
  rcases List.eq_nil_or_concat' (is.filter fun i => g.key i = k) with hnil | ⟨init, last, hlast⟩
  · rw [hnil] at hmem
    cases hmem
  · refine ⟨init, last, hlast, ?_⟩
    rw [hlast, List.getLast?_concat]

/-! ## What passes -/

/-- A gate only drops inputs: what passes is a sublist. -/
theorem passed_sublist (g : Gate ι κ ν) (is : List ι) :
    (g.passed capacity is).Sublist is := by
  induction is using List.reverseRecOn with
  | nil => exact List.Sublist.refl _
  | append_singleton is i ih =>
      rw [passed_concat]
      apply ih.append
      split
      · exact List.Sublist.refl _
      · exact List.nil_sublist _

/-- What passed before stays passed. -/
theorem passed_prefix (g : Gate ι κ ν) {pre is : List ι} (hpre : pre <+: is) :
    g.passed capacity pre <+: g.passed capacity is := by
  obtain ⟨rest, rfl⟩ := hpre
  rw [passed_append]
  exact List.prefix_append _ _

/-- Every input that passed was admitted by some record. -/
theorem passes_of_mem_passed {g : Gate ι κ ν} {is : List ι} {i : ι}
    (h : i ∈ g.passed capacity is) : ∃ slot, g.passes slot i = true := by
  induction is using List.reverseRecOn with
  | nil => simp at h
  | append_singleton is j ih =>
      rw [passed_concat, List.mem_append] at h
      rcases h with hold | hnew
      · exact ih hold
      · split at hnew
        · rename_i hpass
          obtain rfl : i = j := by simpa using hnew
          exact ⟨_, hpass⟩
        · simp at hnew

/-! ## What is remembered -/

/--
However the cache evicts and discards, a remembered record belongs to the last
input that passed under its key.
-/
theorem get?_after_some {g : Gate ι κ ν} {is : List ι} {k : κ} {v : ν}
    (h : (g.after capacity is).get? k = some v) :
    (g.lastUnder k (g.passed capacity is)).map g.record = some v := by
  induction is using List.reverseRecOn generalizing v with
  | nil => simp at h
  | append_singleton is i ih =>
      have hdiscard : ∀ w, ((g.after capacity is).discard (g.lost i)).get? k = some w →
          (g.lastUnder k (g.passed capacity is)).map g.record = some w := by
        intro w hw
        rw [Cache.get?_discard] at hw
        split at hw
        · simp at hw
        · exact ih hw
      rw [after_concat] at h
      rw [passed_concat]
      split at h <;> rename_i hpass
      · have hcases := Cache.get?_insert_some h
        rw [if_pos hpass, lastUnder_concat]
        by_cases hk : k = g.key i
        · rw [if_pos hk] at hcases
          rw [if_pos hk.symm, hcases]
          rfl
        · rw [if_neg hk] at hcases
          rw [if_neg (Ne.symm hk)]
          exact hdiscard v hcases
      · rw [if_neg hpass, List.append_nil]
        exact hdiscard v h

/-- The record consulted for an input is that of the last one passed under its key. -/
theorem slot_some {g : Gate ι κ ν} {is : List ι} {i : ι} {v : ν}
    (h : g.slot capacity is i = some v) :
    (g.lastUnder (g.key i) (g.passed capacity is)).map g.record = some v := by
  unfold slot at h
  rw [Cache.get?_discard] at h
  split at h
  · simp at h
  · exact get?_after_some h

/--
The inputs leave the cache room and discard nothing: the keys of all inputs
that could pass fit the capacity together.
-/
structure Retains (g : Gate ι κ ν) (capacity : Nat) (is : List ι) : Prop where
  fits : ∃ keySet : Finset κ, keySet.card ≤ capacity ∧
    ∀ i ∈ is, (∃ slot, g.passes slot i = true) → g.key i ∈ keySet
  keeps : ∀ i ∈ is, g.lost i = []

omit [DecidableEq κ] in
theorem Retains.of_subset {g : Gate ι κ ν} {is js : List ι} (h : g.Retains capacity is)
    (hsub : ∀ j ∈ js, j ∈ is) : g.Retains capacity js := by
  obtain ⟨keySet, hcard, hmem⟩ := h.fits
  exact ⟨⟨keySet, hcard, fun j hj => hmem j (hsub j hj)⟩, fun j hj => h.keeps j (hsub j hj)⟩

/-- Without evictions the cache holds the last passed record of every key. -/
theorem get?_after {g : Gate ι κ ν} {is : List ι} (h : g.Retains capacity is) (k : κ) :
    (g.after capacity is).get? k = (g.lastUnder k (g.passed capacity is)).map g.record := by
  induction is using List.reverseRecOn with
  | nil => rfl
  | append_singleton is i ih =>
      have hold := ih (h.of_subset (by simp +contextual))
      have hdiscard : ((g.after capacity is).discard (g.lost i)).get? k =
          (g.after capacity is).get? k := by
        rw [h.keeps i (by simp), Cache.discard_nil]
      rw [after_concat, passed_concat]
      split <;> rename_i hpass
      · obtain ⟨keySet, hcard, hmem⟩ := h.fits
        have hkeys : ∀ j ∈ ((g.after capacity is).discard (g.lost i)).keys, j ∈ keySet := by
          intro j hj
          rw [Cache.mem_keys_iff, h.keeps i (by simp), Cache.discard_nil,
            Option.isSome_iff_exists] at hj
          obtain ⟨v, hv⟩ := hj
          obtain ⟨x, hx, -⟩ := Option.map_eq_some_iff.mp (get?_after_some hv)
          obtain ⟨hxp, hxk⟩ := lastUnder_some hx
          rw [← hxk]
          exact hmem x (by simp [(g.passed_sublist is).subset hxp]) (passes_of_mem_passed hxp)
        have hroom := Cache.room_of_subset hkeys (hmem i (by simp) ⟨_, hpass⟩)
          (by simpa using hcard)
        rw [Cache.get?_insert_of_room _ _ _ _ hroom, lastUnder_concat, hdiscard, hold]
        by_cases hk : k = g.key i
        · rw [if_pos hk, if_pos hk.symm]
          rfl
        · rw [if_neg hk, if_neg (Ne.symm hk)]
      · rw [hdiscard, hold, List.append_nil]

/-- Without evictions the consulted record is that of the last input passed
under the key. -/
theorem slot_eq {g : Gate ι κ ν} {is : List ι} {i : ι} (h : g.Retains capacity (is ++ [i])) :
    g.slot capacity is i =
      (g.lastUnder (g.key i) (g.passed capacity is)).map g.record := by
  unfold slot
  rw [h.keeps i (by simp), Cache.discard_nil]
  exact get?_after (h.of_subset (by simp +contextual)) _

/-- Histories that agree on what passed under a key consult the same record for it. -/
theorem slot_congr {g : Gate ι κ ν} {is js : List ι} {i : ι}
    (his : g.Retains capacity (is ++ [i])) (hjs : g.Retains capacity (js ++ [i]))
    (hsame : (g.passed capacity is).filter (fun j => g.key j = g.key i) =
      (g.passed capacity js).filter (fun j => g.key j = g.key i)) :
    g.slot capacity is i = g.slot capacity js i := by
  rw [slot_eq his, slot_eq hjs]
  unfold lastUnder
  rw [hsame]

/-- The next input to pass under a key is the first that the record of the last one
lets pass. -/
theorem find?_run_after {g : Gate ι κ ν} {pre is : List ι} {k : κ} {v : ν}
    (h : g.Retains capacity (pre ++ is))
    (hv : (g.lastUnder k (g.passed capacity pre)).map g.record = some v) :
    (run g.step (g.after capacity pre) is).2.find? (fun i => g.key i = k) =
      is.find? fun i => g.key i = k && g.passes (some v) i := by
  induction is generalizing pre with
  | nil => rfl
  | cons i is ih =>
      have hnext : g.Retains capacity (pre ++ [i] ++ is) := by
        rwa [List.append_assoc, List.singleton_append]
      rw [run_cons, step_after, List.find?_append, List.find?_cons]
      dsimp only
      by_cases hk : g.key i = k
      · have hslot : g.slot capacity pre i = some v := by
          rw [slot_eq (hnext.of_subset fun j hj => List.mem_append_left _ hj), hk, hv]
        rw [hslot]
        by_cases hpass : g.passes (some v) i = true
        · simp [hk, hpass]
        · have hheld : g.passed capacity (pre ++ [i]) = g.passed capacity pre := by
            rw [passed_concat, hslot, if_neg hpass, List.append_nil]
          rw [if_neg hpass, ih hnext (by rw [hheld, hv])]
          simp [hpass]
      · have hother : (g.lastUnder k (g.passed capacity (pre ++ [i]))).map g.record = some v := by
          rw [passed_concat]
          split
          · rw [lastUnder_concat, if_neg hk, hv]
          · rw [List.append_nil, hv]
        rw [ih hnext hother]
        split <;> simp [hk]

/-! ## Runs that agree on a key -/

/--
{lit}`Thins g capacity k is js` says that {lit}`js` is {lit}`is` without some
inputs that, when they arrived, had another key than {lit}`k` or were held back.
-/
inductive Thins (g : Gate ι κ ν) (capacity : Nat) (k : κ) : List ι → List ι → Prop
  | nil : Thins g capacity k [] []
  | keep {is js : List ι} (i : ι) (rest : Thins g capacity k is js) :
      Thins g capacity k (is ++ [i]) (js ++ [i])
  | drop {is js : List ι} (i : ι) (rest : Thins g capacity k is js)
      (inert : g.key i ≠ k ∨ g.passes (g.slot capacity is i) i = false) :
      Thins g capacity k (is ++ [i]) js

/-- Dropping inert inputs leaves what passes under a key unchanged. -/
theorem thins_passed {g : Gate ι κ ν} {k : κ} {is js : List ι}
    (hthin : Thins g capacity k is js) (his : g.Retains capacity is)
    (hjs : g.Retains capacity js) :
    (g.passed capacity is).filter (fun i => g.key i = k) =
      (g.passed capacity js).filter (fun i => g.key i = k) := by
  induction hthin with
  | nil => rfl
  | @keep is js i rest ih =>
      have hrest := ih (his.of_subset (by simp +contextual)) (hjs.of_subset (by simp +contextual))
      rw [passed_concat, passed_concat, List.filter_append, List.filter_append, hrest]
      congr 1
      by_cases hk : g.key i = k
      · rw [slot_congr his hjs (hk.symm ▸ hrest)]
      · split <;> split <;> simp [hk]
  | @drop is js i rest inert ih =>
      have hrest := ih (his.of_subset (by simp +contextual)) hjs
      rw [passed_concat, List.filter_append, hrest]
      rcases inert with hk | hheld
      · split <;> simp [hk]
      · simp [hheld]

/-- Dropping inert inputs leaves the record consulted for a later one unchanged. -/
theorem thins_slot {g : Gate ι κ ν} {is js : List ι} {i : ι}
    (hthin : Thins g capacity (g.key i) is js) (his : g.Retains capacity (is ++ [i]))
    (hjs : g.Retains capacity (js ++ [i])) : g.slot capacity is i = g.slot capacity js i :=
  slot_congr his hjs
    (thins_passed hthin (his.of_subset (by simp +contextual)) (hjs.of_subset (by simp +contextual)))

/-- Every list thins to itself. -/
theorem Thins.refl (g : Gate ι κ ν) (k : κ) (is : List ι) : Thins g capacity k is is := by
  induction is using List.reverseRecOn with
  | nil => exact .nil
  | append_singleton is i ih => exact .keep i ih

/-- Extending both lists alike preserves thinning. -/
theorem Thins.append {g : Gate ι κ ν} {k : κ} {is js : List ι}
    (h : Thins g capacity k is js) (post : List ι) :
    Thins g capacity k (is ++ post) (js ++ post) := by
  induction post using List.reverseRecOn with
  | nil => simpa using h
  | append_singleton post i ih =>
      rw [← List.append_assoc, ← List.append_assoc]
      exact .keep i ih

/-- Dropping every input under another key is a thinning. -/
theorem thins_filter_key (g : Gate ι κ ν) (k : κ) (is : List ι) :
    Thins g capacity k is (is.filter fun i => g.key i = k) := by
  induction is using List.reverseRecOn with
  | nil => exact .nil
  | append_singleton is i ih =>
      by_cases hk : g.key i = k
      · have hfilter : (is ++ [i]).filter (fun i => g.key i = k) =
            (is.filter fun i => g.key i = k) ++ [i] := by
          simp [List.filter_append, hk]
        rw [hfilter]
        exact .keep i ih
      · have hfilter : (is ++ [i]).filter (fun i => g.key i = k) =
            is.filter fun i => g.key i = k := by
          simp [List.filter_append, hk]
        rw [hfilter]
        exact .drop i ih (Or.inl hk)

/-- What passes under a key is what passes when only that key arrives. -/
theorem passed_filter_key {g : Gate ι κ ν} {is : List ι} (h : g.Retains capacity is) (k : κ) :
    (g.passed capacity is).filter (fun i => g.key i = k) =
      g.passed capacity (is.filter fun i => g.key i = k) := by
  have halone : g.Retains capacity (is.filter fun i => g.key i = k) :=
    h.of_subset fun _ hj => List.mem_of_mem_filter hj
  rw [thins_passed (thins_filter_key g k is) h halone]
  refine List.filter_eq_self.mpr fun i hi => ?_
  exact (List.mem_filter.mp ((g.passed_sublist _).subset hi)).2

/-- A gate keeps all it let pass when that arrives again. -/
theorem passed_passed {g : Gate ι κ ν} {is : List ι} (h : g.Retains capacity is) :
    g.passed capacity (g.passed capacity is) = g.passed capacity is := by
  induction is using List.reverseRecOn with
  | nil => rfl
  | append_singleton is i ih =>
      have hold := ih (h.of_subset (by simp +contextual))
      rw [passed_concat]
      split <;> rename_i hpass
      · have hsub : ∀ j ∈ g.passed capacity is ++ [i], j ∈ is ++ [i] := by
          intro j hj
          rw [List.mem_append] at hj ⊢
          exact hj.imp_left fun hj => (g.passed_sublist is).subset hj
        -- both runs have let the same inputs pass before {lit}`i`, so they agree on it
        have hslot := slot_congr (h.of_subset hsub) h (by rw [hold])
        rw [passed_concat, hold, hslot, if_pos hpass]
      · rw [List.append_nil, hold]

/-! ## Inputs that look alike to a gate -/

/-- Two gates that see the same in an input and in its image let the same inputs pass. -/
theorem passed_map {ι' : Type} {g : Gate ι κ ν} {g' : Gate ι' κ ν} {f : ι → ι'} {is : List ι}
    (hkey : ∀ i, g'.key (f i) = g.key i) (hrecord : ∀ i, g'.record (f i) = g.record i)
    (hpasses : ∀ slot i, g'.passes slot (f i) = g.passes slot i)
    (h : g.Retains capacity is) (h' : g'.Retains capacity (is.map f)) :
    g'.passed capacity (is.map f) = (g.passed capacity is).map f := by
  induction is using List.reverseRecOn with
  | nil => rfl
  | append_singleton is i ih =>
      rw [List.map_append, List.map_singleton] at h' ⊢
      have hold := ih (h.of_subset (by simp +contextual)) (h'.of_subset (by simp +contextual))
      have hlast : ∀ js : List ι, (g'.lastUnder (g.key i) (js.map f)).map g'.record =
          (g.lastUnder (g.key i) js).map g.record := by
        intro js
        unfold lastUnder
        simp only [List.filter_map, List.getLast?_map, Option.map_map, Function.comp_def, hkey,
          hrecord]
      have hslot : g'.slot capacity (is.map f) (f i) = g.slot capacity is i := by
        rw [slot_eq h', slot_eq h, hold, hkey, hlast]
      rw [passed_concat, passed_concat, hold, hslot, hpasses, List.map_append]
      split <;> rfl

/-! ## Inputs with distinct keys -/

/-- An input whose key is new finds no record. -/
theorem slot_of_fresh {g : Gate ι κ ν} {is : List ι} {i : ι}
    (hkeys : ((is ++ [i]).map g.key).Nodup) : g.slot capacity is i = none := by
  rw [List.map_append, List.map_singleton, List.nodup_append] at hkeys
  obtain ⟨-, -, hdistinct⟩ := hkeys
  by_contra hsome
  obtain ⟨v, hv⟩ := Option.ne_none_iff_exists'.mp hsome
  obtain ⟨j, hj, -⟩ := Option.map_eq_some_iff.mp (slot_some hv)
  obtain ⟨hpassed, hkey⟩ := lastUnder_some hj
  have hold : g.key j ∈ is.map g.key :=
    List.mem_map_of_mem ((g.passed_sublist is).subset hpassed)
  exact hdistinct (g.key j) hold (g.key i) (by simp) hkey

/-- Inputs with distinct keys all pass. -/
theorem passed_of_fresh {g : Gate ι κ ν} {is : List ι} (hkeys : (is.map g.key).Nodup)
    (hfresh : ∀ i ∈ is, g.passes none i = true) : g.passed capacity is = is := by
  induction is using List.reverseRecOn with
  | nil => rfl
  | append_singleton is i ih =>
      have hslot : g.slot capacity is i = none := slot_of_fresh hkeys
      rw [List.map_append, List.map_singleton, List.nodup_append] at hkeys
      rw [passed_concat, hslot, if_pos (hfresh i (by simp)),
        ih hkeys.1 fun j hj => hfresh j (List.mem_append_left _ hj)]

/-- As many of them as fit fill the cache. -/
theorem keys_after_fresh {g : Gate ι κ ν} {is : List ι} (hkeys : (is.map g.key).Nodup)
    (hfresh : ∀ i ∈ is, g.passes none i = true) (hkeeps : ∀ i ∈ is, g.lost i = [])
    (hlen : is.length ≤ capacity) {i : ι} (hi : i ∈ is) :
    g.key i ∈ (g.after capacity is).keys := by
  have hretains : g.Retains capacity is := by
    refine ⟨⟨(is.map g.key).toFinset, ?_, ?_⟩, hkeeps⟩
    · have hcard := List.toFinset_card_le (is.map g.key)
      rw [List.length_map] at hcard
      exact hcard.trans hlen
    · intro j hj _
      rw [List.mem_toFinset]
      exact List.mem_map_of_mem hj
  obtain ⟨_, last, _, hlast⟩ := exists_lastUnder (g := g) hi rfl
  rw [Cache.mem_keys_iff, get?_after hretains, passed_of_fresh hkeys hfresh, hlast]
  rfl

/-- Once inputs with distinct keys have filled the cache, the insert for another key
can make it forget any of them. -/
theorem exists_victim_forgets {g : Gate ι κ ν} {is : List ι} {i j : ι}
    (hkeys : ((is ++ [i]).map g.key).Nodup) (hfresh : ∀ x ∈ is, g.passes none x = true)
    (hkeeps : ∀ x ∈ is, g.lost x = []) (hlen : is.length = capacity) (hj : j ∈ is) :
    ∃ victim, ((g.after capacity is).insert victim (g.key i) (g.record i)).get? (g.key j) =
      none := by
  rw [List.map_append, List.map_singleton, List.nodup_append] at hkeys
  obtain ⟨hnodup, -, hdistinct⟩ := hkeys
  have hall : ∀ x ∈ is, g.key x ∈ (g.after capacity is).keys :=
    fun x hx => keys_after_fresh hnodup hfresh hkeeps hlen.le hx
  have hfull : (g.after capacity is).keys.length = capacity := by
    have hsub : is.map g.key ⊆ (g.after capacity is).keys := by
      intro k hk
      obtain ⟨x, hx, rfl⟩ := List.mem_map.mp hk
      exact hall x hx
    have hle := (List.subperm_of_subset hnodup hsub).length_le
    rw [List.length_map, hlen] at hle
    have hbounded := (g.after capacity is).bounded
    rw [capacity_after] at hbounded
    exact le_antisymm hbounded hle
  have hnew : g.key i ∉ (g.after capacity is).keys := by
    intro hmem
    rw [Cache.mem_keys_iff, Option.isSome_iff_exists] at hmem
    obtain ⟨v, hv⟩ := hmem
    obtain ⟨x, hx, -⟩ := Option.map_eq_some_iff.mp (get?_after_some hv)
    obtain ⟨hpassed, hkey⟩ := lastUnder_some hx
    exact hdistinct _ (List.mem_map_of_mem ((g.passed_sublist is).subset hpassed)) _ (by simp) hkey
  obtain ⟨victim, hget⟩ :=
    Cache.exists_victim (g.record i) (by rw [hfull, capacity_after]) hnew (hall j hj)
  refine ⟨victim, ?_⟩
  rw [hget, if_pos rfl]

/-! ## Inputs that keep coming -/

/-- The last input under a key has passed, or the record of the last one that passed
holds it back. -/
theorem exists_last_passed {g : Gate ι κ ν} (hfresh : ∀ i, g.passes none i = true) {k : κ}
    {is : List ι} {h : ι} (hlast : g.lastUnder k is = some h) :
    ∃ i, g.lastUnder k (g.passed capacity is) = some i ∧
      (i = h ∨ g.passes (some (g.record i)) h = false) := by
  induction is using List.reverseRecOn with
  | nil => cases hlast
  | append_singleton is j ih =>
      rw [lastUnder_concat] at hlast
      rw [passed_concat]
      by_cases hk : g.key j = k
      · rw [if_pos hk, Option.some_inj] at hlast
        subst hlast
        split <;> rename_i hpass
        · rw [lastUnder_concat, if_pos hk]
          exact ⟨j, rfl, Or.inl rfl⟩
        · cases hslot : g.slot capacity is j with
          | none =>
              rw [hslot] at hpass
              exact absurd (hfresh j) hpass
          | some v =>
              obtain ⟨i, hi, hv⟩ := Option.map_eq_some_iff.mp (slot_some hslot)
              rw [List.append_nil, ← hk]
              rw [hslot, ← hv, Bool.not_eq_true] at hpass
              exact ⟨i, hi, Or.inr hpass⟩
      · rw [if_neg hk] at hlast
        obtain ⟨i, hi, hheld⟩ := ih hlast
        refine ⟨i, ?_, hheld⟩
        split
        · rw [lastUnder_concat, if_neg hk, hi]
        · rw [List.append_nil, hi]

/-- Every input is answered: it has passed, or one under its key has whose record holds it
back. -/
theorem exists_passed_of_mem {g : Gate ι κ ν} (hfresh : ∀ i, g.passes none i = true)
    {is : List ι} {i : ι} (hi : i ∈ is) :
    ∃ j ∈ g.passed capacity is, g.key j = g.key i ∧
      (j = i ∨ g.passes (some (g.record j)) i = false) := by
  obtain ⟨pre, post, rfl⟩ := List.append_of_mem hi
  have hlast : g.lastUnder (g.key i) (pre ++ [i]) = some i := by
    rw [lastUnder_concat, if_pos rfl]
  obtain ⟨j, hj, hcases⟩ := g.exists_last_passed hfresh hlast
  obtain ⟨hmem, hkey⟩ := lastUnder_some hj
  have hprefix : pre ++ [i] <+: pre ++ i :: post := ⟨post, by simp⟩
  exact ⟨j, (g.passed_prefix hprefix).subset hmem, hkey, hcases⟩

/--
What consecutive inputs under a key are to each other, consecutive ones that pass are too,
if it carries over from an input that the record of another holds back to that other one.
-/
theorem passed_chain {g : Gate ι κ ν} (hfresh : ∀ i, g.passes none i = true) {k : κ}
    {R S : ι → ι → Prop} (hpassed : ∀ i j, R i j → S i j)
    (hheld : ∀ i h j, g.passes (some (g.record i)) h = false → R h j → S i j) {is : List ι}
    (hchain : (is.filter fun i => g.key i = k).IsChain R) :
    ((g.passed capacity is).filter fun i => g.key i = k).IsChain S := by
  induction is using List.reverseRecOn with
  | nil => exact .nil
  | append_singleton is j ih =>
      rw [List.filter_append, List.isChain_append] at hchain
      obtain ⟨hold, -, hnext⟩ := hchain
      rw [passed_concat, List.filter_append]
      by_cases hnew : g.passes (g.slot capacity is j) j = true ∧ g.key j = k
      · obtain ⟨hpass, hk⟩ := hnew
        have hsingle : ([j].filter fun i => g.key i = k) = [j] := by simp [hk]
        rw [hsingle] at hnext
        rw [if_pos hpass, hsingle, List.isChain_append]
        refine ⟨ih hold, .singleton j, fun i hi next hj => ?_⟩
        obtain rfl : j = next := by simpa using hj
        -- an input under the key has passed, so one came in last
        obtain ⟨hmem, hkey⟩ := lastUnder_some hi
        obtain ⟨_, h, -, hlast⟩ := exists_lastUnder ((g.passed_sublist is).subset hmem) hkey
        obtain ⟨i', hi', hcases⟩ := g.exists_last_passed hfresh hlast
        have hsame : g.lastUnder k (g.passed capacity is) = some i := hi
        rw [hi', Option.some_inj] at hsame
        subst hsame
        have hrelated : R h j := hnext h hlast j rfl
        rcases hcases with rfl | hback
        · exact hpassed _ _ hrelated
        · exact hheld _ _ _ hback hrelated
      · have hnone : ((if g.passes (g.slot capacity is j) j then [j] else []).filter
            fun i => g.key i = k) = [] := by
          split <;> rename_i hpass
          · have hk : ¬ g.key j = k := fun hk => hnew ⟨hpass, hk⟩
            simp [hk]
          · rfl
        rw [hnone, List.append_nil]
        exact ih hold

end Gate
end OomHero
