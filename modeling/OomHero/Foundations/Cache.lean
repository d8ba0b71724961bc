import Mathlib.Data.List.AList
import Mathlib.Tactic

/-!
# Foundations - Bounded caches

A bounded cache is a map that holds at most {lit}`capacity` keys.  An insert
that takes it past the capacity drops one entry, and which one is up to the
cache: every insert receives a {lit}`victim`, an arbitrary number that selects
the dropped entry, so a statement over all victims is a statement over all
eviction choices.  A cache may also lose entries between two operations, for
whatever reason: a statement over all lost keys is one over all caches that hold
under a key the last value stored there, or nothing.

Main results:

- Theorem {lit}`Cache.get?_insert_some`: whatever is evicted, a stored value is
  the inserted one or one that was already there.
- Theorem {lit}`Cache.get?_insert_of_room`: with room left, an insert is a map
  update.
- Theorem {lit}`Cache.exists_victim`: the victims reach every entry of an
  overfull cache.
-/

namespace OomHero

/-- A map with at most {lit}`capacity` keys. -/
structure Cache (κ ν : Type) [DecidableEq κ] where
  capacity : Nat
  store : AList (fun _ : κ => ν)
  bounded : store.keys.length ≤ capacity

namespace Cache

variable {κ ν : Type} [DecidableEq κ]

/-- The cache before the first insert. -/
def empty (capacity : Nat) : Cache κ ν where
  capacity := capacity
  store := ∅
  bounded := by simp

/-- The value under a key, if the cache still has one. -/
def get? (c : Cache κ ν) (k : κ) : Option ν :=
  c.store.lookup k

/-- The keys the cache holds a value for. -/
def keys (c : Cache κ ν) : List κ :=
  c.store.keys

/-- The key a victim selects in an overfull store. -/
def evicted (victim : Nat) (store : AList (fun _ : κ => ν)) : Option κ :=
  store.keys[victim % store.keys.length]?

/-- Drop the selected entry of a store. -/
def evict (victim : Nat) (store : AList (fun _ : κ => ν)) : AList (fun _ : κ => ν) :=
  match evicted victim store with
  | none => store
  | some k => store.erase k

/-- Evicting from a nonempty store removes exactly one key. -/
theorem evict_keys_length (victim : Nat) (store : AList (fun _ : κ => ν)) :
    (evict victim store).keys.length = store.keys.length - 1 := by
  unfold evict evicted
  rcases Nat.eq_zero_or_pos store.keys.length with hzero | hpos
  · simp [List.length_eq_zero_iff.mp hzero]
  · have hlt : victim % store.keys.length < store.keys.length := Nat.mod_lt _ hpos
    rw [List.getElem?_eq_getElem hlt]
    simp only [AList.keys_erase]
    exact List.length_erase_of_mem (List.getElem_mem hlt)

/-- Adding one key to a store adds at most one to its size. -/
theorem insert_keys_length_le (k : κ) (v : ν) (store : AList (fun _ : κ => ν)) :
    (store.insert k v).keys.length ≤ store.keys.length + 1 := by
  rw [AList.keys_insert, List.length_cons]
  exact Nat.succ_le_succ List.length_erase_le

/-- Insert a value.  Past the capacity, the entry the victim selects is dropped. -/
def insert (c : Cache κ ν) (victim : Nat) (k : κ) (v : ν) : Cache κ ν :=
  let stored := c.store.insert k v
  if h : stored.keys.length ≤ c.capacity then
    { c with store := stored, bounded := h }
  else
    { c with
      store := evict victim stored
      bounded := by
        have hgrow : stored.keys.length ≤ c.store.keys.length + 1 :=
          insert_keys_length_le k v c.store
        have hfit := c.bounded
        rw [evict_keys_length]
        omega }

/-- Drop the entries of all lost keys. -/
def discard (c : Cache κ ν) (lost : List κ) : Cache κ ν where
  capacity := c.capacity
  store :=
    { entries := c.store.entries.filter fun e => e.1 ∉ lost
      nodupKeys := c.store.nodupKeys.sublist List.filter_sublist }
  bounded := by
    have hlen : (c.store.entries.filter fun e => e.1 ∉ lost).length ≤
        c.store.entries.length := List.length_filter_le _ _
    have hfit := c.bounded
    simp only [AList.keys, List.keys, List.length_map] at hfit ⊢
    omega

/-! ## Lookups -/

@[simp]
theorem get?_empty (capacity : Nat) (k : κ) : (empty capacity : Cache κ ν).get? k = none :=
  rfl

/-- A key is held exactly when its lookup succeeds. -/
theorem mem_keys_iff (c : Cache κ ν) (k : κ) :
    k ∈ c.keys ↔ (c.get? k).isSome := by
  unfold keys get?
  rw [AList.lookup_isSome, AList.mem_keys]

theorem keys_nodup (c : Cache κ ν) : c.keys.Nodup :=
  c.store.keys_nodup

/-- Lookups after a plain map update. -/
theorem lookup_insert_eq (store : AList (fun _ : κ => ν)) (k j : κ) (v : ν) :
    (store.insert k v).lookup j = if j = k then some v else store.lookup j := by
  by_cases hj : j = k
  · subst j
    simp
  · rw [AList.lookup_insert_ne hj, if_neg hj]

/-- Eviction invents no entry. -/
theorem lookup_evict_some {victim : Nat} {store : AList (fun _ : κ => ν)} {j : κ} {w : ν}
    (h : (evict victim store).lookup j = some w) : store.lookup j = some w := by
  unfold evict at h
  split at h
  · exact h
  · rename_i k hk
    by_cases hj : j = k
    · subst j
      simp at h
    · rwa [AList.lookup_erase_ne hj] at h

/-- The store an insert leaves behind. -/
theorem store_insert (c : Cache κ ν) (victim : Nat) (k : κ) (v : ν) :
    (c.insert victim k v).store =
      if (c.store.insert k v).keys.length ≤ c.capacity then c.store.insert k v
      else evict victim (c.store.insert k v) := by
  unfold insert
  dsimp only
  split <;> rfl

/-- An insert with room left is a map update. -/
theorem get?_insert_of_room (c : Cache κ ν) (victim : Nat) (k : κ) (v : ν)
    (hroom : k ∈ c.keys ∨ c.keys.length < c.capacity) (j : κ) :
    (c.insert victim k v).get? j = if j = k then some v else c.get? j := by
  have hlen : (c.store.insert k v).keys.length ≤ c.capacity := by
    rcases hroom with hmem | hlt
    · have herase := List.length_erase_of_mem hmem
      have hpos := List.length_pos_of_mem hmem
      have hfit := c.bounded
      unfold keys at herase hpos
      rw [AList.keys_insert, List.length_cons, herase]
      omega
    · exact (insert_keys_length_le k v c.store).trans hlt
  unfold get?
  rw [store_insert, if_pos hlen]
  exact lookup_insert_eq c.store k j v

/-- Whatever an insert evicts, a value it leaves behind is the inserted one or
an old one. -/
theorem get?_insert_some {c : Cache κ ν} {victim : Nat} {k j : κ} {v w : ν}
    (h : (c.insert victim k v).get? j = some w) :
    if j = k then w = v else c.get? j = some w := by
  have hstored : (c.store.insert k v).lookup j = some w := by
    unfold get? at h
    rw [store_insert] at h
    split at h
    · exact h
    · exact lookup_evict_some h
  rw [lookup_insert_eq] at hstored
  by_cases hj : j = k
  · simpa [hj, eq_comm] using hstored
  · rw [if_neg hj] at hstored ⊢
    exact hstored

@[simp]
theorem capacity_insert (c : Cache κ ν) (victim : Nat) (k : κ) (v : ν) :
    (c.insert victim k v).capacity = c.capacity := by
  unfold insert
  dsimp only
  split <;> rfl

@[simp]
theorem capacity_discard (c : Cache κ ν) (lost : List κ) :
    (c.discard lost).capacity = c.capacity :=
  rfl

/-- Discarding removes exactly the lost keys. -/
@[simp]
theorem get?_discard (c : Cache κ ν) (lost : List κ) (k : κ) :
    (c.discard lost).get? k = if k ∈ lost then none else c.get? k := by
  have key : ∀ entries : List (Sigma fun _ : κ => ν),
      (entries.filter fun e => e.1 ∉ lost).dlookup k =
        if k ∈ lost then none else entries.dlookup k := by
    intro entries
    simp only [decide_not]
    induction entries with
    | nil => simp
    | cons e entries ih =>
        rcases e with ⟨j, w⟩
        by_cases hk : k = j
        · subst j
          by_cases hlost : k ∈ lost <;> simp [hlost, ih]
        · have hskip : ∀ es : List (Sigma fun _ : κ => ν),
              List.dlookup k (⟨j, w⟩ :: es) = es.dlookup k :=
            fun es => List.dlookup_cons_ne es (⟨j, w⟩ : Sigma fun _ : κ => ν) hk
          by_cases hlost : j ∈ lost <;> simp [hlost, hskip, ih]
  exact key c.store.entries

/-- Losing nothing changes nothing. -/
@[simp]
theorem discard_nil (c : Cache κ ν) : c.discard [] = c := by
  cases c
  simp [discard]

/-- A cache whose keys lie in a small set has room for every key of the set. -/
theorem room_of_subset {c : Cache κ ν} {keySet : Finset κ} {k : κ}
    (hsub : ∀ j ∈ c.keys, j ∈ keySet) (hk : k ∈ keySet) (hcard : keySet.card ≤ c.capacity) :
    k ∈ c.keys ∨ c.keys.length < c.capacity := by
  by_cases hmem : k ∈ c.keys
  · exact Or.inl hmem
  · right
    have hcons : (k :: c.keys).Nodup := List.nodup_cons.mpr ⟨hmem, c.keys_nodup⟩
    have hall : (k :: c.keys).toFinset ⊆ keySet := by
      intro j hj
      rw [List.mem_toFinset, List.mem_cons] at hj
      rcases hj with rfl | hj
      · exact hk
      · exact hsub j hj
    have hle := Finset.card_le_card hall
    rw [List.toFinset_card_of_nodup hcons, List.length_cons] at hle
    omega

/-! ## Reach of the eviction choices -/

/-- Some victim makes an insert into a full cache drop any chosen entry. -/
theorem exists_victim {c : Cache κ ν} {k j : κ} (v : ν)
    (hfull : c.keys.length = c.capacity) (hk : k ∉ c.keys) (hj : j ∈ c.keys) :
    ∃ victim, ∀ i, (c.insert victim k v).get? i =
      if i = j then none else if i = k then some v else c.get? i := by
  have hstored : (c.store.insert k v).keys = k :: c.keys := by
    rw [AList.keys_insert, List.erase_of_not_mem (by simpa [keys] using hk)]
    rfl
  have hover : ¬ (c.store.insert k v).keys.length ≤ c.capacity := by
    rw [hstored, List.length_cons]
    omega
  obtain ⟨index, hindex, hget⟩ := List.getElem_of_mem (List.mem_cons_of_mem k hj)
  refine ⟨index, fun i => ?_⟩
  have hevicted : evicted index (c.store.insert k v) = some j := by
    unfold evicted
    rw [hstored, Nat.mod_eq_of_lt hindex, List.getElem?_eq_getElem hindex, hget]
  unfold get?
  rw [store_insert, if_neg hover]
  simp only [evict, hevicted]
  by_cases hij : i = j
  · subst i
    simp
  · rw [AList.lookup_erase_ne hij, lookup_insert_eq, if_neg hij]

end Cache
end OomHero
