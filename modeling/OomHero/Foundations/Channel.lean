import Mathlib.Tactic

/-!
# Foundations - Channels

An unbounded channel from its senders to one receiver, with its history.  A message that
is sent waits in a queue until it is received.  When the receiver is gone, the messages
in the queue and all later ones are dropped.

Main results:

- Field {lit}`Channel.accounted`: every message sent was received, is in the queue or
  was dropped, in the order in which it was sent.
- Theorem {lit}`Channel.received_prefix`: what is received is what was sent first.
-/

namespace OomHero

/-- A channel with its history. -/
structure Channel (α : Type) where
  sent : List α
  received : List α
  queue : List α
  dropped : List α
  /-- Whether the receiver is still there. -/
  connected : Bool
  accounted : received ++ queue ++ dropped = sent
  kept : connected = true → dropped = []
  released : connected = false → queue = []

namespace Channel

variable {α : Type}

/-- The channel before the first message. -/
def empty : Channel α where
  sent := []
  received := []
  queue := []
  dropped := []
  connected := true
  accounted := rfl
  kept := fun _ => rfl
  released := fun _ => rfl

/-- Send a message.  It is dropped when the receiver is gone. -/
def send (c : Channel α) (a : α) : Channel α :=
  if h : c.connected = true then
    { c with
      sent := c.sent ++ [a]
      queue := c.queue ++ [a]
      accounted := by rw [← c.accounted, c.kept h]; simp
      released := fun hgone => by rw [h] at hgone; cases hgone }
  else
    { c with
      sent := c.sent ++ [a]
      dropped := c.dropped ++ [a]
      accounted := by rw [← c.accounted, List.append_assoc (c.received ++ c.queue)]
      kept := fun hthere => absurd hthere h }

/-- Receive the first message of the queue. -/
def receive? (c : Channel α) : Option (α × Channel α) :=
  match hqueue : c.queue with
  | [] => none
  | a :: rest =>
      some (a, { c with
        received := c.received ++ [a]
        queue := rest
        accounted := by rw [← c.accounted, hqueue]; simp
        released := fun hgone => by rw [c.released hgone] at hqueue; cases hqueue })

/-- The receiver goes away. -/
def disconnect (c : Channel α) : Channel α :=
  { c with
    queue := []
    dropped := c.queue ++ c.dropped
    connected := false
    accounted := by rw [← c.accounted, List.append_nil, List.append_assoc]
    kept := nofun
    released := fun _ => rfl }

/-! ## What the operations change -/

@[simp]
theorem sent_send (c : Channel α) (a : α) : (c.send a).sent = c.sent ++ [a] := by
  unfold send
  split <;> rfl

@[simp]
theorem received_send (c : Channel α) (a : α) : (c.send a).received = c.received := by
  unfold send
  split <;> rfl

@[simp]
theorem connected_send (c : Channel α) (a : α) : (c.send a).connected = c.connected := by
  unfold send
  split <;> rfl

@[simp]
theorem sent_disconnect (c : Channel α) : c.disconnect.sent = c.sent :=
  rfl

@[simp]
theorem received_disconnect (c : Channel α) : c.disconnect.received = c.received :=
  rfl

/-- Receiving takes the first message of the queue and changes nothing else. -/
theorem receive?_eq_some {c c' : Channel α} {a : α} (h : c.receive? = some (a, c')) :
    c.queue = a :: c'.queue ∧ c'.received = c.received ++ [a] ∧ c'.sent = c.sent := by
  unfold receive? at h
  split at h
  · cases h
  · rename_i b rest hqueue
    cases h
    exact ⟨hqueue, rfl, rfl⟩

theorem connected_receive? {c c' : Channel α} {a : α} (h : c.receive? = some (a, c')) :
    c'.connected = c.connected := by
  unfold receive? at h
  split at h
  · cases h
  · cases h
    rfl

/-- A message can be received exactly when the queue has one. -/
theorem receive?_isSome_iff (c : Channel α) : c.receive?.isSome = true ↔ c.queue ≠ [] := by
  unfold receive?
  split <;> rename_i hqueue <;> simp [hqueue]

/-! ## What is received -/

/-- What is received is what was sent first. -/
theorem received_prefix (c : Channel α) : c.received <+: c.sent := by
  rw [← c.accounted, List.append_assoc]
  exact List.prefix_append _ _

/-- All that was sent to a receiver that emptied the queue and did not go away was
received. -/
theorem received_eq_sent {c : Channel α} (hqueue : c.queue = []) (hthere : c.connected = true) :
    c.received = c.sent := by
  have hall := c.accounted
  rwa [hqueue, c.kept hthere, List.append_nil, List.append_nil] at hall

end Channel
end OomHero
