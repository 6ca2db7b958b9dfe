/-!
Contract: messages sent to any number of subscribers.

A channel keeps the last messages, as many as its size, which is a power of two.
A subscriber receives the messages sent after it came, in order. One that falls
so far behind that messages are lost is told once how many, and goes on with the
oldest message kept.

Owns: channels, subscribers and what they receive.
Does not own: what the messages say.
-/

namespace Depot

structure Channel (α : Type) where
  size : Nat
  /-- The number of messages sent so far. -/
  sent : Nat
  /-- The last messages, the oldest first. -/
  kept : List α

/-- Where a subscriber stands: the number of messages that lie behind it. -/
structure Subscriber where
  passed : Nat
deriving DecidableEq, Repr

inductive Received (α : Type) where
  | nothing
  | lagged (count : Nat)
  | message (message : α)

namespace Channel

variable {α : Type}

/-- The size of a channel made for a number of messages. -/
def sizeFor (capacity : Nat) : Nat :=
  (max capacity 1).nextPowerOfTwo

def withCapacity (capacity : Nat) : Channel α :=
  ⟨sizeFor capacity, 0, []⟩

/-- The number of messages that channels are made for. -/
def usualCapacity : Nat := 32

def send (channel : Channel α) (message : α) : Channel α :=
  let kept := channel.kept ++ [message]
  { channel with
    sent := channel.sent + 1
    kept := kept.drop (kept.length - channel.size) }

def subscribe (channel : Channel α) : Subscriber := ⟨channel.sent⟩

def lost (channel : Channel α) : Nat :=
  channel.sent - channel.kept.length

/-- What the subscriber receives next, and where it stands then. -/
def receive (channel : Channel α) (subscriber : Subscriber) : Received α × Subscriber :=
  if subscriber.passed < channel.lost then
    (.lagged (channel.lost - subscriber.passed), ⟨channel.lost⟩)
  else
    match channel.kept[subscriber.passed - channel.lost]? with
    | none => (.nothing, subscriber)
    | some message => (.message message, ⟨subscriber.passed + 1⟩)

end Channel

end Depot
