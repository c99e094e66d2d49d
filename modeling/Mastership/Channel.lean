namespace Mastership

/-- What a reader gets from a channel: a message, or the number of messages it lost. -/
inductive Delivery (α : Type) where
  | lagged (count : Nat)
  | message (a : α)
deriving DecidableEq, Repr

/-- What a reader that has `unread` gets through a buffer of a capacity. One that is more than a buffer
behind is told how much it lost, and goes on with the oldest message still kept. -/
def Delivery.ofUnread {α : Type} (capacity : Nat) (unread : List α) : List (Delivery α) :=
  let lost := unread.length - capacity
  let kept := (unread.drop lost).map .message
  if lost = 0 then kept else .lagged lost :: kept

/-- A channel; `readers` holds, for each reader that ever subscribed, the messages it has not read,
or nothing once it has left. -/
structure Channel (α : Type) where
  capacity : Nat
  readers : List (Option (List α)) := []
deriving Repr

namespace Channel

variable {α : Type}

def maxBuffer : Nat := 0x7fffffffffffffff

/-- Capacity of a buffer: the size asked for, rounded up to a power of two. There is no empty
buffer, and none beyond `maxBuffer`. -/
def capacityFor (size : Nat) : Option Nat :=
  if size = 0 ∨ maxBuffer < size then none else some size.nextPowerOfTwo

def ofSize? (size : Nat) : Option (Channel α) :=
  (capacityFor size).map ({ capacity := · })

/-- A new reader, with its number. It gets what is sent from here on. -/
def subscribe (c : Channel α) : Channel α × Nat :=
  ({ c with readers := c.readers ++ [some []] }, c.readers.length)

def unsubscribe (c : Channel α) (reader : Nat) : Channel α :=
  { c with readers := c.readers.set reader none }

def readerCount (c : Channel α) : Nat := c.readers.countP Option.isSome

def send (c : Channel α) (a : α) : Channel α :=
  { c with readers := c.readers.map (·.map (· ++ [a])) }

def sendAll (c : Channel α) (as : List α) : Channel α :=
  { c with readers := c.readers.map (·.map (· ++ as)) }

/-- Reads until nothing is left to read. A reader that has left, or never was, gets no answer. -/
def drain (c : Channel α) (reader : Nat) : Channel α × Option (List (Delivery α)) :=
  match c.readers[reader]? with
  | some (some unread) =>
    ({ c with readers := c.readers.set reader (some []) },
      some (Delivery.ofUnread c.capacity unread))
  | _ => (c, none)

end Channel
end Mastership
