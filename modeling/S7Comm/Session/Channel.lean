import S7Comm.Session.Basic

/-!
# Channels

Reading, writing and control need little of a session: whether it is ready, the length of messages,
a reference for a request, the exchange of a request for its answer, and a way to have a fault
recorded. A `Channel` is that little, over any state. A session on a network gives one
(`Station.channel`); so does anything that answers messages, which is how the behaviour of reading
and writing can be stated against a controller that is given by what it does with items.
-/

namespace S7Comm

/-- What reading, writing and control need of a session, over states of type `S`. -/
structure Channel (S : Type) where
  /-- Refuses a state in which no request can be sent. -/
  checkReady : S → Except Error Unit
  /-- The length of the longest message. -/
  budget : S → UInt16
  /-- A reference for the next request. -/
  nextReference : S → UInt16 × S
  /-- Send a message and return the one that answers it. -/
  exchange : Bytes → Call S Bytes
  /-- Have a fault recorded. -/
  record : Fault → S → S

namespace Channel

variable {S α : Type}

/-- Fail unless a request can be sent. -/
def ensureReady (c : Channel S) : Call S Unit := fun s =>
  Call.ofExcept (c.checkReady s) s

/-- The length of the longest message. -/
def pduBudget (c : Channel S) : Call S UInt16 := fun s =>
  .ok (c.budget s) s

/-- Take a reference for the next request. -/
def allocate (c : Channel S) : Call S UInt16 := fun s =>
  let (reference, s) := c.nextReference s
  .ok reference s

/-- What was made of an answer. If the answer was one after which the session is of no use, the fault
is recorded. -/
def accept (c : Channel S) (result : Except Error α) : Call S α := fun s =>
  match result with
  | .ok value => .ok value s
  | .error e =>
    match e.fault? with
    | some fault => .error e (c.record fault s)
    | none => .error e s

end Channel

/-- A session on a network, as a channel. -/
def Station.channel {σ : Type} (peer : Peer σ) : Channel (Station σ) where
  checkReady st := st.session.checkReady
  budget st := st.session.pduLength
  nextReference st := (st.session.advance.reference, { st with session := st.session.advance })
  exchange := Station.exchange peer
  record fault st := st.markFaulted fault

end S7Comm
