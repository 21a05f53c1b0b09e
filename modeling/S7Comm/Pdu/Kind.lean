/-!
# Kinds of message

The second byte of every message says what it is: a job that a client gives, one of the two
acknowledgments that a controller answers with, or user data. The acknowledgments have two bytes
more in their header, an error class and an error code.
-/

namespace S7Comm.Pdu

/-- What a message is. -/
inductive Kind where
  /-- A request of a client. -/
  | job
  /-- An acknowledgment without data. -/
  | ack
  /-- An acknowledgment with parameters and data. -/
  | ackData
  /-- Extended user data. -/
  | userData
  deriving DecidableEq, Repr

namespace Kind

/-- The code of a kind. -/
def code : Kind → UInt8
  | .job => 0x01
  | .ack => 0x02
  | .ackData => 0x03
  | .userData => 0x07

/-- The kind of a code. -/
def ofCode? (code : UInt8) : Option Kind :=
  match code with
  | 0x01 => some .job
  | 0x02 => some .ack
  | 0x03 => some .ackData
  | 0x07 => some .userData
  | _ => none

/-- Whether the header has an error class and an error code. -/
def isAck : Kind → Bool
  | .ack | .ackData => true
  | _ => false

/-- The name of a kind in messages. -/
def name : Kind → String
  | .job => "Job"
  | .ack => "Ack"
  | .ackData => "AckData"
  | .userData => "UserData"

/-- A byte is read as a kind exactly if it is that kind's code. -/
theorem ofCode?_eq_some_iff {code : UInt8} {kind : Kind} :
    ofCode? code = some kind ↔ code = kind.code := by
  constructor
  · unfold ofCode?
    split <;> rintro ⟨⟩ <;> rfl
  · rintro rfl
    cases kind <;> rfl

end Kind

end S7Comm.Pdu
