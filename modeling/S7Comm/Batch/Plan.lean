import S7Comm.Error
import S7Comm.Item.Data
import S7Comm.Item.Request
import S7Comm.Pdu.Parameters

/-!
# Dividing a list of items into messages

Request and answer must each fit the agreed length. A list of items that is too long for one message
is divided into runs, one message for each, in the order of the list. The division is greedy: a run
takes the next item as long as request and answer still fit and the number of its items can be told.

**Counting.** `Load` is the length of one side of an exchange as it grows with the items, `Cost` what
an item adds to it: a fixed number of bytes, and, where the side carries a payload for the item, the
header of the payload, the payload, and a fill byte if the payload in front of it had an odd length.
That the last payload needs no fill byte is why the byte is counted with the item behind it.

**Main definitions.** `runs` is the division, `plan` the division unless an item does not even fit a
message of its own. What reading and writing add on either side are `readDemand` and `writeDemand`.

**Main statements.** The runs put together are the list (`flatten_runs`), and the division obeys the
equation that describes it: a first run as long as possible, and then the division of what is left
(`runs_cons`).
-/

namespace S7Comm.Batch

/-! ## Lengths of messages -/

/-- What one item adds to one side of an exchange. -/
structure Cost where
  /-- Bytes that are added as they are. -/
  fixed : Nat
  /-- The length of the payload, where there is one. -/
  payload : Option Nat
  deriving DecidableEq, Repr

/-- The length of one side of an exchange, while items are added to it. -/
structure Load where
  /-- Its bytes. -/
  total : Nat
  /-- Whether the last payload has an odd length, so that the next one is preceded by a fill byte. -/
  odd : Bool
  deriving DecidableEq, Repr

/-- The load after adding an item. -/
def Load.add (load : Load) (cost : Cost) : Load :=
  match cost.payload with
  | none => { load with total := load.total + cost.fixed }
  | some length =>
    { total := load.total + cost.fixed + (if load.odd then 1 else 0) + DataItem.headerLength + length
      odd := length % 2 == 1 }

/-- What one item adds to the two sides of an exchange. -/
structure Demand where
  /-- What it adds to the request. -/
  request : Cost
  /-- What it adds to the answer. -/
  response : Cost
  deriving DecidableEq, Repr

/-- The two sides of an exchange, while items are added to them. -/
structure Frame where
  /-- The request. -/
  request : Load
  /-- The answer. -/
  response : Load
  deriving DecidableEq, Repr

namespace Frame

/-- An exchange without items: headers, and function and number of items on either side. -/
def empty : Frame :=
  { request := { total := Pdu.jobHeaderLength + Pdu.Access.countLength, odd := false }
    response := { total := Pdu.ackHeaderLength + Pdu.Access.countLength, odd := false } }

/-- The exchange after adding an item. -/
def add (frame : Frame) (demand : Demand) : Frame :=
  { request := frame.request.add demand.request, response := frame.response.add demand.response }

/-- The length of the longer side. -/
def size (frame : Frame) : Nat :=
  max frame.request.total frame.response.total

/-- Whether both sides fit a length. -/
def fits (frame : Frame) (limit : Nat) : Bool :=
  frame.request.total ≤ limit && frame.response.total ≤ limit

end Frame

/-! ## The greedy division -/

section Division

variable {α : Type} (demand : α → Demand) (limit : Nat)

/-- The items at the front of a list that join an exchange, at most `room` of them, and the items
that are left. -/
def extend : (room : Nat) → Frame → List α → List α × List α
  | _, _, [] => ([], [])
  | 0, _, item :: items => ([], item :: items)
  | room + 1, frame, item :: items =>
    if (frame.add (demand item)).fits limit then
      let (run, later) := extend room (frame.add (demand item)) items
      (item :: run, later)
    else ([], item :: items)

/-- Nothing is lost by extending a run, and nothing changes its place. -/
theorem extend_append (room : Nat) (frame : Frame) (items : List α) :
    (extend demand limit room frame items).1 ++ (extend demand limit room frame items).2 = items := by
  fun_induction extend demand limit room frame items with
  | case1 => rfl
  | case2 => rfl
  | case3 room frame item items h run later heq ih =>
    rw [heq] at ih
    exact congrArg (item :: ·) ih
  | case4 => rfl

/-- What is left is not longer than the list. -/
theorem length_extend_le (room : Nat) (frame : Frame) (items : List α) :
    (extend demand limit room frame items).2.length ≤ items.length := by
  have h := congrArg List.length (extend_append demand limit room frame items)
  rw [List.length_append] at h
  omega

/-- The run that begins with an item, and the items that are left. The first item is taken in any
case. -/
def firstRun (item : α) (items : List α) : List α × List α :=
  let (run, later) :=
    extend demand limit (Pdu.Access.maxItems - 1) (Frame.empty.add (demand item)) items
  (item :: run, later)

/-- The division of a list, behind runs that have been divided off before, the last one first. -/
def runsFrom (done : List (List α)) : List α → List (List α)
  | [] => done.reverse
  | item :: items => runsFrom ((firstRun demand limit item items).1 :: done)
      (firstRun demand limit item items).2
  termination_by items => items.length
  decreasing_by
    exact Nat.lt_succ_of_le (length_extend_le demand limit _ _ items)

/-- The division of a list into runs. -/
def runs (items : List α) : List (List α) :=
  runsFrom demand limit [] items

/-- Runs that have been divided off before stay in front. -/
theorem runsFrom_eq (done : List (List α)) (items : List α) :
    runsFrom demand limit done items = done.reverse ++ runs demand limit items := by
  match items with
  | [] => simp [runs, runsFrom]
  | item :: items =>
    have h := runsFrom_eq ((firstRun demand limit item items).1 :: done)
      (firstRun demand limit item items).2
    have h' := runsFrom_eq [(firstRun demand limit item items).1]
      (firstRun demand limit item items).2
    simp only [runs] at h h' ⊢
    simp [runsFrom, h, h']
  termination_by items.length
  decreasing_by
    all_goals exact Nat.lt_succ_of_le (length_extend_le demand limit _ _ _)

/-- Nothing to divide gives no run. -/
@[simp]
theorem runs_nil : runs demand limit ([] : List α) = [] := by
  simp [runs, runsFrom]

/-- A division is a first run, as long as possible, and the division of what is left. -/
theorem runs_cons (item : α) (items : List α) :
    runs demand limit (item :: items) =
      (firstRun demand limit item items).1 ::
        runs demand limit (firstRun demand limit item items).2 := by
  rw [runs, runsFrom, runsFrom_eq]
  rfl

/-- The runs of a division, put together, are the list. -/
theorem flatten_runs (items : List α) : (runs demand limit items).flatten = items := by
  match items with
  | [] => simp
  | item :: items =>
    rw [runs_cons, List.flatten_cons, flatten_runs]
    exact congrArg (item :: ·) (extend_append demand limit _ _ items)
  termination_by items.length
  decreasing_by
    exact Nat.lt_succ_of_le (length_extend_le demand limit _ _ items)

end Division

/-! ## Plans -/

/-- The division of a list for a length of messages, if each of its items fits a message of its own.
Otherwise the first item that does not is reported, with the length that it would take. -/
def plan {α : Type} (demand : α → Demand) (budget : UInt16) (items : List α) :
    Except Error (List (List α)) :=
  let alone (item : α) : Frame := Frame.empty.add (demand item)
  match items.zipIdx.find? fun (item, _) => !(alone item).fits budget.toNat with
  | some (item, index) => .error (.itemTooLarge index (alone item).size budget)
  | none => .ok (runs demand budget.toNat items)

/-- What an item to be read adds: itself to the request, and to the answer its payload. The payload
of an item of a numerical control is not known beforehand, and is not counted. -/
def readDemand (item : RequestItem) : Demand :=
  { request := { fixed := item.encodedLength, payload := none }
    response := { fixed := 0, payload := item.dataLength? } }

/-- What an item to be written adds: itself and its payload to the request, and to the answer its
return code. -/
def writeDemand (pair : RequestItem × DataItem) : Demand :=
  { request := { fixed := pair.1.encodedLength, payload := some pair.2.payload.length }
    response := { fixed := 1, payload := none } }

/-- The messages for reading some items. -/
def planReads (budget : UInt16) (items : List RequestItem) : Except Error (List (List RequestItem)) :=
  plan readDemand budget items

/-- The messages for writing data to some items. -/
def planWrites (budget : UInt16) (pairs : List (RequestItem × DataItem)) :
    Except Error (List (List (RequestItem × DataItem))) :=
  plan writeDemand budget pairs

end S7Comm.Batch
