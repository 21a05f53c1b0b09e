import S7Comm.Address.Basic
import S7Comm.Call
import S7Comm.Item.Data
import S7Comm.Item.Request

/-!
# Ranges of bytes

A range can be longer than what one item of a message can carry. It is then divided into pieces of a
fixed length, the last one being shorter: `spans` gives the pieces of a range by their offsets,
`pieces` those of given bytes. The length is chosen so that a piece fills a message (`readPiece`,
`writePiece`); it is at least two bytes in reading, where it is also even, so that no fill byte is
needed, and at least one in writing.

`rangeItems` and `rangeWrites` make the items of the pieces. A range that reaches out of the area is
refused at the first piece that begins outside. The reading of a range goes from piece to piece, so
that it ends there however long the range is; `rangeItems_eq_mapM` says that it takes the pieces of
`spans` one after the other.

**Room.** The items are collected in a row, and room for all of them is reserved before the first is
made: for `pieceCount piece total` items, whether or not the range stays inside the area. Memory has
its limits, and a program that asks for more ends there, with no outcome (`reserving`). So that the
reading of an absurdly long range need not be refused, though it could never be carried out. All other
room that is reserved in reading and writing is for bytes and items that are there already, or for no
more than a message can have; of that nothing is said here.
-/

namespace S7Comm.Client

/-- The length of the pieces in which a range is read. In front of the payload of a single item an
answer has 18 bytes. -/
def readPiece (budget : UInt16) : Nat :=
  max 2 ((budget.toNat - 18) / 2 * 2)

/-- The length of the pieces in which a range is written. In front of the payload of a single item a
request has 28 bytes. -/
def writePiece (budget : UInt16) : Nat :=
  max 1 (budget.toNat - 28)

/-! ## Room -/

/-- The number of pieces of a range of `total` bytes. -/
def pieceCount (piece total : Nat) : Nat :=
  (total + piece - 1) / piece

/-- The piece of a number: its offset and its length. -/
def span (piece total i : Nat) : Nat × Nat :=
  (i * piece, min piece (total - i * piece))

/-- The pieces of a range of `total` bytes, each by its offset and its length. -/
def spans (piece total : Nat) : List (Nat × Nat) :=
  (List.range (pieceCount piece total)).map (span piece total)

/-- A piece has a number exactly if it begins within the range. -/
theorem lt_pieceCount_iff {piece : Nat} (h : 0 < piece) (total i : Nat) :
    i < pieceCount piece total ↔ i * piece < total := by
  rw [pieceCount, Nat.lt_iff_add_one_le, Nat.le_div_iff_mul_le h, Nat.add_mul, Nat.one_mul]
  omega

/-- The item for one piece of a range, which is given by its offset and its length. -/
def pieceItem (address : Address) (piece : Nat × Nat) : Except ArgumentError RequestItem := do
  let start ← address.advance piece.1
  let item ← StandardItem.bytes start (UInt16.ofNat piece.2)
  return .standard item

/-- The items for the pieces of a range from one piece on, behind items that have been made before,
the last one first. -/
def rangeItemsFrom (address : Address) (piece total : Nat) (done : List RequestItem) (i : Nat) :
    Except ArgumentError (List RequestItem) :=
  if i < pieceCount piece total then
    match pieceItem address (span piece total i) with
    | .ok item => rangeItemsFrom address piece total (item :: done) (i + 1)
    | .error e => .error e
  else .ok done.reverse
  termination_by pieceCount piece total - i

/-- The items for a range of bytes, divided into pieces. Before they are made, room for all of them has
been reserved (`reserving`). -/
def rangeItems (address : Address) (piece total : Nat) : Except ArgumentError (List RequestItem) :=
  rangeItemsFrom address piece total [] 0

/-- From one piece on, the items are those of the pieces that are left. -/
theorem rangeItemsFrom_eq (address : Address) (piece total : Nat) (done : List RequestItem)
    (i : Nat) :
    rangeItemsFrom address piece total done i
      = (fun rest => done.reverse ++ rest) <$>
        (List.range' i (pieceCount piece total - i)).mapM
          fun i => pieceItem address (span piece total i) := by
  generalize hn : pieceCount piece total - i = n
  induction n generalizing i done with
  | zero =>
    rw [rangeItemsFrom, if_neg (by omega), List.range'_zero, List.mapM_nil, map_pure,
      List.append_nil]
    rfl
  | succ n ih =>
    rw [rangeItemsFrom, if_pos (by omega), List.range'_succ, List.mapM_cons]
    cases pieceItem address (span piece total i) with
    | error e => rfl
    | ok item =>
      have h := ih (item :: done) (i + 1) (by omega)
      rw [List.reverse_cons] at h
      simp only [h]
      change _ = (fun rest => done.reverse ++ rest) <$> (do
        let rest ← (List.range' (i + 1) n).mapM fun i => pieceItem address (span piece total i)
        pure (item :: rest))
      cases (List.range' (i + 1) n).mapM fun i => pieceItem address (span piece total i) with
      | error e => rfl
      | ok rest => exact congrArg Except.ok (List.append_assoc _ _ _)

/-- The items of a range are those of its pieces. -/
theorem rangeItems_eq_mapM (address : Address) (piece total : Nat) :
    rangeItems address piece total = (spans piece total).mapM (pieceItem address) := by
  rw [rangeItems, rangeItemsFrom_eq, spans, List.mapM_map, List.range_eq_range', Nat.sub_zero]
  exact id_map _

/-! ## Writing -/

/-- The pieces of some bytes behind pieces that have been cut off before, the last one first. -/
def piecesFrom (piece : Nat) (done : List Bytes) : Bytes → List Bytes
  | [] => done.reverse
  | byte :: rest =>
    piecesFrom piece ((byte :: rest.take (piece - 1)) :: done) (rest.drop (piece - 1))
  termination_by bytes => bytes.length
  decreasing_by
    rw [List.length_drop, List.length_cons]
    omega

/-- Some bytes, cut into pieces. -/
def pieces (piece : Nat) (bytes : Bytes) : List Bytes :=
  piecesFrom piece [] bytes

/-- The items for a range of bytes, divided into pieces, with their data. -/
def rangeWrites (address : Address) (piece : Nat) (bytes : Bytes) :
    Except ArgumentError (List (RequestItem × DataItem)) :=
  (pieces piece bytes).zipIdx.mapM fun (part, i) => do
    let item ← pieceItem address (i * piece, part.length)
    return (item, .ofBytes part)

end S7Comm.Client
