import S7Comm.Client.Basic

/-!
# Lists of places to read or write together

A `ReadList` collects items that are read together, a `WriteList` items with the data to be written
to them. Both are built place by place; a place that is refused leaves the list as it is.

Numbers are written in the byte order of the list, which is chosen when the list is begun.
-/

namespace S7Comm

/-! ## Reading -/

/-- Items to be read together. -/
structure ReadList where
  /-- The items, in the order in which they were added. -/
  items : Array RequestItem := #[]
  deriving DecidableEq, Repr, Inhabited

namespace ReadList

/-- Add an item. -/
def add (list : ReadList) (item : RequestItem) : ReadList :=
  { list with items := list.items.push item }

/-- Add the bit at an address. -/
def addBit (list : ReadList) (address : String) : Except Error ReadList := do
  let address ← Address.parse address
  return list.add (.standard (.single address))

/-- Add some bytes from an address on. -/
def addBytes (list : ReadList) (address : String) (count : UInt16) : Except Error ReadList := do
  let address ← Address.parse address
  let item ← StandardItem.bytes address count
  return list.add (.standard item)

/-- The number of items. -/
def size (list : ReadList) : Nat :=
  list.items.size

end ReadList

/-! ## Writing -/

/-- Items to be written together, with their data. -/
structure WriteList where
  /-- The order of the bytes of numbers. -/
  byteOrder : ByteOrder := .big
  /-- The items with their data, in the order in which they were added. -/
  pairs : Array (RequestItem × DataItem) := #[]
  deriving DecidableEq, Repr, Inhabited

namespace WriteList

/-- Add an item with its data. -/
def add (list : WriteList) (item : StandardItem) (data : DataItem) : WriteList :=
  { list with pairs := list.pairs.push (.standard item, data) }

/-- Add a bit. -/
def addBit (list : WriteList) (address : String) (value : Bool) : Except Error WriteList := do
  let address ← Address.parse address
  return list.add (.single address) (.ofBit value)

/-- Add bytes. -/
def addBytes (list : WriteList) (address : String) (bytes : Bytes) : Except Error WriteList := do
  let address ← Address.parse address
  let length ← Client.itemLength bytes.length
  let item ← StandardItem.bytes address length
  return list.add item (.ofBytes bytes)

/-- Add a number. -/
def addNumber {α : Type} [Numeric α] (list : WriteList) (address : String) (value : α) :
    Except Error WriteList :=
  list.addBytes address (Numeric.encode list.byteOrder value)

/-- The number of items. -/
def size (list : WriteList) : Nat :=
  list.pairs.size

/-- The items. -/
def items (list : WriteList) : List RequestItem :=
  list.pairs.toList.map Prod.fst

/-- The data, in the order of their items. -/
def data (list : WriteList) : List DataItem :=
  list.pairs.toList.map Prod.snd

end WriteList

end S7Comm
