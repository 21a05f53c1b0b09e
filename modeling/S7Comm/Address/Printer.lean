import S7Comm.Address.Basic
import S7Comm.Text.Decimal

/-!
# Writing addresses

Of the many texts that denote an address, one is written: the area with its first letter, the byte,
and the bit even if it is zero. A place in a data block is written with both its `DB`s and the `X`
of an access to a bit. Timers and counters have no bit to be written.
-/

namespace S7Comm.Address

/-- The byte and the bit of an address, with a point between them. -/
def offsetText (a : Address) : List Char :=
  Decimal.digits a.byte.toNat ++ '.' :: Decimal.digits a.bit.toNat

/-- The characters of the text that is written for an address. -/
def canonical (a : Address) : List Char :=
  match a.area with
  | .dataBlock =>
    'D' :: 'B' :: Decimal.digits a.block.toNat ++ '.' :: 'D' :: 'B' :: 'X' :: a.offsetText
  | .input => 'I' :: a.offsetText
  | .output => 'Q' :: a.offsetText
  | .marker => 'M' :: a.offsetText
  | .timer => 'T' :: Decimal.digits a.byte.toNat
  | .counter => 'C' :: Decimal.digits a.byte.toNat

/-- The text that is written for an address. -/
def text (a : Address) : String :=
  String.ofList a.canonical

end S7Comm.Address
