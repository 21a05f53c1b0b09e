/-!
# Hexadecimal bytes in text

Messages show a code of the protocol as two upper-case hexadecimal digits after `0x`.
-/

namespace S7Comm.Hex

/-- The digit of a number below sixteen; letters are upper-case. -/
def digit (n : Nat) : Char :=
  if n < 10 then Char.ofNat (48 + n) else Char.ofNat (55 + n)

/-- The two digits of a byte. -/
def digits (byte : UInt8) : List Char :=
  [digit (byte.toNat / 16), digit (byte.toNat % 16)]

/-- A byte as messages show it: `0x` and two digits. -/
def code (byte : UInt8) : String :=
  String.ofList ('0' :: 'x' :: digits byte)

end S7Comm.Hex
