import RecordAddress.Text.Unprintable

/-! Quoted text for messages. The quotes are single unless the text holds a single quote and no
double one; what does not print is written by its code point. -/

namespace RecordAddress.Text

/-- The number in lower case hexadecimal, padded with zeros on the left. -/
def hexadecimal (width code : Nat) : List Char :=
  let digits := Nat.toDigits 16 code
  List.replicate (width - digits.length) '0' ++ digits

def quotedChar (quote c : Char) : List Char :=
  if c = quote ∨ c = '\\' then ['\\', c]
  else if c = '\n' then ['\\', 'n']
  else if c = '\r' then ['\\', 'r']
  else if c = '\t' then ['\\', 't']
  else if isPrintable c then [c]
  else if c.toNat < 0x100 then '\\' :: 'x' :: hexadecimal 2 c.toNat
  else if c.toNat < 0x10000 then '\\' :: 'u' :: hexadecimal 4 c.toNat
  else '\\' :: 'U' :: hexadecimal 8 c.toNat

def quoted (text : String) : String :=
  let quote := if text.toList.contains '\'' && !text.toList.contains '"' then '"' else '\''
  String.ofList (quote :: text.toList.flatMap (quotedChar quote) ++ [quote])

/-- Quoted octets. Those beyond ASCII are written by their number. -/
def quotedOctets (octets : List UInt8) : String :=
  let text := octets.map fun octet => Char.ofNat octet.toNat
  let quote := if text.contains '\'' && !text.contains '"' then '"' else '\''
  let written (c : Char) :=
    if c.toNat < 0x80 then quotedChar quote c else '\\' :: 'x' :: hexadecimal 2 c.toNat
  String.ofList ('b' :: quote :: text.flatMap written ++ [quote])

end RecordAddress.Text
