import RecordAddress.Value.Display

/-! JSON text of values. Pointers are written as their text and the missing mark as null; values
that JSON has no form for are refused, and so are numbers of too many digits. -/

namespace RecordAddress

/-- How a JSON text is laid out. Without an indentation everything stands on one line. -/
structure Layout where
  sortKeys : Bool := false
  indent : Option String := none
  asciiOnly : Bool := true

namespace Layout

def indentedBy (width : Int) : String :=
  String.ofList (List.replicate width.toNat ' ')

def reports : Layout :=
  { sortKeys := true, indent := some (indentedBy 4) }

def separator (layout : Layout) : String :=
  if layout.indent.isSome then "," else ", "

/-- The text between two items `depth` levels deep. -/
def lineBreak (layout : Layout) (depth : Nat) : String :=
  match layout.indent with
  | none => ""
  | some indent => "\n" ++ String.join (List.replicate depth indent)

/-- The items of an array or object between its brackets, `depth` levels deep themselves. -/
def bracketed (layout : Layout) (opening closing : String) (depth : Nat) : List String → String
  | [] => opening ++ closing
  | items =>
    opening ++ layout.lineBreak depth
      ++ String.intercalate (layout.separator ++ layout.lineBreak depth) items
      ++ layout.lineBreak (depth - 1) ++ closing

end Layout

namespace Text

/-- One or two UTF-16 units, each escaped by four hexadecimal digits. -/
def jsonUnits (c : Char) : List Char :=
  let code := c.toNat
  if code < 0x10000 then '\\' :: 'u' :: hexadecimal 4 code
  else
    '\\' :: 'u' :: hexadecimal 4 (0xd800 + (code - 0x10000) / 0x400)
      ++ '\\' :: 'u' :: hexadecimal 4 (0xdc00 + (code - 0x10000) % 0x400)

def jsonChar (asciiOnly : Bool) (c : Char) : List Char :=
  if c = '"' ∨ c = '\\' then ['\\', c]
  else if c = '\n' then ['\\', 'n']
  else if c = '\r' then ['\\', 'r']
  else if c = '\t' then ['\\', 't']
  else if c.toNat = 0x08 then ['\\', 'b']
  else if c.toNat = 0x0c then ['\\', 'f']
  else if c.toNat < 0x20 ∨ (asciiOnly ∧ 0x7f ≤ c.toNat) then jsonUnits c
  else [c]

def json (asciiOnly : Bool) (text : String) : String :=
  String.ofList ('"' :: text.toList.flatMap (jsonChar asciiOnly) ++ ['"'])

end Text

namespace Value

/-- The kinds of value that JSON has no form for, and numbers that are too long to be written. -/
inductive Unserializable where
  | object
  | view
  | bytes
  | set
  | number
  deriving DecidableEq, Repr

def Unserializable.typeName? : Unserializable → Option String
  | object => some "Obj"
  | view => some "mappingproxy"
  | bytes => some "bytes"
  | set => some "set"
  | number => none

def Unserializable.message? (kind : Unserializable) : Option String :=
  kind.typeName?.map fun name => "Object of type " ++ name ++ " is not JSON serializable"

/-- Entries in the order in which they are written. -/
def arranged {α : Type} (layout : Layout) (entries : Entries α) : Entries α :=
  if layout.sortKeys then entries.mergeSort fun first second => decide (first.1 ≤ second.1) else entries

/-- The written members of an object, unless one of them cannot be written. -/
def members (layout : Layout) : Entries (Except Unserializable String) → Except Unserializable (List String)
  | [] => .ok []
  | (key, value) :: rest => do
    let value ← value
    let rest ← members layout rest
    return (Text.json layout.asciiOnly key ++ ": " ++ value) :: rest

/-- The text in whose form a value without a form of its own is written, or none where it is written as null. -/
def standIn : Value → Except Unserializable (Option String)
  | location tokens _ => .ok (some tokens.toLocation.text)
  | pointer target => .ok (some target.text)
  | missing => .ok none
  | view _ => .error .view
  | bytes _ => .error .bytes
  | set _ => .error .set
  | _ => .error .object

mutual
/-- JSON text of a value that stands `depth` levels deep. -/
def jsonAt (layout : Layout) (depth : Nat) : Value → Except Unserializable String
  | null => .ok "null"
  | bool value => .ok (if value then "true" else "false")
  | int value => (numeral? value).elim (.error .number) .ok
  | decimal value => .ok value.display
  | text value => .ok (Text.json layout.asciiOnly value)
  | list items | tuple items => do
    return layout.bracketed "[" "]" (depth + 1) (← jsonItems layout (depth + 1) items)
  | dict entries => do
    let written := arranged layout (jsonEntries layout (depth + 1) entries)
    return layout.bracketed "\x7b" "\x7d" (depth + 1) (← members layout written)
  | other => do
    return (← other.standIn).elim "null" (Text.json layout.asciiOnly)

def jsonItems (layout : Layout) (depth : Nat) : List Value → Except Unserializable (List String)
  | [] => .ok []
  | item :: rest => do
    let item ← item.jsonAt layout depth
    let rest ← jsonItems layout depth rest
    return item :: rest

def jsonEntries (layout : Layout) (depth : Nat) : List (String × Value) → Entries (Except Unserializable String)
  | [] => []
  | (key, value) :: rest => (key, value.jsonAt layout depth) :: jsonEntries layout depth rest
end

def json (layout : Layout) (value : Value) : Except Unserializable String :=
  value.jsonAt layout 0

end Value
end RecordAddress
