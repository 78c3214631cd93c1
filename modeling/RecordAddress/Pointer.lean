import RecordAddress.ArrayIndex
import RecordAddress.Location
import RecordAddress.Schema.Container

/-! Pointers into the records of a schema. Every pointer but the root one extends its parent by one
token, which addresses a property of an object or an element of a collection. -/

namespace RecordAddress

inductive ElementIndex where
  | position (index : Nat)
  | afterLast
  | key (key : String)
  deriving DecidableEq, Repr

namespace ElementIndex

def ofArray : ArrayIndex → ElementIndex
  | .position index => position index
  | .afterLast => afterLast

end ElementIndex

inductive Pointer where
  /-- The record itself. -/
  | root (container : Container)
  /-- The children are the container of what is nested in the property. -/
  | property (parent : Pointer) (token : String) (property : Property) (children : Option Container)
  | element (parent : Pointer) (token : String) (index : ElementIndex)

namespace Pointer

/-- The parent of the root is the root. -/
def parent : Pointer → Pointer
  | root container => root container
  | property parent _ _ _ | element parent _ _ => parent

def ancestor (pointer : Pointer) : Nat → Pointer
  | 0 => pointer
  | depth + 1 => (pointer.ancestor depth).parent

def isRoot : Pointer → Bool
  | root _ => true
  | _ => false

def isElement : Pointer → Bool
  | element .. => true
  | _ => false

def tokens : Pointer → List String
  | root _ => []
  | property parent token _ _ | element parent token _ => parent.tokens ++ [token]

def text : Pointer → String
  | root _ => ""
  | property parent token _ _ | element parent token _ => parent.text ++ "/" ++ Token.escape token

/-- The addressed property. An element belongs to the property of its collection. -/
def property? : Pointer → Option Property
  | root _ => none
  | property _ _ target _ => some target
  | element parent _ _ => parent.property?

def path (pointer : Pointer) : String :=
  (pointer.property?.map Property.path).getD ""

/-- The container of what is below the pointer. Elements share that of their collection. -/
def children? : Pointer → Option Container
  | root container => some container
  | property _ _ _ children => children
  | element parent _ _ => parent.children?

def index? : Pointer → Option ElementIndex
  | element _ _ index => some index
  | _ => none

/-- Whether the pointer addresses the position after the last element of an array. -/
def isDash (pointer : Pointer) : Bool :=
  pointer.index? = some .afterLast

def chain : Pointer → List Pointer
  | root container => [root container]
  | pointer@(property parent _ _ _) | pointer@(element parent _ _) => parent.chain ++ [pointer]

def isSame (pointer other : Pointer) : Bool :=
  pointer.path = other.path && pointer.text = other.text

def isChildOf (pointer other : Pointer) : Bool :=
  (other.text ++ "/").toList.isPrefixOf pointer.text.toList

def location (pointer : Pointer) : Except Token.Fault Location :=
  Location.parse pointer.text

def display (pointer : Pointer) : String :=
  "<RecordElementPointer " ++ Text.quoted pointer.text ++ ">"

end Pointer
end RecordAddress
