import RecordAddress.Context
import RecordAddress.Pointer.Attributes

/-! Parsing of pointer texts against a container, token by token. What a token may be follows from
the pointer above it alone. -/

namespace RecordAddress

inductive Reason where
  | notPointerText
  | badText (fault : Token.Fault)
  | afterDash
  | badIndex (fault : ArrayIndex.Fault)
  | noNested (path : String)
  | noSuchProperty
  deriving DecidableEq, Repr

def Reason.message : Reason → String
  | notPointerText => "invalid pointer type or syntax."
  | badText fault => fault.message ++ "."
  | afterDash => "unexpected dash for an array index."
  | badIndex fault => fault.message?.getD "" ++ "."
  | noNested path => path ++ " does not have nested elements."
  | noSuchProperty => "no such property."

/-- The message about an invalid pointer, which is given as a whole. -/
def invalidPointerMessage (pointer reason : String) : String :=
  "Invalid record element pointer \"" ++ pointer ++ "\"" ++ if reason = "" then "." else ": " ++ reason

/-- An invalid pointer. What was to be parsed need not be text, but it is named in the message. -/
structure Malformed where
  pointer : Value
  reason : Reason
  name : String
  named : pointer.display? = some name

def Malformed.message (malformed : Malformed) : String :=
  invalidPointerMessage malformed.name malformed.reason.message

namespace Pointer

inductive Fault where
  | malformed (malformed : Malformed)
  | container (fault : Container.Fault)
  /-- An array index that is too long to be read as a number, or a number that is too long to be written. -/
  | tooManyDigits
  /-- An object without its container. -/
  | unopened
  | broken (breakdown : Value.Breakdown)

/-- The fault of a pointer that is refused for the reason. One that cannot be named cannot be refused either. -/
def refusal (whole : Value) (reason : Reason) : Fault :=
  match named : whole.display? with
  | some name => .malformed { pointer := whole, reason, name, named }
  | none => .tooManyDigits

theorem refusal_of_named {whole : Value} {name : String} (named : whole.display? = some name) (reason : Reason) :
    refusal whole reason = .malformed { pointer := whole, reason, name, named } := by
  unfold refusal
  split
  next other same =>
    obtain rfl := Option.some.inj (same.symm.trans named)
    rfl
  next unnamed => cases unnamed.symm.trans named

theorem refusal_of_unnamed {whole : Value} (unnamed : whole.display? = none) (reason : Reason) :
    refusal whole reason = .tooManyDigits := by
  unfold refusal
  split
  next named => cases unnamed.symm.trans named
  next => rfl

inductive Next where
  | nothing
  | arrayIndex
  | mapKey
  | property (container : Container)
  /-- There is nothing inside a scalar. -/
  | scalar
  /-- An object whose container is not at hand. No parsed pointer leads to one. -/
  | unopened

/-- What comes after a value of the property that is no collection. -/
def Next.inside (holdsObjects : Bool) (children : Option Container) : Next :=
  if holdsObjects then children.elim unopened property else scalar

def next (amendments : Amendments) (pointer : Pointer) : Next :=
  match pointer with
  | root container => .property container
  | property _ _ target children =>
    match amendments.collection? target with
    | some .array => .arrayIndex
    | some .map => .mapKey
    | none => .inside (amendments.holdsObjects target) children
  | element parent _ _ =>
    if amendments.isDash pointer then .nothing
    else match parent.property? with
      | some target => .inside (amendments.holdsObjects target) parent.children?
      | none => .unopened

/-- The subtype and property names of a token such as `subtype:property`. -/
def subtypeAndName? (token : String) : Option (String × String) :=
  let subtype := token.toList.takeWhile (· ≠ ':')
  match token.toList.dropWhile (· ≠ ':') with
  | _ :: first :: rest =>
    if subtype.isEmpty then none else some (String.ofList subtype, String.ofList (first :: rest))
  | _ => none

def tellsType (amendments : Amendments) (container : Container) (token : String) :
    Except Value.Breakdown Bool := do
  if !(amendments.isPolymorphic container).isTruthy then return false
  return (← amendments.typeProperty container).text? = some token

/-- The property of a subtype. What the subtype adds is opened for that. -/
def specific? (context : Context) (container : Container) (subtype name : String) :
    Opening Fault (Option (Option Property)) := do
  match ← .ofExcept ((context.amendments.subtype? container subtype).mapError .broken) with
  | none => return none
  | some subtype =>
    match ← (context.nestedOpening subtype).mapError .container with
    | none => .fail .unopened
    | some specific => return some (← .ofExcept ((context.amendments.property? specific name).mapError .broken))

/-- The property that a token names: one of the container's own, or one of a subtype. -/
def lookUp (context : Context) (container : Container) (token : String) : Opening Fault (Option Property) := do
  let specific ← match subtypeAndName? token with
    | some (subtype, name) =>
      if (context.amendments.isPolymorphic container).isTruthy then specific? context container subtype name
      else pure none
    | none => pure none
  match specific with
  | some found => return found
  | none => .ofExcept ((context.amendments.property? container token).mapError .broken)

/-- Extends a pointer by a token. An error names the whole pointer text that is being parsed. -/
def extend (context : Context) (whole : Value) (dashAllowed : Bool) (pointer : Pointer) (token : String) :
    Opening Fault Pointer :=
  let refuse (reason : Reason) : Opening Fault Pointer := .fail (refusal whole reason)
  match pointer.next context.amendments with
  | .nothing => refuse .afterDash
  | .arrayIndex =>
    match ArrayIndex.ofText dashAllowed token with
    | .ok index => pure (.element pointer token (.ofArray index))
    | .error .tooManyDigits => .fail .tooManyDigits
    | .error fault => refuse (.badIndex fault)
  | .mapKey => pure (.element pointer token (.key token))
  | .scalar => refuse (.noNested pointer.path)
  | .unopened => .fail .unopened
  | .property container => do
    let amendments := context.amendments
    if ← .ofExcept ((tellsType amendments container token).mapError .broken) then
      let target ← .ofExcept ((amendments.property container token).mapError .broken)
      return .property pointer token (← .ofExcept ((amendments.located target).mapError .broken)) none
    match ← lookUp context container token with
    | none => refuse .noSuchProperty
    | some target =>
      let located ← .ofExcept ((amendments.located target).mapError .broken)
      let children ← (context.nestedOpening target).mapError .container
      return .property pointer token located children

def child (context : Context) (dashAllowed : Bool) (pointer : Pointer) (token : String) : Opening Fault Pointer :=
  extend context (.text (pointer.text ++ "/" ++ Token.escape token)) dashAllowed pointer token

/-- The child whose token is what the value reads as, such as the element at an index. -/
def divide (context : Context) (pointer : Pointer) (token : Value) : Opening Fault Pointer :=
  match token.display? with
  | some token => child context true pointer token
  | none => .fail .tooManyDigits

def parse (context : Context) (container : Container) (dashAllowed : Bool) (pointer : Value) :
    Opening Fault Pointer :=
  let refuse (reason : Reason) : Opening Fault Pointer := .fail (refusal pointer reason)
  match pointer with
  | .text text =>
    if text ≠ "" ∧ text.toList.head? ≠ some '/' then refuse .notPointerText
    else match Token.split text with
      | .error fault => refuse (.badText fault)
      | .ok tokens => tokens.foldlM (extend context pointer dashAllowed) (.root container)
  | _ => refuse .notPointerText

end Pointer
end RecordAddress
