import RecordAddress.Record.Access

/-! Ways into a record, step by step from the record itself. Reading and editing take the same way
and meet the same obstacles. -/

namespace RecordAddress.Route

/-- An obstacle met when `depth` steps were still left after the failing one. -/
structure Failure where
  depth : Nat
  obstacle : Obstacle
  deriving DecidableEq, Repr

variable (context : Context)

def read : List Access → Value → Except Failure Value
  | [], value => .ok value
  | access :: rest, holder => do
    let value ← (access.read context rest.length holder).mapError (Failure.mk rest.length)
    read rest value

/-- The values met on the way, the record first, as far as they can be read. -/
def trace : List Access → Value → List Value
  | [], value => [value]
  | access :: rest, holder =>
    match access.read context rest.length holder with
    | .ok value => holder :: trace rest value
    | .error _ => [holder]

/-- Reads the last step of a way and then writes to it. -/
def editSlot (change : Edit) (access : Access) (holder : Value) : Except Failure (Value × Value) := do
  let prior ← (access.read context 0 holder).mapError (Failure.mk 0)
  let edited ← (access.write change holder).mapError (Failure.mk 0)
  return (prior, edited)

/-- Edits what the way leads to. The answer is the value as it is afterwards, whether or not the
edit succeeds, and what was there before if it does. A collection made up for a property that is
not set only becomes its value once an element has been written to it. -/
def edit (change : Edit) : Access → List Access → Value → Value × Except Failure Value
  | access, [], holder =>
    match editSlot context change access holder with
    | .ok (prior, edited) => (edited, .ok prior)
    | .error failure => (holder, .error failure)
  | access, next :: rest, holder =>
    let depth := rest.length + 1
    match access.read context depth holder with
    | .error obstacle => (holder, .error ⟨depth, obstacle⟩)
    | .ok value =>
      let (edited, outcome) := edit change next rest value
      if access.isUnsetIn context holder then
        match outcome, change.value? with
        | .ok prior, some _ =>
          match access.write (.replace edited) holder with
          | .ok stored => (stored, .ok prior)
          | .error obstacle => (holder, .error ⟨depth, obstacle⟩)
        | outcome, _ => (holder, outcome)
      else (access.absorb edited holder, outcome)

/-- The last object on the way that describes a record type, and the way on from it. Such an object is
no part of the record, and what is changed below it is changed in it. -/
def anchor? : List Access → Value → Option (Description × Access × List Access)
  | [], _ => none
  | access :: rest, holder =>
    let below := match access.read context rest.length holder with
      | .ok value => anchor? rest value
      | .error _ => none
    below <|> match holder with
      | .description described _ => some (described, access, rest)
      | _ => none

/-- Edits an object that describes a record type, or what the way leads to from it. A value of it that has
changed inside is kept with it from then on. -/
def editShown (change : Edit) (access : Access) (rest : List Access) (holder : Value) :
    Value × Except Failure Value :=
  let (shown, outcome) := edit context change access rest holder
  match access, rest with
  | .property _ (.text key) _, next :: below =>
    match access.read context rest.length holder with
    | .error _ => (shown, outcome)
    | .ok value =>
      if access.isUnsetIn context holder then (shown, outcome)
      else (shown.keepShown key (edit context change next below value).1, outcome)
  | _, _ => (shown, outcome)

/-- What an edit leaves of the objects that describe record types. An edit that fails changes nothing. -/
def amend (change : Edit) (route : List Access) (record : Value) : Amendments :=
  match anchor? context route record with
  | some (described, access, rest) =>
    match editShown context change access rest (context.describe described), described.subject? with
    | (.description _ attributes, .ok _), some subject => context.amendments.put subject attributes
    | _, _ => context.amendments
  | none => context.amendments

/-- The containers met on a way, which stay open. -/
def opened (route : List Access) (record : Value) : List Container :=
  (trace context route record).filterMap fun
    | .description (.container container) _ => some container
    | _ => none

end RecordAddress.Route
