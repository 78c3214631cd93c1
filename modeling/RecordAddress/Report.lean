import RecordAddress.Pointer.Parsing
import RecordAddress.Value.Json

/-! Reports of errors for the users of records: a title, and where given a detail, a pointer and
further data. They can be made for any error, not only for those found here. -/

namespace RecordAddress

inductive Report.Kind where
  | general
  | syntaxError
  | usage
  | data
  deriving DecidableEq, Repr

def Report.Kind.title : Kind → String
  | general => "Record pointer error"
  | syntaxError => "Invalid record element pointer"
  | usage => "Invalid record pointer usage"
  | data => "Invalid record data"

structure Report where
  kind : Report.Kind
  detail : String
  pointer : Value
  /-- How the pointer reads, if there is one. -/
  name : Option String
  extra : Value
  reason : Value

namespace Report

structure Source (α : Type) where
  detail : Option α := none
  pointer : Option α := none
  extra : Option α := none
  reason : Option α := none

/-- Why a report cannot be made. -/
inductive Fault where
  /-- A detail that is no text, a reason where none belongs, or a pointer text that is not given. -/
  | unfitting
  /-- A number in the pointer or in the reason is too long to be written, so that it could not be told. -/
  | tooManyDigits
  deriving DecidableEq, Repr

def textOrFault : Value → Except Fault String
  | .text text => .ok text
  | _ => .error .unfitting

def nameOrFault (value : Value) : Except Fault String :=
  value.display?.elim (.error .tooManyDigits) .ok

/-- An invalid pointer is reported by its own message unless another detail is given. That message is
made in any case. -/
def make (kind : Kind) (source : Source Value) : Except Fault Report := do
  let extra := match source.extra with
    | none | some .null => .dict []
    | some given => given
  if kind = .syntaxError then
    let some pointer := source.pointer | .error .unfitting
    let reason := source.reason.getD (.text "")
    let name ← nameOrFault pointer
    let message := invalidPointerMessage name (← if reason.isTruthy then nameOrFault reason else .ok "")
    let detail ← source.detail.elim (.ok message) textOrFault
    return { kind, detail, pointer, name := if pointer.isUnset then none else some name, extra, reason }
  else
    if source.reason.isSome then .error .unfitting
    let detail ← textOrFault (source.detail.getD (.text ""))
    let pointer := source.pointer.getD .null
    let name ← if pointer.isUnset then .ok none else (nameOrFault pointer).map some
    return { kind, detail, pointer, name, extra, reason := .null }

/-- The parts of the report that say something. -/
def entries (report : Report) : Entries Value :=
  [("title", .text report.kind.title)]
    ++ (if report.detail = "" then [] else [("detail", .text report.detail)])
    ++ (report.name.elim [] fun name => [("pointer", .text name)])
    ++ (if report.extra.isTruthy then [("meta", report.extra)] else [])

def json (report : Report) : Except Value.Unserializable String :=
  (Value.dict report.entries).json .reports

end Report
end RecordAddress
