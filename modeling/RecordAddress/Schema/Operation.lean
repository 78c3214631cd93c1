/-! What a schema can be asked for as a class. Classes hand such operations down together with their
fields, and the field of a mixin may stand where an operation is looked for. -/

namespace RecordAddress

inductive Operation where
  | rootContainer
  /-- The container at a given path. -/
  | container
  | field
  | parse
  deriving DecidableEq, Repr

namespace Operation

/-- The key of a field that stands in the way of the operation. -/
def key : Operation → String
  | rootContainer => "get_container"
  | container => "build_container"
  | field => "get_field"
  | parse => "parse"

def all : List Operation :=
  [rootContainer, container, field, parse]

end Operation
end RecordAddress
