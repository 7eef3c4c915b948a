import Parlance.Text

namespace Parlance

/-- Structured data to be written out as JSON or YAML. The fields of a record
keep the order they are given in. -/
inductive Data where
  | null
  | bool (value : Bool)
  | int (value : Int)
  | text (value : Text)
  | list (items : List Data)
  | record (fields : List (Text × Data))

instance : Inhabited Data := ⟨.null⟩

namespace Data

def texts (values : List Text) : Data :=
  .list (values.map .text)

end Data

end Parlance
