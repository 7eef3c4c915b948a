import Parlance.Table
import Parlance.Tree
import Parlance.Value

namespace Parlance

structure Function where
  name : Text
  parameters : List Text
  body : Option Block

instance : Inhabited Function := ⟨⟨[], [], none⟩⟩

/-- The variables and functions visible at one point of a run. Being a value,
it is copied by being passed on. -/
structure Environment where
  bindings : Table Value
  functions : Table Function

namespace Environment

def empty : Environment := ⟨.empty, .empty⟩

instance : Inhabited Environment := ⟨empty⟩

def set (environment : Environment) (name : Text) (value : Value) : Environment :=
  { environment with bindings := environment.bindings.insert name value }

def get? (environment : Environment) (name : Text) : Option Value :=
  environment.bindings.get? name

def define (environment : Environment) (function : Function) : Environment :=
  { environment with functions := environment.functions.insert function.name function }

def function? (environment : Environment) (name : Text) : Option Function :=
  environment.functions.get? name

def bind (environment : Environment) : List Text → List Value → Environment
  | name :: names, value :: values => (environment.set name value).bind names values
  | _, _ => environment

def names (environment : Environment) : List Text :=
  environment.bindings.keys

def functionNames (environment : Environment) : List Text :=
  environment.functions.keys

/-- The bindings as structured data: functions with their parameters, then
variables with their values. -/
def data (environment : Environment) : Data :=
  .record [
    (utf8 "functions", .record
      (environment.functions.entries.map fun (name, function) =>
        (name, Data.texts function.parameters))),
    (utf8 "vars", .record
      (environment.bindings.entries.map fun (name, value) => (name, value.data)))]

def json (environment : Environment) : Text :=
  Json.compact environment.data

end Environment

end Parlance
