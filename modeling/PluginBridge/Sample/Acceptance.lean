import PluginBridge.Datasource.Operation
import PluginBridge.Sample.StaticDatasource

/-!
# Accepted configurations

What configurations come to together, said without merging them one by one, and those among many
calls that a static datasource accepted last.
-/
namespace PluginBridge.StaticDatasource

/-- The attributes that a configuration gives: those of a map or an object, and none if it is
null. -/
def attributes? : Value → Option (Fields Value)
  | .null => some []
  | config => config.members?

/-- Every configuration is null, a map or an object. -/
def Combinable (configs : List Value) : Prop :=
  ∀ config ∈ configs, attributes? config ≠ none

def given (configs : List Value) : List (String × Value) :=
  configs.flatMap fun config => (attributes? config).getD []

/-- The attributes that configurations give together; of those with one name the last counts. -/
def combined (configs : List Value) : Fields Value :=
  Fields.ofList (given configs)

/-- The configurations that a call makes the datasource take. -/
def accepted? : Operation → Option (List Value)
  | .configure configs => if (accept configs).isOk then some configs else none
  | .outputSpec | .execute | .cancel => none

def lastAccepted? (operations : List Operation) : Option (List Value) :=
  operations.reverse.findSome? accepted?

end PluginBridge.StaticDatasource
