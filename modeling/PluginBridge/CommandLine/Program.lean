import PluginBridge.Implementation

/-!
# Programs

What a command does with its surroundings before it comes to a result: it reads files, folders and
variables, prints, listens for hosts and reaches plugins. What it does next may depend on every
answer. A plugin that is reached is a link to its services.
-/
namespace PluginBridge.CommandLine

inductive Program (α : Type) where
  | done (result : α)
  | readFile (path : String) (next : Except IoError String → Program α)
  /-- The names in a folder; none if nothing is found at its path. -/
  | listFolder (path : String) (next : Option (Except IoError (List String)) → Program α)
  | lookUp (names : List String) (next : List (String × String) → Program α)
  | print (text : String) (next : Program α)
  | complain (text : String) (next : Program α)
  /-- Serves until it is interrupted. -/
  | listen (role : ServerRole) (host : PluginHost) (next : Except IoError Unit → Program α)
  | reach (address : SocketAddress) (next : Except IoError (Link Deployment) → Program α)

namespace Program

variable {α β : Type}

def bind : Program α → (α → Program β) → Program β
  | done result, after => after result
  | readFile path next, after => readFile path fun answer => (next answer).bind after
  | listFolder path next, after => listFolder path fun answer => (next answer).bind after
  | lookUp names next, after => lookUp names fun answer => (next answer).bind after
  | print text next, after => print text (next.bind after)
  | complain text next, after => complain text (next.bind after)
  | listen role host next, after => listen role host fun answer => (next answer).bind after
  | reach address next, after => reach address fun answer => (next answer).bind after

instance : Monad Program where
  pure := done
  bind := bind

abbrev OrFail (α : Type) := ExceptT Failure Program α

def printing (text : String) : OrFail Unit :=
  ExceptT.lift (print text (done ()))

def orFail {ε : Type} (toFailure : ε → Failure) : Except ε α → OrFail α
  | .ok a => pure a
  | .error error => throw (toFailure error)

end Program

end PluginBridge.CommandLine
