import PluginBridge.Ty

/-!
# The generality of types

Types by how much they leave open. `any` is the most general type; containers are compared part by
part, tuples if they are of one length and objects if they have the same attributes.
-/
namespace PluginBridge.Ty

/-- The least relation that is reflexive, has every type below `any`, and is kept by every kind of
container. -/
inductive Le : Ty → Ty → Prop where
  | refl (ty : Ty) : Le ty ty
  | any (ty : Ty) : Le ty any
  | list {a b : Ty} (item : Le a b) : Le (list a) (list b)
  | set {a b : Ty} (item : Le a b) : Le (set a) (set b)
  | map {a b : Ty} (item : Le a b) : Le (map a) (map b)
  | tuple {as bs : List Ty} (long : as.length = bs.length)
      (each : ∀ pair ∈ as.zip bs, Le pair.1 pair.2) : Le (tuple as) (tuple bs)
  | object {as bs : List (String × Ty)} (named : Fields.names as = Fields.names bs)
      (each : ∀ pair ∈ as.zip bs, Le pair.1.2 pair.2.2) : Le (object as) (object bs)

instance : LE Ty := ⟨Le⟩

end PluginBridge.Ty
