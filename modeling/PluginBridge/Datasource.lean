import PluginBridge.Bridge.Error
import PluginBridge.Spec

/-!
# Datasources

A datasource resolves data: it is configured, tells the specification of what it produces, and is
executed. It acts on a state of its own.
-/
namespace PluginBridge

structure Datasource (σ : Type) where
  configure : List Value → σ → σ × Except Failure Unit
  outputSpec : σ → ObjectSpec
  /-- The state after telling the specification. -/
  specTold : σ → σ := id
  execute : σ → σ × Except Failure Value
  cancel : σ → σ

end PluginBridge
