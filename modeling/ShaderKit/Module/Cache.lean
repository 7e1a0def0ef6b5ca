import ShaderKit.Memo
import ShaderKit.Module.Resolve

/-!
# Remembered modules

Modules by their roots, binding table and configuration. Functions are compared by
identity, so two functions with equal bodies have modules of their own.
-/

namespace ShaderKit

structure ModuleKey where
  roots : List FunctionId
  bindings : BindingTable
  config : ResolveConfig
deriving DecidableEq, Repr

/-- Resolved modules by the requests that led to them. -/
abbrev ModuleCache := Memo ModuleKey ResolvedModule

def ModuleKey.of (roots : List ShaderFunction) (table : BindingTable)
    (config : ResolveConfig) : ModuleKey :=
  ⟨roots.map ShaderFunction.id, table, config⟩

/-- Look a module up, and resolve and store it if it is new. A failure is not stored. -/
def ModuleCache.resolve (cache : ModuleCache) (program : Program)
    (roots : List ShaderFunction) (table : BindingTable) (config : ResolveConfig)
    (journal : Journal) : ModuleCache × Journal × Except ShaderError (Handle ResolvedModule) :=
  let key := ModuleKey.of roots table config
  match cache.find? key with
  | some handle => (cache, journal, .ok handle)
  | none =>
      match program.resolve roots table config journal with
      | .error error journal => (cache, journal, .error error)
      | .ok resolved journal =>
          let (extended, handle) := cache.insert key resolved
          (extended, journal, .ok handle)

end ShaderKit
