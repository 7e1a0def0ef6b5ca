import ShaderKit.Layout
import ShaderKit.Memo

/-!
# Remembered layouts
-/

namespace ShaderKit

/-- Layouts by descriptor. Descriptors of the same shape share one layout. -/
abbrev LayoutCache := Memo TypeDescriptor Layout

def LayoutCache.layout (cache : LayoutCache) (type : TypeDescriptor) :
    LayoutCache × Except LayoutError (Handle Layout) :=
  cache.getOrCompute type TypeDescriptor.layout

end ShaderKit
