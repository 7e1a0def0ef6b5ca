/-!
# Words that a WGSL program may not use as names

The tables list the keywords, the words kept for later versions of the language, and
the predeclared type generators.
-/

namespace ShaderKit.Identifier

def keywords : List String :=
  ["alias", "break", "case", "const", "const_assert", "continue", "continuing", "default",
   "diagnostic", "discard", "else", "enable", "false", "fn", "for", "if", "let", "loop",
   "override", "requires", "return", "struct", "switch", "true", "var", "while"]

def keptWords : List String :=
  ["NULL", "Self", "abstract", "active", "alignas", "alignof", "as", "asm", "asm_fragment",
   "async", "attribute", "auto", "await", "become", "cast", "catch", "class", "co_await",
   "co_return", "co_yield", "coherent", "column_major", "common", "compile", "compile_fragment",
   "concept", "const_cast", "consteval", "constexpr", "constinit", "crate", "debugger",
   "decltype", "delete", "demote", "demote_to_helper", "do", "dynamic_cast", "enum", "explicit",
   "export", "extends", "extern", "external", "fallthrough", "filter", "final", "finally",
   "friend", "from", "fxgroup", "get", "goto", "groupshared", "highp", "impl", "implements",
   "import", "inline", "instanceof", "interface", "layout", "lowp", "macro", "macro_rules",
   "match", "mediump", "meta", "mod", "module", "move", "mut", "mutable", "namespace", "new",
   "nil", "noexcept", "noinline", "nointerpolation", "noperspective", "null", "nullptr", "of",
   "operator", "package", "packoffset", "partition", "pass", "patch", "pixelfragment", "precise",
   "precision", "premerge", "priv", "protected", "pub", "public", "readonly", "ref",
   "regardless", "register", "reinterpret_cast", "require", "resource", "restrict", "self",
   "set", "shared", "sizeof", "smooth", "snorm", "static", "static_assert", "static_cast", "std",
   "subroutine", "super", "target", "template", "this", "thread_local", "throw", "trait", "try",
   "type", "typedef", "typeid", "typename", "typeof", "union", "unless", "unorm", "unsafe",
   "unsized", "use", "using", "varying", "virtual", "volatile", "wgsl", "where", "with",
   "writeonly", "yield"]

/-- Predeclared type generators. Declaring one of these names would hide the type. -/
def predeclaredTypes : List String :=
  ["bool", "f16", "f32", "i32", "u32", "vec2", "vec3", "vec4", "mat2x2", "mat2x3", "mat2x4",
   "mat3x2", "mat3x3", "mat3x4", "mat4x2", "mat4x3", "mat4x4", "array", "atomic", "ptr",
   "sampler", "sampler_comparison"]

def reservedWords : List String :=
  keywords ++ keptWords ++ predeclaredTypes

end ShaderKit.Identifier
