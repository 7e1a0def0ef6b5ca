import ShaderKit.Descriptor.Named
import ShaderKit.Function.Operation
import ShaderKit.Layout.Cache
import ShaderKit.Proofs.Codec.Decoding
import ShaderKit.Proofs.Codec.Encoding
import ShaderKit.Proofs.Codec.FirstOffence
import ShaderKit.Proofs.Codec.Words.Decoding
import ShaderKit.Proofs.Codec.Words.Encoding
import ShaderKit.Proofs.Codec.Words.Updates
import ShaderKit.Proofs.Codec.Independence
import ShaderKit.Proofs.Codec.RuntimeTail
import ShaderKit.Proofs.Codec.ZeroBytes
import ShaderKit.Proofs.ConstructibleValues
import ShaderKit.Proofs.Descriptor.Locations
import ShaderKit.Proofs.Host.Operations
import ShaderKit.Proofs.Host.RangeLoops
import ShaderKit.Proofs.Host.Safety
import ShaderKit.Proofs.Host.Termination
import ShaderKit.Proofs.Identities.Modules
import ShaderKit.Proofs.Interning
import ShaderKit.Proofs.KnownIndices
import ShaderKit.Proofs.Layout.Cache
import ShaderKit.Proofs.Layout.Uniform
import ShaderKit.Proofs.Layout.Words
import ShaderKit.Proofs.Module.AtomicOperands
import ShaderKit.Proofs.Module.Cache
import ShaderKit.Proofs.Module.ConstantTexts
import ShaderKit.Proofs.Module.Externals
import ShaderKit.Proofs.Module.HalfPrecision
import ShaderKit.Proofs.Module.Reached
import ShaderKit.Proofs.Naming.Labels
import ShaderKit.Proofs.Naming.Runs
import ShaderKit.Proofs.Recording.ConstantTable
import ShaderKit.Proofs.Recording.Entries
import ShaderKit.Proofs.Recording.Performances
import ShaderKit.Proofs.Recording.Recursion
import ShaderKit.Proofs.Remembered
import ShaderKit.Proofs.Text.Substitution
import ShaderKit.Proofs.Value.Places
import ShaderKit.Recording.Summary
import ShaderKit.Text.Hex
import ShaderKit.Workspace
