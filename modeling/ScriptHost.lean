import ScriptHost.Arithmetic
import ScriptHost.Diagnostics
import ScriptHost.Proofs.Library.HandleLifetime
import ScriptHost.Proofs.Registry.History
import ScriptHost.Proofs.Value.Bisimulation
import ScriptHost.Proofs.Value.Equivalence
import ScriptHost.Proofs.Value.Rendering
import ScriptHost.Proofs.Value.Matching
import ScriptHost.Proofs.Value.FieldOrder
import ScriptHost.Proofs.Value.Isomorphism
import ScriptHost.Proofs.Registry.Transparency
import ScriptHost.Proofs.Registry.Views
import ScriptHost.Proofs.Registry.Modules
import ScriptHost.Proofs.Literal.Classification
import ScriptHost.Proofs.Float.Packing
import ScriptHost.Proofs.Decimal.Shortest
import ScriptHost.Proofs.Decimal.Text
import ScriptHost.Proofs.Literal.RoundTrip
import ScriptHost.Proofs.Library.Chunks
import ScriptHost.Proofs.Library.FullPath
import ScriptHost.Proofs.NameMap.Finmap
import ScriptHost.Proofs.Store.Ideal
import ScriptHost.Proofs.Store.Refinement
import ScriptHost.Proofs.Store.Sharing
import ScriptHost.Proofs.FileTree.Contents
import ScriptHost.Proofs.FileTree.Opening
import ScriptHost.Proofs.Library.FileContents
import ScriptHost.Proofs.Arithmetic.Integers
import ScriptHost.Proofs.Stream.Bytes
import ScriptHost.Proofs.Stream.Lines
import ScriptHost.Proofs.LineEncoding
import ScriptHost.Proofs.Library.OpenFile
import ScriptHost.Proofs.Library.WriteBack
import ScriptHost.Proofs.Library.Lines
import ScriptHost.Proofs.LineEncoding.Decoding
import ScriptHost.Proofs.Library.OpenEffect
import ScriptHost.Proofs.Arithmetic.Dispatch
import ScriptHost.Proofs.Native.Marshalling
import ScriptHost.Proofs.Library.RemovalEffect
import ScriptHost.Proofs.Library.CreationEffect
import ScriptHost.Proofs.Value.Inspection
import ScriptHost.Proofs.Store.FieldHistory
