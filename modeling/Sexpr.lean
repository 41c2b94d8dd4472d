import Sexpr.Algebra.Alist
import Sexpr.Algebra.Spine
import Sexpr.Algebra.Tree
import Sexpr.Eval.Apply
import Sexpr.Eval.Basic
import Sexpr.Eval.Data
import Sexpr.Eval.Form
import Sexpr.Eval.Run
import Sexpr.Fault
import Sexpr.Host
import Sexpr.Host.Scripted
import Sexpr.Library
import Sexpr.Limits
import Sexpr.Number.Arithmetic
import Sexpr.Number.Basic
import Sexpr.Number.Binary64
import Sexpr.Number.Text
import Sexpr.Primitive.Call
import Sexpr.Primitive.Names
import Sexpr.Proofs.Alists
import Sexpr.Proofs.Alternatives
import Sexpr.Proofs.Application
import Sexpr.Proofs.Calls
import Sexpr.Proofs.Confinement
import Sexpr.Proofs.Conversion
import Sexpr.Proofs.Copying
import Sexpr.Proofs.Coupling
import Sexpr.Proofs.Depth
import Sexpr.Proofs.Equalities
import Sexpr.Proofs.Exactness
import Sexpr.Proofs.Flattening
import Sexpr.Proofs.Floats
import Sexpr.Proofs.Frames
import Sexpr.Proofs.Genuine
import Sexpr.Proofs.Guards
import Sexpr.Proofs.Hashing
import Sexpr.Proofs.HeadSubstitution
import Sexpr.Proofs.Hereditary
import Sexpr.Proofs.Integers
import Sexpr.Proofs.Irrelevance
import Sexpr.Proofs.Isolation
import Sexpr.Proofs.Joining
import Sexpr.Proofs.Layout
import Sexpr.Proofs.ListLaws
import Sexpr.Proofs.Lookup
import Sexpr.Proofs.Making
import Sexpr.Proofs.Meaning
import Sexpr.Proofs.Merging
import Sexpr.Proofs.NumberLine
import Sexpr.Proofs.NumberOrder
import Sexpr.Proofs.Pairing
import Sexpr.Proofs.Powers
import Sexpr.Proofs.Printing
import Sexpr.Proofs.Readability
import Sexpr.Proofs.Registry
import Sexpr.Proofs.RoundedComparison
import Sexpr.Proofs.Rounding
import Sexpr.Proofs.Run
import Sexpr.Proofs.Sameness
import Sexpr.Proofs.Sets
import Sexpr.Proofs.Sharing
import Sexpr.Proofs.Snapshot
import Sexpr.Proofs.SnapshotReaders
import Sexpr.Proofs.Standard
import Sexpr.Proofs.Substitution
import Sexpr.Proofs.Tagging
import Sexpr.Proofs.Termination
import Sexpr.Proofs.Transparency
import Sexpr.Proofs.Variadic
import Sexpr.Regexp.Basic
import Sexpr.Regexp.CharSet
import Sexpr.Regexp.Footprint
import Sexpr.Regexp.Parser
import Sexpr.Regexp.Search
import Sexpr.Registry
import Sexpr.Standard
import Sexpr.Text.Alphabetic
import Sexpr.Text.CaseFold
import Sexpr.Text.Printable
import Sexpr.Text.Quoted
import Sexpr.Text.Ranges
import Sexpr.Text.Utf8
import Sexpr.Text.Word
import Sexpr.Value.Basic
import Sexpr.Value.Callable
import Sexpr.Value.Collection
import Sexpr.Value.Equality
import Sexpr.Value.Printer
import Sexpr.Value.Spelling
import Sexpr.World.Basic
import Sexpr.World.Snapshot
