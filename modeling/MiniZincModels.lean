import MiniZincModels.Expr.Operators
import MiniZincModels.Expr.Same
import MiniZincModels.Expr.Sets
import MiniZincModels.Main
import MiniZincModels.Model.Operation
import MiniZincModels.Proofs.Model.Cache
import MiniZincModels.Proofs.Model.InPlace
import MiniZincModels.Proofs.Model.Atomicity
import MiniZincModels.Proofs.Expr.Checked
import MiniZincModels.Proofs.Expr.Form
import MiniZincModels.Proofs.Text.Numeral
import MiniZincModels.Proofs.Constraint.Library
import MiniZincModels.Proofs.Constraint.Shape
import MiniZincModels.Proofs.Declaration.Constant
import MiniZincModels.Proofs.Declaration.Domain
import MiniZincModels.Proofs.Declaration.Collection
import MiniZincModels.Proofs.Declaration.IndexKey
import MiniZincModels.Proofs.Expr.Built
import MiniZincModels.Proofs.Expr.Reading
import MiniZincModels.Proofs.Binary64.Rounding
import MiniZincModels.Proofs.Binary64.Text
import MiniZincModels.Proofs.Text.Blank
import MiniZincModels.Proofs.Text.Gap
import MiniZincModels.Proofs.Output.Splitting
import MiniZincModels.Proofs.Output.Value
import MiniZincModels.Proofs.Output.Elements
import MiniZincModels.Proofs.Model.Names
import MiniZincModels.Proofs.Output.Solution
import MiniZincModels.Proofs.Output.Stream
import MiniZincModels.Proofs.Output.Report
import MiniZincModels.Proofs.Output.Concatenation
import MiniZincModels.Proofs.Model.Items
import MiniZincModels.Proofs.Model.Store
import MiniZincModels.Proofs.Model.Framing
import MiniZincModels.Proofs.Model.Finite
import MiniZincModels.Proofs.Model.History
import MiniZincModels.Proofs.Model.Interleaving
import MiniZincModels.Proofs.Model.Directives
import MiniZincModels.Proofs.Expr.Scope
import MiniZincModels.Proofs.Model.Scope
import MiniZincModels.Proofs.Model.DeclarationOrder
import MiniZincModels.Proofs.Expr.Kinds
import MiniZincModels.Proofs.Expr.Calls
import MiniZincModels.Proofs.Declaration.Storage
import MiniZincModels.Proofs.Output.Declared
import MiniZincModels.Proofs.Declaration.Representation
import MiniZincModels.Proofs.Output.Integers
import MiniZincModels.Proofs.Expr.Nesting
import MiniZincModels.Proofs.Model.Keywords
import MiniZincModels.Proofs.Model.Indexed
import MiniZincModels.Proofs.Output.Folded
import MiniZincModels.Proofs.Output.Layout
import MiniZincModels.Proofs.Output.Joining
import MiniZincModels.Proofs.Output.Breaks
import MiniZincModels.Proofs.SolveItem.Parts
import MiniZincModels.Proofs.Gallery.Queens
import MiniZincModels.Proofs.Gallery.MagicSquare
import MiniZincModels.Proofs.Gallery.BinPacking
import MiniZincModels.Proofs.Gallery.Exactness
import MiniZincModels.Proofs.Output.Pieces
