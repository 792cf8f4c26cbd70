import LuaDocs.Main
import LuaDocs.Proofs.Command.Checking
import LuaDocs.Proofs.Declaration.Agreement
import LuaDocs.Proofs.Declaration.Alternatives
import LuaDocs.Proofs.Declaration.Entry
import LuaDocs.Proofs.Declaration.Faults
import LuaDocs.Proofs.Declaration.Heads
import LuaDocs.Proofs.Declaration.Layout
import LuaDocs.Proofs.Declaration.Naming
import LuaDocs.Proofs.Declaration.Prose
import LuaDocs.Proofs.Declaration.Sections
import LuaDocs.Proofs.Declaration.Segments
import LuaDocs.Proofs.Declaration.Targets
import LuaDocs.Proofs.Declaration.TypeLists
import LuaDocs.Proofs.Declaration.Untyped
import LuaDocs.Proofs.Files.Locating
import LuaDocs.Proofs.Files.Order
import LuaDocs.Proofs.Files.Steps
import LuaDocs.Proofs.Files.Walking
import LuaDocs.Proofs.Marker.Literal
import LuaDocs.Proofs.Project.Headings
import LuaDocs.Proofs.Project.Hidden
import LuaDocs.Proofs.Project.Marking
import LuaDocs.Proofs.Project.Readme
import LuaDocs.Proofs.Project.Repeating
import LuaDocs.Proofs.Project.Scanning
import LuaDocs.Proofs.Project.Sections
import LuaDocs.Proofs.Project.Stepping
import LuaDocs.Proofs.Project.Stopping
import LuaDocs.Proofs.Project.Updating
import LuaDocs.Proofs.Registry.Duplicates
import LuaDocs.Proofs.Registry.Indexing
import LuaDocs.Proofs.Registry.Matching
import LuaDocs.Proofs.Registry.Order
import LuaDocs.Proofs.Registry.Unresolved
import LuaDocs.Proofs.Render.Anchors
import LuaDocs.Proofs.Render.Blocks
import LuaDocs.Proofs.Render.Contents
import LuaDocs.Proofs.Render.Documented
import LuaDocs.Proofs.Render.Escaping
import LuaDocs.Proofs.Render.Fences
import LuaDocs.Proofs.Render.Framing
import LuaDocs.Proofs.Render.Markup
import LuaDocs.Proofs.Render.Paragraphs
import LuaDocs.Proofs.Render.Reachable
import LuaDocs.Proofs.Render.Reordering
import LuaDocs.Proofs.Render.Tables
import LuaDocs.Proofs.Render.Tags
import LuaDocs.Proofs.Render.Width
import LuaDocs.Proofs.Section.Document
import LuaDocs.Proofs.Section.Drafting
import LuaDocs.Proofs.Section.Editing
import LuaDocs.Proofs.Section.Rewriting
import LuaDocs.Proofs.Section.Splicing
import LuaDocs.Proofs.Section.Surroundings
import LuaDocs.Proofs.Source.Locality
import LuaDocs.Proofs.Source.Parameters
import LuaDocs.Proofs.Source.Places
import LuaDocs.Proofs.Source.Rewording
import LuaDocs.Proofs.Source.Scanning
import LuaDocs.Proofs.Text.Breaking
import LuaDocs.Proofs.Text.Filling
import LuaDocs.Proofs.Text.Words
import LuaDocs.Proofs.TypeExpr.Backtracking
import LuaDocs.Proofs.TypeExpr.Naming
import LuaDocs.Proofs.TypeExpr.Nodes
import LuaDocs.Proofs.TypeExpr.NormalForm
import LuaDocs.Proofs.TypeExpr.Relabeling
