import LuaDocs.Comment.Line

/-!
# Doc blocks

The block of a declaration is the whole run of doc comments that ends on the line before it. Each of
its lines remembers the number, counted from one, that it has in the file.
-/

namespace LuaDocs

/-- A line of a doc block. -/
structure DocLine where
  /-- What the line carries. -/
  content : LineContent
  /-- The number of the line in its file; the first line has number one. -/
  line : Nat
  deriving DecidableEq

/-- The doc comments above one declaration, in the order of the file. -/
abbrev Block := List DocLine

namespace Block

def hasTag (block : Block) (directive : Directive) : Bool :=
  block.any fun l => match l.content with
    | .tag d _ => d == directive
    | _ => false

def docRun (lines : List Text) : List Text :=
  (lines.reverse.takeWhile Comment.isDoc).reverse

/-- Doc comments as a block whose first line has the number `first`. -/
def ofRun (run : List Text) (first : Nat) : Block :=
  (run.zipIdx first).filterMap fun (line, n) =>
    (Comment.docText? line).map fun text => ⟨.classify text, n⟩

/-- The block directly above the line with the index `decl`, counted from zero. An index past the
end stands for the end of the file. -/
def above (lines : List Text) (decl : Nat) : Block :=
  let before := lines.take decl
  let run := docRun before
  ofRun run (before.length - run.length + 1)

end Block

end LuaDocs
