import YangBinding.Diagnostic
import YangBinding.Schema.Record

namespace YangBinding

-- The records of a schema in the order they were drawn, one for a tag path.
structure SchemaTable where
  records : List SchemaRecord
deriving Repr, DecidableEq

namespace SchemaTable

def empty : SchemaTable := ⟨[]⟩

def get? (table : SchemaTable) (tagPath : String) : Option SchemaRecord :=
  table.records.find? fun record => record.tagPath = tagPath

-- Adds a record at the end, unless its tag path is taken.
def insert? (table : SchemaTable) (record : SchemaRecord) : Option SchemaTable :=
  if (table.get? record.tagPath).isSome then none else some ⟨table.records ++ [record]⟩

end SchemaTable

-- A table in the making, and the reports about tag paths that were taken.
structure Drawing where
  table : SchemaTable
  reports : List Report

namespace Node

mutual

-- Draws a child of `parent` and what is inside it. A child whose tag path is taken is reported
-- and left out together with all that is inside it.
def draw (namespaceUri tagPath : String) (parent : Node) : Node → Drawing → Drawing
  | .mk id keyword arg children, drawing =>
    let node := Node.mk id keyword arg children
    if keyword.inSchema then
      let inner := tagPath ++ arg ++ "/"
      match drawing.table.insert? (node.schemaRecord (some parent) namespaceUri inner) with
      | some table =>
        drawAll namespaceUri inner node children { drawing with table := table }
      | none =>
        { drawing with
          reports := drawing.reports ++ [⟨id, ⟨inner, .duplicateTagPath⟩⟩] }
    else drawing

def drawAll (namespaceUri tagPath : String) (parent : Node) : List Node → Drawing → Drawing
  | [], drawing => drawing
  | child :: rest, drawing =>
    drawAll namespaceUri tagPath parent rest (draw namespaceUri tagPath parent child drawing)

end

-- The schema of a node and all that is inside it, with the node itself at `tagPath`.
def schema (n : Node) (parent : Option Node) (namespaceUri tagPath : String) : Drawing :=
  drawAll namespaceUri tagPath n n.children
    ⟨⟨[n.schemaRecord parent namespaceUri tagPath]⟩, []⟩

end Node

end YangBinding
