import YangBinding.Schema.Table

namespace YangBinding

-- One character of XML text.
def escapeXmlChar (c : Char) : List Char :=
  if c == '&' then "&amp;".toList
  else if c == '<' then "&lt;".toList
  else if c == '>' then "&gt;".toList
  else if c == '"' then "&quot;".toList
  else [c]

def escapeXml (s : String) : String := String.ofList (s.toList.flatMap escapeXmlChar)

-- The elements of a record, in the order they are written. Some are always empty.
def SchemaRecord.elements (r : SchemaRecord) : List (String × String) := [
  ("tagpath", r.tagPath),
  ("namespace", r.namespaceUri),
  ("primitive_type", ""),
  ("min_occurs", toString r.occurs.least),
  ("max_occurs", r.occurs.greatestText),
  ("children", String.intercalate " " r.children),
  ("flags", ""),
  ("desc", "")]

def xmlElement (tag value : String) : String :=
  "        <" ++ tag ++ ">" ++ escapeXml value ++ "</" ++ tag ++ ">\n"

def SchemaRecord.xml (r : SchemaRecord) : String :=
  "    <node>\n" ++ String.join (r.elements.map fun (tag, value) => xmlElement tag value) ++
    "    </node>\n"

def SchemaTable.xml (table : SchemaTable) : String :=
  "<schema>\n" ++ String.join (table.records.map SchemaRecord.xml) ++ "</schema>\n"

end YangBinding
