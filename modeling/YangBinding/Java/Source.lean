import YangBinding.Class.Spec
import YangBinding.Date
import YangBinding.Java.Name

namespace YangBinding

-- What the text of a class depends on beside the class itself.
structure RenderOptions where
  package : String
  version : String
  date : Date
deriving Repr, DecidableEq

namespace Java

-- Lines of text, each ended by a newline.
def joinLines (lines : List String) : String :=
  String.join (lines.map fun line => line ++ "\n")

-- A public method with its comment, after a blank line.
def method (doc : List String) (signature : String) (throws : Bool) (body : List String) :
    List String :=
  ["", "    /**"] ++ doc.map ("     * " ++ ·) ++ ["     */"] ++
    (if throws then ["    public " ++ signature, "        throws INMException \x7b"]
      else ["    public " ++ signature ++ " \x7b"]) ++
    body.map ("        " ++ ·) ++ ["    \x7d"]

-- A comment that heads the methods for one child.
def banner (title : String) : List String := [
  "",
  "    /**",
  "     * -------------------------------------------------------",
  "     * " ++ title,
  "     * -------------------------------------------------------",
  "     */"]

-- An array of names, and the statement that returns it.
def stringArray (names : List String) : List String :=
  let last := names.length - 1
  ["return new String[] \x7b"] ++
    (names.zipIdx.map fun (name, i) =>
      "    \"" ++ name ++ "\"" ++ (if i = last then "" else ",")) ++
    ["\x7d;"]

-- A path without the slashes at its end.
def trimSlashes (path : String) : String :=
  String.ofList (path.toList.reverse.dropWhile (· == '/')).reverse

def classComment (c : ClassSpec) : List String :=
  match c.modulePrefix with
  | some modulePrefix => [
      " * The root class for namespace " ++ c.namespaceUri ++ " (accessible from",
      " * " ++ c.name ++ ".NAMESPACE) with prefix \"" ++ modulePrefix ++ "\" (" ++ c.name ++
        ".PREFIX)."]
  | none => [
      " * This class represents a \"" ++ trimSlashes c.path ++ "\" element",
      " * from the namespace " ++ c.namespaceUri]

-- All up to the opening brace of a class.
def header (options : RenderOptions) (provenance : String) (c : ClassSpec) : List String :=
  ["/*",
    " * @(#)" ++ c.fileName ++ "        " ++ options.version ++ " " ++ options.date.short,
    " *",
    " * This file has been auto-generated by yang-classgen.",
    " * Origin: " ++ provenance,
    " */",
    "",
    "package " ++ options.package ++ ";",
    "",
    "import com.tailf.confm.*;",
    "import com.tailf.inm.*;"] ++
  (if c.kind = .module then ["import java.util.Hashtable;"] else []) ++
  ["", "/**"] ++ classComment c ++
  [" *",
    " * @version    " ++ options.version ++ " " ++ options.date.long,
    " * @author    Auto Generated",
    " */",
    "public class " ++ c.name ++ (if c.kind = .module then " \x7b" else " extends Container \x7b")]

-- The members of the class of a module.
def moduleBody (c : ClassSpec) : List String :=
  let schemaFile := c.name ++ ".schema"
  ["",
    "    public static final String NAMESPACE = \"" ++ c.namespaceUri ++ "\";",
    "",
    "    public static final String PREFIX = \"" ++ c.modulePrefix.getD "" ++ "\";"] ++
  method
    ["Enable the elements in this namespace to be aware",
      "of the data model and use the generated classes."]
    "static void enable()" true
    ["Container.setPackage(NAMESPACE, PREFIX);", c.name ++ ".registerSchema();"] ++
  method
    ["Register the schema for this namespace in the global",
      "schema table (CsTree) making it possible to lookup",
      "CsNode entries for all tagpaths"]
    "static void registerSchema()" true
    ["StackTraceElement[] sTrace = (new Exception()).getStackTrace();",
      "ClassLoader loader = sTrace[0].getClass().getClassLoader();",
      "java.net.URL schemaUrl = loader.getSystemResource(\"" ++ schemaFile ++ "\");",
      "SchemaParser parser = new SchemaParser();",
      "Hashtable h = CsTree.create(NAMESPACE);",
      "if (schemaUrl == null)",
      "    parser.readFile(\"" ++ schemaFile ++ "\", h);",
      "else",
      "    parser.readFile(schemaUrl, h);"]

end Java

end YangBinding
