import YangBinding.Java.Source

namespace YangBinding.Java

-- A step to a list entry inside a string literal: each key is compared with its parameter.
def keyXPath (tag : String) (keys : List KeyLeaf) : String :=
  tag ++ String.join (keys.map fun key =>
    "[" ++ key.identifier ++ "='\" + " ++ valueParam key.identifier ++ " + \"']")

-- A step to an entry of a leaf-list.
def valueXPath (tag : String) : String := tag ++ "[name='\" + " ++ valueParam tag ++ " + \"']"

def keyParams (keys : List KeyLeaf) (form : ValueForm) : String :=
  String.intercalate ", "
    (keys.map fun key => key.type.inForm form ++ " " ++ valueParam key.identifier)

def keyArgs (keys : List KeyLeaf) : String :=
  String.intercalate ", " (keys.map fun key => valueParam key.identifier)

def keyComments (keys : List KeyLeaf) (tail : String) : List String :=
  keys.map fun key => "@param " ++ valueParam key.identifier ++ " Key argument of child" ++ tail

def fieldLines (field : String) : List String := [
  "",
  "    /**",
  "     * Field for child container \"" ++ field ++ "\".",
  "     */",
  "    public " ++ className field ++ " " ++ memberName field ++ " = null;"]

-- How a constructor comments on the form of its arguments.
def formComment : ValueForm → String
  | .wrapped => "with the keys as ConfM values."
  | .string => "with Strings for the keys."
  | .primitive => "with primitive Java types."

-- The statements that set one key.
def setKey (root : String) (form : ValueForm) (key : KeyLeaf) : List String :=
  let param := valueParam key.identifier
  let leaf := memberName key.identifier
  let value := if form = .wrapped then param else "new " ++ key.type.wrapper ++ "(" ++ param ++ ")"
  ["// Set key element: " ++ key.identifier,
    "Leaf " ++ leaf ++ " = new Leaf(" ++ root ++ ".NAMESPACE, \"" ++ key.identifier ++ "\");",
    leaf ++ ".setValue(" ++ value ++ ");",
    "insertChild(" ++ leaf ++ ", childrenNames());"]

def constructorLines (c : ClassSpec) (made : Constructor) : List String :=
  let root := c.rootClass
  let opening := "super(" ++ root ++ ".NAMESPACE, \"" ++ c.tag ++ "\");"
  let closing :=
    if made.setsPrefix then ["setDefaultPrefix();", "setPrefix(" ++ root ++ ".PREFIX);"] else []
  let throws := decide (c.kind = .list)
  match made.mode with
  | .noArgs =>
    method ["Constructor for an empty " ++ c.name ++ " object."] (c.name ++ "()") throws
      ([opening] ++ closing)
  | .keyed form =>
    method
      (["Constructor for an initialized " ++ c.name ++ " object,", formComment form] ++
        keyComments made.args ".")
      (c.name ++ "(" ++ keyParams made.args form ++ ")") throws
      ([opening] ++ made.args.flatMap (setKey root form) ++ closing)

-- Reading a key back fails only on a damaged object, so the copy of a keyed class catches that.
def copyLines (c : ClassSpec) (copy : CopyMethod) : List String :=
  let getters := String.intercalate ", "
    (copy.keys.map fun key => "get" ++ className key ++ "Value()")
  let made := "new " ++ c.name ++ "(" ++ getters ++ ")"
  let call :=
    if copy.shallow then "return cloneShallowContent(" ++ made ++ ");"
    else "return (" ++ c.name ++ ")cloneContent(" ++ made ++ ");"
  let body :=
    if copy.keys.isEmpty then [call]
    else ["try \x7b", "    " ++ call, "\x7d catch (INMException e) \x7b return null; \x7d"]
  if copy.shallow then
    method
      ["Clones this object, returning a shallow copy.",
        "@return A clone of the object. Children are not included."]
      "Element cloneShallow()" false body
  else
    method
      ["Clones this object, returning an exact copy.", "@return A clone of the object."]
      "Object clone()" false body

def keyNamesLines (c : ClassSpec) : List String :=
  method
    ["Structure information which specifies", "the keys for the list entries."]
    "String[] keyNames()" false
    (if c.keyNames.isEmpty then ["return null;"] else stringArray c.keyNames)

def childrenNamesLines (c : ClassSpec) : List String :=
  method
    ["Structure information with the names of the children.",
      "Makes it possible to order the children."]
    "String[] childrenNames()" false (stringArray c.childrenNames)

-- A child that has a field is kept there as well.
def addChildLines (c : ClassSpec) : List String :=
  let cases := c.fields.zipIdx.map fun (field, i) =>
    (if i = 0 then "" else "else ") ++ "if (child instanceof " ++ className field ++ ") " ++
      memberName field ++ " = (" ++ className field ++ ")child;"
  banner "Support method for addChild." ++
    method ["Adds a child to this object."] "void addChild(Element child)" false
      (["super.addChild(child);"] ++ cases)

end YangBinding.Java
