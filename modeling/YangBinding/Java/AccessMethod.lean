import YangBinding.Java.Method

namespace YangBinding.Java

-- The keyword of a kind of child, as headings show it. A key leaf is headed `key`.
def headingKeyword : MemberKind → String
  | .leaf => "leaf"
  | .keyLeaf => "key"
  | .leafList => "leaf-list"
  | .container => "container"
  | .list => "list"

-- The keyword of a kind of child, as method comments show it.
def memberKeyword : MemberKind → String
  | .keyLeaf => "leaf"
  | other => headingKeyword other

-- The names that the text of an accessor is made of.
structure AccessNames where
  root : String
  tag : String
  cls : String
  var : String
  param : String
  keyword : String
  type : ValueType
  setLeaf : String

def accessNames (c : ClassSpec) (a : Accessor) : AccessNames where
  root := c.rootClass
  tag := a.name
  cls := className a.name
  var := memberName a.name
  param := valueParam a.name
  keyword := memberKeyword a.kind
  type := a.type.getD .string
  setLeaf := if a.kind = .leafList then "setLeafListValue" else "setLeafValue"

-- A remark that is made only where the arguments are strings.
def onString (form : ValueForm) (remark : String) : List String :=
  if form = .string then [remark] else []

def getEntryLines (n : AccessNames) (keys : List KeyLeaf) (form : ValueForm) : List String :=
  method
    (["Get method for " ++ n.keyword ++ " entry: \"" ++ n.tag ++ "\".",
        "Return the child with the specified keys (if any)."] ++
      onString form "The keys are specified as Strings" ++ keyComments keys "." ++
      ["@return The " ++ n.keyword ++ " entry with the specified keys."])
    (n.cls ++ " get" ++ n.cls ++ "(" ++ keyParams keys form ++ ")") true
    ["String path = \"" ++ keyXPath n.tag keys ++ "\";",
      "return (" ++ n.cls ++ ")getListContainer(path);"]

def getValueLines (n : AccessNames) : List String :=
  method
    ["Return the value for child " ++ n.keyword ++ " \"" ++ n.tag ++ "\".",
      "@return The value of the " ++ n.keyword ++ "."]
    (n.type.wrapper ++ " get" ++ n.cls ++ "Value()") true
    ["return (" ++ n.type.wrapper ++ ")getValue(\"" ++ n.tag ++ "\");"]

def setLines (n : AccessNames) (form : ValueForm) : List String :=
  let note := match form with
    | .wrapped => ""
    | .string => ", using a string value"
    | .primitive => ", using the java primitive value"
  let what := if form = .string then "string representation of the " else ""
  let body :=
    if form = .wrapped then
      [n.setLeaf ++ "(" ++ n.root ++ ".NAMESPACE,", "    \"" ++ n.tag ++ "\",",
        "    " ++ n.param ++ ",", "    childrenNames());"]
    else ["set" ++ n.cls ++ "Value(new " ++ n.type.wrapper ++ "(" ++ n.param ++ "));"]
  method
    ["Sets the value for child " ++ n.keyword ++ " \"" ++ n.tag ++ "\"" ++ note ++ ".",
      "@param " ++ n.param ++ " The " ++ what ++ "value to set."]
    ("void set" ++ n.cls ++ "Value(" ++ n.type.inForm form ++ " " ++ n.param ++ ")") true body

def unsetLines (n : AccessNames) : List String :=
  method
    ["Unsets the value for child " ++ n.keyword ++ " \"" ++ n.tag ++ "\"."]
    ("void unset" ++ n.cls ++ "Value()") true
    ["delete(\"" ++ n.tag ++ "\");"]

def addEmptyLines (n : AccessNames) (kind : MemberKind) : List String :=
  let name := if kind = .leafList then "Empty" ++ n.cls else n.cls
  method
    ["This method is used for creating a subtree filter.",
      "The added \"" ++ n.tag ++ "\" " ++ n.keyword ++ " will not have a value."]
    ("void add" ++ name ++ "()") true
    [n.setLeaf ++ "(" ++ n.root ++ ".NAMESPACE,", "    \"" ++ n.tag ++ "\",",
      "    null,", "    childrenNames());"]

def markLines (n : AccessNames) (edit : EditOperation) (form : Option ValueForm) : List String :=
  let verb := className edit.text
  let doc := ["Marks the \"" ++ n.tag ++ "\" " ++ n.keyword ++ " with operation \"" ++ edit.text ++
    "\"."]
  match form with
  | some form =>
    let given := if form = .string then ", given as a String" else ""
    method (doc ++ ["@param " ++ n.param ++ " The value to mark" ++ given])
      ("void mark" ++ n.cls ++ verb ++ "(" ++ n.type.inForm form ++ " " ++ n.param ++ ")") true
      ["markLeaf" ++ verb ++ "(\"" ++ valueXPath n.tag ++ "\");"]
  | none =>
    method doc ("void mark" ++ n.cls ++ verb ++ "()") true
      ["markLeaf" ++ verb ++ "(\"" ++ n.tag ++ "\");"]

def iterateLines (n : AccessNames) (kind : MemberKind) : List String :=
  let iterator :=
    if kind = .leafList then "ElementLeafListValueIterator" else "ElementChildrenIterator"
  method
    ["Iterator method for the " ++ n.keyword ++ " \"" ++ n.tag ++ "\".",
      "@return An iterator for the " ++ n.keyword ++ "."]
    (iterator ++ " " ++ n.var ++ "Iterator()") false
    ["return new " ++ iterator ++ "(children, \"" ++ n.tag ++ "\");"]

-- Adding a child: the given object, a new one with keys, or a new one without any.
def addLines (n : AccessNames) (hasField : Bool) (lookup : Lookup) : List String :=
  let ending := (if hasField then ["this." ++ n.var ++ " = " ++ n.var ++ ";"] else []) ++
    ["insertChild(" ++ n.var ++ ", childrenNames());", "return " ++ n.var ++ ";"]
  let signature := fun params => n.cls ++ " add" ++ n.cls ++ "(" ++ params ++ ")"
  let entry := "Adds " ++ n.keyword ++ " entry \"" ++ n.tag ++ "\""
  let made := fun args => n.cls ++ " " ++ n.var ++ " = new " ++ n.cls ++ "(" ++ args ++ ");"
  match lookup with
  | .childObject =>
    method
      [entry ++ ".", "@param " ++ n.var ++ " Child to be added to children",
        "@return The added child."]
      (signature (n.cls ++ " " ++ n.var)) true ending
  | .keys keys form =>
    method
      ([entry ++ ", with given key arguments."] ++
        onString form "The keys are specified as strings" ++ keyComments keys "" ++
        ["@return The added child."])
      (signature (keyParams keys form)) true ([made (keyArgs keys)] ++ ending)
  | _ =>
    method
      [entry ++ ".", "This method is used for creating subtree filters.",
        "@return The added child."]
      (signature "") true ([made ""] ++ ending)

-- Deleting a child: the entry with some keys, an entry of a leaf-list, or the only one.
def deleteLines (n : AccessNames) (hasField : Bool) (lookup : Lookup) : List String :=
  let entry := "Deletes " ++ n.keyword ++ " entry \"" ++ n.tag ++ "\""
  let signature := fun params => "void delete" ++ n.cls ++ "(" ++ params ++ ")"
  let ending := fun path => ["String path = \"" ++ path ++ "\";", "delete(path);"]
  match lookup with
  | .keys keys form =>
    method
      ([entry ++ ", with specified keys."] ++ onString form "The keys are specified as Strings" ++
        keyComments keys ".")
      (signature (keyParams keys form)) true (ending (keyXPath n.tag keys))
  | .value form =>
    method
      ([entry ++ "."] ++ onString form "The value is specified as a String" ++
        ["@param " ++ n.param ++ " Child to be removed."])
      (signature (n.type.inForm form ++ " " ++ n.param)) true (ending (valueXPath n.tag))
  | _ =>
    method [entry ++ "."] (signature "") true
      ((if hasField then ["this." ++ n.var ++ " = null;"] else []) ++ ending n.tag)

def accessorLines (c : ClassSpec) (a : Accessor) : List String :=
  let n := accessNames c a
  match a.operation with
  | .get (.keys keys form) => getEntryLines n keys form
  | .get _ => getValueLines n
  | .set form => setLines n form
  | .unset => unsetLines n
  | .addEmpty => addEmptyLines n a.kind
  | .mark edit form => markLines n edit form
  | .iterate => iterateLines n a.kind
  | .addChild lookup => addLines n a.hasField lookup
  | .delete lookup => deleteLines n a.hasField lookup

def heading (a : Accessor) : List String :=
  banner ("Access methods for " ++ (if a.optional then "optional " else "") ++
    headingKeyword a.kind ++ " child: \"" ++ a.name ++ "\".")

-- The accessors of a class. A heading stands wherever the child changes; `current` is the child
-- of the accessor before.
def accessorsLines (c : ClassSpec) :
    Option (MemberKind × String) → List Accessor → List String
  | _, [] => []
  | current, a :: rest =>
    let member := (a.kind, a.name)
    (if current = some member then [] else heading a) ++ accessorLines c a ++
      accessorsLines c (some member) rest

-- The members of the class of a container or list.
def elementBody (c : ClassSpec) : List String :=
  c.fields.flatMap fieldLines ++ c.constructors.flatMap (constructorLines c) ++
    c.copies.flatMap (copyLines c) ++ keyNamesLines c ++ childrenNamesLines c ++
    accessorsLines c none c.accessors ++ (if c.addChildSupport then addChildLines c else [])

def classLines (options : RenderOptions) (provenance : String) (c : ClassSpec) : List String :=
  header options provenance c ++
    (if c.kind = .module then moduleBody c else elementBody c) ++ ["\x7d"]

-- Writes a class behind the text that is there already.
def emitClass (options : RenderOptions) (provenance : String) (text : String) (c : ClassSpec) :
    String :=
  (classLines options provenance c).foldl (fun text line => text ++ line ++ "\n") text

-- The source of a class.
def source (options : RenderOptions) (provenance : String) (c : ClassSpec) : String :=
  emitClass options provenance "" c

-- A file of the generated package.
structure SourceFile where
  name : String
  text : String
deriving Repr, DecidableEq

-- A file for each class of a module.
def moduleSources (options : RenderOptions) (m : ModuleModel) : List SourceFile :=
  m.root.walk.map fun c => ⟨c.fileName, source options m.provenance c⟩

end YangBinding.Java
