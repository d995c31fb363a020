import ComTypes.Graph.Basic
import ComTypes.Render.Dialect
import ComTypes.Render.Source
import ComTypes.Text.Hex
import ComTypes.Text.Literal

/-!
# Attributes

The attributes of types, methods, parameters and fields, as lists of tokens, and the two ways of
writing such a list: as a block in front of a declaration, one token a line, or inline in front of
a member. An empty list is not written at all.
-/

namespace ComTypes.Attributes

/-! ### Writing -/

/-- The tokens one a line in brackets, a comma behind each but the last. -/
def block (dialect : Dialect) (tokens : List String) : List Line :=
  match tokens.getLast? with
  | none => []
  | some last =>
    { text := dialect.attributesOpen } ::
      (tokens.dropLast.map fun token => { depth := 1, text := dialect.attributeToken token ++ "," }) ++
      [{ depth := 1, text := dialect.attributeToken last }, { text := dialect.attributesClose }]

/-- The tokens in brackets on one line with a blank behind. -/
def inline (dialect : Dialect) (tokens : List String) : String :=
  if tokens.isEmpty then ""
  else dialect.attributesOpen ++ ", ".intercalate (tokens.map dialect.attributeToken) ++
    dialect.attributesClose ++ " "

/-! ### Tokens -/

/-- The tokens of the flags that are set, in table order. -/
def ofFlags (flags : UInt16) (table : List (UInt16 × String)) : List String :=
  (table.filter fun (mask, _) => flags &&& mask = mask).map (·.2)

def quoted (text : String) : String := "\"" ++ Text.escape text ++ "\""

def custom (item : CustomItem) : String :=
  let value :=
    match item.value with
    | .int value => toString value.toInt
    | .text value => quoted value
  "custom(" ++ item.guid.registry ++ ", " ++ value ++ ")"

def typeFlags : List (UInt16 × String) :=
  [(0x0001, "appobject"), (0x0004, "licensed"), (0x0008, "predeclid"), (0x0010, "hidden"),
    (0x0020, "control"), (0x0040, "dual"), (0x0080, "nonextensible"), (0x0100, "oleautomation"),
    (0x0200, "restricted"), (0x0400, "aggregatable"), (0x0800, "replaceable"), (0x4000, "proxy")]

def ofNode (node : Node) : List String :=
  (node.guid?.elim [] fun guid => ["uuid(" ++ guid.registry ++ ")"]) ++
    (if node.version = (0, 0) then []
      else [s!"version({node.version.1.toNat}.{node.version.2.toNat})"]) ++
    (if node.doc.docString = "" then [] else ["helpstring(" ++ quoted node.doc.docString ++ ")"]) ++
    (if node.doc.helpContext = 0 then []
      else ["helpcontext(" ++ Hex.word node.doc.helpContext ++ ")"]) ++
    ofFlags node.flags typeFlags ++ node.customData.map custom

/-- A dispatch id: in decimal below 256, else as a word in hexadecimal. -/
def dispatchId (id : Int32) : String :=
  if 0 ≤ id.toInt ∧ id.toInt < 256 then s!"id({id.toInt})"
  else "id(" ++ Hex.word id.toUInt32 ++ ")"

def ofInvokeKind : InvokeKind → List String
  | .method => []
  | .propertyGet => ["propget"]
  | .propertyPut | .propertyPutRef => ["propput"]

def methodFlags : List (UInt16 × String) :=
  [(0x0004, "bindable"), (0x0020, "defaultbind"), (0x0100, "defaultcollelem"),
    (0x0010, "displaybind"), (0x0040, "hidden"), (0x1000, "immediatebind"),
    (0x0400, "nonbrowsable"), (0x0008, "requestedit"), (0x0001, "restricted"), (0x0002, "source"),
    (0x0200, "uidefault"), (0x0080, "usesgetlasterror"), (0x0800, "replaceable")]

def ofMethod (method : Method) : List String :=
  method.dispatchId.toList.map dispatchId ++ ofInvokeKind method.invokeKind ++
    ofFlags method.flags methodFlags ++ method.customData.map custom

def parameterFlags (dialect : Dialect) : List (UInt16 × String) :=
  [(0x0001, dialect.parameterWord "in" "In"), (0x0002, dialect.parameterWord "out" "Out"),
    (0x0004, dialect.parameterWord "lcid" "Lcid"),
    (0x0008, dialect.parameterWord "retval" "RetVal"),
    (0x0010, dialect.parameterWord "optional" "Optional")]

def ofParameter (dialect : Dialect) (parameter : Parameter) : List String :=
  ofFlags parameter.flags (parameterFlags dialect) ++ parameter.customData.map custom

def fieldFlags : List (UInt16 × String) :=
  [(0x0001, "readonly"), (0x0002, "source"), (0x0004, "bindable"), (0x0040, "hidden"),
    (0x0080, "restricted"), (0x0400, "nonbrowsable")]

def ofField (field : Field) : List String :=
  ofFlags field.flags fieldFlags ++ field.customData.map custom

end ComTypes.Attributes
