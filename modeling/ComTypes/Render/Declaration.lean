import ComTypes.Naming.Distinct
import ComTypes.Render.Attributes
import ComTypes.Render.Spelling
import ComTypes.Text.Blank

/-!
# Declarations

The lines of one declaration: attributes, a header, the members with their documentation, and, for
an incomplete type that is rendered all the same, one placeholder for each issue.
-/

namespace ComTypes

/-- The lines of a text, which CR, LF and CRLF end alike. -/
def docTextLines (text : String) : List (List Char) :=
  split (Text.replacePair '\r' '\n' ['\n'] text.toList)
where
  /-- Cut at every CR and LF. -/
  split : List Char → List (List Char)
    | [] => [[]]
    | c :: rest =>
      if c = '\r' ∨ c = '\n' then [] :: split rest
      else match split rest with
        | [] => [[c]]
        | line :: lines => (c :: line) :: lines

/-- One comment for each line of a documentation text, without blanks at its end. -/
def docComments (text : String) : List String :=
  (docTextLines text).map fun line => String.ofList (Text.trimEnd ('/' :: '/' :: ' ' :: line))

def issueComment (issue : Issue) : String :=
  let place :=
    match issue.member with
    | some member => s!"member {member}: "
    | none => ""
  "/* __incomplete__: " ++ place ++ Text.commentSafe issue.fault.message ++ " */"

namespace Scope

/-- Whether an interface is declared as a dispatch interface, which only IDL has. -/
def isDispinterface (s : Scope) (definition : Interface) : Bool :=
  definition.dispatch && s.dialect = .idl

def docLines (s : Scope) (doc : Documentation) : List String :=
  if s.hideComments ∨ doc.docString = "" then [] else docComments doc.docString

def issueLines (s : Scope) (node : Node) : List String :=
  if s.bestEffort then node.state.issues.map issueComment else []

/-- The attributes in front of a declaration. -/
def attributeBlock (s : Scope) (node : Node) : List Line :=
  let object :=
    match node.body with
    | .interface definition => if !definition.dispatch && s.dialect = .idl then ["object"] else []
    | _ => []
  Attributes.block s.dialect (object ++ Attributes.ofNode node)

/-- A declaration in braces. -/
def braced (s : Scope) (node : Node) (header : String) (unindented members : List String) :
    List Line :=
  s.attributeBlock node ++ [{ text := header ++ " \x7b" }] ++
    unindented.map (fun text => { depth := 0, text }) ++
    (members ++ s.issueLines node).map (fun text => { depth := 1, text }) ++
    [{ text := s.dialect.closeBrace }]

/-! ### Kinds of declarations -/

def typedefLine (s : Scope) (id : TypeId) (node : Node) (target : Option TypeId) : String :=
  let declarator := target.elim { before := "__incomplete__" } s.spell
  "typedef " ++ Attributes.inline s.dialect ("public" :: Attributes.ofNode node) ++
    declarator.around (s.name id) ++ ";"

/-- The lines of an enumeration's values, with a comma behind each but the last. -/
def enumLines (s : Scope) (members : List EnumMember) : List String :=
  let names := Naming.disambiguate (fun i => s!"Value{i}") (members.map (·.name))
  ((members.zip names).zipIdx).flatMap fun ((member, name), i) =>
    let comma := if i + 1 < members.length then "," else ""
    s.docLines member.doc ++ [name ++ " = " ++ toString member.value.toInt ++ comma]

def fieldLine (s : Scope) (field : Field) (name : String) : String :=
  Attributes.inline s.dialect (Attributes.ofField field) ++ (s.spell field.type).around name ++ ";"

def fieldLines (s : Scope) (fields : List Field) : List String :=
  let names := Naming.disambiguate (fun i => s!"field{i}") (fields.map (·.name))
  (fields.zip names).flatMap fun (field, name) => s.docLines field.doc ++ [s.fieldLine field name]

def parameterText (s : Scope) (parameter : Parameter) (name : String) : String :=
  Attributes.inline s.dialect (Attributes.ofParameter s.dialect parameter) ++
    (s.spell parameter.type).around name

def methodLine (s : Scope) (method : Method) (name : String) : String :=
  let attributes := Attributes.inline s.dialect (Attributes.ofMethod method)
  let result := (s.spell method.returnType).bare
  let names := Naming.disambiguate (fun i => s!"p{i}") (method.parameters.map (·.name))
  let parameters := ", ".intercalate <|
    (method.parameters.zip names).map fun (parameter, name) => s.parameterText parameter name
  match s.dialect with
  | .cpp =>
    attributes ++ "virtual " ++ result ++ " __stdcall " ++ name ++ "(" ++ parameters ++ ") = 0;"
  | .idl | .generic => attributes ++ result ++ " " ++ name ++ "(" ++ parameters ++ ");"

def methodLines (s : Scope) (methods : List Method) : List String :=
  let names := Naming.disambiguate (fun i => s!"Method{i}") (methods.map (·.name))
  (methods.zip names).flatMap fun (method, name) => s.docLines method.doc ++ [s.methodLine method name]

def interfaceKeyword (s : Scope) (definition : Interface) : String :=
  if s.isDispinterface definition then "dispinterface" else s.dialect.interfaceKeyword

/-- The header of an interface. A dispatch interface does not name its base. -/
def interfaceHeader (s : Scope) (id : TypeId) (definition : Interface) : String :=
  let start := s.interfaceKeyword definition ++ " " ++ s.name id
  if s.isDispinterface definition then start
  else match definition.base, s.dialect with
    | some base, .cpp => start ++ " : public " ++ s.name base
    | some base, _ => start ++ " : " ++ s.name base
    | none, _ => start

/-- The lines of a declaration; structural types have none. -/
def declaration (s : Scope) (id : TypeId) (node : Node) : List Line :=
  match node.body with
  | .typedef target => [{ text := s.typedefLine id node target }]
  | .enumeration members => s.braced node ("enum " ++ s.name id) [] (s.enumLines members)
  | .record layout fields =>
    s.braced node (layout.keyword ++ " " ++ s.name id) [] (s.fieldLines fields)
  | .interface definition =>
    s.braced node (s.interfaceHeader id definition)
      (if s.isDispinterface definition then ["properties:", "methods:"] else [])
      (s.methodLines definition.methods)
  | .structural _ => []

def forward (s : Scope) (id : TypeId) : List Line :=
  match s.graph.body? id with
  | some (.record layout _) => [{ text := layout.keyword ++ " " ++ s.name id ++ ";" }]
  | some (.interface definition) =>
    [{ text := s.interfaceKeyword definition ++ " " ++ s.name id ++ ";" }]
  | _ => []

end Scope

end ComTypes
