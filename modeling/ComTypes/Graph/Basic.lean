import ComTypes.Documentation
import ComTypes.Fault
import ComTypes.Primitive
import ComTypes.Record.FuncDesc
import ComTypes.Record.TypeDesc
import ComTypes.Table
import ComTypes.TypeKind

/-!
# Type graphs

Types live in an arena and refer to each other by position, so cyclic types need no special care.
Declarations (type definitions, enumerations, records, interfaces) carry a name. Structural types
(built-in types, pointers, arrays) do not; they are interned, one node for each structure.

The graph indexes declarations by GUID and structural nodes by structure. A declaration without a
GUID is identified by its own position.
-/

namespace ComTypes

abbrev TypeId := Nat

/-- What tells a node apart from all others. -/
inductive Identity where
  | guid (guid : Guid)
  /-- The node's own position. -/
  | index (position : Nat)
deriving DecidableEq, Repr

def Identity.guid? : Identity → Option Guid
  | .guid value => some value
  | .index _ => none

inductive RecordLayout where
  | struct | union
deriving DecidableEq, Repr

inductive ArrayBound where
  | fixed (dims : List ArrayDim)
  | safe
deriving DecidableEq, Repr

/-- A type without a name. -/
inductive Structural where
  | primitive (primitive : Primitive)
  | pointer (target : TypeId)
  | array (element : TypeId) (bound : ArrayBound)
deriving DecidableEq, Repr

structure EnumMember where
  name : String
  value : Int64
  doc : Documentation := {}
deriving DecidableEq, Repr

/-- A field of a record. The ordinal is its place among the described fields, kept or not. -/
structure Field where
  name : String
  type : TypeId
  ordinal : Nat
  flags : UInt16 := 0
  doc : Documentation := {}
  customData : List CustomItem := []
deriving DecidableEq, Repr

structure Parameter where
  name : String
  type : TypeId
  ordinal : Nat
  flags : UInt16 := 0
  customData : List CustomItem := []
deriving DecidableEq, Repr

structure Method where
  name : String
  returnType : TypeId
  parameters : List Parameter
  /-- Byte offset of the method's slot in the v-table. -/
  vtableOffset : Int32
  invokeKind : InvokeKind := .method
  flags : UInt16 := 0
  /-- The member id, on dispatch interfaces only. -/
  dispatchId : Option Int32 := none
  doc : Documentation := {}
  customData : List CustomItem := []
deriving DecidableEq, Repr

structure Interface where
  methods : List Method := []
  base : Option TypeId := none
  dispatch : Bool := false
deriving DecidableEq, Repr, Inhabited

inductive Body where
  | typedef (target : Option TypeId)
  | enumeration (members : List EnumMember)
  | record (layout : RecordLayout) (fields : List Field)
  | interface (definition : Interface)
  | structural (structural : Structural)
deriving DecidableEq, Repr

namespace Body

/-- Declarations carry a name and are rendered at top level. -/
def isDeclaration : Body → Bool
  | structural _ => false
  | _ => true

def isInterface : Body → Bool
  | interface _ => true
  | _ => false

/-- The empty body of a declaration of a given kind; modules and coclasses have none. -/
def blank? : TypeKind → Option Body
  | .enumeration => some (enumeration [])
  | .record => some (record .struct [])
  | .union => some (record .union [])
  | .vtable => some (interface {})
  | .dispatch => some (interface { dispatch := true })
  | .typedef => some (typedef none)
  | .moduleInfo | .coclass => none

/-- The types that a declaration's body names, in declaration order. -/
def references : Body → List TypeId
  | typedef target => target.toList
  | record _ fields => fields.map (·.type)
  | interface definition =>
    definition.methods.flatMap fun m => m.returnType :: m.parameters.map (·.type)
  | enumeration _ | structural _ => []

end Body

/-- A member that could not be built, or a fault of the type itself (`member = none`). -/
structure Issue where
  member : Option Nat
  fault : Fault
deriving DecidableEq, Repr

inductive BuildState where
  /-- Declared, body not built yet. -/
  | pending
  | complete
  | incomplete (issues : List Issue)
deriving DecidableEq, Repr

namespace BuildState

instance : Inhabited BuildState := ⟨pending⟩

def issues : BuildState → List Issue
  | incomplete issues => issues
  | _ => []

def ofIssues : List Issue → BuildState
  | [] => complete
  | issues => incomplete issues

end BuildState

structure Node where
  identity : Identity
  name : String
  doc : Documentation := {}
  customData : List CustomItem := []
  flags : UInt16 := 0
  version : UInt16 × UInt16 := (0, 0)
  /-- Defined in another binary and only referred to here. -/
  external : Bool := false
  /-- Dropped by a later decode. The slot stays but no longer declares anything. -/
  retired : Bool := false
  state : BuildState := .pending
  body : Body
deriving DecidableEq, Repr

namespace Node

/-- Whether the node is a declaration in use. -/
def isDeclaration (node : Node) : Bool := !node.retired && node.body.isDeclaration

def isParsed (node : Node) : Bool := node.state = .complete

def guid? (node : Node) : Option Guid := node.identity.guid?

end Node

/-- Types with their two indexes. -/
structure Graph where
  nodes : Array Node := #[]
  byGuid : Table Guid TypeId := {}
  byStructure : Table Structural TypeId := {}
deriving DecidableEq, Repr

namespace Graph

instance : Inhabited Graph := ⟨{}⟩

/-- Number of nodes, retired ones included. -/
def size (g : Graph) : Nat := g.nodes.size

def node? (g : Graph) (id : TypeId) : Option Node := g.nodes[id]?

def body? (g : Graph) (id : TypeId) : Option Body := (g.node? id).map (·.body)

def ids (g : Graph) : List TypeId := List.range g.size

def findGuid? (g : Graph) (guid : Guid) : Option TypeId := g.byGuid.get? guid

def findName? (g : Graph) (name : String) : Option TypeId :=
  g.ids.find? fun id => (g.node? id).any fun node => node.isDeclaration && node.name = name

/-- The declarations that the decoded sources define, in order of appearance. -/
def roots (g : Graph) : List TypeId :=
  g.ids.filter fun id => (g.node? id).any fun node => node.isDeclaration && !node.external

def modify (g : Graph) (id : TypeId) (f : Node → Node) : Graph :=
  { g with nodes := g.nodes.modify id f }

/-- Append a node. Under a GUID other than zero it is identified and indexed by it, otherwise it is
identified by its position. -/
def add (g : Graph) (guid : Option Guid) (name : String) (body : Body) : TypeId × Graph :=
  let id := g.size
  match guid.filter (!·.isZero) with
  | some guid =>
    (id, { g with
      nodes := g.nodes.push { identity := .guid guid, name, body }
      byGuid := g.byGuid.insert guid id })
  | none => (id, { g with nodes := g.nodes.push { identity := .index id, name, body } })

/-- Take a declaration out of use. Its GUID is forgotten unless it names another node by now. -/
def retire (g : Graph) (id : TypeId) : Graph :=
  let byGuid :=
    match (g.node? id).bind (·.guid?) with
    | some guid => if g.byGuid.get? guid = some id then g.byGuid.erase guid else g.byGuid
    | none => g.byGuid
  { g.modify id (fun node => { node with retired := true, name := "" }) with byGuid }

/-- The node of a structural type, created when it is asked for the first time. -/
def intern (g : Graph) (structural : Structural) : TypeId × Graph :=
  match g.byStructure.get? structural with
  | some id => (id, g)
  | none =>
    let (id, g) := g.add none "" (.structural structural)
    let g := g.modify id fun node => { node with state := .complete }
    (id, { g with byStructure := g.byStructure.insert structural id })

/-- The node for a type that is defined elsewhere, created once per GUID. A name fills in for an
empty one but never replaces another. -/
def external (g : Graph) (guid : Guid) (name : String) (body : Body) : TypeId × Graph :=
  match g.findGuid? guid with
  | some id =>
    (id, g.modify id fun node => if node.name = "" then { node with name } else node)
  | none =>
    let (id, g) := g.add (some guid) name body
    (id, g.modify id fun node => { node with external := true, state := .complete })

/-- The node for an interface that is defined elsewhere. -/
def externalInterface (g : Graph) (iid : Guid) (name : Option String) : TypeId × Graph :=
  g.external iid (name.getD "") (.interface {})

def bodyReferences (g : Graph) (id : TypeId) : List TypeId :=
  (g.body? id).elim [] Body.references

end Graph

end ComTypes
