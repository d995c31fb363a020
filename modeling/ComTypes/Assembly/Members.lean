import ComTypes.Assembly.Resolve
import ComTypes.Record.FuncDesc
import ComTypes.Record.VarDesc

/-!
# Building members

The values of an enumeration, the fields of a record and the methods of an interface, each built
from its own descriptor. A member that fails is left out and recorded as an issue under its number;
the others are kept in order.
-/

namespace ComTypes.Assemble

/-- Build the members numbered `0` to `count - 1`, in order. Returns the members that could be built
and an issue for each of the others. -/
def collect {α : Type} (count : Nat) (build : Nat → Assemble α) :
    Assemble (List α × List Issue) := do
  let step := fun (kept : Array α × Array Issue) index => do
    match ← attempt (build index) with
    | .ok member => return (kept.1.push member, kept.2)
    | .error fault => return (kept.1, kept.2.push ⟨some index, fault⟩)
  let (members, issues) ← (List.range count).foldlM step (#[], #[])
  return (members.toList, issues.toList)

/-- The name of a member: its documented name, or else the one the lookup knows. -/
def memberName (doc : Documentation) (names : NameLookup) (member : Int32) : String :=
  if doc.name = "" then (names member 0).getD "" else doc.name

/-- The name of a parameter: the one the lookup knows, or else `p` and its number. -/
def parameterName (names : NameLookup) (member : Int32) (ordinal : Nat) : String :=
  (names member (ordinal + 1)).getD s!"p{ordinal}"

def varDesc (info : TypeInfo) (index : Nat) : Except Fault VarDesc :=
  match info.vars[index]? with
  | some bytes => VarDesc.decode bytes
  | none => .error (.dangling (.missingVariable index info.name))

def funcDesc (info : TypeInfo) (index : Nat) : Except Fault FuncDesc :=
  match info.funcs[index]? with
  | some bytes => FuncDesc.decode bytes
  | none => .error (.dangling (.missingFunction index info.name))

/-- A value of an enumeration; only constants can be one. -/
def enumMember (info : TypeInfo) (names : NameLookup) (index : Nat) : Except Fault EnumMember := do
  let var ← varDesc info index
  match var.kind with
  | .constant value =>
    let doc := info.memberDoc var.memberId
    return { name := memberName doc names var.memberId, value, doc }
  | _ => throw (.unsupportedLayout (.nonConstant index info.name))

def field (info : TypeInfo) (names : NameLookup) (index : Nat) : Assemble Field := do
  let var ← lift (varDesc info index)
  let type ← resolve info var.elem.type
  let doc := info.memberDoc var.memberId
  return {
    name := memberName doc names var.memberId
    type, ordinal := index, flags := var.flags, doc
    customData := info.customDataFor (.var index) }

def parameter (info : TypeInfo) (names : NameLookup) (func : Nat) (member : Int32)
    (elem : ElemDesc) (ordinal : Nat) : Assemble Parameter := do
  let type ← resolve info elem.type
  return {
    name := parameterName names member ordinal
    type, ordinal, flags := elem.flags
    customData := info.customDataFor (.param func ordinal) }

/-- A method of an interface. The types of its parameters are resolved before its result. -/
def method (info : TypeInfo) (names : NameLookup) (dispatch : Bool) (index : Nat) :
    Assemble Method := do
  let func ← lift (funcDesc info index)
  let parameters ← func.params.zipIdx.mapM fun (elem, ordinal) =>
    parameter info names index func.memberId elem ordinal
  let returnType ← resolve info func.result.type
  let doc := info.memberDoc func.memberId
  return {
    name := memberName doc names func.memberId
    returnType, parameters
    vtableOffset := func.vtableOffset.toInt32
    invokeKind := func.invokeKind
    flags := func.flags
    dispatchId := if dispatch then some func.memberId else none
    doc
    customData := info.customDataFor (.func index) }

/-- The base of an interface: the first type it implements, which must be an interface too. -/
def base (info : TypeInfo) (href : UInt32) : Assemble TypeId := do
  let id ← resolveHref info href
  if ((← get).graph.body? id).any Body.isInterface then
    return id
  else
    throw (.dangling (.baseNotInterface info.name))

end ComTypes.Assemble
