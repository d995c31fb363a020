import ComTypes.Assembly.Basic
import ComTypes.Library.Basic
import ComTypes.Proxy.Image
import ComTypes.Proxy.Procedure
import ComTypes.Proxy.Walk

/-!
# Adding proxies

A proxy becomes an interface node under its IID. Decoding stops at the first procedure that fails:
the methods before it stay, the records that only the failing procedure had made are taken out of
use, and so are records of an earlier decode that this one does not reach.
-/

namespace ComTypes

namespace Walk

/-- The node for the type of a parameter, where types that are described are built by `inner`. -/
def paramType (inner : Nat → Walk (TypeId × Nat)) : ParamType → Walk TypeId
  | .base primitive byReference => do
    let type ← Walk.primitive primitive
    if byReference then pointerTo type else return type
  | .described offset => Prod.fst <$> inner offset

def paramFlags (entry : ParamEntry) : UInt16 :=
  (if entry.isIn then 1 else 0) ||| (if entry.isOut then 2 else 0)

/-- The parameters that entries stand for; entries that return are none. -/
def parameters (names : NameLookup) (member : Int32) (entries : List (ParamEntry × TypeId)) :
    List Parameter :=
  (entries.filter (!·.1.isReturn)).zipIdx.map fun ((entry, type), ordinal) =>
    { name := (names member (ordinal + 1)).getD s!"p{ordinal}"
      type, ordinal, flags := paramFlags entry }

def entryType (inner : Nat → Walk (TypeId × Nat)) (entry : ParamEntry) :
    Walk (ParamEntry × TypeId) := do
  return (entry, ← paramType inner entry.type)

/-- The last entry that returns gives the result type; without one the method returns nothing. -/
def resultType (entries : List (ParamEntry × TypeId)) : Walk TypeId :=
  match (entries.filter (·.1.isReturn)).getLast? with
  | some (_, type) => pure type
  | none => primitive .void

/-- The method of a procedure whose types are known. -/
def typedMethod (names : NameLookup) (number : UInt16) (entries : List (ParamEntry × TypeId))
    (returnType : TypeId) : Method where
  name := (names (Int32.ofNat number.toNat) 0).getD s!"Proc{number.toNat}"
  returnType := returnType
  parameters := parameters names (Int32.ofNat number.toNat) entries
  vtableOffset := Int32.ofNat (number.toNat * FormatChar.pointerSize)

def method (inner : Nat → Walk (TypeId × Nat)) (names : NameLookup) (procedure : Procedure) :
    Walk Method := do
  let entries ← procedure.entries.items.mapM (entryType inner)
  check procedure.entries.fault
  let returnType ← resultType entries
  return typedMethod names procedure.number entries returnType

def typeAt (format : Bytes) : (offset : Nat) → Walk (TypeId × Nat) := type format (Walker.maxDepth + 1)

def procedure (image : ProxyImage) (names : NameLookup) (offset : Nat) : Walk Method := do
  method (typeAt image.typeFormat) names (← lift (Procedure.parse image.procFormat offset))

/-- The methods of the slots in turn, up to the first procedure that fails. -/
def methods (image : ProxyImage) (names : NameLookup) :
    List (UInt16 × Nat) → Walker → (List Method × List Issue) × Walker
  | [], w => (([], []), w)
  | (offset, slot) :: rest, w =>
    if offset = Procedure.inherited then methods image names rest w
    else match procedure image names offset.toNat w with
      | .ok method after =>
        let ((later, issues), last) := methods image names rest after
        ((method :: later, issues), last)
      | .error fault after =>
        -- Only records are taken back. Types interned on the way may be in use elsewhere and stay.
        (([], [⟨some slot, fault⟩]), after.discardSince w.created.length)

end Walk

namespace Assemble

/-- The name for the interface of a proxy: the given one, or else the one its node has already. -/
def proxyName (a : Assembler) (iid : Guid) (name : Option String) : String :=
  name.getD (((a.graph.findGuid? iid).bind a.graph.node?).elim "" (·.name))

/-- Decode the methods of a proxy into the graph, and keep account of its records. -/
def proxyMethods (image : ProxyImage) (iid : Guid) (names : NameLookup) :
    Assemble (List Method × List Issue) := fun a =>
  let start : Walker :=
    { graph := a.graph, previous := (a.proxyRecords.get? iid).getD .empty }
  let (outcome, last) := Walk.methods image names image.procOffsets.zipIdx start
  .ok outcome { a with
    graph := last.finish
    proxyRecords := a.proxyRecords.insert iid last.current }

def addProxyImage (image : ProxyImage) (iid : Guid) (name : Option String) (names : NameLookup) :
    Assemble TypeId := do
  -- The name that the node has is read before `declare` resets it.
  let id ← declare iid (proxyName (← get) iid name) (.interface {})
  let base ←
    if image.baseIid.isZero then pure none
    else some <$> onGraph (·.externalInterface image.baseIid none)
  let (methods, issues) ← proxyMethods image iid names
  modifyNode id fun node => { node with body := .interface { methods, base } }
  settle id issues
  return id

def addProxy (bytes : Bytes) (iid : Guid) (name : Option String) (names : NameLookup) :
    Assemble TypeId := do
  addProxyImage (← lift (ProxyImage.decode bytes)) iid name names

end Assemble

end ComTypes
