import ComTypes.Graph.Basic
import ComTypes.Render.Dialect

/-!
# Spelling types

A type is spelled around the name it declares: `long` before and `[4]` behind. Stars of pointers
are put behind what stands before the name, array dimensions behind what follows it.
-/

namespace ComTypes

structure Scope where
  graph : Graph
  /-- The display name of every node. -/
  names : Array String
  dialect : Dialect
  /-- Whether documentation lines are left out. -/
  hideComments : Bool
  /-- Whether the issues of incomplete types are shown. -/
  bestEffort : Bool

/-- What stands before and behind a declared name. -/
structure Declarator where
  before : String
  after : String := ""
deriving DecidableEq, Repr

namespace Declarator

def around (d : Declarator) (name : String) : String := d.before ++ " " ++ name ++ d.after

def bare (d : Declarator) : String := d.before ++ d.after

end Declarator

def RecordLayout.keyword : RecordLayout → String
  | struct => "struct"
  | union => "union"

namespace Scope

def name (s : Scope) (id : TypeId) : String := s.names[id]?.getD ""

/-- A keyword in front of a name, which the generic dialect leaves out. -/
def tagged (s : Scope) (keyword : String) (id : TypeId) : String :=
  match s.dialect with
  | .generic => s.name id
  | .idl | .cpp => keyword ++ " " ++ s.name id

def dimensions (dims : List ArrayDim) : String :=
  String.join (dims.map fun dim => s!"[{dim.elements.toNat}]")

/-- The spelling of a type, following at most `hops` pointers and arrays. -/
def spellWithin (s : Scope) : (hops : Nat) → TypeId → Declarator
  | 0, _ => ⟨"", ""⟩
  | hops + 1, id =>
    match s.graph.body? id with
    | some (.structural (.primitive primitive)) => ⟨s.dialect.primitive primitive, ""⟩
    | some (.structural (.pointer target)) =>
      let inner := s.spellWithin hops target
      { inner with before := inner.before ++ "*" }
    | some (.structural (.array element (.fixed dims))) =>
      let inner := s.spellWithin hops element
      { inner with after := inner.after ++ dimensions dims }
    | some (.structural (.array element .safe)) =>
      match s.dialect with
      -- In C++ a safe array is one type, whatever its elements are.
      | .cpp => ⟨"SAFEARRAY*", ""⟩
      | .idl | .generic => ⟨"SAFEARRAY(" ++ (s.spellWithin hops element).bare ++ ")", ""⟩
    | some (.record layout _) => ⟨s.tagged layout.keyword id, ""⟩
    | some (.enumeration _) => ⟨s.tagged "enum" id, ""⟩
    | some (.typedef _) | some (.interface _) => ⟨s.name id, ""⟩
    | none => ⟨"", ""⟩

/-- The spelling of a type. No chain of pointers and arrays is longer than the graph. -/
def spell (s : Scope) (id : TypeId) : Declarator := s.spellWithin (s.graph.size + 1) id

end Scope

end ComTypes
