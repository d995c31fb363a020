/-!
# Kinds of type infos

The TYPEKIND code of a type info and the kind it stands for.
-/

namespace ComTypes

inductive TypeKind where
  | enumeration
  | record
  | moduleInfo
  | vtable
  | dispatch
  | coclass
  | typedef
  | union
deriving DecidableEq, Repr

namespace TypeKind

def all : List TypeKind :=
  [enumeration, record, moduleInfo, vtable, dispatch, coclass, typedef, union]

def code : TypeKind → UInt16
  | enumeration => 0
  | record => 1
  | moduleInfo => 2
  | vtable => 3
  | dispatch => 4
  | coclass => 5
  | typedef => 6
  | union => 7

def ofCode? (code : UInt16) : Option TypeKind := all.find? (·.code = code)

def name : TypeKind → String
  | enumeration => "Enum"
  | record => "Record"
  | moduleInfo => "Module"
  | vtable => "Interface"
  | dispatch => "Dispatch"
  | coclass => "CoClass"
  | typedef => "Alias"
  | union => "Union"

end TypeKind

end ComTypes
