import ComTypes.Primitive
import ComTypes.Text.Replace

/-!
# Dialects

The languages in which declarations are rendered, and the words and marks in which they differ.
-/

namespace ComTypes

inductive Dialect where
  | idl | cpp | generic
deriving DecidableEq, Repr

namespace Dialect

instance : Inhabited Dialect := ⟨idl⟩

def all : List Dialect := [idl, cpp, generic]

/-- The name under which a dialect is chosen. -/
def name : Dialect → String
  | idl => "idl"
  | cpp => "cpp"
  | generic => "generic"

/-- The dialect with a given name. -/
def ofName? (name : String) : Option Dialect := all.find? (·.name = name)

/-- What opens a list of attributes; in C++ they stand in a comment. -/
def attributesOpen : Dialect → String
  | idl | generic => "["
  | cpp => "/* ["

def attributesClose : Dialect → String
  | idl | generic => "]"
  | cpp => "] */"

/-- What stands between the parts of a demangled name. -/
def separator : Dialect → String
  | idl | generic => "."
  | cpp => "::"

def interfaceKeyword : Dialect → String
  | idl | generic => "interface"
  | cpp => "struct"

/-- The last line of a declaration in braces. -/
def closeBrace : Dialect → String
  | idl | cpp => "\x7d;"
  | generic => "\x7d"

/-- An attribute as written; one in a comment must not end the comment. -/
def attributeToken (dialect : Dialect) (token : String) : String :=
  match dialect with
  | cpp => Text.commentSafe token
  | idl | generic => token

/-- The word for a parameter flag, which the generic dialect capitalises. -/
def parameterWord (dialect : Dialect) (lower capitalised : String) : String :=
  match dialect with
  | idl | cpp => lower
  | generic => capitalised

/-- The words for a built-in type in IDL, C++ and the generic dialect. -/
def spellings : Primitive → String × String × String
  | .void => ("void", "void", "void")
  | .i1 => ("char", "char", "sbyte")
  | .ui1 => ("unsigned char", "unsigned char", "byte")
  | .byte => ("byte", "BYTE", "byte")
  | .char => ("char", "char", "char")
  | .wchar => ("wchar_t", "wchar_t", "char")
  | .i2 => ("short", "short", "short")
  | .ui2 => ("unsigned short", "unsigned short", "ushort")
  | .i4 => ("long", "long", "int")
  | .ui4 => ("unsigned long", "unsigned long", "uint")
  | .i8 => ("hyper", "__int64", "long")
  | .ui8 => ("unsigned hyper", "unsigned __int64", "ulong")
  | .int => ("int", "int", "int")
  | .uint => ("unsigned int", "unsigned int", "uint")
  | .r4 => ("float", "float", "float")
  | .r8 => ("double", "double", "double")
  | .currency => ("CURRENCY", "CY", "Currency")
  | .date => ("DATE", "DATE", "DateTime")
  | .bstr => ("BSTR", "BSTR", "string")
  | .dispatch => ("IDispatch*", "IDispatch*", "IDispatch")
  | .scode => ("SCODE", "SCODE", "int")
  | .bool => ("VARIANT_BOOL", "VARIANT_BOOL", "bool")
  | .variant => ("VARIANT", "VARIANT", "object")
  | .unknown => ("IUnknown*", "IUnknown*", "IUnknown")
  | .decimal => ("DECIMAL", "DECIMAL", "decimal")
  | .hresult => ("HRESULT", "HRESULT", "HRESULT")
  | .lpstr => ("LPSTR", "char*", "string")
  | .lpwstr => ("LPWSTR", "wchar_t*", "string")
  | .intptr => ("INT_PTR", "INT_PTR", "IntPtr")
  | .uintptr => ("UINT_PTR", "UINT_PTR", "UIntPtr")
  | .errorStatus => ("error_status_t", "error_status_t", "uint")

def primitive (dialect : Dialect) (primitive : Primitive) : String :=
  let words := spellings primitive
  match dialect with
  | .idl => words.1
  | .cpp => words.2.1
  | .generic => words.2.2

end Dialect

end ComTypes
