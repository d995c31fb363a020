/-!
# Built-in types

The scalar and pointer-like types that type libraries and proxies share, with the VARTYPE code of
those that have one.
-/

namespace ComTypes

/-- A built-in type. `byte` and `char` come from proxies only, as does `errorStatus`. -/
inductive Primitive where
  | void | i1 | ui1 | byte | char | wchar | i2 | ui2 | i4 | ui4 | i8 | ui8 | int | uint | r4 | r8
  | currency | date | bstr | dispatch | scode | bool | variant | unknown | decimal | hresult
  | lpstr | lpwstr | intptr | uintptr | errorStatus
deriving DecidableEq, Repr

namespace Primitive

def all : List Primitive :=
  [void, i1, ui1, byte, char, wchar, i2, ui2, i4, ui4, i8, ui8, int, uint, r4, r8, currency, date,
    bstr, dispatch, scode, bool, variant, unknown, decimal, hresult, lpstr, lpwstr, intptr, uintptr,
    errorStatus]

/-- The VARTYPE code, for the types that type libraries can name. -/
def code? : Primitive → Option UInt16
  | i2 => some 2
  | i4 => some 3
  | r4 => some 4
  | r8 => some 5
  | currency => some 6
  | date => some 7
  | bstr => some 8
  | dispatch => some 9
  | scode => some 10
  | bool => some 11
  | variant => some 12
  | unknown => some 13
  | decimal => some 14
  | i1 => some 16
  | ui1 => some 17
  | ui2 => some 18
  | ui4 => some 19
  | i8 => some 20
  | ui8 => some 21
  | int => some 22
  | uint => some 23
  | void => some 24
  | hresult => some 25
  | lpstr => some 30
  | lpwstr => some 31
  | intptr => some 37
  | uintptr => some 38
  | byte | char | wchar | errorStatus => none

/-- The built-in type with a given VARTYPE code; composite codes have none. -/
def ofCode? (code : UInt16) : Option Primitive := all.find? (·.code? = some code)

end Primitive

end ComTypes
