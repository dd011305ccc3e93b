import Lucp.CString

/-!
# Configuration files

Both servers read their configuration with `lucfg`, a library of its own: a file is opened, and its
values are asked for by section and key.  What a file says is a parameter here.  A getter either
fails, and then writes nothing, or stores a value of its C type; for a string that value is the
address of the characters, which belong to the library.
-/

set_option autoImplicit false

namespace Lucp

/-- An address, as the eight bytes that stand for it in memory. -/
abbrev Pointer := CArray UInt8 8

/-- A string of a configuration file. -/
structure LucfgString where
  /-- Where the library keeps it. -/
  address : Pointer
  /-- What is there. -/
  text : CString

/-- An open configuration file: what its getters store, or `none` for every code but `LUCFG_OK`. -/
structure Lucfg where
  /-- `lucfg_get_string()`. -/
  getString : String → String → Option LucfgString
  /-- `lucfg_get_uint16()`. -/
  getUint16 : String → String → Option UInt16
  /-- `lucfg_get_int32()`. -/
  getInt32 : String → String → Option Int32
  /-- `lucfg_get_bool()`, which stores an `int`. -/
  getBool : String → String → Option Int32

/-- `lucfg_open()`: `none` if there is no such file, or it cannot be parsed. -/
abbrev LucfgOpen := CString → Option Lucfg

/-- A file without any of the keys. -/
def Lucfg.empty : Lucfg where
  getString _ _ := none
  getUint16 _ _ := none
  getInt32 _ _ := none
  getBool _ _ := none

end Lucp
