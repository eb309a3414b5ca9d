/-
The test that every path from the wire passes before a handler appends it to
the storage root. Paths are byte strings, as in the source.
-/

import Wsfs.Base.Codec
import Mathlib.Data.List.Infix

namespace Wsfs.Util

open Wsfs.Base

def slash : UInt8 := 0x2f
def dot : UInt8 := 0x2e

/-- `strings.Contains` -/
def contains (v part : Bytes) : Bool := decide (part <:+: v)

/-- `strings.HasSuffix` -/
def hasSuffix (v part : Bytes) : Bool := part.isSuffixOf v

/-- `IsUrlValid` of the builds other than Windows, where `isUrlValid_os` is
constantly true. -/
def isUrlValid (v : Bytes) : Bool :=
  !(v.length == 0 || v.head? != some slash || contains v [slash, dot, dot, slash] ||
    hasSuffix v [slash, dot, dot] || contains v [slash, dot, slash] || hasSuffix v [slash, dot])

end Wsfs.Util
