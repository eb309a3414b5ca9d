/-
The wire form of directory listings. A listing is a sequence of messages, all but the
last partial. In READDIRPLUS answers an indicator byte stands before every entry, and
indicators of their own begin the sections of prefetched directories.
-/

import Wsfs.Base.Framing
import Wsfs.Protocol.Const
import Wsfs.Protocol.Struct

namespace Wsfs.ReadDir

open Wsfs.Base Wsfs.Protocol

/-- A message after its client mark. -/
structure Message where
  code : UInt8
  payload : Bytes
deriving DecidableEq, Repr

def partialMessage (payload : Bytes) : Message := ⟨errorPartialResponse, payload⟩

inductive Record
  | entry (dirent : Dirent)
  | prefetch
  | skip
deriving DecidableEq, Repr

/-- `WriteDirentToWriter`, for the names that file systems allow. -/
def direntBytes (dirent : Dirent) : Bytes := (Dirent.codec.write dirent).getD []

def getDirentRequiredSize (dirent : Dirent) : Nat := dirent.name.length + 16 + 15

def Record.bytes : Record → Bytes
  | .entry dirent => readdirplusIndicatorContinue :: direntBytes dirent
  | .prefetch => [readdirplusIndicatorPrefetch]
  | .skip => [readdirplusIndicatorPrefetchSkip]

def Writable (dirent : Dirent) : Prop := dirent.name.length < 65536

def Record.Writable : Record → Prop
  | .entry dirent => ReadDir.Writable dirent
  | _ => True

section Dirents

variable {dirent : Dirent}

theorem direntBytes_written (writable : Writable dirent) :
    Dirent.codec.write dirent = some (direntBytes dirent) := by
  unfold Writable at writable
  simp [direntBytes, Dirent.codec, Timespec.codec, Codec.iso, Codec.pair, Codec.str, Codec.prefixed,
    writable, Codec.u16, Codec.u64, Codec.i64, Codec.u32, Codec.u8, Codec.word]

theorem direntBytes_length (writable : Writable dirent) :
    (direntBytes dirent).length = getDirentRequiredSize dirent := by
  unfold Writable at writable
  simp [direntBytes, Dirent.codec, Timespec.codec, Codec.iso, Codec.pair, Codec.str, Codec.prefixed,
    writable, Codec.u16, Codec.u64, Codec.i64, Codec.u32, Codec.u8, Codec.word,
    getDirentRequiredSize]
  omega

theorem direntBytes_ne_nil (writable : Writable dirent) : direntBytes dirent ≠ [] := by
  intro empty
  have length := direntBytes_length writable
  rw [empty] at length
  cases length

end Dirents

end Wsfs.ReadDir
