/-
Constants of the WSFS protocol: message bounds, command codes, error codes and
the flag values that client and server exchange. Codes stay bytes, since a peer
may send any byte.
-/

import Mathlib.Data.List.Basic

namespace Wsfs.Protocol

def maxMsgSize : Nat := 8192
def maxCommandLength : Nat := maxMsgSize
def maxResponseLength : Nat := maxMsgSize
def maxErrorDescLength : Nat := maxResponseLength - 4

def cmdOpen : UInt8 := 1
def cmdClose : UInt8 := 2
def cmdRead : UInt8 := 3
def cmdReadDir : UInt8 := 4
def cmdReadLink : UInt8 := 5
def cmdWrite : UInt8 := 6
def cmdSeek : UInt8 := 7
def cmdAllocate : UInt8 := 8
def cmdGetAttr : UInt8 := 9
def cmdSetAttr : UInt8 := 10
def cmdSync : UInt8 := 11
def cmdMkdir : UInt8 := 12
def cmdSymLink : UInt8 := 13
def cmdRemove : UInt8 := 14
def cmdRmDir : UInt8 := 15
def cmdFsStat : UInt8 := 16
def cmdReadAt : UInt8 := 17
def cmdWriteAt : UInt8 := 18
def cmdCopyFileRange : UInt8 := 19
def cmdRename : UInt8 := 20
def cmdSetAttrByFD : UInt8 := 21
def cmdReadDirPlus : UInt8 := 22
def cmdWriteStreamOpen : UInt8 := 23
def cmdWriteStreamData : UInt8 := 24
def cmdCloneFileRange : UInt8 := 25
def cmdGetFileLock : UInt8 := 26
def cmdSetFileLock : UInt8 := 27
def cmdSetFileLockWait : UInt8 := 28
def cmdLink : UInt8 := 29
def cmdSetXAttr : UInt8 := 30
def cmdGetXAttr : UInt8 := 31
def cmdListXAttr : UInt8 := 32
def cmdRemoveXAttr : UInt8 := 33

def errorOK : UInt8 := 0
def errorPartialResponse : UInt8 := 1
def errorUnknown : UInt8 := 2
def errorBusy : UInt8 := 3
def errorExists : UInt8 := 4
def errorNotExists : UInt8 := 5
def errorLoop : UInt8 := 6
def errorNoSpace : UInt8 := 7
def errorNotEmpty : UInt8 := 8
def errorInvalid : UInt8 := 9
def errorInvalidFD : UInt8 := 10
def errorType : UInt8 := 11
def errorIo : UInt8 := 12
def errorNotSupport : UInt8 := 13
def errorAccessRestricted : UInt8 := 14
def errorTooLong : UInt8 := 15
def errorStateBlocked : UInt8 := 16
def errorSpecialFileBlocked : UInt8 := 17
def errorCrossDevice : UInt8 := 18
def errorNoXAttr : UInt8 := 19
def errorRange : UInt8 := 20

def oRdonly : UInt32 := 0x0
def oWronly : UInt32 := 0x1
def oRdwr : UInt32 := 0x2
def oAccmode : UInt32 := 0x3
def oTrunc : UInt32 := 0x200
def oExcl : UInt32 := 0x80
def oCreat : UInt32 := 0x40
def oAppend : UInt32 := 0x400
def oDirectory : UInt32 := 0x10000
def oSync : UInt32 := 0x101000
def oDsync : UInt32 := 0x1000
def oNofollow : UInt32 := 0x20000
def oNoatime : UInt32 := 0x40000
def oDirect : UInt32 := 0x4000

def openFlags : List UInt32 :=
  [oRdonly, oWronly, oRdwr, oTrunc, oExcl, oCreat, oDirectory, oAppend, oSync, oDsync, oNofollow,
    oNoatime, oDirect]

def whenceSet : UInt8 := 0
def whenceCur : UInt8 := 1
def whenceEnd : UInt8 := 2
def whenceData : UInt8 := 3
def whenceHole : UInt8 := 4

def ownerNN : UInt8 := 0
def ownerUN : UInt8 := 1
def ownerNG : UInt8 := 2
def ownerUG : UInt8 := 3

def setattrSize : UInt8 := 0b0001
def setattrMtime : UInt8 := 0b0010
def setattrMode : UInt8 := 0b0100
def setattrOwner : UInt8 := 0b1000

def readdirplusIndicatorContinue : UInt8 := 1
def readdirplusIndicatorPrefetch : UInt8 := 2
def readdirplusIndicatorPrefetchSkip : UInt8 := 3

def filelockUnlock : UInt8 := 0
def filelockReadlock : UInt8 := 1
def filelockWritelock : UInt8 := 2

def setxattrNormal : UInt32 := 0
def setxattrAppend : UInt32 := 1
def setxattrCreate : UInt32 := 2
def setxattrReplace : UInt32 := 3
def xattrNofollow : UInt32 := 0x80000000

def maxCopyFileRangeChunk : UInt64 := (32 : UInt64) <<< 20

end Wsfs.Protocol
