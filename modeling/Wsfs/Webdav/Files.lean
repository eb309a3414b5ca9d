/-
`moveFiles` and `copyFiles`, and the handler that calls them for COPY and MOVE requests.
-/

import Wsfs.Webdav.Os

namespace Wsfs.Webdav

open Wsfs.Base Wsfs.Util

inductive Error
  | errno (error : Errno)
  | exist
  | recursionTooDeep
  | invalidDepth
  | noDestinationHeader
  | destinationHostDifferent
  | destinationEqualsSource
  | invalidDestination
  | badUrl
deriving DecidableEq, Repr

structure Outcome where
  status : Nat
  err : Option Error
deriving DecidableEq, Repr

def statusCreated : Nat := 201
def statusNoContent : Nat := 204
def statusBadRequest : Nat := 400
def statusForbidden : Nat := 403
def statusNotFound : Nat := 404
def statusConflict : Nat := 409
def statusPreconditionFailed : Nat := 412
def statusInternalServerError : Nat := 500
def statusBadGateway : Nat := 502

def failure (status : Nat) (error : Errno) : Outcome := ⟨status, some (.errno error)⟩

def finished (created : Bool) : Outcome := ⟨if created then statusCreated else statusNoContent, none⟩

/-- `os.IsNotExist` -/
def isNotExist (error : Errno) : Bool := error == .noent

/-- The status of an error that depends on whether something is missing. -/
def statusOf (error : Errno) (whenMissing otherwise : Nat) : Nat :=
  if isNotExist error then whenMissing else otherwise

/-- `if src[len(src)-1] != '/' && dst[len(dst)-1] == '/' { dst = dst[:len(dst)-1] }` -/
def trimDestination (src dst : Bytes) : Bytes :=
  if endsWithSlash src = false ∧ endsWithSlash dst = true then dst.dropLast else dst

/-! ### moveFiles -/

def moveFiles (os : Os) (src dst : Bytes) (overwrite : Bool) : OsM Outcome := do
  match ← os.stat dst with
  | .error error =>
      if !isNotExist error then return failure statusForbidden error
      else renameTo src dst true
  | .ok _ =>
      if overwrite then
        match ← os.removeAll dst with
        | .error error => return failure statusForbidden error
        | .ok _ => renameTo src (trimDestination src dst) false
      else return ⟨statusPreconditionFailed, some .exist⟩
where
  renameTo (src dst : Bytes) (created : Bool) : OsM Outcome := do
    match ← os.rename src dst with
    | .error error => return failure statusForbidden error
    | .ok _ => return finished created

/-! ### copyFiles -/

def recursionMax : Nat := 256
def infiniteDepth : Int := -1
def invalidDepth : Int := -2
def modePerm : UInt32 := 0o777

/-- The part of `copyFiles` that makes room at the destination. It answers with whether
the copy creates it. -/
def clearDestination (os : Os) (dst : Bytes) (overwrite : Bool) : OsM (Except Outcome Bool) := do
  match ← os.stat dst with
  | .error error =>
      if isNotExist error then return .ok true
      else return .error (failure statusForbidden error)
  | .ok _ =>
      if !overwrite then return .error ⟨statusPreconditionFailed, some .exist⟩
      else
        match ← os.removeAll dst with
        | .error error =>
            if !isNotExist error then return .error (failure statusForbidden error)
            else return .ok false
        | .ok _ => return .ok false

/-- The last part of `copyFiles`, for a source that is a file. -/
def copyFile (os : Os) (content : Bytes) (dst : Bytes) (srcPerm : UInt32) (created : Bool) :
    OsM Outcome := do
  match ← os.create dst srcPerm with
  | .error error => return failure (statusOf error statusConflict statusForbidden) error
  | .ok dstFile =>
      let copied ← os.copyContent dstFile content
      let closed ← os.close
      match copied, closed with
      | .error copyErr, _ => return failure statusInternalServerError copyErr
      | .ok _, .error closeErr => return failure statusInternalServerError closeErr
      | .ok _, .ok _ => return finished created

/-- The loop over the children, with the outcome of the first that fails. -/
def copyChildren (copy : FileName → OsM Outcome) : List FileName → OsM (Option Outcome)
  | [] => return none
  | name :: rest => do
      let outcome ← copy name
      if outcome.err.isSome then return some outcome else copyChildren copy rest

/-- The last part of `copyFiles`, for a source that is a directory. -/
def copyDir (os : Os) (copy : FileName → OsM Outcome) (srcFile : Handle) (dst : Bytes)
    (srcPerm : UInt32) (depth : Int) (created : Bool) : OsM Outcome := do
  match ← os.mkdir dst srcPerm with
  | .error error => return failure statusForbidden error
  | .ok _ =>
      if depth = infiniteDepth then
        match ← os.readdir srcFile with
        | .error error => return failure statusForbidden error
        | .ok children =>
            match ← copyChildren copy children with
            | some outcome => return outcome
            | none => return finished created
      else return finished created

/-- `levels` is what is left of `recursionMax`. -/
def copyFiles (os : Os) (overwrite : Bool) (depth : Int) : Nat → Bytes → Bytes → OsM Outcome
  | 0, _, _ => return ⟨statusInternalServerError, some .recursionTooDeep⟩
  | levels + 1, src, dst => do
      match ← os.openFile src with
      | .error error => return failure (statusOf error statusNotFound statusInternalServerError) error
      | .ok srcFile =>
          match ← os.fileStat srcFile with
          | .error error =>
              return failure (statusOf error statusNotFound statusInternalServerError) error
          | .ok srcStat =>
              match ← clearDestination os dst overwrite with
              | .error outcome => return outcome
              | .ok created =>
                  let srcPerm := nodePerm srcStat &&& modePerm
                  let dst := trimDestination src dst
                  if srcStat.isDir then
                    let copy := fun name : FileName =>
                      copyFiles os overwrite depth levels (join src name.val) (join dst name.val)
                    copyDir os copy srcFile dst srcPerm depth created
                  else copyFile os (nodeContent srcStat) dst srcPerm created

/-! ### Requests -/

/-- `NewStorage` makes the path absolute and clean, with no slash at the end. -/
structure Storage where
  path : Bytes
  descending : path = [] ∨ Descending path
  trimmed : path.getLast? ≠ some slash

inductive Method
  | copy
  | move
deriving DecidableEq, Repr

/-- The server has checked the path of the URL before any handler sees the request. A
header that is missing is empty. -/
structure Request where
  method : Method
  urlPath : Bytes
  valid : isUrlValid urlPath = true
  host : Bytes
  destination : Bytes
  depth : Bytes
  overwrite : Bytes

/-- The parts of a parsed URL that the handler reads. -/
structure Url where
  host : Bytes
  path : Bytes

section Requests

-- `url.Parse`
variable (parseUrl : Bytes → Option Url)

def getPathAndDest (st : Storage) (req : Request) : Except Error (Bytes × Bytes) :=
  let path := st.path ++ req.urlPath
  if req.destination = [] then .error .noDestinationHeader
  else
    match parseUrl req.destination with
    | none => .error .badUrl
    | some desturl =>
        if desturl.host ≠ [] ∧ req.host ≠ [] ∧ desturl.host ≠ req.host then
          .error .destinationHostDifferent
        else if !isUrlValid desturl.path then .error .invalidDestination
        else
          let dest := st.path ++ desturl.path
          if path = dest then .error .destinationEqualsSource else .ok (path, dest)

def parseDepth (s : Bytes) : Int :=
  if s = [0x30] then 0
  else if s = [0x31] then 1
  else if s = [0x69, 0x6e, 0x66, 0x69, 0x6e, 0x69, 0x74, 0x79] then infiniteDepth
  else invalidDepth

def overwriteF : Bytes := [0x46]
def overwriteT : Bytes := [0x54]

def copyDepth (req : Request) : Int :=
  if req.depth ≠ [] then parseDepth req.depth else infiniteDepth

def handleCopyMove (os : Os) (st : Storage) (req : Request) : OsM Outcome :=
  match getPathAndDest parseUrl st req with
  | .error .noDestinationHeader => return ⟨statusBadRequest, none⟩
  | .error .invalidDestination => return ⟨statusBadRequest, none⟩
  | .error .destinationEqualsSource => return ⟨statusBadRequest, none⟩
  | .error .destinationHostDifferent => return ⟨statusBadGateway, none⟩
  | .error error => return ⟨statusInternalServerError, some error⟩
  | .ok (src, dst) =>
      if dst = src then return ⟨statusForbidden, none⟩
      else
        match req.method with
        | .copy =>
            if copyDepth req ≠ 0 ∧ copyDepth req ≠ infiniteDepth then
              return ⟨statusBadRequest, some .invalidDepth⟩
            else copyFiles os (req.overwrite ≠ overwriteF) (copyDepth req) recursionMax src dst
        | .move =>
            if req.depth ≠ [] ∧ parseDepth req.depth ≠ infiniteDepth then
              return ⟨statusBadRequest, some .invalidDepth⟩
            else moveFiles os src dst (req.overwrite = overwriteT)

end Requests

end Wsfs.Webdav
