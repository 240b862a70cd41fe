import HiveKernel.Lib.Text
import HiveKernel.Process.Registry

/-! Shared memory: artifacts under a key, with a visibility that decides who may read them. -/
namespace HiveKernel
open Lib

/-- Who may read an artifact. The request carries a number, and any number is accepted. -/
inductive Visibility
  | visPrivate | visUser | visSubtree | visGlobal
  | unknown (code : ℤ)
  deriving DecidableEq, Repr

def Visibility.ofNumber (n : ℤ) : Visibility :=
  if n = 0 then .visPrivate else if n = 1 then .visUser else if n = 2 then .visSubtree
  else if n = 3 then .visGlobal else .unknown n

structure Artifact where
  id : String
  key : String
  content : List UInt8
  contentType : String
  visibility : Visibility
  storedByPID : ℕ
  storedAt : ℤ
  deriving DecidableEq, Repr

structure SharedMemory where
  byID : Table String Artifact
  byKey : Table String Artifact
  nextID : ℕ

namespace SharedMemory

def new : SharedMemory := ⟨.empty,.empty,0⟩

def store (sm : SharedMemory) (r : Registry) (now : ℤ) (storerPID : ℕ) (key : String)
    (content : List UInt8) (contentType : String) (visibility : Visibility) :
    Except String String × SharedMemory :=
  if key = "" then (.error "artifact key is required",sm)
  else match r.get storerPID with
    | none => (.error s!"storer PID {storerPID} not found",sm)
    | some _ =>
      let id := s!"art-{sm.nextID+1}"
      let art : Artifact := ⟨id,key,content,contentType,visibility,storerPID,now⟩
      (.ok id,⟨sm.byID.set id art,sm.byKey.set key art,sm.nextID+1⟩)

/-- Whether a process may read an artifact. There is no answer if the collection of the descendants
of the storer does not end. -/
def checkAccess (r : Registry) (order : List ℕ → List ℕ) (readerPID : ℕ) (art : Artifact) :
    Option (Except String Unit) :=
  match art.visibility with
  | .visGlobal => some (.ok ())
  | .visPrivate =>
    if readerPID ≠ art.storedByPID then
      some (.error s!"access denied: artifact {art.key.quote} is private to PID {art.storedByPID}")
    else some (.ok ())
  | .visUser => match r.get readerPID with
    | none => some (.error s!"reader PID {readerPID} not found")
    | some reader => match r.get art.storedByPID with
      | none => some (.error s!"storer PID {art.storedByPID} not found")
      | some storer =>
        if reader.user ≠ storer.user then
          some (.error (s!"access denied: artifact {art.key.quote} belongs to user {storer.user.quote}, "++
            s!"reader is {reader.user.quote}"))
        else some (.ok ())
  | .visSubtree =>
    if readerPID = art.storedByPID then some (.ok ())
    else (r.getDescendants order art.storedByPID).map fun descendants =>
      if readerPID ∈ descendants.map Process.pid then .ok ()
      else .error s!"access denied: artifact {art.key.quote} is subtree-only under PID {art.storedByPID}"
  | .unknown code => some (.error s!"unknown visibility {code}")

/-- Read what was found under a name, if the reader may. -/
def read (found : Option Artifact) (r : Registry) (order : List ℕ → List ℕ) (readerPID : ℕ) (name : String) :
    Option (Except String Artifact) :=
  match found with
  | none => some (.error s!"artifact {name.quote} not found")
  | some art => (checkAccess r order readerPID art).map fun
    | .error e => .error e
    | .ok _ => .ok art

def get (sm : SharedMemory) (r : Registry) (order : List ℕ → List ℕ) (readerPID : ℕ) (key : String) :
    Option (Except String Artifact) := read (sm.byKey.get key) r order readerPID key

def getByID (sm : SharedMemory) (r : Registry) (order : List ℕ → List ℕ) (readerPID : ℕ) (id : String) :
    Option (Except String Artifact) := read (sm.byID.get id) r order readerPID id

def hasPrefix (s pre : String) : Bool :=
  decide ((bytes pre).length ≤ (bytes s).length) && decide ((bytes s).take (bytes pre).length = bytes pre)

/-- One iteration of the loop of `list`: whether the artifact is among the results. -/
def listed (r : Registry) (order : List ℕ → List ℕ) (readerPID : ℕ) (pre : String) (art : Artifact) :
    Option (Option Artifact) :=
  if pre ≠ "" ∧ hasPrefix art.key pre = false then some none
  else (checkAccess r order readerPID art).map fun
    | .error _ => none
    | .ok _ => some art

/-- All artifacts under keys with a prefix that the reader may read. The loop goes over the map of keys in
any order, and each iteration walks over the descendants of a storer in an order of its own. -/
def list (sm : SharedMemory) (r : Registry) (keys : List String) (order : String → List ℕ → List ℕ)
    (readerPID : ℕ) (pre : String) : Option (List Artifact) :=
  ((keys.filterMap sm.byKey.get).mapM fun art => listed r (order art.key) readerPID pre art).map
    fun found => found.filterMap id

/-- Only the storer or the kernel can delete. -/
def delete (sm : SharedMemory) (r : Registry) (callerPID : ℕ) (key : String) :
    Except String Unit × SharedMemory :=
  match sm.byKey.get key with
  | none => (.error s!"artifact {key.quote} not found",sm)
  | some art =>
    if callerPID ≠ art.storedByPID ∧ ¬∃ caller ∈ r.get callerPID, caller.role = .kernel then
      (.error s!"access denied: only storer or kernel can delete artifact {key.quote}",sm)
    else (.ok (),{ sm with byKey := sm.byKey.erase key, byID := sm.byID.erase art.id })

end SharedMemory
end HiveKernel
