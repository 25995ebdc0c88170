import BackendFoundation.BlobNames
import BackendFoundation.FileNames
import BackendFoundation.FileTrees

/-! `app/infrastructure/storage/local.py` over the files below its base path, where
there are no symbolic links. A file has the bytes of its name for a name, of any length. -/
namespace BackendFoundation.BlobStorage
open PythonValues BlobNames FileNames FileTrees

abbrev Name := Bytes

/-- What there is at the base path. -/
abbrev Storage := Node Name Bytes

structure BlobRef where
  bucket : Str
  key : Str
  contentType : Option String := none
  size : Option ℕ := none
  etag : Option String := none
  deriving DecidableEq

def raised : Errno → Error
  | .noEntry => .fileNotFoundError (str "No such file or directory")
  | .notDirectory => .notADirectoryError
  | .exists => .fileExistsError
  | .isDirectory => .isADirectoryError

/-- Calls that read and change the files; what has been done stays when one raises. -/
abbrev Disk := EStateM Error Storage

namespace Disk

def reading {α : Type} (call : Storage → Except Errno α) : Disk α := fun storage =>
  match call storage with
  | .ok value => .ok value storage
  | .error errno => .error (raised errno) storage

def changing (call : Storage → Except Errno Storage) : Disk Unit := fun storage =>
  match call storage with
  | .ok storage => .ok () storage
  | .error errno => .error (raised errno) storage

def ofExcept {α : Type} : Except Error α → Disk α
  | .ok value => pure value
  | .error error => throw error

end Disk

/-! ## `pathlib` -/

/-- `path.is_dir()`. -/
def isDir (path : List Name) : Disk Bool := fun storage => .ok (storage.isDir path) storage

/-- `path.exists()`: a file on the way is as good as no entry. -/
def pathExists (path : List Name) : Disk Bool := fun storage =>
  .ok (storage.lookup path).toBool storage

/-- `path.mkdir(exist_ok=True)`; the path is given from its last name up. -/
def mkdir (up : List Name) : Disk Unit :=
  tryCatch (Disk.changing (Node.mkdir · up.reverse)) fun error =>
    match error with
    | .fileNotFoundError _ => throw error
    | _ => do if ← isDir up.reverse then pure () else throw error

/-- `path.mkdir(parents=True, exist_ok=True)`. -/
def mkdirParents : List Name → Disk Unit
  | [] => mkdir []
  | name :: up =>
    tryCatch (Disk.changing (Node.mkdir · (name :: up).reverse)) fun error =>
      match error with
      | .fileNotFoundError _ => do
        mkdirParents up
        mkdir (name :: up)
      | _ => do if ← isDir (name :: up).reverse then pure () else throw error

/-! ## `LocalBlobStorage` -/

namespace LocalBlobStorage

/-- `_validate_path`. Without links `resolve` changes no path of such segments, and the
path is below the base. -/
def validatePath (bucket key : Str) : Except Error (List Name) := do
  screen bucket key
  match (segments bucket ++ segments key).mapM fsencode with
  | some path => return path
  | none => throw (.invalidPath (segments bucket ++ segments key))

def notFound (bucket key : Str) : Error :=
  .fileNotFoundError (str "Blob " ++ bucket ++ str "/" ++ key ++ str " not found")

def put (bucket key : Str) (data : Bytes) (contentType : Option String) : Disk BlobRef := do
  let targetPath ← Disk.ofExcept (validatePath bucket key)
  mkdirParents targetPath.dropLast.reverse
  Disk.changing (Node.write data · targetPath)
  return { bucket, key, contentType, size := some data.length }

/-- The pieces that `f.read(64 * 1024)` returns until there is nothing left. -/
def chunks (data : Bytes) : List Bytes :=
  if data = [] then [] else data.take 65536 :: chunks (data.drop 65536)
termination_by data.length
decreasing_by
  rename_i some
  have length := List.length_pos_of_ne_nil some
  simp only [List.length_drop]
  omega

/-- `get` and the stream it returns, which opens the file when it is iterated. -/
def get (bucket key : Str) : Disk (Disk (List Bytes)) := do
  let targetPath ← Disk.ofExcept (validatePath bucket key)
  if ← pathExists targetPath then
    return do return chunks (← Disk.reading (Node.read · targetPath))
  else throw (notFound bucket key)

def delete (bucket key : Str) : Disk Unit := do
  let targetPath ← Disk.ofExcept (validatePath bucket key)
  tryCatch (Disk.changing (Node.unlink · targetPath)) fun error =>
    match error with
    | .fileNotFoundError _ => pure ()
    | _ => throw error

end LocalBlobStorage

/-! ## Runs -/

inductive Call where
  | put (bucket key : Str) (data : Bytes) (contentType : Option String)
  | get (bucket key : Str)
  | delete (bucket key : Str)

def Call.blob : Call → Str × Str
  | .put bucket key _ _ => (bucket, key)
  | .get bucket key => (bucket, key)
  | .delete bucket key => (bucket, key)

inductive Outcome where
  | stored (ref : BlobRef)
  | streamed (data : Bytes)
  | deleted
  deriving DecidableEq

/-- A call; a stream is read to its end. -/
def Call.perform : Call → Disk Outcome
  | .put bucket key data contentType => do return .stored (← LocalBlobStorage.put bucket key data contentType)
  | .get bucket key => do
    let stream ← LocalBlobStorage.get bucket key
    let pieces ← stream
    return .streamed pieces.flatten
  | .delete bucket key => do
    LocalBlobStorage.delete bucket key
    return .deleted

def answer {α : Type} : EStateM.Result Error Storage α → Except Error α
  | .ok value _ => .ok value
  | .error error _ => .error error

def left {α : Type} : EStateM.Result Error Storage α → Storage
  | .ok _ storage => storage
  | .error _ storage => storage

/-- The base directory before the first call. -/
def empty : Storage := some (.dir fun _ => none)

/-- The files that a sequence of calls leaves. -/
def after (calls : List Call) : Storage :=
  calls.foldl (fun storage call => left (call.perform storage)) empty

end BackendFoundation.BlobStorage
