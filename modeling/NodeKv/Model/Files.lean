import NodeKv.Machine.Outcome
import NodeKv.Machine.PathTree
import NodeKv.Model.Cache.Directories

/-! # Removing a directory

`lib/rmdir.js` on a file system of directories, regular files and symbolic links. A path that is
passed to `fs` is a list of names from the root, and so is what `path.join` makes of it. Symbolic
links in it are followed, up to a number of them that the operating system sets: by `statSync` and
`readdirSync` in every place, by `unlinkSync` and `rmdirSync` in front of the last name only.

The order in which `readdirSync` lists names is left open, and any call may fail for a reason of its
own. The cache removes its stale directories by `rmdir`, one after the other.
-/

namespace NodeKv.Files

open Machine

abbrev Path := List String

/-- A step of the path in a symbolic link. -/
inductive Component where
  | up
  | name (name : String)
deriving DecidableEq, Repr

inductive Kind where
  | directory
  | file
  /-- Its path goes from the root, or from the directory of the link. -/
  | link (absolute : Bool) (target : List Component)
deriving DecidableEq, Repr

def Kind.isLink : Kind → Bool
  | .link _ _ => true
  | _ => false

abbrev FileSystem := PathTree String Kind .directory

inductive Errno where
  | enoent
  | enotdir
  | eloop
  | enotempty
  | ebusy
  | eperm
  | other (code : ℕ)
deriving DecidableEq, Repr

namespace FileSystem

variable (fs : FileSystem)

/-- Go on from a place, up to the first symbolic link. -/
def followWith (jump : Path → List Component → Except Errno (Path × ℕ)) (links : ℕ) (place : Path) :
    List Component → Except Errno (Path × ℕ)
  | [] => .ok (place, links)
  | component :: rest =>
    if fs.get? place ≠ some .directory then .error .enotdir
    else
      match component with
      | .up => followWith jump links place.dropLast rest
      | .name name =>
        match fs.get? (place ++ [name]) with
        | none => .error .enoent
        | some (.link absolute target) => jump (if absolute then [] else place) (target ++ rest)
        | some _ => followWith jump links (place ++ [name]) rest

/-- Go on from a place, following a number of symbolic links at most. The result is another place,
and the number of links that may still be followed. -/
def follow : ℕ → Path → List Component → Except Errno (Path × ℕ)
  | 0 => followWith fs (fun _ _ => .error .eloop) 0
  | links + 1 => followWith fs (follow links) (links + 1)

variable (limit : ℕ) (path : Path)

/-- Where a path leads to. -/
def resolve : Except Errno (Path × ℕ) := follow fs limit [] (path.map .name)

/-- Where the entry with the last name of a path is. -/
def locate : Except Errno Path :=
  match path.getLast? with
  | none => .ok []
  | some name =>
    match resolve fs limit path.dropLast with
    | .error error => .error error
    | .ok (place, _) =>
      if fs.get? place ≠ some .directory then .error .enotdir
      else if (fs.get? (place ++ [name])).isSome then .ok (place ++ [name])
      else .error .enoent

/-- `stat.isDirectory()` of `fs.statSync`. -/
def isDirectory : Except Errno Bool :=
  match resolve fs limit path with
  | .error error => .error error
  | .ok (place, _) => .ok (fs.get? place = some .directory)

def list : Except Errno (List String) :=
  match resolve fs limit path with
  | .error error => .error error
  | .ok (place, _) =>
    if fs.get? place = some .directory then .ok (fs.names place) else .error .enotdir

def unlink : Except Errno FileSystem :=
  match locate fs limit path with
  | .error error => .error error
  | .ok place =>
    if leaf : fs.get? place ≠ some .directory then
      .ok (fs.remove place (PathTree.names_eq_nil leaf) fun root => leaf (root ▸ fs.root))
    else .error .eperm

def rmdir : Except Errno FileSystem :=
  match locate fs limit path with
  | .error error => .error error
  | .ok place =>
    if fs.get? place ≠ some .directory then .error .enotdir
    else if root : place = [] then .error .ebusy
    else if leaf : fs.names place = [] then .ok (fs.remove place leaf root)
    else .error .enotempty

end FileSystem

structure State where
  fs : FileSystem
  /-- The calls of `fs` so far. -/
  calls : ℕ

/-- What is left open of the operating system. -/
structure Os where
  /-- How many symbolic links are followed in one path. -/
  limit : ℕ
  /-- The order of a listing. -/
  order : ℕ → Path → List String → List String
  order_perm : ∀ call path names, (order call path names).Perm names
  /-- A call that fails for a reason of its own. -/
  fails : ℕ → Option Errno

namespace Os

variable (os : Os)

/-- A call of `fs`, and what is done with its answer. -/
def call {α : Type} (work : FileSystem → Except Errno α) (next : α → Prog Errno State) :
    Prog Errno State := fun state =>
  let called := { state with calls := state.calls + 1 }
  match os.fails state.calls with
  | some error => .threw error called
  | none =>
    match work state.fs with
    | .error error => .threw error called
    | .ok answer => next answer called

variable (path : Path)

/-- `fs.readdirSync`. -/
def readdirSync (next : List String → Prog Errno State) : Prog Errno State := fun state =>
  os.call (fun fs => fs.list os.limit path) (fun names => next (os.order state.calls path names)) state

/-- `fs.statSync`. -/
def statSync (next : Bool → Prog Errno State) : Prog Errno State :=
  os.call (fun fs => fs.isDirectory os.limit path) next

/-- `fs.unlinkSync`. -/
def unlinkSync : Prog Errno State :=
  os.call (fun fs => fs.unlink os.limit path) fun fs => Prog.update fun state => { state with fs := fs }

/-- `fs.rmdirSync`. -/
def rmdirSync : Prog Errno State :=
  os.call (fun fs => fs.rmdir os.limit path) fun fs => Prog.update fun state => { state with fs := fs }

/-- The loop of `lib/rmdir.js`. Its test is true of every name. -/
def removeSub (rmdir : Path → Prog Errno State) (dir : Path) (sub : String) : Prog Errno State :=
  let filename := dir ++ [sub]
  os.statSync filename fun isDirectory =>
    if filename ≠ ["."] ∨ filename ≠ [".."] then
      if isDirectory then rmdir filename else os.unlinkSync filename
    else .returned

/-- The function of `lib/rmdir.js`, with its calls of itself. -/
def rmdirBody (rmdir : Path → Prog Errno State) (dir : Path) : Prog Errno State :=
  os.readdirSync dir fun list =>
    Prog.seq (Prog.forEach (os.removeSub rmdir dir) list) (os.rmdirSync dir)

/-- `rmdir`, with calls of itself up to a depth. -/
def rmdir : ℕ → Path → Prog Errno State := Prog.nest os.rmdirBody

/-- `dirs.slice(0, -3)` in `rmStale`. -/
def stale (v8 : V8) (listing : List String) : List String :=
  let dirs := Cache.Directories.sorted v8 listing
  dirs.take (dirs.length - 3)

/-- `Env.prototype.rmStale` of `lib/cache/env.js`, where `opt.dir` is given. -/
def rmStale (v8 : V8) (depth : ℕ) (dir : Path) : Prog Errno State :=
  os.readdirSync dir fun listing =>
    Prog.forEach (fun sub => os.rmdir depth (dir ++ [sub])) (stale v8 listing)

end Os

end NodeKv.Files
