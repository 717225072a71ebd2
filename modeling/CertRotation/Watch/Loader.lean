import CertRotation.Pattern.Parser
import CertRotation.Watch.PathWatcher
import CertRotation.Watch.Store

/-!
# Loading files into a store

A `Loader` keeps a store in step with the files below its roots.  A scan loads every file there is;
after that a change of a file loads it again, and its removal or departure drops its key.

Editors and careful writers first write a staged copy and then give it its proper name.  A pattern
marks the names of staged copies: a change of a staged copy loads the file that the unmarked path
names, under the unmarked key, and the departure of a staged copy means nothing.

A file that cannot be read, is empty or has no key is passed over, so that it stands in the way of
no other.
-/

set_option autoImplicit false

namespace CertRotation

/-- What a loader is asked to do. -/
structure LoaderConfig where
  paths : List Path
  /-- The extension that the strategy without extension takes off. -/
  extension : Option (List Char)
  strategy : KeyStrategy
  storage : Option Store
  subfolders : Bool
  /-- The kinds of change that load or drop. -/
  ops : Ops
  /-- The written form of the pattern that marks staged copies. -/
  marker : Option (List Char)

namespace LoaderConfig

/-- The usual mark of a staged copy: a tilde at the end. -/
def usualMarker : List Char := ['~', '$']

/-- The kinds of change that usually load or drop. -/
def usualOps : Ops := ((Ops.create.union .write).union .rename).union .remove

/-- The usual settings for some roots. -/
def usual (paths : List Path) : LoaderConfig :=
  ⟨paths, none, .fullPath, some .empty, false, usualOps, some usualMarker⟩

/-- The settings as a value. -/
def described (c : LoaderConfig) : String :=
  "LoaderConfig \x7b paths: " ++ Text.bracket (c.paths.map Path.quoted) ++ ", extension: "
    ++ Text.optional (c.extension.map Text.quote) ++ ", key_strategy: " ++ c.strategy.described
    ++ ", storage: " ++ toString c.storage.isSome ++ ", watch_subfolders: " ++ toString c.subfolders
    ++ ", ops: " ++ c.ops.described ++ ", atomic_marker: "
    ++ Text.optional (c.marker.map Text.quote) ++ " \x7d"

end LoaderConfig

/-- A store and the files it is kept in step with. -/
structure Loader where
  roots : List Path
  resolver : KeyResolver
  store : Store
  ops : Ops
  marker : Option Pattern
  subfolders : Bool
  watcher : Option PathWatcher

namespace Loader

/-- The absolute paths of the roots, up to the first that has none. -/
def resolveAll (disk : Disk) (paths : List Path) : Except WatchError (List Path) :=
  paths.mapM (resolvePath disk)

/-- Whether the settings name no extension where one is needed, or an empty one. -/
def lacksExtension (c : LoaderConfig) : Bool :=
  match c.extension with
  | none => c.strategy = .nameNoExtension
  | some extension => extension = [] || extension = ['.']

/-- The pattern that marks staged copies. -/
def readMarker (written : Option (List Char)) : Except WatchError (Option Pattern) :=
  match written with
  | none => .ok none
  | some text =>
    match Pattern.parse? text with
    | some p => .ok (some p)
    | none => .error (.invalidPattern text)

/-- A loader that has not loaded anything.  The settings are checked in the order of the errors:
paths, their existence, extension, storage, pattern. -/
def new (disk : Disk) (c : LoaderConfig) : Except WatchError Loader :=
  if c.paths.isEmpty then .error .noPathsSpecified
  else do
    let roots ← resolveAll disk c.paths
    if lacksExtension c then .error .emptyExtension
    else
      match c.storage with
      | none => .error .storageNotSpecified
      | some store =>
        let marker ← readMarker c.marker
        .ok ⟨roots, KeyResolver.make c.strategy c.extension roots, store, c.ops, marker,
          c.subfolders, none⟩

/-- Whether the loader follows changes. -/
def isWatching (l : Loader) : Bool := l.watcher.isSome

/-- The unmarked path and key of a staged copy; nothing if the path carries no mark or is no
text. -/
def staged? (l : Loader) (p : Path) (key : Key) : Option (Path × Key) := do
  let marker ← l.marker
  let text ← Utf8.decode? p.bytes
  if marker.occursIn text then
    some (⟨Utf8.encode (marker.eraseFirst text)⟩, marker.eraseFirst key)
  else none

/-- Loads the file that `p` leads to under `key`.  A directory, an empty file and a file that cannot
be read leave the store as it is. -/
def load (disk : Disk) (l : Loader) (p : Path) (key : Key) : Loader :=
  match disk.read p with
  | .error _ | .ok [] => l
  | .ok content => { l with store := l.store.insert key content }

/-- What an operation of kind `op` on `p` does to the store. -/
def apply (disk : Disk) (l : Loader) (p : Path) (op : Ops) : Loader :=
  match l.resolver.key? p with
  | none => l
  | some key =>
    if op.meets (Ops.remove.union .rename) then
      match l.staged? p key with
      | some _ => l
      | none => { l with store := l.store.erase key }
    else
      match l.staged? p key with
      | some (target, key) => l.load disk target key
      | none => l.load disk p key

/-- What a change does to the store; a kind of change that was not asked for does nothing. -/
def handle (disk : Disk) (l : Loader) (change : Change) : Loader :=
  if change.isAny l.ops then l.apply disk change.path change.op else l

/-- Loads everything that a walk has come to and that is no directory. -/
def loadVisits (disk : Disk) (l : Loader) (visits : List Visit) : Loader :=
  (visits.filter fun v => !v.isDir).foldl (fun l v => l.apply disk v.path .create) l

/-- Loads the files below some roots in order, up to the first root that cannot be visited or
entered.  What the walk came to before it could not go on is loaded. -/
def scanRoots (disk : Disk) : Loader → List Path → Except WatchError Unit × Loader
  | l, [] => (.ok (), l)
  | l, root :: roots =>
    match disk.walk root with
    | .error fault => (.error (.initialScan root fault), l)
    | .ok walk =>
      let l := l.loadVisits disk walk.visits
      match walk.fault? with
      | some fault => (.error (.initialScan root fault), l)
      | none => scanRoots disk l roots

/-- Loads every file below the roots. -/
def scan (disk : Disk) (l : Loader) : Except WatchError Unit × Loader := scanRoots disk l l.roots

/-- The watcher of a loader: its callbacks do not panic. -/
def newWatcher (l : Loader) : PathWatcher :=
  .new l.subfolders (some fun _ => .returned) (some fun _ => .returned)

/-- Loads every file and then follows the changes.  A loader that already does is left alone, and
one that cannot start to do so does not watch. -/
def startWatching (disk : Disk) (runtime : Bool) (l : Loader) : Except WatchError Unit × Loader :=
  if l.isWatching then (.ok (), l)
  else
    match l.scan disk with
    | (.error e, l) => (.error e, l)
    | (.ok (), l) =>
      match PathWatcher.addPaths disk l.newWatcher l.roots with
      | .error e => (.error e, l)
      | .ok (_, watcher) =>
        match watcher.start disk runtime with
        | (.error e, _, _) => (.error e, l)
        | (.ok (), watcher, _) => (.ok (), { l with watcher := some watcher })

/-- Stops following changes; the entries stay. -/
def stopWatching (l : Loader) : Loader := { l with watcher := none }

/-- A report of the system: the changes that the watcher hands on reach the store in order. -/
def notified (disk : Disk) (l : Loader) (report : Notification) : Loader :=
  match l.watcher with
  | none => l
  | some watcher =>
    let (watcher, effects) := watcher.notified disk report
    (effects.filterMap WatchEffect.change?).foldl (handle disk) { l with watcher := some watcher }

/-- The resolver as a value. -/
def describedResolver (r : KeyResolver) : String :=
  "KeyResolver \x7b strategy: " ++ r.strategy.described ++ ", extension: "
    ++ Text.optional (r.extension.map Text.quote) ++ ", roots: "
    ++ Text.bracket (r.roots.map Path.quoted) ++ " \x7d"

/-- The loader as a value. -/
def described (l : Loader) : String :=
  "ResourceLoader \x7b roots: " ++ Text.bracket (l.roots.map Path.quoted) ++ ", resolver: "
    ++ describedResolver l.resolver ++ ", watching: " ++ toString l.isWatching ++ ", .. \x7d"

end Loader

end CertRotation
