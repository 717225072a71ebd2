import CertRotation.Rotation.Settings
import CertRotation.Tls.Material
import CertRotation.Watch.Loader

/-!
# A directory of certificates

A `CertDirectory` keeps the files of a directory in a store under their names, and puts material
together from what the store holds at the moment.
-/

set_option autoImplicit false

namespace CertRotation

/-- The files of a directory, and the names of those that make material. -/
structure CertDirectory where
  loader : Loader
  certFile : Key
  keyFile : Key
  caFile : Key

namespace CertDirectory

/-- How the files of a directory are loaded: under their names. -/
def loaderConfig (s : RotationSettings) : LoaderConfig :=
  { LoaderConfig.usual [s.certDir] with
    strategy := .nameWithExtension
    subfolders := s.subfolders }

/-- The directory of some settings, not loaded yet. -/
def new (disk : Disk) (s : RotationSettings) : Except CertError CertDirectory :=
  match Loader.new disk (loaderConfig s) with
  | .ok loader => .ok ⟨loader, s.certFile, s.keyFile, s.caFile⟩
  | .error e => .error (.watch e)

/-- Whether the directory follows changes. -/
def isWatching (d : CertDirectory) : Bool := d.loader.isWatching

/-- Loads the files and follows their changes. -/
def start (disk : Disk) (runtime : Bool) (d : CertDirectory) :
    Except CertError Unit × CertDirectory :=
  let (answer, loader) := d.loader.startWatching disk runtime
  (answer.mapError .watch, { d with loader := loader })

/-- Stops following changes. -/
def stop (d : CertDirectory) : CertDirectory := { d with loader := d.loader.stopWatching }

/-- Loads the files again. -/
def refresh (disk : Disk) (d : CertDirectory) : Except CertError Unit × CertDirectory :=
  let (answer, loader) := d.loader.scan disk
  (answer.mapError .watch, { d with loader := loader })

/-- A report of the system reaches the directory while it follows changes. -/
def notified (disk : Disk) (d : CertDirectory) (report : Notification) : CertDirectory :=
  { d with loader := d.loader.notified disk report }

/-- Material from three named entries of a store.  A chain and a key must be there. -/
def materialFrom (r : Readers) (store : Store) (certFile keyFile caFile : Key) :
    Except CertError Material :=
  match store.get? certFile, store.get? keyFile with
  | none, _ => .error (.noValue certFile)
  | some _, none => .error (.noValue keyFile)
  | some chain, some key =>
    Material.assemble r
      ⟨⟨certFile, chain⟩, ⟨keyFile, key⟩, (store.get? caFile).map fun ca => ⟨caFile, ca⟩⟩

/-- Material from what the store holds. -/
def get (r : Readers) (d : CertDirectory) : Except CertError Material :=
  materialFrom r d.loader.store d.certFile d.keyFile d.caFile

/-- Loads the files again and puts material together. -/
def assemble (r : Readers) (disk : Disk) (d : CertDirectory) :
    Except CertError Material × CertDirectory :=
  match d.refresh disk with
  | (.error e, d) => (.error e, d)
  | (.ok (), d) => (d.get r, d)

end CertDirectory
end CertRotation
