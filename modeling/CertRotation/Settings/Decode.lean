import CertRotation.Logging.Settings
import CertRotation.Rotation.Settings
import CertRotation.Settings.Document

/-!
# Settings from documents

Each kind of settings is read from a document.  Members that are missing keep their usual values,
members that are not known do not matter, and a member that cannot be read spoils the whole.
-/

set_option autoImplicit false

namespace CertRotation

open Document (orUsual)

/-- A length of time, written in milliseconds. -/
def Duration.ofDocument? (d : Document) : Option Duration :=
  (d.natural? (UInt64.size - 1)).map Duration.ofMillis

/-- A count of 32 binary digits. -/
def countOfDocument? (d : Document) : Option Nat := d.natural? (UInt32.size - 1)

/-- The name of a strategy, or an object with nothing but that name. -/
def KeyStrategy.ofDocument? : Document → Option KeyStrategy
  | .text (some name) => KeyStrategy.ofName? (String.ofList name)
  | .object [(some name, .null)] => KeyStrategy.ofName? (String.ofList name)
  | _ => none

/-- How often deliveries may come. -/
def Throttle.ofDocument? (d : Document) : Option Throttle := do
  match ← d.members? ["interval", "burst"] with
  | [interval, burst] =>
    some ⟨← orUsual Duration.ofDocument? usual.interval interval,
      ← orUsual countOfDocument? usual.burst burst⟩
  | _ => none

/-- How attempts are repeated. -/
def Backoff.ofDocument? (d : Document) : Option (Backoff Float) := do
  let u : Backoff Float := usual
  match ← d.members? ["max_retries", "initial_delay", "max_delay", "multiplier", "jitter"] with
  | [maxRetries, initialDelay, maxDelay, multiplier, jitter] =>
    some ⟨← orUsual countOfDocument? u.maxRetries maxRetries,
      ← orUsual Duration.ofDocument? u.initialDelay initialDelay,
      ← orUsual Duration.ofDocument? u.maxDelay maxDelay,
      ← orUsual Document.fraction? u.multiplier multiplier,
      ← orUsual Document.flag? u.jitter jitter⟩
  | _ => none

/-- The settings of the log. -/
def LogSettings.ofDocument? (d : Document) : Option LogSettings := do
  match ← d.members? ["service_name", "log_level", "json_output"] with
  | [serviceName, level, json] =>
    some ⟨← orUsual Document.text? usual.serviceName serviceName,
      ← orUsual Document.text? usual.level level, ← orUsual Document.flag? usual.json json⟩
  | _ => none

/-- The settings of a rotation. -/
def RotationSettings.ofDocument? (d : Document) : Option RotationSettings := do
  match ← d.members? ["cert_dir", "cert_file", "key_file", "ca_file", "watch_subfolders", "throttle",
    "retry"] with
  | [certDir, certFile, keyFile, caFile, subfolders, throttle, backoff] =>
    let path (d : Document) : Option Path := d.text?.map fun text => ⟨Utf8.encode text⟩
    some ⟨← orUsual path usual.certDir certDir, ← orUsual Document.text? usual.certFile certFile,
      ← orUsual Document.text? usual.keyFile keyFile, ← orUsual Document.text? usual.caFile caFile,
      ← orUsual Document.flag? usual.subfolders subfolders,
      ← orUsual Throttle.ofDocument? usual.throttle throttle,
      ← orUsual Backoff.ofDocument? usual.backoff backoff⟩
  | _ => none

end CertRotation
