import CertRuns.Config.Basic
import CertRuns.Toml.Document

/-!
# Loading the configuration

A configuration is a document of sections. What it leaves out keeps its value, what it holds beyond
the known names is passed over. Environment variables come on top.

* `Toml.fields?` : the fields of a section; `OperatorConfig.ofToml?` : the configuration of a table;
* `Files` : the files that can be read; `ConfigError` : why a file gives no configuration;
* `OperatorConfig.load`, `applyEnvironment`, `loadOrDefault`.
-/

namespace CertRuns

/-! ## Decoding -/

namespace Toml

/-- The fields that a section gives. An array gives them in their order, a date gives none. -/
def fields? (names : List String) : Toml → Option Table
  | .table _ members => some members
  | .array items => some (names.zip items)
  | .tables items => some (names.zip (items.reverse.map (.table .header)))
  | .moment => some []
  | _ => none

/-- A field with a value where it is not given. -/
def Table.field {α : Type} (t : Table) (name : String) (f : Toml → Option α) (absent : α) :
    Option α :=
  match t.lookup name with
  | none => some absent
  | some v => f v

def string? : Toml → Option String
  | .text s => some s
  | _ => none

def bool? : Toml → Option Bool
  | .bool b => some b
  | _ => none

def natural? (bound : Nat) : Toml → Option Nat
  | .integer n => if 0 ≤ n ∧ n < bound then some n.toNat else none
  | _ => none

def double? : Toml → Option Double
  | .float x => some x
  | .integer n => some (.ofInt n)
  | _ => none

end Toml

open Toml (string? bool? natural? double? fields?)

def ControllerConfig.ofToml? (v : Toml) : Option ControllerConfig := do
  let t ← fields? ["namespace", "sidecar_image", "runner_image", "check_interval_sec",
    "default_timeout_sec", "resync_interval_sec"] v
  let absent : ControllerConfig := {}
  return {
    ns := ← t.field "namespace" string? absent.ns
    sidecarImage := ← t.field "sidecar_image" string? absent.sidecarImage
    runnerImage := ← t.field "runner_image" string? absent.runnerImage
    checkSeconds := ← t.field "check_interval_sec" (natural? longBound) absent.checkSeconds
    timeoutSeconds := ← t.field "default_timeout_sec" (natural? longBound) absent.timeoutSeconds
    resyncSeconds := ← t.field "resync_interval_sec" (natural? longBound) absent.resyncSeconds }

def RetryConfig.ofToml? (v : Toml) : Option RetryConfig := do
  let t ← fields? ["steps", "initial_delay_ms", "factor", "max_delay_ms", "jitter"] v
  let absent : RetryConfig := {}
  return {
    steps := ← t.field "steps" (natural? wordBound) absent.steps
    initialDelayMillis :=
      ← t.field "initial_delay_ms" (natural? longBound) absent.initialDelayMillis
    factor := ← t.field "factor" double? absent.factor
    maxDelayMillis := ← t.field "max_delay_ms" (natural? longBound) absent.maxDelayMillis
    jitter := ← t.field "jitter" double? absent.jitter }

def ClusterConfig.ofToml? (v : Toml) : Option ClusterConfig := do
  let t ← fields? ["api_server", "token_path", "ca_cert_path", "request_timeout_sec"] v
  let absent : ClusterConfig := {}
  return {
    apiServer := ← t.field "api_server" (fun v => (string? v).map some) none
    tokenPath := ← t.field "token_path" string? absent.tokenPath
    caPath := ← t.field "ca_cert_path" string? absent.caPath
    timeoutSeconds := ← t.field "request_timeout_sec" (natural? longBound) absent.timeoutSeconds }

def HttpConfig.ofToml? (v : Toml) : Option HttpConfig := do
  let t ← fields? ["listen_address"] v
  return { listenAddress := ← t.field "listen_address" string? ({} : HttpConfig).listenAddress }

def LoggingConfig.ofToml? (v : Toml) : Option LoggingConfig := do
  let t ← fields? ["level", "json"] v
  let absent : LoggingConfig := {}
  return {
    level := ← t.field "level" string? absent.level
    json := ← t.field "json" bool? absent.json }

namespace OperatorConfig

def ofToml? (t : Toml.Table) : Option OperatorConfig := do
  return {
    controller := ← t.field "controller" ControllerConfig.ofToml? {}
    retry := ← t.field "retry" RetryConfig.ofToml? {}
    cluster := ← t.field "cluster" ClusterConfig.ofToml? {}
    http := ← t.field "http" HttpConfig.ofToml? {}
    logging := ← t.field "logging" LoggingConfig.ofToml? {} }

def parse? (s : String) : Option OperatorConfig := (Toml.parse? s).bind ofToml?

end OperatorConfig

/-! ## Files and environment -/

abbrev Files := String → Option ByteArray

/-- The text of a file, if it can be read and is one. -/
def Files.text? (files : Files) (path : String) : Option String :=
  (files path).bind Text.text?

/-- The environment variables that are set, by their names. -/
abbrev Environment := String → Option String

/-- Why a file gives no configuration. -/
inductive ConfigError where
  | unreadable (path : String)
  | malformed (path : String)
  deriving DecidableEq, Repr

def ConfigError.message : ConfigError → String
  | unreadable path => "failed to read config file: " ++ path
  | malformed path => "failed to parse config file: " ++ path

namespace OperatorConfig

/-- The variable that names a file with a configuration. -/
def pathVariable : String := "CERTSUITE_OPERATOR_CONFIG"

def imageVariable : String := "SIDECAR_APP_IMG"

/-- The file that is looked for when none is named. -/
def systemPath : String := "/etc/certsuite-operator/operator.toml"

def load (files : Files) (path : String) : Except ConfigError OperatorConfig :=
  match files.text? path with
  | none => .error (.unreadable path)
  | some s =>
    match parse? s with
    | none => .error (.malformed path)
    | some config => .ok config

def applyEnvironment (config : OperatorConfig) (env : Environment) : OperatorConfig :=
  match env imageVariable with
  | none => config
  | some image =>
    if image = "" then config
    else { config with controller := { config.controller with sidecarImage := image } }

/-- The configuration in the first of some files that gives one. -/
def firstOf (files : Files) : List String → OperatorConfig
  | [] => {}
  | path :: paths =>
    match load files path with
    | .ok config => config
    | .error _ => firstOf files paths

/-- The configuration in the named file, or else the system's, or else what holds without one;
with what environment variables say. -/
def loadOrDefault (files : Files) (env : Environment) : OperatorConfig :=
  (firstOf files ((env pathVariable).toList ++ [systemPath])).applyEnvironment env

end OperatorConfig

end CertRuns
