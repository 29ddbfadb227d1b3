import CertRuns.Command.Run
import CertRuns.Control.Monitor
import CertRuns.Control.Watcher
import CertRuns.Proofs.Time.Duration
import CertRuns.Proofs.Toml.Integers

/-!
# Whether watchers and monitors can start

A clock that ticks needs a period, and a point of time has whole seconds of 63 bits. A watcher
always has a period. A monitor has the configured one, and a deadline that depends on the text in
the run's request, so it starts only if neither is out of range.

* `Toml.Fits.fields?`, `Limited`, `loadConfig_limited` : the seconds of a configuration;
* `Ticker.Ticks`, `Instant.Kept`, `Monitor.Starts` : what a start needs; a monitor that lacks it
  panics (`Monitor.starts_iff_wait_ne_never`);
* `requested?`, `runTimeout_eq` : the span that a run asks for;
* `monitor_starts_iff` : when a monitor starts; `not_always_started` : two that do not.
-/

namespace CertRuns

/-! ## The seconds of a configuration -/

namespace Toml

theorem Fits.fields? {names : List String} {v : Toml} {t : Table} (hv : v.Fits)
    (h : Toml.fields? names v = some t) : t.Fits := by
  cases hv with
  | table _ hmembers =>
    cases h
    exact hmembers
  | array hitems =>
    cases h
    intro m hm
    exact hitems _ (List.of_mem_zip hm).2
  | tables hitems =>
    cases h
    intro m hm
    obtain ⟨members, hmembers, heq⟩ := List.mem_map.1 (List.of_mem_zip hm).2
    rw [← heq]
    exact .table .header (hitems members (List.mem_reverse.1 hmembers))
  | moment =>
    cases h
    exact Table.fits_nil
  | text | integer | float | bool => cases h

theorem Fits.natural?_lt {bound n : Nat} {v : Toml} (hv : v.Fits)
    (h : natural? bound v = some n) : n < secondBound := by
  cases hv with
  | integer _ hhigh =>
    unfold natural? at h
    dsimp only at h
    split at h
    · cases h
      unfold secondBound
      omega
    · cases h
  | _ => cases h

theorem Table.Fits.field_lt {bound absent n : Nat} {name : String} {t : Table} (ht : t.Fits)
    (habsent : absent < secondBound) (h : t.field name (natural? bound) absent = some n) :
    n < secondBound := by
  unfold Table.field at h
  split at h
  · cases h
    exact habsent
  · rename_i hlookup
    exact (ht.lookup hlookup).natural?_lt h

end Toml

/-- No number of seconds of a configuration has more than 63 bits. -/
structure ControllerConfig.Limited (c : ControllerConfig) : Prop where
  check : c.checkSeconds < secondBound
  timeout : c.timeoutSeconds < secondBound
  resync : c.resyncSeconds < secondBound

theorem ControllerConfig.limited_default : Limited {} := by
  constructor <;> decide

theorem ControllerConfig.ofToml?_limited {v : Toml} {c : ControllerConfig} (hv : v.Fits)
    (h : ofToml? v = some c) : c.Limited := by
  obtain ⟨t, ht, h⟩ := Option.bind_eq_some_iff.1 h
  have hfits := hv.fields? ht
  obtain ⟨ns, -, h⟩ := Option.bind_eq_some_iff.1 h
  obtain ⟨sidecar, -, h⟩ := Option.bind_eq_some_iff.1 h
  obtain ⟨runner, -, h⟩ := Option.bind_eq_some_iff.1 h
  obtain ⟨check, hcheck, h⟩ := Option.bind_eq_some_iff.1 h
  obtain ⟨timeout, htimeout, h⟩ := Option.bind_eq_some_iff.1 h
  obtain ⟨resync, hresync, h⟩ := Option.bind_eq_some_iff.1 h
  cases h
  constructor
  case check => exact hfits.field_lt (by decide) hcheck
  case timeout => exact hfits.field_lt (by decide) htimeout
  case resync => exact hfits.field_lt (by decide) hresync

namespace OperatorConfig

theorem parse?_limited {s : String} {config : OperatorConfig} (h : parse? s = some config) :
    config.controller.Limited := by
  obtain ⟨t, ht, h⟩ := Option.bind_eq_some_iff.1 h
  obtain ⟨controller, hcontroller, h⟩ := Option.bind_eq_some_iff.1 h
  obtain ⟨retry, -, h⟩ := Option.bind_eq_some_iff.1 h
  obtain ⟨cluster, -, h⟩ := Option.bind_eq_some_iff.1 h
  obtain ⟨http, -, h⟩ := Option.bind_eq_some_iff.1 h
  obtain ⟨logging, -, h⟩ := Option.bind_eq_some_iff.1 h
  cases h
  unfold Toml.Table.field at hcontroller
  split at hcontroller
  · cases hcontroller
    exact ControllerConfig.limited_default
  · rename_i hlookup
    exact ControllerConfig.ofToml?_limited ((Toml.parse?_fits ht).lookup hlookup) hcontroller

theorem load_limited {files : Files} {path : String} {config : OperatorConfig}
    (h : load files path = .ok config) : config.controller.Limited := by
  unfold load at h
  split at h
  · cases h
  · split at h
    · cases h
    · rename_i hparse
      cases h
      exact parse?_limited hparse

theorem applyEnvironment_limited {config : OperatorConfig} (h : config.controller.Limited)
    (env : Environment) : (config.applyEnvironment env).controller.Limited := by
  unfold applyEnvironment
  split
  · exact h
  · split
    · exact h
    · exact ⟨h.check, h.timeout, h.resync⟩

theorem firstOf_limited (files : Files) (paths : List String) :
    (firstOf files paths).controller.Limited := by
  induction paths with
  | nil => exact ControllerConfig.limited_default
  | cons path paths ih =>
    unfold firstOf
    split
    · rename_i hload
      exact load_limited hload
    · exact ih

end OperatorConfig

theorem loadConfig_limited {paths : Paths} {env : Environment} {named : Option String}
    {config : OperatorConfig} (h : loadConfig paths env named = .ok config) :
    config.controller.Limited := by
  unfold loadConfig at h
  split at h
  · cases h
    exact OperatorConfig.applyEnvironment_limited (OperatorConfig.firstOf_limited _ _) env
  · split at h
    · rename_i hload
      cases h
      exact OperatorConfig.applyEnvironment_limited (OperatorConfig.load_limited hload) env
    · cases h

/-! ## What a start needs -/

/-- A clock ticks only with a period. -/
def Ticker.Ticks (t : Ticker) : Prop := t.period.nanos ≠ 0

/-- The wait of a monitor has a clock that ticks and a deadline that can be kept. -/
def Monitor.Starts (m : Monitor) : Prop :=
  ∃ w, m.stage = .waiting w ∧ w.ticker.Ticks ∧ w.deadline.Kept

/-- A monitor that does not start panics. -/
theorem Monitor.starts_iff_wait_ne_never (c : Controller) (now : Instant) (run : Run)
    (pod : ObjectKey) (token : Token) :
    (Monitor.start c now run pod token).Starts ↔
      (Monitor.start c now run pod token).wait ≠ .never := by
  rw [ne_eq, show (Monitor.start c now run pod token).wait = CompletionWait.wait _ from rfl,
    CompletionWait.start_wait_eq_never, Decidable.not_not]
  constructor
  · rintro ⟨w, hw, hticks, hkept⟩
    cases hw
    exact ⟨hkept, hticks⟩
  · rintro ⟨hkept, hticks⟩
    exact ⟨_, rfl, hticks, hkept⟩

/-- The span that a text asks for; an empty one does not count. -/
def requested? (s : String) : Option Duration :=
  (Duration.parse? (Text.trim s)).filter (·.nanos ≠ 0)

theorem runTimeout_eq (s : String) (default : Duration) :
    runTimeout s default = (requested? s).getD default := by
  unfold runTimeout requested?
  cases Duration.parse? (Text.trim s) with
  | none => rfl
  | some d => by_cases h : d.nanos = 0 <;> simp [Option.filter_some, h]

theorem requested?_lt {s : String} {d : Duration} (h : requested? s = some d) :
    d.seconds < longBound :=
  Duration.parse?_lt (Option.filter_eq_some_iff.1 h).1

theorem Duration.nanos_ofSeconds_eq_zero {n : Nat} : (ofSeconds n).nanos = 0 ↔ n = 0 := by
  show n * 1000000000 = 0 ↔ n = 0
  omega

theorem Duration.seconds_ofSeconds (n : Nat) : (ofSeconds n).seconds = n := by
  show n * 1000000000 / 1000000000 = n
  omega

theorem Watcher.start_ticks {config : ControllerConfig} {c : Controller}
    (hc : c.settings = config.settings) (now : Instant) (number : Nat) (token : Token) :
    (Watcher.start c now number token).ticker.Ticks := by
  show c.settings.resyncInterval.nanos ≠ 0
  rw [hc]
  show (Duration.ofSeconds (max config.resyncSeconds 1)).nanos ≠ 0
  rw [ne_eq, Duration.nanos_ofSeconds_eq_zero]
  omega

theorem Monitor.starts_iff {config : ControllerConfig} {c : Controller}
    (hc : c.settings = config.settings) (now : Instant) (run : Run) (pod : ObjectKey)
    (token : Token) :
    (Monitor.start c now run pod token).Starts ↔
      config.checkSeconds ≠ 0 ∧
        (now.add ((requested? run.spec.timeout).getD (.ofSeconds config.timeoutSeconds))).Kept := by
  have hcheck : c.settings.checkInterval = .ofSeconds config.checkSeconds := by rw [hc]; rfl
  have htimeout : c.settings.defaultTimeout = .ofSeconds config.timeoutSeconds := by rw [hc]; rfl
  unfold Starts Monitor.start CompletionWait.start Ticker.Ticks Ticker.start
  simp [hcheck, htimeout, runTimeout_eq, Duration.nanos_ofSeconds_eq_zero]

/-- When a monitor starts, for every configuration that is loaded and every text in a request. A
watcher always does. -/
theorem monitor_starts_iff {paths : Paths} {env : Environment} {named : Option String}
    {config : OperatorConfig} (hconfig : loadConfig paths env named = .ok config)
    {listen ns : Option String} {c : Controller}
    (hc : c.settings = (config.withOptions listen ns).controller.settings)
    (now : Instant) (number : Nat) (token : Token) (run : Run) (pod : ObjectKey) :
    (Watcher.start c now number token).ticker.Ticks ∧
    ((Monitor.start c now run pod token).Starts ↔
      config.controller.checkSeconds ≠ 0 ∧
        (now.add ((requested? run.spec.timeout).getD
          (.ofSeconds config.controller.timeoutSeconds))).Kept) ∧
    (Duration.ofSeconds config.controller.timeoutSeconds).seconds < secondBound ∧
    ∀ d, requested? run.spec.timeout = some d → d.seconds < longBound := by
  refine ⟨Watcher.start_ticks hc now number token, Monitor.starts_iff hc now run pod token, ?_,
    fun d hd => requested?_lt hd⟩
  rw [Duration.seconds_ofSeconds]
  exact (loadConfig_limited hconfig).timeout

/-- What stands at the paths where a configuration is the only file. -/
def configAt (path text : String) : Paths := fun p =>
  if p = path then .file text.toUTF8 else .missing

/-- A monitor that looks every other second, for a run that may take as long as can be told. -/
theorem monitor_starts_iff_longest :
    let config : OperatorConfig := { controller := { checkSeconds := 2 } }
    let c : Controller := { settings := config.controller.settings, retry := config.retry.policy }
    loadConfig (configAt "operator.toml" "[controller]\ncheck_interval_sec = 2\n")
      (fun _ => none) (some "operator.toml") = .ok config ∧
    requested? "9223372036854775807s" = some (.ofSeconds 9223372036854775807) ∧
    (Watcher.start c ⟨0⟩ 0 ⟨0⟩).ticker.Ticks ∧
    (Monitor.start c ⟨0⟩ { spec := { timeout := "9223372036854775807s" } }
      ⟨"ops", "cnf-job-run-1"⟩ ⟨0⟩).Starts := by
  intro config c
  have hconfig : loadConfig (configAt "operator.toml" "[controller]\ncheck_interval_sec = 2\n")
      (fun _ => none) (some "operator.toml") = .ok config := by rfl
  have hrequested : requested? "9223372036854775807s" = some (.ofSeconds 9223372036854775807) := by
    decide +kernel
  have hc : c.settings = (config.withOptions none none).controller.settings := rfl
  obtain ⟨hticks, hstarts, -⟩ := monitor_starts_iff hconfig hc ⟨0⟩ 0 ⟨0⟩
    { spec := { timeout := "9223372036854775807s" } } ⟨"ops", "cnf-job-run-1"⟩
  refine ⟨hconfig, hrequested, hticks, hstarts.2 ⟨by decide, ?_⟩⟩
  show (Instant.add ⟨0⟩ ((requested? "9223372036854775807s").getD _)).Kept
  rw [hrequested]
  show 0 + 9223372036854775807 * 1000000000 < secondBound * 1000000000
  decide

/-- A period of zero is accepted, and so is a text that asks for more time than can be told. -/
theorem not_always_started :
    (∃ config : OperatorConfig,
      loadConfig (configAt "operator.toml" "[controller]\ncheck_interval_sec = 0\n")
        (fun _ => none) (some "operator.toml") = .ok config ∧
      ∀ (now : Instant) (run : Run) (pod : ObjectKey) (token : Token),
        ¬(Monitor.start { settings := config.controller.settings, retry := config.retry.policy } now
          run pod token).Starts) ∧
    ∃ config : OperatorConfig,
      loadConfig (fun _ => .missing) (fun _ => none) none = .ok config ∧
      ∀ (now : Instant) (pod : ObjectKey) (token : Token),
        ¬(Monitor.start { settings := config.controller.settings, retry := config.retry.policy } now
          { spec := { timeout := "9223372036854775808s" } } pod token).Starts := by
  constructor
  · refine ⟨{ controller := { checkSeconds := 0 } }, by rfl, fun now run pod token hstarts => ?_⟩
    exact ((Monitor.starts_iff rfl now run pod token).1 hstarts).1 rfl
  · refine ⟨{}, by rfl, fun now pod token hstarts => ?_⟩
    have hrequested : requested? "9223372036854775808s" =
        some (.ofSeconds 9223372036854775808) := by decide +kernel
    have hkept := ((Monitor.starts_iff rfl now _ pod token).1 hstarts).2
    rw [hrequested] at hkept
    have hlt : now.nanos + 9223372036854775808 * 1000000000 < secondBound * 1000000000 := hkept
    unfold secondBound at hlt
    omega

end CertRuns
