import Mathlib
import RpaEnterprise.Lib.Execution

/-!
# The circuit of a site

Every drive that came to a result leaves one sample for its site, and the
samples of a rolling window decide whether a closed circuit opens.  The sample
of a drive is blocked when the drive was suspended by anything but a human
task: by a challenge, and by an operator who paused the run.
-/

namespace RpaEnterprise.Worker.SiteCircuit

open Lib

/-! ## Drives and their samples -/

inductive CircuitState where
  | closed | opened | halfOpen
deriving Repr, DecidableEq

inductive DriveState where
  | completed | failedBusiness | failedSystem | cancelled | suspended
deriving Repr, DecidableEq

inductive SuspendKind where
  | challenge | humanTask | operatorPause
deriving Repr, DecidableEq

structure DriveResult where
  state : DriveState
  suspend : Option SuspendKind
deriving Repr, DecidableEq

/-- `blocked`, as both the claim and the resume handler compute it. -/
def DriveResult.blocked (result : DriveResult) : Bool :=
  result.state = .suspended && result.suspend.any (· ≠ .humanTask)

/-- The drive ended suspended by a detected challenge. -/
def DriveResult.challenged (result : DriveResult) : Bool :=
  result.state = .suspended && result.suspend = some .challenge

def DriveResult.paused (result : DriveResult) : Bool :=
  result.state = .suspended && result.suspend = some .operatorPause

structure SiteCircuitConfig where
  blockRateThreshold : Rat
  windowMs : Nat
  minSamples : Nat
  openMs : Nat

def defaultSiteCircuit : SiteCircuitConfig where
  blockRateThreshold := 3 / 10
  windowMs := 5 * 60 * 1000
  minSamples := 20
  openMs := 15 * 60 * 1000

structure Sample where
  occurredAt : Nat
  blocked : Bool
deriving Repr, DecidableEq

inductive SiteCircuitEvent where
  | opened (circuitUntil : Nat)
  | closed
deriving Repr, DecidableEq

/-- One site: the row of its profile, its samples and the events it emitted;
and, beside the code, every drive recorded and when. -/
structure Site where
  now : Nat
  circuitState : CircuitState
  circuitUntil : Option Nat
  samples : List Sample
  events : List SiteCircuitEvent
  history : List (Nat × DriveResult)

/-- `occurred_at > now() - window`. -/
def SiteCircuitConfig.recent (config : SiteCircuitConfig) (now occurredAt : Nat) : Bool :=
  now < occurredAt + config.windowMs

/-- The `INSERT` of the sample and the `DELETE` of those before the window. -/
def SiteCircuitConfig.sampled (config : SiteCircuitConfig) (now : Nat) (blocked : Bool)
    (samples : List Sample) : List Sample :=
  (samples ++ [(⟨now, blocked⟩ : Sample)]).filter fun sample =>
    now ≤ sample.occurredAt + config.windowMs

/-- `circuit_state IN ('open','half_open') AND (circuit_until IS NULL OR circuit_until <= now())`. -/
def Site.cooledDown (site : Site) : Bool :=
  (site.circuitState = .opened || site.circuitState = .halfOpen) && site.circuitUntil.all (· ≤ site.now)

/-- The samples the `WITH` query counts. -/
def SiteCircuitConfig.window (config : SiteCircuitConfig) (site : Site) : List Sample :=
  site.samples.filter fun sample => config.recent site.now sample.occurredAt

/-- `w.total >= minSamples AND w.blocks >= w.total * blockRateThreshold`. -/
def SiteCircuitConfig.trips (config : SiteCircuitConfig) (site : Site) : Bool :=
  config.minSamples ≤ (config.window site).length &&
    (config.window site).length * config.blockRateThreshold ≤
      ((config.window site).countP Sample.blocked : Nat)

/-- The transition of the circuit, after the sample was written. -/
def SiteCircuitConfig.transition (config : SiteCircuitConfig) (blocked : Bool) (site : Site) : Site :=
  if blocked then
    if site.cooledDown then
      { site with circuitState := .opened, circuitUntil := some (site.now + config.openMs) }
    else if site.circuitState = .closed && config.trips site then
      { site with
        circuitState := .opened
        circuitUntil := some (site.now + config.openMs)
        events := site.events ++ [.opened (site.now + config.openMs)] }
    else site
  else if site.cooledDown then
    { site with circuitState := .closed, circuitUntil := none, events := site.events ++ [.closed] }
  else site

def recordSiteCircuitOutcome (config : SiteCircuitConfig) (blocked : Bool) (site : Site) : Site :=
  config.transition blocked
    { site with samples := config.sampled site.now blocked site.samples }

/-- A drive that is recorded some time after the last one. -/
structure Recorded where
  elapsed : Nat
  result : DriveResult

/-- The site when the record is about to be made. -/
def Site.arrive (site : Site) (recorded : Recorded) : Site :=
  { site with
    now := site.now + recorded.elapsed
    history := site.history ++ [(site.now + recorded.elapsed, recorded.result)] }

def step (config : SiteCircuitConfig) (site : Site) (recorded : Recorded) : Site :=
  recordSiteCircuitOutcome config recorded.result.blocked (site.arrive recorded)

/-! ## What the circuit is for -/

/-- The drives recorded within the window. -/
def SiteCircuitConfig.recentDrives (config : SiteCircuitConfig) (site : Site) :
    List (Nat × DriveResult) :=
  site.history.filter fun drive => config.recent site.now drive.1

/-- Enough drives were recorded, and enough of them ended in a challenge. -/
def SiteCircuitConfig.Challenged (config : SiteCircuitConfig) (site : Site) : Prop :=
  config.minSamples ≤ (config.recentDrives site).length ∧
    (config.recentDrives site).length * config.blockRateThreshold ≤
      ((config.recentDrives site).countP fun drive => drive.2.challenged : Nat)

/-- The drive counts as blocked only if it was challenged, and it opens a closed
circuit only if the drives of the window were. -/
structure CountsChallenges (config : SiteCircuitConfig) (site : Site) (recorded : Recorded) : Prop where
  sample : recorded.result.blocked = true → recorded.result.challenged = true
  opens : site.circuitState = .closed → (step config site recorded).circuitState = .opened →
    config.Challenged (site.arrive recorded)

/-! ## The samples are the drives -/

def sampleOf (drive : Nat × DriveResult) : Sample := ⟨drive.1, drive.2.blocked⟩

/-- From now on, every window shows the samples of the drives recorded in it. -/
def Sampled (config : SiteCircuitConfig) (site : Site) : Prop :=
  ∀ later, site.now ≤ later →
    site.samples.filter (fun sample => config.recent later sample.occurredAt) =
      (site.history.map sampleOf).filter fun sample => config.recent later sample.occurredAt

@[simp]
theorem transition_samples (config : SiteCircuitConfig) (blocked : Bool) (site : Site) :
    (config.transition blocked site).samples = site.samples := by
  unfold SiteCircuitConfig.transition
  repeat' split
  all_goals rfl

@[simp]
theorem transition_history (config : SiteCircuitConfig) (blocked : Bool) (site : Site) :
    (config.transition blocked site).history = site.history := by
  unfold SiteCircuitConfig.transition
  repeat' split
  all_goals rfl

@[simp]
theorem transition_now (config : SiteCircuitConfig) (blocked : Bool) (site : Site) :
    (config.transition blocked site).now = site.now := by
  unfold SiteCircuitConfig.transition
  repeat' split
  all_goals rfl

/-- What is pruned is in no later window. -/
theorem filter_sampled (config : SiteCircuitConfig) {now later : Nat} (after : now ≤ later)
    (blocked : Bool) (samples : List Sample) :
    (config.sampled now blocked samples).filter (fun sample => config.recent later sample.occurredAt) =
      (samples ++ [(⟨now, blocked⟩ : Sample)]).filter fun sample => config.recent later sample.occurredAt := by
  rw [SiteCircuitConfig.sampled, List.filter_filter]
  refine List.filter_congr fun sample _ => ?_
  simp only [SiteCircuitConfig.recent, Bool.and_eq_left_iff_imp, decide_eq_true_eq]
  omega

theorem sampled_step {config : SiteCircuitConfig} {site : Site} (sampled : Sampled config site)
    (recorded : Recorded) : Sampled config (step config site recorded) := by
  intro later after
  simp only [step, recordSiteCircuitOutcome, transition_samples, transition_history, transition_now,
    Site.arrive] at after ⊢
  rw [filter_sampled config after, List.filter_append, sampled later (by omega), List.map_append,
    List.filter_append]
  rfl

/-- The window the query counts, drive by drive. -/
theorem window_eq {config : SiteCircuitConfig} {site : Site} (sampled : Sampled config site)
    (recorded : Recorded) :
    config.window { site.arrive recorded with
        samples := config.sampled (site.arrive recorded).now recorded.result.blocked site.samples } =
      (config.recentDrives (site.arrive recorded)).map sampleOf := by
  have after : site.now ≤ site.now + recorded.elapsed := Nat.le_add_right _ _
  simp only [SiteCircuitConfig.window, SiteCircuitConfig.recentDrives, Site.arrive]
  rw [filter_sampled config le_rfl, List.filter_append, sampled _ after, ← List.filter_append]
  have drives : site.history.map sampleOf ++
      [(⟨site.now + recorded.elapsed, recorded.result.blocked⟩ : Sample)] =
      (site.history ++ [(site.now + recorded.elapsed, recorded.result)]).map sampleOf := by
    simp [sampleOf]
  rw [drives, List.filter_map]
  rfl

/-! ## Pauses -/

theorem challenged_of_blocked {result : DriveResult} (running : result.paused = false)
    (blocked : result.blocked = true) : result.challenged = true := by
  obtain ⟨state, suspend⟩ := result
  cases suspend with
  | none => simp [DriveResult.blocked] at blocked
  | some kind => cases kind <;> simp_all [DriveResult.blocked, DriveResult.challenged, DriveResult.paused]

theorem blocked_of_paused {result : DriveResult} (paused : result.paused = true) :
    result.blocked = true ∧ result.challenged = false := by
  simp only [DriveResult.paused, Bool.and_eq_true, decide_eq_true_eq] at paused
  simp [DriveResult.blocked, DriveResult.challenged, paused]

theorem opened_trips {config : SiteCircuitConfig} {blocked : Bool} {site : Site}
    (closed : site.circuitState = .closed)
    (opened : (config.transition blocked site).circuitState = .opened) : config.trips site = true := by
  have warm : site.cooledDown = false := by simp [Site.cooledDown, closed]
  unfold SiteCircuitConfig.transition at opened
  cases blocked with
  | false => simp [warm, closed] at opened
  | true =>
    by_cases trips : config.trips site = true
    · exact trips
    · simp [warm, closed, trips] at opened

/-- No drive recorded was paused by an operator. -/
def Unpaused (site : Site) : Prop := ∀ drive ∈ site.history, drive.2.paused = false

theorem countsChallenges {config : SiteCircuitConfig} {site : Site} {recorded : Recorded}
    (sampled : Sampled config site) (unpaused : Unpaused site)
    (running : recorded.result.paused = false) : CountsChallenges config site recorded := by
  refine ⟨challenged_of_blocked running, fun closed opened => ?_⟩
  have trips := @opened_trips config _ { site.arrive recorded with
    samples := config.sampled (site.arrive recorded).now recorded.result.blocked site.samples }
    closed opened
  simp only [SiteCircuitConfig.trips, window_eq sampled recorded, List.length_map,
    Bool.and_eq_true, decide_eq_true_eq, List.countP_map] at trips
  refine ⟨trips.1, Rat.le_trans trips.2 ?_⟩
  have fewer : (config.recentDrives (site.arrive recorded)).countP (Sample.blocked ∘ sampleOf) ≤
      (config.recentDrives (site.arrive recorded)).countP fun drive => drive.2.challenged := by
    refine List.countP_mono_left fun drive member blocked => challenged_of_blocked ?_ blocked
    have stored := (List.mem_filter.mp member).1
    simp only [Site.arrive, List.mem_append, List.mem_singleton] at stored
    rcases stored with earlier | rfl
    · exact unpaused drive earlier
    · exact running
  exact Rat.natCast_le_natCast.mpr fewer

theorem unpaused_step {config : SiteCircuitConfig} {site : Site} {recorded : Recorded}
    (unpaused : Unpaused site) (running : recorded.result.paused = false) :
    Unpaused (step config site recorded) := by
  intro drive member
  simp only [step, recordSiteCircuitOutcome, transition_history, Site.arrive, List.mem_append,
    List.mem_singleton] at member
  rcases member with earlier | rfl
  · exact unpaused drive earlier
  · exact running

/-- A site that has recorded no drive yet. -/
def Site.fresh (now : Nat) (circuitState : CircuitState) (circuitUntil : Option Nat) : Site :=
  ⟨now, circuitState, circuitUntil, [], [], []⟩

theorem along_countsChallenges {config : SiteCircuitConfig} {site : Site} {schedule : List Recorded}
    (sampled : Sampled config site) (unpaused : Unpaused site)
    (running : ∀ recorded ∈ schedule, recorded.result.paused = false) :
    Along (step config) (CountsChallenges config) site schedule := by
  induction schedule generalizing site with
  | nil => trivial
  | cons recorded rest ih =>
    have here := running recorded List.mem_cons_self
    refine ⟨countsChallenges sampled unpaused here, ?_⟩
    exact ih (sampled_step sampled recorded) (unpaused_step unpaused here)
      fun other member => running other (List.mem_cons_of_mem _ member)

theorem unpaused_of_along {config : SiteCircuitConfig} {site : Site} {schedule : List Recorded}
    (counts : Along (step config) (CountsChallenges config) site schedule) :
    ∀ recorded ∈ schedule, recorded.result.paused = false := by
  induction schedule generalizing site with
  | nil => simp
  | cons recorded rest ih =>
    rintro other (_ | ⟨_, member⟩)
    · by_contra paused
      obtain ⟨blocked, unchallenged⟩ := blocked_of_paused (Bool.not_eq_false _ ▸ paused)
      rw [counts.1.sample blocked] at unchallenged
      cases unchallenged
    · exact ih counts.2 other member

/-- A site counts challenges and nothing else exactly as long as no drive of it
is paused by an operator. -/
theorem counts_challenges_iff (config : SiteCircuitConfig) (now : Nat) (circuitState : CircuitState)
    (circuitUntil : Option Nat) (schedule : List Recorded) :
    Along (step config) (CountsChallenges config) (.fresh now circuitState circuitUntil) schedule ↔
      ∀ recorded ∈ schedule, recorded.result.paused = false :=
  ⟨unpaused_of_along, along_countsChallenges (fun _ _ => rfl) (by simp [Unpaused, Site.fresh])⟩

/-- Fourteen drives complete and six are paused, within one window. -/
def pausedDrives : List Recorded :=
  List.replicate 14 ⟨1000, ⟨.completed, none⟩⟩ ++
    List.replicate 6 ⟨1000, ⟨.suspended, some .operatorPause⟩⟩

/-- No challenge was detected, and the circuit opens. -/
theorem paused_drives_open :
    (exec (step defaultSiteCircuit) (.fresh 0 .closed none) pausedDrives).circuitState = .opened ∧
      (∀ recorded ∈ pausedDrives, recorded.result.challenged = false) ∧
      ¬ Along (step defaultSiteCircuit) (CountsChallenges defaultSiteCircuit) (.fresh 0 .closed none)
        pausedDrives := by
  refine ⟨by decide +kernel, by decide, fun counts => ?_⟩
  have unpaused := unpaused_of_along counts ⟨1000, ⟨.suspended, some .operatorPause⟩⟩
    (by simp [pausedDrives])
  cases unpaused

end RpaEnterprise.Worker.SiteCircuit
