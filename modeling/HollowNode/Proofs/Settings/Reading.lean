import HollowNode.Proofs.Settings
import HollowNode.Proofs.Text.Numerals

namespace HollowNode.Settings

open Text

variable {lookup other : String → Option String} {name value : String} {α : Type}
  {reads : String → α → Prop} {parse : String → Option α} {refusal : String → ConfigFault}
  {fallback a b : α} {settings : Settings} {fault : ConfigFault}

def Gives (lookup : String → Option String) (name value : String) : Prop :=
  lookup name = some value ∧ ¬Blank value.toList

/-- What a variable denotes. -/
inductive Denotes (lookup : String → Option String) (name : String) (reads : String → α → Prop)
    (fallback : α) : α → Prop
  | given {value : String} {a : α} (gives : Gives lookup name value) (read : reads value a) :
      Denotes lookup name reads fallback a
  | missing (missing : ∀ value, ¬Gives lookup name value) :
      Denotes lookup name reads fallback fallback

def Readable (lookup : String → Option String) (name : String) (reads : String → α → Prop) : Prop :=
  ∀ value, Gives lookup name value → ∃ a, reads value a

theorem given_eq_some_iff : given lookup name = some value ↔ Gives lookup name value := by
  simp only [given, Option.filter_eq_some_iff, Gives, Bool.not_eq_true',
    List.isEmpty_eq_false_iff, ne_eq, trimmed_eq_nil_iff]

theorem given_eq_none_iff : given lookup name = none ↔ ∀ value, ¬Gives lookup name value := by
  rw [Option.eq_none_iff_forall_ne_some]
  exact forall_congr' fun value => not_congr given_eq_some_iff

theorem Gives.unique {value' : String} (h : Gives lookup name value)
    (h' : Gives lookup name value') : value = value' :=
  Option.some.inj (h.1.symm.trans h'.1)

theorem exists_denotes_iff :
    (∃ a, Denotes lookup name reads fallback a) ↔ Readable lookup name reads := by
  constructor
  · rintro ⟨a, ⟨gives, read⟩ | missing⟩ value h
    · exact ⟨_, h.unique gives ▸ read⟩
    · exact absurd h (missing value)
  · intro readable
    cases h : given lookup name with
    | none => exact ⟨fallback, .missing (given_eq_none_iff.1 h)⟩
    | some value =>
        obtain ⟨a, read⟩ := readable value (given_eq_some_iff.1 h)
        exact ⟨a, .given (given_eq_some_iff.1 h) read⟩

def reading (lookup : String → Option String) (name : String) (parse : String → Option α)
    (refusal : String → ConfigFault) (fallback : α) : Except ConfigFault α :=
  match given lookup name with
  | none => .ok fallback
  | some value =>
    match parse value with
    | some a => .ok a
    | none => .error (refusal value)

theorem reading_eq_ok_iff (faithful : ∀ value a, parse value = some a ↔ reads value a) :
    reading lookup name parse refusal fallback = .ok a ↔ Denotes lookup name reads fallback a := by
  unfold reading
  constructor
  · intro h
    split at h
    next missing =>
      cases h
      exact .missing (given_eq_none_iff.1 missing)
    next value gives =>
      split at h
      next read =>
        cases h
        exact .given (given_eq_some_iff.1 gives) ((faithful _ _).1 read)
      next => cases h
  · rintro (⟨gives, read⟩ | missing)
    · rw [given_eq_some_iff.2 gives]
      dsimp only
      rw [(faithful _ _).2 read]
    · rw [given_eq_none_iff.2 missing]

theorem reading_eq_error_iff (faithful : ∀ value a, parse value = some a ↔ reads value a) :
    reading lookup name parse refusal fallback = .error fault ↔
      ∃ value, Gives lookup name value ∧ (∀ a, ¬reads value a) ∧ fault = refusal value := by
  unfold reading
  constructor
  · intro h
    split at h
    next => cases h
    next value gives =>
      split at h
      next => cases h
      next unread =>
        cases h
        refine ⟨value, given_eq_some_iff.1 gives, fun a read => ?_, rfl⟩
        cases unread.symm.trans ((faithful value a).2 read)
  · rintro ⟨value, gives, unread, rfl⟩
    have none : parse value = none := Option.eq_none_iff_forall_ne_some.2 fun a h =>
      unread a ((faithful value a).1 h)
    rw [given_eq_some_iff.2 gives]
    dsimp only
    rw [none]

/-- Whole seconds, in milliseconds. -/
def Seconds (value : String) (time : Nat) : Prop :=
  ∃ n, Numeral n value.toList ∧ n < 2 ^ 64 ∧ time = n * 1000

def Concurrency (value : String) (n : Nat) : Prop := Numeral n value.toList ∧ 0 < n ∧ n < 2 ^ 16

def IsAddress (value : String) (a : Address) : Prop := Address.ofText? (trim value) = some a

theorem seconds_exact (value : String) (time : Nat) :
    (bounded? limit64 (trimmed value.toList)).map (· * 1000) = some time ↔ Seconds value time := by
  have small (n : Nat) : n ≤ limit64 ↔ n < 2 ^ 64 := Nat.le_sub_one_iff_lt (by decide)
  simp only [Option.map_eq_some_iff, bounded?_trimmed, small, Seconds, and_assoc, @eq_comm _ time]

theorem concurrency_exact (value : String) (n : Nat) :
    (bounded? limit16 (trimmed value.toList)).filter (0 < ·) = some n ↔ Concurrency value n := by
  have small (n : Nat) : n ≤ limit16 ↔ n < 2 ^ 16 := Nat.le_sub_one_iff_lt (by decide)
  simp only [Option.filter_eq_some_iff, bounded?_trimmed, small, Concurrency, decide_eq_true_eq,
    and_assoc, and_comm]

theorem milliseconds_eq (lookup : String → Option String) (name : String) (fallback : Nat) :
    milliseconds lookup name fallback =
      reading lookup name (fun value => (bounded? limit64 (trimmed value.toList)).map (· * 1000))
        (.notSeconds name) fallback := by
  unfold milliseconds reading
  cases given lookup name with
  | none => rfl
  | some value =>
      dsimp only
      cases bounded? limit64 (trimmed value.toList) <;> rfl

theorem concurrency_eq (lookup : String → Option String) (fallback : Nat) :
    concurrency lookup fallback =
      reading lookup "RECONCILE_CONCURRENCY"
        (fun value => (bounded? limit16 (trimmed value.toList)).filter (0 < ·)) .notConcurrency
        fallback := by
  unfold concurrency reading
  cases given lookup "RECONCILE_CONCURRENCY" with
  | none => rfl
  | some value =>
      dsimp only
      cases (bounded? limit16 (trimmed value.toList)).filter (0 < ·) <;> rfl

theorem address_eq (lookup : String → Option String) (fallback : Address) :
    address lookup fallback =
      reading lookup "METRICS_ADDR" (fun value => Address.ofText? (trim value)) .notAddress
        fallback := by
  unfold address reading
  cases given lookup "METRICS_ADDR" with
  | none => rfl
  | some value =>
      dsimp only
      cases Address.ofText? (trim value) <;> rfl

theorem address_exact (value : String) (a : Address) :
    Address.ofText? (trim value) = some a ↔ IsAddress value a := .rfl

theorem milliseconds_eq_ok_iff {fallback time : Nat} :
    milliseconds lookup name fallback = .ok time ↔ Denotes lookup name Seconds fallback time := by
  rw [milliseconds_eq, reading_eq_ok_iff seconds_exact]

theorem milliseconds_eq_error_iff {fallback : Nat} :
    milliseconds lookup name fallback = .error fault ↔
      ∃ value, Gives lookup name value ∧ (∀ time, ¬Seconds value time) ∧
        fault = .notSeconds name value := by
  rw [milliseconds_eq, reading_eq_error_iff seconds_exact]

theorem concurrency_eq_ok_iff {fallback n : Nat} :
    concurrency lookup fallback = .ok n ↔
    Denotes lookup "RECONCILE_CONCURRENCY" Concurrency fallback n := by
  rw [concurrency_eq, reading_eq_ok_iff concurrency_exact]

theorem concurrency_eq_error_iff {fallback : Nat} :
    concurrency lookup fallback = .error fault ↔
      ∃ value, Gives lookup "RECONCILE_CONCURRENCY" value ∧ (∀ n, ¬Concurrency value n) ∧
        fault = .notConcurrency value := by
  rw [concurrency_eq, reading_eq_error_iff concurrency_exact]

theorem address_eq_ok_iff {fallback a : Address} :
    address lookup fallback = .ok a ↔ Denotes lookup "METRICS_ADDR" IsAddress fallback a := by
  rw [address_eq, reading_eq_ok_iff address_exact]

theorem address_eq_error_iff {fallback : Address} :
    address lookup fallback = .error fault ↔
      ∃ value, Gives lookup "METRICS_ADDR" value ∧ (∀ a, ¬IsAddress value a) ∧
        fault = .notAddress value := by
  rw [address_eq, reading_eq_error_iff address_exact]

def defaults : Settings := {}

def times : List String :=
  ["BOOTSTRAP_POLL_INTERVAL_SECS", "BOOTSTRAP_TIMEOUT_SECS", "BOOTSTRAP_POLL_WINDOW_SECS",
    "BOOTSTRAP_SESSION_TTL_SECS", "REMOTE_CLIENT_TIMEOUT_SECS", "DEFER_REQUEUE_SECS"]

def names : List String :=
  times ++ ["WATCH_NAMESPACE", "KUBEMARK_IMAGE", "RECONCILE_CONCURRENCY", "METRICS_ADDR"]

abbrev Interval (lookup : String → Option String) : Nat → Prop :=
  Denotes lookup "BOOTSTRAP_POLL_INTERVAL_SECS" Seconds defaults.limits.pollInterval

abbrev Timeout (lookup : String → Option String) : Nat → Prop :=
  Denotes lookup "BOOTSTRAP_TIMEOUT_SECS" Seconds defaults.limits.timeout

abbrev SessionTtl (lookup : String → Option String) : Nat → Prop :=
  Denotes lookup "BOOTSTRAP_SESSION_TTL_SECS" Seconds defaults.limits.sessionTtl

structure DescribesLimits (lookup : String → Option String) (limits : Bootstrap.Limits) : Prop where
  interval : Interval lookup limits.pollInterval
  timeout : Timeout lookup limits.timeout
  window : Denotes lookup "BOOTSTRAP_POLL_WINDOW_SECS" Seconds defaults.limits.pollWindow
    limits.pollWindow
  sessionTtl : SessionTtl lookup limits.sessionTtl
  polls : 0 < limits.pollInterval
  lasts : limits.timeout ≤ limits.sessionTtl

/-- Every field is what its own variable denotes, and the times fit one another. -/
structure Describes (lookup : String → Option String) (settings : Settings) : Prop where
  ns : Denotes lookup "WATCH_NAMESPACE" (fun value ns => ns = some value) defaults.ns settings.ns
  image : Denotes lookup "KUBEMARK_IMAGE" (fun value image => image = value) defaults.kubemarkImage
    settings.kubemarkImage
  limits : DescribesLimits lookup settings.limits
  concurrency : Denotes lookup "RECONCILE_CONCURRENCY" Concurrency defaults.reconcileConcurrency
    settings.reconcileConcurrency
  address : Denotes lookup "METRICS_ADDR" IsAddress defaults.metricsAddress settings.metricsAddress
  clientTimeout : Denotes lookup "REMOTE_CLIENT_TIMEOUT_SECS" Seconds defaults.remoteClientTimeout
    settings.remoteClientTimeout
  requeue : Denotes lookup "DEFER_REQUEUE_SECS" Seconds defaults.deferRequeue settings.deferRequeue

/-- Every text can be read, and the times fit one another where defaults stand in for what is
missing. -/
structure Acceptable (lookup : String → Option String) : Prop where
  seconds : ∀ name ∈ times, Readable lookup name Seconds
  concurrency : Readable lookup "RECONCILE_CONCURRENCY" Concurrency
  address : Readable lookup "METRICS_ADDR" IsAddress
  polls : ∀ interval, Interval lookup interval → 0 < interval
  lasts : ∀ timeout ttl, Timeout lookup timeout → SessionTtl lookup ttl → timeout ≤ ttl

/-- What is said of texts that are refused: which text cannot be read, or which bound is not
kept. -/
inductive Refuses (lookup : String → Option String) : ConfigFault → Prop
  | notSeconds {name value : String} (mem : name ∈ times) (gives : Gives lookup name value)
      (unreadable : ∀ time, ¬Seconds value time) : Refuses lookup (.notSeconds name value)
  | notConcurrency {value : String} (gives : Gives lookup "RECONCILE_CONCURRENCY" value)
      (unreadable : ∀ n, ¬Concurrency value n) : Refuses lookup (.notConcurrency value)
  | notAddress {value : String} (gives : Gives lookup "METRICS_ADDR" value)
      (unreadable : ∀ a, ¬IsAddress value a) : Refuses lookup (.notAddress value)
  | zeroPollInterval (zero : Interval lookup 0) : Refuses lookup .zeroPollInterval
  | shortSessionTtl {timeout ttl : Nat} (htimeout : Timeout lookup timeout)
      (httl : SessionTtl lookup ttl) (short : ttl < timeout) : Refuses lookup .shortSessionTtl

variable {limits : Bootstrap.Limits}

theorem limitsOf_eq_ok_iff :
    limitsOf lookup defaults.limits = .ok limits ↔ DescribesLimits lookup limits := by
  constructor
  · intro h
    have bounds := limits_of_limitsOf h
    simp only [limitsOf, bind_eq_ok_iff, milliseconds_eq_ok_iff] at h
    obtain ⟨interval, hinterval, timeout, htimeout, window, hwindow, ttl, httl, h⟩ := h
    split at h
    next => cases h
    next =>
      split at h
      next => cases h
      next =>
        cases h
        exact ⟨hinterval, htimeout, hwindow, httl, bounds.1, bounds.2⟩
  · intro h
    simp only [limitsOf, bind_eq_ok_iff, milliseconds_eq_ok_iff]
    refine ⟨_, h.interval, _, h.timeout, _, h.window, _, h.sessionTtl, ?_⟩
    rw [if_neg (Nat.ne_of_gt h.polls), if_neg (Nat.not_lt.2 h.lasts)]
    rfl

theorem denotes_map_iff {f : String → α} :
    Denotes lookup name (fun value a => a = f value) fallback a ↔
    a = ((given lookup name).map f).getD fallback := by
  constructor
  · rintro (⟨gives, rfl⟩ | missing)
    · rw [given_eq_some_iff.2 gives]
      rfl
    · rw [given_eq_none_iff.2 missing]
      rfl
  · rintro rfl
    cases h : given lookup name with
    | none => exact .missing (given_eq_none_iff.1 h)
    | some value => exact .given (given_eq_some_iff.1 h) rfl

theorem denotes_text_iff {text fallback : String} :
    Denotes lookup name (fun value text => text = value) fallback text ↔
    text = (given lookup name).getD fallback := by
  rw [denotes_map_iff, Option.map_id']

theorem denotes_option_iff {text : Option String} :
    Denotes lookup name (fun value text => text = some value) none text ↔
    text = given lookup name := by
  rw [denotes_map_iff]
  cases given lookup name <;> rfl

theorem ofLookup_eq (lookup : String → Option String) :
    ofLookup lookup = (do
      let limits ← limitsOf lookup defaults.limits
      let reconcileConcurrency ← concurrency lookup defaults.reconcileConcurrency
      let metricsAddress ← address lookup defaults.metricsAddress
      let remoteClientTimeout ← milliseconds lookup
        "REMOTE_CLIENT_TIMEOUT_SECS" defaults.remoteClientTimeout
      let deferRequeue ← milliseconds lookup "DEFER_REQUEUE_SECS" defaults.deferRequeue
      return ⟨given lookup "WATCH_NAMESPACE",
        (given lookup "KUBEMARK_IMAGE").getD defaults.kubemarkImage, limits, remoteClientTimeout,
        reconcileConcurrency, deferRequeue, metricsAddress⟩) := rfl

theorem ofLookup_eq_ok_iff : ofLookup lookup = .ok settings ↔ Describes lookup settings := by
  rw [ofLookup_eq]
  simp only [bind_eq_ok_iff, limitsOf_eq_ok_iff, concurrency_eq_ok_iff, address_eq_ok_iff,
    milliseconds_eq_ok_iff]
  constructor
  · rintro ⟨limits, hlimits, n, hconcurrency, a, haddress, client, hclient, requeue, hrequeue, ⟨⟩⟩
    exact ⟨denotes_option_iff.2 rfl, denotes_text_iff.2 rfl, hlimits, hconcurrency, haddress,
      hclient, hrequeue⟩
  · intro h
    refine ⟨_, h.limits, _, h.concurrency, _, h.address, _, h.clientTimeout, _, h.requeue, ?_⟩
    rw [← denotes_option_iff.1 h.ns, ← denotes_text_iff.1 h.image]
    rfl

theorem refuses_of_milliseconds {fallback : Nat} (mem : name ∈ times)
    (h : milliseconds lookup name fallback = .error fault) : Refuses lookup fault := by
  obtain ⟨value, gives, unreadable, rfl⟩ := milliseconds_eq_error_iff.1 h
  exact .notSeconds mem gives unreadable

theorem refuses_of_limitsOf (h : limitsOf lookup defaults.limits = .error fault) :
    Refuses lookup fault := by
  simp only [limitsOf, bind_eq_error_iff, milliseconds_eq_ok_iff] at h
  rcases h with h
    | ⟨interval, hinterval, h | ⟨timeout, htimeout, h | ⟨window, -, h | ⟨ttl, httl, h⟩⟩⟩⟩
  · exact refuses_of_milliseconds (by decide) h
  · exact refuses_of_milliseconds (by decide) h
  · exact refuses_of_milliseconds (by decide) h
  · exact refuses_of_milliseconds (by decide) h
  · split at h
    next zero =>
      cases h
      exact .zeroPollInterval (zero ▸ hinterval)
    next =>
      split at h
      next short =>
        cases h
        exact .shortSessionTtl htimeout httl short
      next => cases h

theorem refuses_of_ofLookup (h : ofLookup lookup = .error fault) : Refuses lookup fault := by
  simp only [ofLookup_eq, bind_eq_error_iff] at h
  rcases h with h | ⟨_, -, h | ⟨_, -, h | ⟨_, -, h | ⟨_, -, h | ⟨_, -, h⟩⟩⟩⟩⟩
  · exact refuses_of_limitsOf h
  · obtain ⟨value, gives, unreadable, rfl⟩ := concurrency_eq_error_iff.1 h
    exact .notConcurrency gives unreadable
  · obtain ⟨value, gives, unreadable, rfl⟩ := address_eq_error_iff.1 h
    exact .notAddress gives unreadable
  · exact refuses_of_milliseconds (by decide) h
  · exact refuses_of_milliseconds (by decide) h
  · cases h

theorem denotes_unique {fallback time time' : Nat} (h : Denotes lookup name Seconds fallback time)
    (h' : Denotes lookup name Seconds fallback time') : time = time' :=
  Except.ok.inj ((milliseconds_eq_ok_iff.2 h).symm.trans (milliseconds_eq_ok_iff.2 h'))

theorem Describes.acceptable (h : Describes lookup settings) : Acceptable lookup where
  seconds := by
    simp only [times, List.forall_mem_cons]
    exact ⟨exists_denotes_iff.1 ⟨_, h.limits.interval⟩, exists_denotes_iff.1 ⟨_, h.limits.timeout⟩,
      exists_denotes_iff.1 ⟨_, h.limits.window⟩, exists_denotes_iff.1 ⟨_, h.limits.sessionTtl⟩,
      exists_denotes_iff.1 ⟨_, h.clientTimeout⟩, exists_denotes_iff.1 ⟨_, h.requeue⟩, nofun⟩
  concurrency := exists_denotes_iff.1 ⟨_, h.concurrency⟩
  address := exists_denotes_iff.1 ⟨_, h.address⟩
  polls := by
    intro interval denotes
    rw [denotes_unique denotes h.limits.interval]
    exact h.limits.polls
  lasts := by
    intro timeout ttl htimeout httl
    rw [denotes_unique htimeout h.limits.timeout, denotes_unique httl h.limits.sessionTtl]
    exact h.limits.lasts

theorem Acceptable.exists_describes (h : Acceptable lookup) :
    ∃ settings, Describes lookup settings := by
  have time (name : String) (fallback : Nat) (mem : name ∈ times) :
      ∃ time, Denotes lookup name Seconds fallback time :=
    exists_denotes_iff.2 (h.seconds name mem)
  obtain ⟨interval, hinterval⟩ :=
    time "BOOTSTRAP_POLL_INTERVAL_SECS" defaults.limits.pollInterval (by decide)
  obtain ⟨timeout, htimeout⟩ := time "BOOTSTRAP_TIMEOUT_SECS" defaults.limits.timeout (by decide)
  obtain ⟨window, hwindow⟩ :=
    time "BOOTSTRAP_POLL_WINDOW_SECS" defaults.limits.pollWindow (by decide)
  obtain ⟨ttl, httl⟩ := time "BOOTSTRAP_SESSION_TTL_SECS" defaults.limits.sessionTtl (by decide)
  obtain ⟨client, hclient⟩ :=
    time "REMOTE_CLIENT_TIMEOUT_SECS" defaults.remoteClientTimeout (by decide)
  obtain ⟨requeue, hrequeue⟩ := time "DEFER_REQUEUE_SECS" defaults.deferRequeue (by decide)
  obtain ⟨n, hconcurrency⟩ := exists_denotes_iff.2 h.concurrency
  obtain ⟨a, haddress⟩ := exists_denotes_iff.2 h.address
  have limits : DescribesLimits lookup ⟨interval, timeout, window, ttl⟩ :=
    ⟨hinterval, htimeout, hwindow, httl, h.polls interval hinterval,
      h.lasts timeout ttl htimeout httl⟩
  exact ⟨⟨_, _, _, client, n, requeue, a⟩, denotes_option_iff.2 rfl, denotes_text_iff.2 rfl,
    limits, hconcurrency, haddress, hclient, hrequeue⟩

theorem ofLookup_congr (same : ∀ name ∈ names, other name = lookup name) :
    ofLookup other = ofLookup lookup := by
  have texts (name : String) (mem : name ∈ names) : given other name = given lookup name := by
    rw [given, given, same name mem]
  have numbers (name : String) (fallback : Nat) (mem : name ∈ names) :
      milliseconds other name fallback = milliseconds lookup name fallback := by
    rw [milliseconds_eq, milliseconds_eq, reading, reading, texts name mem]
  have limits : limitsOf other defaults.limits = limitsOf lookup defaults.limits := by
    simp (disch := decide) only [limitsOf, numbers]
  simp (disch := decide) only [ofLookup_eq, limits, concurrency, address, numbers, texts]

/-- Texts are read as settings exactly if they are acceptable, the settings are what the texts
denote, and no other text makes a difference. -/
theorem ofLookup_exact (lookup : String → Option String) :
    ((∃ settings, ofLookup lookup = .ok settings) ↔ Acceptable lookup) ∧
    (¬Acceptable lookup → ∃ fault, ofLookup lookup = .error fault ∧ Refuses lookup fault ∧
      (Failure.config fault).kind = "invalid_config") ∧
    (∀ settings, ofLookup lookup = .ok settings ↔ Describes lookup settings) ∧
    ∀ other, (∀ name ∈ names, other name = lookup name) → ofLookup other = ofLookup lookup := by
  have accepted : (∃ settings, ofLookup lookup = .ok settings) ↔ Acceptable lookup := by
    simp only [ofLookup_eq_ok_iff]
    exact ⟨fun ⟨_, h⟩ => h.acceptable, Acceptable.exists_describes⟩
  refine ⟨accepted, ?_, fun settings => ofLookup_eq_ok_iff, fun other => ofLookup_congr⟩
  intro refused
  cases h : ofLookup lookup with
  | ok settings => exact absurd (accepted.1 ⟨settings, h⟩) refused
  | error fault => exact ⟨fault, rfl, refuses_of_ofLookup h, rfl⟩

/-- The deadline alone is given, and the default lifetime of a session is shorter than it. -/
def longTimeout (name : String) : Option String :=
  if name = "BOOTSTRAP_TIMEOUT_SECS" then some " +0601 " else none

theorem longTimeout_refused :
    ∃ fault, ofLookup longTimeout = .error fault ∧ Refuses longTimeout fault := by
  obtain ⟨accepted, refused, -, -⟩ := ofLookup_exact longTimeout
  have short : ofLookup longTimeout = .error .shortSessionTtl := by decide +kernel
  have unacceptable : ¬Acceptable longTimeout := by
    intro acceptable
    obtain ⟨settings, h⟩ := accepted.2 acceptable
    cases h.symm.trans short
  obtain ⟨fault, failed, refuses, -⟩ := refused unacceptable
  exact ⟨fault, failed, refuses⟩

end HollowNode.Settings
