import PostfixRatelimitd.Control
import PostfixRatelimitd.Protocol
import PostfixRatelimitd.SlidingWindow

/-!
# Loading the config file

The rules of the file are validated in file order, each either unrestricted or with
windows, and the one default rule is taken out of the list wherever it stands. What the
file system and the libraries make of a text is a parameter.
-/
namespace PostfixRatelimitd

/-! ## The file as parsed -/

/-- A `sasl` entry as written in the config file, before its regex is compiled. -/
inductive RawSaslLimitRule
  | username (username : String) (windows : Option (List Window)) (unrestricted : Option Bool)
  | regex (regex : String) (windows : Option (List Window)) (unrestricted : Option Bool)
  | default (windows : Option (List Window)) (unrestricted : Option Bool)

structure RawRedisConfig where
  url : String
  db : ℤ
  passwordFile : Option String
  keyPrefix : String

/-- Paths are written by their components, which is what they are compared by. -/
structure RawServerConfig where
  socket : String
  onRedisError : FailureAction
  warnOnUnauthenticated : Bool
  controlSocket : Option String

/-- The config file's shape, before `saslLimits` is validated and its regexes compiled. -/
structure RawConfig where
  redis : RawRedisConfig
  server : RawServerConfig
  saslLimits : List RawSaslLimitRule

/-- What loading uses of the file system and of the TOML, redis and regex libraries. -/
structure Loader where
  readToString : String → Option String
  fromStr : String → Option RawConfig
  intoConnectionInfo : String → Option ConnectionInfo
  newRegex : String → Option (String → Bool)

/-! ## Validation -/

/-- The plan of one rule's `windows` and `unrestricted` pair: exactly one is supplied. -/
def buildPlan (index : ℕ) (windows : Option (List Window)) (unrestricted : Option Bool) :
    Except ConfigError CheckPlan :=
  match windows, unrestricted with
  | none, some true => pure (CheckPlan.new [])
  | some _, some true => throw (.windowsWithUnrestricted index)
  | some _, some false => throw (.redundantUnrestrictedFalse index)
  | some windows, none => do
    validateWindows index windows
    pure (CheckPlan.new windows)
  | none, some false => throw (.noWindows index)
  | none, none => throw (.noWindows index)

/-- The rules validated so far, and the default's plan once it has been seen. -/
structure LoadedRules where
  saslLimits : List SaslLimitRule
  defaultPlan : Option CheckPlan

namespace LoadedRules

def push (loaded : LoadedRules) (matcher : SaslMatcher) (plan : CheckPlan) : LoadedRules :=
  { loaded with saslLimits := loaded.saslLimits ++ [⟨matcher, plan⟩] }

/-- The body of the validation loop. -/
def add (newRegex : String → Option (String → Bool)) (loaded : LoadedRules) (index : ℕ) :
    RawSaslLimitRule → Except ConfigError LoadedRules
  | .username username windows unrestricted =>
    if username.isEmpty then throw (.emptyUsername index)
    else do
      let plan ← buildPlan index windows unrestricted
      pure (loaded.push (.username username) plan)
  | .regex regex windows unrestricted => do
    let plan ← buildPlan index windows unrestricted
    match newRegex regex with
    | none => throw (.badRegex index)
    | some isMatch => pure (loaded.push (.regex isMatch) plan)
  | .default windows unrestricted => do
    let plan ← buildPlan index windows unrestricted
    pure { loaded with defaultPlan := some plan }

/-- The validation loop, from the rule at `index` on. -/
def addAll (newRegex : String → Option (String → Bool)) (loaded : LoadedRules) (index : ℕ) :
    List RawSaslLimitRule → Except ConfigError LoadedRules
  | [] => pure loaded
  | rule :: rules => do
    let next ← loaded.add newRegex index rule
    next.addAll newRegex (index + 1) rules

end LoadedRules

def RawSaslLimitRule.isDefault : RawSaslLimitRule → Bool
  | default _ _ => true
  | _ => false

def loadRules (newRegex : String → Option (String → Bool)) (raw : List RawSaslLimitRule) :
    Except ConfigError LoadedRules :=
  let defaultCount := raw.countP RawSaslLimitRule.isDefault
  if defaultCount ≠ 1 then throw (.defaultCount defaultCount)
  else LoadedRules.addAll newRegex ⟨[], none⟩ 0 raw

/-- Where to connect to, with the password from its file if one is named. -/
def RawRedisConfig.connectionInfo (loader : Loader) (raw : RawRedisConfig) :
    Except ConfigError ConnectionInfo :=
  match loader.intoConnectionInfo raw.url with
  | none => throw (.badRedisUrl raw.url)
  | some info =>
    match raw.passwordFile with
    | none => pure { info with db := raw.db }
    | some path =>
      if info.password.isSome then throw .ambiguousPassword
      else
        match loader.readToString path with
        | none => throw (.readPasswordFile path)
        | some text =>
          let password := String.ofList (Request.trimEndMatches Request.isLineEnd text.toList)
          pure { info with db := raw.db, password := some password }

/-- The config, once all of it is validated. -/
def RawConfig.toConfig (raw : RawConfig) (redisConnectionInfo : ConnectionInfo)
    (saslLimits : List SaslLimitRule) (defaultPlan : CheckPlan) : Config where
  redisConnectionInfo := redisConnectionInfo
  redisKeyPrefix := raw.redis.keyPrefix
  onRedisError := raw.server.onRedisError
  warnOnUnauthenticated := raw.server.warnOnUnauthenticated
  socket := raw.server.socket
  controlSocket := raw.server.controlSocket
  saslLimits := saslLimits
  defaultPlan := defaultPlan

/-- All of loading that comes after the parser; none when the default's plan is missing at
the end, which panics. -/
def RawConfig.validate (loader : Loader) (raw : RawConfig) : Option (Except ConfigError Config) :=
  match raw.redis.connectionInfo loader with
  | .error e => some (.error e)
  | .ok redisConnectionInfo =>
    match loadRules loader.newRegex raw.saslLimits with
    | .error e => some (.error e)
    | .ok loaded =>
      if raw.server.controlSocket = some raw.server.socket then
        some (.error .controlSocketSameAsSocket)
      else
        loaded.defaultPlan.map (fun defaultPlan =>
          .ok (raw.toConfig redisConnectionInfo loaded.saslLimits defaultPlan))

/-- Reads, parses, and validates the config file at `path`. -/
def Config.load (loader : Loader) (path : String) : Option (Except ConfigError Config) :=
  match loader.readToString path with
  | none => some (.error (.read path))
  | some text =>
    match loader.fromStr text with
    | none => some (.error (.parse path))
    | some raw => raw.validate loader

/-! ## What validation accepts -/

/-- A step of a fallible computation succeeds, and what follows it. -/
theorem except_bind_ok_iff {ε : Type*} {α β : Type} {x : Except ε α} {f : α → Except ε β} {b : β} :
    (x >>= f) = .ok b ↔ ∃ a, x = .ok a ∧ f a = .ok b := by
  cases x with
  | error e => simp [bind, Except.bind]
  | ok a => simp [bind, Except.bind]

theorem pure_ok_iff {ε α : Type*} {a b : α} : (pure a : Except ε α) = .ok b ↔ b = a := by
  constructor
  · intro h
    exact (Except.ok.inj h).symm
  · rintro rfl
    rfl

theorem throw_ne_ok {ε α : Type*} (e : ε) (a : α) : (throw e : Except ε α) ≠ .ok a := by
  intro h
  cases h

namespace RawSaslLimitRule

def windows : RawSaslLimitRule → Option (List Window)
  | username _ windows _ => windows
  | regex _ windows _ => windows
  | default windows _ => windows

def unrestricted : RawSaslLimitRule → Option Bool
  | username _ _ unrestricted => unrestricted
  | regex _ _ unrestricted => unrestricted
  | default _ unrestricted => unrestricted

/-- The plan the rule asks for. -/
def plan (rule : RawSaslLimitRule) : CheckPlan := CheckPlan.new (rule.windows.getD [])

/-- A rule says that it is unrestricted and has no windows, or it says nothing of the kind
and has valid ones. -/
def Limits (windows : Option (List Window)) (unrestricted : Option Bool) : Prop :=
  (unrestricted = some true ∧ windows = none) ∨
    (unrestricted = none ∧ ∃ ws, windows = some ws ∧ ws ≠ [] ∧ ∀ w ∈ ws, w.Valid)

variable (newRegex : String → Option (String → Bool))

/-- The rule selects by a name that is not empty, or by a regex that compiles. -/
def Selects : RawSaslLimitRule → Prop
  | username name _ _ => name ≠ ""
  | regex text _ _ => (newRegex text).isSome
  | default _ _ => True

/-- A rule without fault. -/
structure Sound (rule : RawSaslLimitRule) : Prop where
  selects : rule.Selects newRegex
  limits : Limits rule.windows rule.unrestricted

theorem sound_iff {newRegex : String → Option (String → Bool)} {rule : RawSaslLimitRule} :
    rule.Sound newRegex ↔ rule.Selects newRegex ∧ Limits rule.windows rule.unrestricted :=
  ⟨fun h => ⟨h.selects, h.limits⟩, fun h => ⟨h.1, h.2⟩⟩

/-- Whether the rule is one for `saslUsername`; the default is not. -/
def appliesTo (saslUsername : String) : RawSaslLimitRule → Bool
  | username name _ _ => name == saslUsername
  | regex text _ _ => (newRegex text).any (fun isMatch => isMatch saslUsername)
  | default _ _ => false

/-- What becomes of the rule in the ordered list. -/
def loaded (rule : RawSaslLimitRule) : Option SaslLimitRule :=
  match rule with
  | username name _ _ => some ⟨.username name, rule.plan⟩
  | regex text _ _ => (newRegex text).map (fun isMatch => ⟨.regex isMatch, rule.plan⟩)
  | default _ _ => none

/-- The rule that the file has for `saslUsername`: the first one that matches, or else the
default, wherever it stands. -/
def governing (raw : List RawSaslLimitRule) (saslUsername : String) : Option RawSaslLimitRule :=
  (raw.find? (appliesTo newRegex saslUsername)).or (raw.find? isDefault)

end RawSaslLimitRule

theorem buildPlan_ok_iff {index : ℕ} {windows : Option (List Window)} {unrestricted : Option Bool}
    {plan : CheckPlan} :
    buildPlan index windows unrestricted = .ok plan ↔
      RawSaslLimitRule.Limits windows unrestricted ∧ plan = CheckPlan.new (windows.getD []) := by
  unfold buildPlan RawSaslLimitRule.Limits
  cases windows with
  | none =>
    cases unrestricted with
    | none => simp [throw_ne_ok]
    | some flag =>
      cases flag with
      | false => simp [throw_ne_ok]
      | true => simp [pure_ok_iff]
  | some windows =>
    cases unrestricted with
    | none =>
      dsimp only
      rw [except_bind_ok_iff]
      constructor
      · rintro ⟨_, hvalid, hplan⟩
        have hwindows := (validateWindows_ok_iff index windows).mp hvalid
        exact ⟨.inr ⟨rfl, windows, rfl, hwindows⟩, (Except.ok.inj hplan).symm⟩
      · rintro ⟨hlimits, rfl⟩
        have hwindows : windows ≠ [] ∧ ∀ w ∈ windows, w.Valid := by simpa using hlimits
        exact ⟨(), (validateWindows_ok_iff index windows).mpr hwindows, rfl⟩
    | some flag => cases flag <;> simp [throw_ne_ok]

theorem buildPlan_then_ok_iff {index : ℕ} {windows : Option (List Window)}
    {unrestricted : Option Bool} {next : CheckPlan → Except ConfigError LoadedRules}
    {loaded : LoadedRules} :
    (buildPlan index windows unrestricted >>= next) = .ok loaded ↔
      RawSaslLimitRule.Limits windows unrestricted ∧
        next (CheckPlan.new (windows.getD [])) = .ok loaded := by
  rw [except_bind_ok_iff]
  constructor
  · rintro ⟨plan, hplan, hnext⟩
    obtain ⟨hlimits, rfl⟩ := buildPlan_ok_iff.mp hplan
    exact ⟨hlimits, hnext⟩
  · rintro ⟨hlimits, hnext⟩
    exact ⟨_, buildPlan_ok_iff.mpr ⟨hlimits, rfl⟩, hnext⟩

namespace LoadedRules
variable {newRegex : String → Option (String → Bool)}

/-- What one turn of the loop accepts, and what it then adds. -/
theorem add_ok_iff {loaded next : LoadedRules} {index : ℕ} {rule : RawSaslLimitRule} :
    loaded.add newRegex index rule = .ok next ↔
      rule.Sound newRegex ∧ next = ⟨loaded.saslLimits ++ (rule.loaded newRegex).toList,
        if rule.isDefault then some rule.plan else loaded.defaultPlan⟩ := by
  rw [RawSaslLimitRule.sound_iff]
  cases rule with
  | username name windows unrestricted =>
    unfold add
    dsimp only [RawSaslLimitRule.Selects, RawSaslLimitRule.windows, RawSaslLimitRule.unrestricted]
    by_cases hempty : name.isEmpty = true
    · have hname : name = "" := by simpa using hempty
      rw [if_pos hempty]
      constructor
      · intro h
        cases h
      · rintro ⟨⟨hselects, _⟩, _⟩
        exact absurd hname hselects
    · have hname : name ≠ "" := by simpa using hempty
      rw [if_neg hempty, buildPlan_then_ok_iff, and_iff_right hname, and_congr_right_iff]
      intro _
      exact pure_ok_iff
  | regex text windows unrestricted =>
    unfold add
    dsimp only [RawSaslLimitRule.Selects, RawSaslLimitRule.windows, RawSaslLimitRule.unrestricted]
    rw [buildPlan_then_ok_iff]
    cases hregex : newRegex text with
    | none => simp [throw_ne_ok]
    | some isMatch =>
      simp only [RawSaslLimitRule.loaded, hregex, Option.isSome_some, true_and, and_congr_right_iff]
      intro _
      exact pure_ok_iff
  | default windows unrestricted =>
    unfold add
    dsimp only [RawSaslLimitRule.Selects, RawSaslLimitRule.windows, RawSaslLimitRule.unrestricted]
    rw [buildPlan_then_ok_iff, true_and, and_congr_right_iff]
    intro _
    simp only [RawSaslLimitRule.loaded, Option.toList_none, List.append_nil]
    exact pure_ok_iff

/-- What the whole loop accepts, and what it leaves behind. -/
theorem addAll_ok_iff {loaded last : LoadedRules} {index : ℕ} {raw : List RawSaslLimitRule} :
    loaded.addAll newRegex index raw = .ok last ↔
      (∀ rule ∈ raw, rule.Sound newRegex) ∧
        last = ⟨loaded.saslLimits ++ raw.filterMap (RawSaslLimitRule.loaded newRegex),
          ((raw.filter RawSaslLimitRule.isDefault).getLast?.map RawSaslLimitRule.plan).or
            loaded.defaultPlan⟩ := by
  induction raw generalizing loaded index with
  | nil => simpa [addAll] using pure_ok_iff
  | cons rule rules ih =>
    have hlimits : loaded.saslLimits ++ (rule.loaded newRegex).toList ++
        rules.filterMap (RawSaslLimitRule.loaded newRegex) =
          loaded.saslLimits ++ (rule :: rules).filterMap (RawSaslLimitRule.loaded newRegex) := by
      rw [List.append_assoc, List.filterMap_cons]
      cases rule.loaded newRegex <;> rfl
    have hdefault : ((rules.filter RawSaslLimitRule.isDefault).getLast?.map
          RawSaslLimitRule.plan).or
            (if rule.isDefault then some rule.plan else loaded.defaultPlan) =
        (((rule :: rules).filter RawSaslLimitRule.isDefault).getLast?.map
          RawSaslLimitRule.plan).or loaded.defaultPlan := by
      rw [List.filter_cons]
      split
      · rw [List.getLast?_cons]
        cases (rules.filter RawSaslLimitRule.isDefault).getLast? <;> rfl
      · rfl
    unfold addAll
    rw [except_bind_ok_iff, List.forall_mem_cons, ← hlimits, ← hdefault]
    constructor
    · rintro ⟨next, hadd, hrest⟩
      obtain ⟨hsound, rfl⟩ := add_ok_iff.mp hadd
      obtain ⟨hall, hlast⟩ := ih.mp hrest
      exact ⟨⟨hsound, hall⟩, hlast⟩
    · rintro ⟨⟨hsound, hall⟩, hlast⟩
      exact ⟨_, add_ok_iff.mpr ⟨hsound, rfl⟩, ih.mpr ⟨hall, hlast⟩⟩

end LoadedRules

/-- Validation passes exactly the files with one default and no rule at fault. -/
theorem loadRules_ok_iff {newRegex : String → Option (String → Bool)}
    {raw : List RawSaslLimitRule} {loaded : LoadedRules} :
    loadRules newRegex raw = .ok loaded ↔
      raw.countP RawSaslLimitRule.isDefault = 1 ∧ (∀ rule ∈ raw, rule.Sound newRegex) ∧
        loaded = ⟨raw.filterMap (RawSaslLimitRule.loaded newRegex),
          (raw.find? RawSaslLimitRule.isDefault).map RawSaslLimitRule.plan⟩ := by
  unfold loadRules
  dsimp only
  by_cases hcount : raw.countP RawSaslLimitRule.isDefault = 1
  · have hone : (raw.filter RawSaslLimitRule.isDefault).getLast? =
        raw.find? RawSaslLimitRule.isDefault := by
      rw [List.countP_eq_length_filter, List.length_eq_one_iff] at hcount
      obtain ⟨rule, hrule⟩ := hcount
      rw [← List.head?_filter, hrule]
      rfl
    rw [if_neg (not_not.mpr hcount), LoadedRules.addAll_ok_iff, hone, and_iff_right hcount,
      List.nil_append, Option.or_none]
  · rw [if_pos hcount]
    constructor
    · intro h
      cases h
    · intro h
      exact absurd h.1 hcount

/-! ## What validation reports -/

/-- The rule that an error names. -/
def ConfigError.ruleIndex : ConfigError → Option ℕ
  | badRegex index | emptyUsername index => some index
  | noWindows index | windowsWithUnrestricted index | redundantUnrestrictedFalse index => some index
  | windowTooShort index _ | windowTooLong index _ => some index
  | read _ | parse _ | badRedisUrl _ | ambiguousPassword | readPasswordFile _ => none
  | defaultCount _ | controlSocketSameAsSocket => none

theorem except_bind_error_iff {ε : Type*} {α β : Type} {x : Except ε α} {f : α → Except ε β}
    {e : ε} : (x >>= f) = .error e ↔ x = .error e ∨ ∃ a, x = .ok a ∧ f a = .error e := by
  cases x with
  | error e' => simp [bind, Except.bind]
  | ok a => simp [bind, Except.bind]

theorem forM_error {ε α : Type} {f : α → Except ε Unit} {xs : List α} {e : ε}
    (h : forM xs f = .error e) : ∃ x ∈ xs, f x = .error e := by
  induction xs with
  | nil => cases h
  | cons x xs ih =>
    rw [List.forM_cons, except_bind_error_iff] at h
    rcases h with h | ⟨_, _, h⟩
    · exact ⟨x, List.mem_cons_self, h⟩
    · obtain ⟨y, hy, hfail⟩ := ih h
      exact ⟨y, List.mem_cons_of_mem x hy, hfail⟩

theorem validateWindows_error {index : ℕ} {windows : List Window} {e : ConfigError}
    (h : validateWindows index windows = .error e) : e.ruleIndex = some index := by
  unfold validateWindows at h
  split_ifs at h with hempty
  · cases h
    rfl
  · obtain ⟨w, _, hw⟩ := forM_error h
    unfold validateWindow at hw
    split_ifs at hw <;> cases hw <;> rfl

theorem buildPlan_error {index : ℕ} {windows : Option (List Window)} {unrestricted : Option Bool}
    {e : ConfigError} (h : buildPlan index windows unrestricted = .error e) :
    e.ruleIndex = some index := by
  unfold buildPlan at h
  split at h
  · cases h
  · cases h
    rfl
  · cases h
    rfl
  · rcases except_bind_error_iff.mp h with h | ⟨_, _, h⟩
    · exact validateWindows_error h
    · cases h
  · cases h
    rfl
  · cases h
    rfl

namespace LoadedRules
variable {newRegex : String → Option (String → Bool)}

/-- A turn of the loop fails on a rule at fault only, and names it. -/
theorem add_error {loaded : LoadedRules} {index : ℕ} {rule : RawSaslLimitRule} {e : ConfigError}
    (h : loaded.add newRegex index rule = .error e) :
    e.ruleIndex = some index ∧ ¬rule.Sound newRegex := by
  constructor
  · cases rule with
    | username name windows unrestricted =>
      unfold add at h
      dsimp only at h
      split_ifs at h
      · cases h
        rfl
      · rcases except_bind_error_iff.mp h with h | ⟨_, _, h⟩
        · exact buildPlan_error h
        · cases h
    | regex text windows unrestricted =>
      unfold add at h
      rcases except_bind_error_iff.mp h with h | ⟨_, _, h⟩
      · exact buildPlan_error h
      · cases hregex : newRegex text with
        | none =>
          rw [hregex] at h
          cases h
          rfl
        | some isMatch =>
          rw [hregex] at h
          cases h
    | default windows unrestricted =>
      unfold add at h
      rcases except_bind_error_iff.mp h with h | ⟨_, _, h⟩
      · exact buildPlan_error h
      · cases h
  · intro hsound
    have hok := h.symm.trans (add_ok_iff.mpr ⟨hsound, rfl⟩)
    cases hok

/-- The loop stops at the first rule at fault, and its error names that rule. -/
theorem addAll_error {loaded : LoadedRules} {index : ℕ} {raw : List RawSaslLimitRule}
    {e : ConfigError} (h : loaded.addAll newRegex index raw = .error e) :
    ∃ before rule after, raw = before ++ rule :: after ∧ (∀ r ∈ before, r.Sound newRegex) ∧
      ¬rule.Sound newRegex ∧ e.ruleIndex = some (index + before.length) := by
  induction raw generalizing loaded index with
  | nil => cases h
  | cons rule rules ih =>
    unfold addAll at h
    rcases except_bind_error_iff.mp h with h | ⟨next, hadd, h⟩
    · obtain ⟨hindex, hfault⟩ := add_error h
      exact ⟨[], rule, rules, rfl, by simp, hfault, hindex⟩
    · obtain ⟨hsound, _⟩ := add_ok_iff.mp hadd
      obtain ⟨before, bad, after, rfl, hbefore, hfault, hindex⟩ := ih h
      refine ⟨rule :: before, bad, after, rfl, ?_, hfault, ?_⟩
      · exact List.forall_mem_cons.mpr ⟨hsound, hbefore⟩
      · rw [hindex, List.length_cons, Nat.add_assoc, Nat.add_comm 1]

end LoadedRules

/-- Rules that do not pass are refused for the number of their defaults, or with an error
that names the first rule at fault. -/
theorem loadRules_error {newRegex : String → Option (String → Bool)} {raw : List RawSaslLimitRule}
    {e : ConfigError} (h : loadRules newRegex raw = .error e) :
    (raw.countP RawSaslLimitRule.isDefault ≠ 1 ∧
      e = .defaultCount (raw.countP RawSaslLimitRule.isDefault)) ∨
    ∃ before rule after, raw = before ++ rule :: after ∧ (∀ r ∈ before, r.Sound newRegex) ∧
      ¬rule.Sound newRegex ∧ e.ruleIndex = some before.length := by
  unfold loadRules at h
  dsimp only at h
  split_ifs at h with hcount
  · exact .inl ⟨hcount, (Except.error.inj h).symm⟩
  · obtain ⟨before, rule, after, hraw, hbefore, hfault, hindex⟩ := LoadedRules.addAll_error h
    exact .inr ⟨before, rule, after, hraw, hbefore, hfault, by rw [hindex, Nat.zero_add]⟩

/-! ## What a loaded config enforces -/

namespace RawSaslLimitRule
variable {newRegex : String → Option (String → Bool)} {raw : List RawSaslLimitRule}

theorem loaded_matches (rule : RawSaslLimitRule) (saslUsername : String) :
    (rule.loaded newRegex).any (fun r => r.matches saslUsername) =
      rule.appliesTo newRegex saslUsername := by
  cases rule with
  | username name windows unrestricted => rfl
  | regex text windows unrestricted =>
    unfold loaded appliesTo
    dsimp only
    cases newRegex text <;> rfl
  | default windows unrestricted => rfl

theorem loaded_plan {rule : RawSaslLimitRule} {r : SaslLimitRule}
    (h : rule.loaded newRegex = some r) : r.plan = rule.plan := by
  cases rule with
  | username name windows unrestricted =>
    obtain rfl := Option.some.inj h
    rfl
  | regex text windows unrestricted =>
    obtain ⟨isMatch, _, rfl⟩ := Option.map_eq_some_iff.mp h
    rfl
  | default windows unrestricted => cases h

/-- A plan without keys belongs to a rule that says so. -/
theorem Sound.plan_empty_iff {rule : RawSaslLimitRule} (h : rule.Sound newRegex) :
    rule.plan.bucketSizes = [] ↔ rule.unrestricted = some true := by
  unfold plan
  rcases h.limits with ⟨hflag, hwindows⟩ | ⟨hflag, ws, hwindows, hsome, _⟩
  · rw [hwindows]
    exact iff_of_true rfl hflag
  · obtain ⟨w, hw⟩ := List.exists_mem_of_ne_nil ws hsome
    rw [hwindows, Option.getD_some]
    exact iff_of_false (CheckPlan.new_bucketSizes_ne_nil hw) (by simp [hflag])

theorem Sound.plan_of_unrestricted {rule : RawSaslLimitRule} (h : rule.Sound newRegex)
    (hflag : rule.unrestricted = some true) : rule.plan = CheckPlan.new [] := by
  unfold plan
  rcases h.limits with ⟨_, hwindows⟩ | ⟨hnone, _⟩
  · rw [hwindows]
    rfl
  · rw [hflag] at hnone
    cases hnone

theorem Sound.windows_valid {rule : RawSaslLimitRule} (h : rule.Sound newRegex) :
    ∀ w ∈ rule.windows.getD [], w.Valid := by
  intro w hw
  rcases h.limits with ⟨_, hwindows⟩ | ⟨_, ws, hwindows, _, hvalid⟩
  · simp [hwindows] at hw
  · rw [hwindows, Option.getD_some] at hw
    exact hvalid w hw

theorem Sound.built {rule : RawSaslLimitRule} (h : rule.Sound newRegex) : rule.plan.Built := by
  unfold plan
  rcases h.limits with ⟨_, hwindows⟩ | ⟨_, ws, hwindows, hvalid⟩
  · rw [hwindows]
    exact .inl rfl
  · rw [hwindows]
    exact .inr ⟨0, ws, (validateWindows_ok_iff 0 ws).mpr hvalid, rfl⟩

end RawSaslLimitRule

/-- A config and the rules of the file it was loaded from. -/
structure Config.LoadedFrom (newRegex : String → Option (String → Bool))
    (raw : List RawSaslLimitRule) (config : Config) : Prop where
  oneDefault : raw.countP RawSaslLimitRule.isDefault = 1
  sound : ∀ rule ∈ raw, rule.Sound newRegex
  saslLimits : config.saslLimits = raw.filterMap (RawSaslLimitRule.loaded newRegex)
  defaultPlan : (raw.find? RawSaslLimitRule.isDefault).map RawSaslLimitRule.plan =
    some config.defaultPlan

namespace Config.LoadedFrom
variable {newRegex : String → Option (String → Bool)} {raw : List RawSaslLimitRule}
variable {config : Config}

/-- Looking a sender up finds the rule that the file has for it. -/
theorem planFor (h : config.LoadedFrom newRegex raw) (saslUsername : String) :
    ∃ rule ∈ raw, RawSaslLimitRule.governing newRegex raw saslUsername = some rule ∧
      config.planFor saslUsername = rule.plan := by
  have hmatch : (fun rule : RawSaslLimitRule => (rule.loaded newRegex).any
      (fun r => r.matches saslUsername)) = RawSaslLimitRule.appliesTo newRegex saslUsername :=
    funext (fun rule => rule.loaded_matches saslUsername)
  unfold Config.planFor RawSaslLimitRule.governing
  rw [h.saslLimits, List.find?_filterMap, hmatch]
  cases hfind : raw.find? (RawSaslLimitRule.appliesTo newRegex saslUsername) with
  | none =>
    obtain ⟨rule, hrule, hplan⟩ := Option.map_eq_some_iff.mp h.defaultPlan
    exact ⟨rule, List.mem_of_find?_eq_some hrule, hrule, hplan.symm⟩
  | some rule =>
    have happlies := List.find?_some hfind
    rw [← rule.loaded_matches] at happlies
    obtain ⟨r, hr, _⟩ := (Option.any_eq_true _ _).mp happlies
    refine ⟨rule, List.mem_of_find?_eq_some hfind, rfl, ?_⟩
    rw [Option.bind_some, hr]
    exact RawSaslLimitRule.loaded_plan hr

/-- No rule has the empty name. -/
theorem name_ne_empty (h : config.LoadedFrom newRegex raw) {rule : SaslLimitRule} {name : String}
    (hrule : rule ∈ config.saslLimits) (hname : rule.matcher = .username name) : name ≠ "" := by
  rw [h.saslLimits, List.mem_filterMap] at hrule
  obtain ⟨source, hsource, hloaded⟩ := hrule
  have hselects := (h.sound source hsource).selects
  cases source with
  | username text windows unrestricted =>
    obtain rfl := Option.some.inj hloaded
    obtain rfl := SaslMatcher.username.inj hname
    exact hselects
  | regex text windows unrestricted =>
    obtain ⟨isMatch, _, rfl⟩ := Option.map_eq_some_iff.mp hloaded
    cases hname
  | default windows unrestricted => cases hloaded

theorem built (h : config.LoadedFrom newRegex raw) : config.Built where
  rules r hr := by
    rw [h.saslLimits, List.mem_filterMap] at hr
    obtain ⟨rule, hrule, hloaded⟩ := hr
    rw [RawSaslLimitRule.loaded_plan hloaded]
    exact (h.sound rule hrule).built
  default := by
    obtain ⟨rule, hrule, hplan⟩ := Option.map_eq_some_iff.mp h.defaultPlan
    rw [← hplan]
    exact (h.sound rule (List.mem_of_find?_eq_some hrule)).built

end Config.LoadedFrom

namespace RawConfig
variable {loader : Loader} {raw : RawConfig} {config : Config}

/-- A config comes of a file whose store can be connected to, whose rules are in order and
whose sockets differ. -/
theorem validate_eq_ok_iff :
    raw.validate loader = some (.ok config) ↔ ∃ info loaded defaultPlan,
      raw.redis.connectionInfo loader = .ok info ∧
      loadRules loader.newRegex raw.saslLimits = .ok loaded ∧
      raw.server.controlSocket ≠ some raw.server.socket ∧
      loaded.defaultPlan = some defaultPlan ∧
      config = raw.toConfig info loaded.saslLimits defaultPlan := by
  unfold validate
  cases raw.redis.connectionInfo loader with
  | error e => simp
  | ok info =>
    dsimp only
    cases loadRules loader.newRegex raw.saslLimits with
    | error e => simp
    | ok loaded =>
      dsimp only
      by_cases hsocket : raw.server.controlSocket = some raw.server.socket
      · simp [hsocket]
      · simp [hsocket, eq_comm]

theorem validate_loadedFrom (h : raw.validate loader = some (.ok config)) :
    config.LoadedFrom loader.newRegex raw.saslLimits := by
  obtain ⟨info, loaded, defaultPlan, _, hrules, _, hdefault, rfl⟩ := validate_eq_ok_iff.mp h
  obtain ⟨hone, hsound, rfl⟩ := loadRules_ok_iff.mp hrules
  exact ⟨hone, hsound, rfl, hdefault⟩

/-- The default's plan is never missing at the end. -/
theorem validate_ok_iff :
    (∃ config, raw.validate loader = some (.ok config)) ↔
      (∃ info, raw.redis.connectionInfo loader = .ok info) ∧
        (∃ loaded, loadRules loader.newRegex raw.saslLimits = .ok loaded) ∧
          raw.server.controlSocket ≠ some raw.server.socket := by
  constructor
  · intro h
    obtain ⟨config, hconfig⟩ := h
    obtain ⟨info, loaded, _, hinfo, hrules, hsocket, _⟩ := validate_eq_ok_iff.mp hconfig
    exact ⟨⟨info, hinfo⟩, ⟨loaded, hrules⟩, hsocket⟩
  · intro h
    obtain ⟨⟨info, hinfo⟩, ⟨loaded, hrules⟩, hsocket⟩ := h
    obtain ⟨hone, _, rfl⟩ := loadRules_ok_iff.mp hrules
    obtain ⟨rule, hrule, hisDefault⟩ := List.countP_pos_iff.mp (hone ▸ Nat.one_pos)
    have hfound := List.find?_isSome.mpr ⟨rule, hrule, hisDefault⟩
    obtain ⟨found, hfind⟩ := Option.isSome_iff_exists.mp hfound
    exact ⟨_, validate_eq_ok_iff.mpr
      ⟨info, _, found.plan, hinfo, hrules, hsocket, by rw [hfind]; rfl, rfl⟩⟩

end RawConfig

/-- Loading a file is validating what it parses to. -/
theorem Config.load_eq {loader : Loader} {path text : String} {raw : RawConfig}
    (htext : loader.readToString path = some text) (hraw : loader.fromStr text = some raw) :
    Config.load loader path = raw.validate loader := by
  unfold Config.load
  rw [htext]
  dsimp only
  rw [hraw]

theorem Config.load_loadedFrom {loader : Loader} {path : String} {config : Config}
    (h : Config.load loader path = some (.ok config)) :
    ∃ raw : RawConfig, config.LoadedFrom loader.newRegex raw.saslLimits := by
  cases htext : loader.readToString path with
  | none => simp [Config.load, htext] at h
  | some text =>
    cases hraw : loader.fromStr text with
    | none => simp [Config.load, htext, hraw] at h
    | some raw =>
      rw [Config.load_eq htext hraw] at h
      exact ⟨raw, RawConfig.validate_loadedFrom h⟩

/-- Rules pass validation exactly when there is one default and none is at fault. What a
loaded config then enforces on a sender is the rule that the file has for it: nothing when
that rule says so, and every one of its windows otherwise. -/
theorem load_enforces_file (loader : Loader) (raw : RawConfig) :
    ((∃ loaded, loadRules loader.newRegex raw.saslLimits = .ok loaded) ↔
      raw.saslLimits.countP RawSaslLimitRule.isDefault = 1 ∧
        ∀ rule ∈ raw.saslLimits, rule.Selects loader.newRegex ∧
          RawSaslLimitRule.Limits rule.windows rule.unrestricted) ∧
    ∀ path text, loader.readToString path = some text → loader.fromStr text = some raw →
      ((∃ config, Config.load loader path = some (.ok config)) ↔
        (∃ info, raw.redis.connectionInfo loader = .ok info) ∧
          (∃ loaded, loadRules loader.newRegex raw.saslLimits = .ok loaded) ∧
            raw.server.controlSocket ≠ some raw.server.socket) ∧
      ∀ config, Config.load loader path = some (.ok config) → ∀ u : String,
        ∃ rule ∈ raw.saslLimits,
          RawSaslLimitRule.governing loader.newRegex raw.saslLimits u = some rule ∧
          config.planFor u = CheckPlan.new (rule.windows.getD []) ∧
          ((config.planFor u).bucketSizes = [] ↔ rule.unrestricted = some true) ∧
          (rule.unrestricted = some true → ∀ (limiter : Limiter) (n : UInt32) (now : Option ℕ)
            (clock : Clock) (fault : Fault) (db : Db),
            (limiter.checkSasl u n (config.planFor u) now clock fault).run db = .ok true db) ∧
          ∀ w ∈ rule.windows.getD [], ∀ (p : String) (checks : List Check),
            (∀ c ∈ checks, c.plan = config.planFor u) →
            checks.Pairwise (fun earlier later => earlier.clock ≤ later.clock) → ∀ a : ℤ,
              volume Check.count (fun c => decide (a ≤ c.now ∧ c.now ≤ a + w.duration.secs))
                (Session.serveAll p u checks).accepted ≤ w.count.toNat := by
  constructor
  · constructor
    · rintro ⟨loaded, hloaded⟩
      obtain ⟨hone, hsound, _⟩ := loadRules_ok_iff.mp hloaded
      exact ⟨hone, fun rule hrule => RawSaslLimitRule.sound_iff.mp (hsound rule hrule)⟩
    · rintro ⟨hone, hsound⟩
      exact ⟨_, loadRules_ok_iff.mpr
        ⟨hone, fun rule hrule => RawSaslLimitRule.sound_iff.mpr (hsound rule hrule), rfl⟩⟩
  · intro path text htext hraw
    rw [Config.load_eq htext hraw]
    refine ⟨RawConfig.validate_ok_iff, ?_⟩
    intro config hload u
    have hfrom := RawConfig.validate_loadedFrom hload
    obtain ⟨rule, hrule, hgoverns, hplan⟩ := hfrom.planFor u
    have hsound := hfrom.sound rule hrule
    have hempty : (config.planFor u).bucketSizes = [] ↔ rule.unrestricted = some true :=
      hplan ▸ hsound.plan_empty_iff
    refine ⟨rule, hrule, hgoverns, hplan, hempty, ?_, ?_⟩
    · intro hflag limiter n now clock fault db
      have hnone := hempty.mpr hflag
      unfold Limiter.checkSasl
      rw [hnone]
      rfl
    · intro w hw p checks hplans hclocks a
      have hrun : UnderOnePlan (rule.windows.getD []) checks :=
        ⟨hsound.windows_valid, fun c hc => (hplans c hc).trans hplan, hclocks⟩
      exact accepted_window_le hrun hw a

/-- A file with its default first, a sender without limit and a regex. -/
theorem load_enforces_file_default_first :
    let raw : RawConfig :=
      ⟨⟨"unix:///run/valkey.sock", 0, none, "postfix-ratelimitd"⟩,
        ⟨"/run/policy.sock", .defer, true, none⟩,
        [.default (some [⟨100, .fromSecs 3600⟩]) none, .username "alice" none (some true),
          .regex "^svc-" (some [⟨9, .fromSecs 60⟩]) none]⟩
    let loader : Loader :=
      ⟨fun _ => some "", fun _ => some raw,
        fun _ => some ⟨.unix "/run/valkey.sock", 0, none, none, .resp2, none, none⟩,
        fun _ => some (fun u => u.startsWith "svc-")⟩
    ∃ config, Config.load loader "/etc/postfix-ratelimitd/config.toml" = some (.ok config) ∧
      ∀ u, ∃ rule ∈ raw.saslLimits,
        RawSaslLimitRule.governing loader.newRegex raw.saslLimits u = some rule ∧
        config.planFor u = CheckPlan.new (rule.windows.getD []) ∧
        ((config.planFor u).bucketSizes = [] ↔ rule.unrestricted = some true) := by
  intro raw loader
  refine ⟨_, rfl, ?_⟩
  intro u
  obtain ⟨rule, hrule, hgoverns, hplan, hempty, _⟩ := ((load_enforces_file loader raw).2
    "/etc/postfix-ratelimitd/config.toml" "" rfl rfl).2 _ rfl u
  exact ⟨rule, hrule, hgoverns, hplan, hempty⟩

end PostfixRatelimitd
