import PostfixRatelimitd.Config
import PostfixRatelimitd.Limiter
import PostfixRatelimitd.Transition

/-!
# Reloading on SIGHUP

The main loop counts a SIGHUP, marks a reload as in progress and spawns a worker if none
was. The worker reloads until no SIGHUP was counted during its last pass, and then
clears the mark. Every load, store and read-modify-write is a step of its own, and so is
each step of `reloadConfig` that another task can observe or be observed by.
-/
namespace PostfixRatelimitd

/-- The config in force and its limiter, with what the limiter was connected by. -/
structure RuntimeState where
  config : Config
  limiter : Limiter
  connectionInfo : ConnectionInfo

/-- Whether both connect to the same place with the same credentials. -/
def sameRedisConnection (a b : ConnectionInfo) : Bool :=
  a.addr == b.addr && a.db == b.db && a.username == b.username && a.password == b.password &&
    a.protocol == b.protocol

/-- Where the main loop stands in its SIGHUP arm. -/
inductive MainStep
  /-- waiting for the next event -/
  | select
  | fetchAdd
  | swap
  | spawn
  deriving DecidableEq, Repr

/-- The next step of a worker. Its generation is the number of SIGHUPs counted when it
was loaded; the code knows it modulo 2^64. -/
inductive WorkerStep
  | load
  | loadFull (generation : ℕ)
  | readConfig (generation : ℕ) (current : RuntimeState)
  | connect (generation : ℕ) (current : RuntimeState) (newConfig : Config)
  | store (generation : ℕ) (newState : RuntimeState)
  | compare (generation : ℕ)
  | clear (generation : ℕ)

/-- The worker has found the counter unchanged and is about to clear the mark. -/
def WorkerStep.clearing : WorkerStep → Bool
  | .clear _ => true
  | _ => false

/-- What happened to the config so far. -/
inductive ReloadEvent
  | sighup
  | reloadBegan
  deriving DecidableEq, Repr

structure ReloadSystem where
  state : RuntimeState
  main : MainStep
  workers : List WorkerStep
  /-- counted without bound; the code's counter is this modulo 2^64 -/
  reloadRequests : ℕ
  reloadInProgress : Bool
  /-- SIGHUPs received and calls of `reloadConfig` begun, newest first -/
  history : List ReloadEvent

namespace ReloadSystem

/-- After startup. -/
def start (state : RuntimeState) : ReloadSystem := ⟨state, .select, [], 0, false, []⟩

/-- A step of the main loop or of a worker. The environment decides when a SIGHUP is
received, what the config file holds when it is read, and whether redis is reached. -/
inductive Action
  | receive
  | main
  | worker (i : ℕ) (file : Except ConfigError Config) (connects : Bool)

/-- The value of the code's counter. -/
def counter (requests : ℕ) : ℕ := requests % 2 ^ 64

/-- What follows in `reloadConfig` once the file is read. -/
def afterRead (generation : ℕ) (current : RuntimeState) (file : Except ConfigError Config) :
    WorkerStep :=
  match file with
  | .error _ => .compare generation
  | .ok newConfig =>
    if newConfig.socket ≠ current.config.socket then .compare generation
    else if newConfig.controlSocket ≠ current.config.controlSocket then .compare generation
    else if !sameRedisConnection newConfig.redisConnectionInfo current.config.redisConnectionInfo ∨
        newConfig.redisKeyPrefix ≠ current.config.redisKeyPrefix then
      .connect generation current newConfig
    else .store generation ⟨newConfig, current.limiter, current.connectionInfo⟩

/-- The main loop's wait ends with a SIGHUP. -/
def receiveNext (s : ReloadSystem) : Option ReloadSystem :=
  if s.main = .select then some { s with main := .fetchAdd, history := .sighup :: s.history }
  else none

/-- The SIGHUP arm of the main loop, past the receipt. -/
def mainNext (s : ReloadSystem) : Option ReloadSystem :=
  match s.main with
  | .select => none
  | .fetchAdd => some { s with reloadRequests := s.reloadRequests + 1, main := .swap }
  | .swap =>
    some { s with reloadInProgress := true, main := if s.reloadInProgress then .select else .spawn }
  | .spawn => some { s with workers := s.workers ++ [.load], main := .select }

def workerNext (s : ReloadSystem) (i : ℕ) (file : Except ConfigError Config) (connects : Bool) :
    Option ReloadSystem :=
  match s.workers[i]? with
  | none => none
  | some .load => some { s with workers := s.workers.set i (.loadFull s.reloadRequests) }
  | some (.loadFull generation) =>
    some { s with
      workers := s.workers.set i (.readConfig generation s.state)
      history := .reloadBegan :: s.history }
  | some (.readConfig generation current) =>
    some { s with workers := s.workers.set i (afterRead generation current file) }
  | some (.connect generation _ newConfig) =>
    let step := if connects then .store generation
        ⟨newConfig, ⟨newConfig.redisKeyPrefix⟩, newConfig.redisConnectionInfo⟩
      else .compare generation
    some { s with workers := s.workers.set i step }
  | some (.store generation newState) =>
    some { s with workers := s.workers.set i (.compare generation), state := newState }
  | some (.compare generation) =>
    let step := if counter s.reloadRequests = counter generation then .clear generation else .load
    some { s with workers := s.workers.set i step }
  | some (.clear _) => some { s with workers := s.workers.eraseIdx i, reloadInProgress := false }

def next (s : ReloadSystem) : Action → Option ReloadSystem
  | .receive => receiveNext s
  | .main => mainNext s
  | .worker i file connects => workerNext s i file connects

/-- No worker is running and the main loop is not handling a SIGHUP. -/
def Quiescent (s : ReloadSystem) : Prop := s.workers = [] ∧ s.main = .select

/-- The latest call of `reloadConfig` began after the latest SIGHUP was received. -/
def CaughtUp (s : ReloadSystem) : Prop := s.history.head? ≠ some .sighup

/-! ## The window between the last comparison and the clearing -/

instance (s : ReloadSystem) : Decidable s.CaughtUp := inferInstanceAs (Decidable (_ ≠ _))

/-- The steps that lose no SIGHUP. The main loop must not find the mark still set by a
worker that is about to clear it, unless a call of `reloadConfig` has begun since the
SIGHUP was received; and no worker may take the counter for unchanged because it came
round, while the last SIGHUP is handled and no call has begun since. -/
def undisturbed (s : ReloadSystem) : Action → Bool
  | .receive => true
  | .main => !(s.main == .swap && s.workers.any WorkerStep.clearing) || s.CaughtUp
  | .worker i _ _ =>
    match s.workers[i]? with
    | some (.compare generation) =>
      !(counter s.reloadRequests == counter generation && s.reloadRequests != generation &&
        s.main == .select) || s.CaughtUp
    | _ => true

end ReloadSystem

namespace WorkerStep

/-- The SIGHUPs the worker knows of. -/
def generation? : WorkerStep → Option ℕ
  | load => none
  | loadFull g | readConfig g _ | connect g _ _ | store g _ | compare g | clear g => some g

/-- The SIGHUPs counted before the call of `reloadConfig` that the worker has begun. -/
def begun? : WorkerStep → Option ℕ
  | load | loadFull _ => none
  | readConfig g _ | connect g _ _ | store g _ | compare g | clear g => some g

theorem generation_of_begun {w : WorkerStep} {g : ℕ} (h : w.begun? = some g) :
    w.generation? = some g := by
  cases w <;> first
    | exact h
    | cases h

end WorkerStep

namespace ReloadSystem

theorem afterRead_generation (g : ℕ) (current : RuntimeState) (file : Except ConfigError Config) :
    (afterRead g current file).begun? = some g ∧
      (afterRead g current file).clearing = false := by
  unfold afterRead
  split
  · exact ⟨rfl, rfl⟩
  · split_ifs <;> exact ⟨rfl, rfl⟩

/-- At most one worker runs, and only while the mark is set. -/
structure Exclusive (s : ReloadSystem) : Prop where
  single : s.workers = [] ∨ ∃ w, s.workers = [w]
  mark : s.reloadInProgress = true ↔ s.workers ≠ [] ∨ s.main = .spawn
  spawning : s.main = .spawn → s.workers = []

namespace Exclusive

theorem start (state : RuntimeState) : (ReloadSystem.start state).Exclusive where
  single := .inl rfl
  mark := by simp [ReloadSystem.start]
  spawning _ := rfl

theorem receive {s s' : ReloadSystem} (h : s.Exclusive) (hnext : s.next .receive = some s') :
    s'.Exclusive := by
  change s.receiveNext = some s' at hnext
  unfold receiveNext at hnext
  split at hnext
  · rename_i hmain
    obtain rfl := Option.some.inj hnext
    exact ⟨h.single, by simpa [hmain] using h.mark, by simp⟩
  · cases hnext

theorem main {s s' : ReloadSystem} (h : s.Exclusive) (hnext : s.next .main = some s') :
    s'.Exclusive := by
  change s.mainNext = some s' at hnext
  unfold mainNext at hnext
  cases hmain : s.main with
  | select => simp [hmain] at hnext
  | fetchAdd =>
    simp only [hmain, Option.some.injEq] at hnext
    subst hnext
    exact ⟨h.single, by simpa [hmain] using h.mark, by simp⟩
  | swap =>
    simp only [hmain, Option.some.injEq] at hnext
    subst hnext
    have hbusy : s.reloadInProgress = true ↔ s.workers ≠ [] := by simpa [hmain] using h.mark
    cases hmark : s.reloadInProgress with
    | true => exact ⟨h.single, by simpa [hmark] using hbusy, by simp⟩
    | false => exact ⟨h.single, by simp, fun _ => by simpa [hmark] using hbusy⟩
  | spawn =>
    simp only [hmain, Option.some.injEq] at hnext
    subst hnext
    have hidle := h.spawning hmain
    have hmark := h.mark.mpr (.inr hmain)
    exact ⟨.inr ⟨.load, by simp [hidle]⟩, by simp [hmark], by simp⟩

/-- Only the one worker can take a step, and it leaves the main loop alone. With its last
step it is gone and the mark is clear. -/
theorem worker_cases {s s' : ReloadSystem} (h : s.Exclusive) {i : ℕ}
    {file : Except ConfigError Config} {connects : Bool}
    (hnext : s.workerNext i file connects = some s') :
    i = 0 ∧ s'.main = s.main ∧ ∃ w, s.workers = [w] ∧
      ((s'.workers = [] ∧ s'.reloadInProgress = false) ∨
        ∃ w', s'.workers = [w'] ∧ s'.reloadInProgress = s.reloadInProgress) := by
  obtain ⟨w, hw⟩ : ∃ w, s.workers[i]? = some w := by
    cases hfound : s.workers[i]? with
    | none => simp [workerNext, hfound] at hnext
    | some w => exact ⟨w, rfl⟩
  obtain ⟨w', hworkers⟩ : ∃ w', s.workers = [w'] := by
    rcases h.single with hidle | hone
    · simp [hidle] at hw
    · exact hone
  obtain ⟨rfl, rfl⟩ : i = 0 ∧ w' = w := by
    simpa [hworkers, List.getElem?_singleton] using hw
  unfold workerNext at hnext
  simp only [hw] at hnext
  simp only [hworkers, List.set_cons_zero, List.eraseIdx_cons_zero] at hnext
  refine ⟨rfl, ?_, w', hworkers, ?_⟩
  · cases w' <;> (obtain rfl := Option.some.inj hnext; rfl)
  · cases w' with
    | clear g =>
      obtain rfl := Option.some.inj hnext
      exact .inl ⟨rfl, rfl⟩
    | _ =>
      obtain rfl := Option.some.inj hnext
      exact .inr ⟨_, rfl, rfl⟩

theorem worker {s s' : ReloadSystem} (h : s.Exclusive) {i : ℕ} {file : Except ConfigError Config}
    {connects : Bool} (hnext : s.next (.worker i file connects) = some s') : s'.Exclusive := by
  obtain ⟨_, hmain, w, hw, hcases⟩ := h.worker_cases hnext
  have hbusy : s.workers ≠ [] := by simp [hw]
  have hmark : s.reloadInProgress = true := h.mark.mpr (.inl hbusy)
  have hno : s'.main ≠ .spawn := fun hspawn => hbusy (h.spawning (hmain ▸ hspawn))
  rcases hcases with ⟨hgone, hclear⟩ | ⟨w', hw', hkept⟩
  · exact ⟨.inl hgone, by simp [hgone, hclear, hno], fun _ => hgone⟩
  · exact ⟨.inr ⟨w', hw'⟩, by simp [hw', hkept, hmark], fun hspawn => absurd hspawn hno⟩

theorem step {s s' : ReloadSystem} {a : Action} (h : s.Exclusive) (hnext : s.next a = some s') :
    s'.Exclusive := by
  cases a with
  | receive => exact h.receive hnext
  | main => exact h.main hnext
  | worker i file connects => exact h.worker hnext

end Exclusive

/-- At most one worker runs, marked as such, and a SIGHUP that no call of `reloadConfig`
has followed yet is still being handled or will be noticed. -/
structure Inv (s : ReloadSystem) : Prop where
  single : s.workers = [] ∨ ∃ w, s.workers = [w]
  mark : s.reloadInProgress = true ↔ s.workers ≠ [] ∨ s.main = .spawn
  spawning : s.main = .spawn → s.workers = []
  bounded : ∀ w ∈ s.workers, ∀ g, w.generation? = some g → g ≤ s.reloadRequests
  fresh : s.main ≠ .fetchAdd → ∀ w ∈ s.workers, w.begun? = some s.reloadRequests → s.CaughtUp
  clearing : s.main = .select → ∀ w ∈ s.workers, w.clearing → s.CaughtUp
  quiet : s.Quiescent → s.CaughtUp

theorem Inv.exclusive {s : ReloadSystem} (h : s.Inv) : s.Exclusive :=
  ⟨h.single, h.mark, h.spawning⟩

theorem Inv.start (state : RuntimeState) : (ReloadSystem.start state).Inv where
  single := (Exclusive.start state).single
  mark := (Exclusive.start state).mark
  spawning := (Exclusive.start state).spawning
  bounded w hw := by simp [ReloadSystem.start] at hw
  fresh _ w hw := by simp [ReloadSystem.start] at hw
  clearing _ w hw := by simp [ReloadSystem.start] at hw
  quiet _ := by simp [CaughtUp, ReloadSystem.start]

/-- Replacing the only worker by one that is not about to clear the mark. -/
theorem Inv.replace {s s' : ReloadSystem} (h : s.Inv) (hexclusive : s'.Exclusive)
    {w w' : WorkerStep} (hw : s.workers = [w]) (hworkers : s'.workers = [w'])
    (hmain : s'.main = s.main) (hrequests : s'.reloadRequests = s.reloadRequests)
    (hgeneration : ∀ g, w'.generation? = some g → g ≤ s.reloadRequests)
    (hbegun : w'.begun? = some s.reloadRequests → s'.CaughtUp ∨
      (s'.history = s.history ∧ w.begun? = some s.reloadRequests))
    (hclear : s.main = .select → w'.clearing → s'.CaughtUp) : s'.Inv where
  single := hexclusive.single
  mark := hexclusive.mark
  spawning := hexclusive.spawning
  bounded x hx g hg := by
    rw [hworkers, List.mem_singleton] at hx
    rw [hrequests]
    exact hgeneration g (hx ▸ hg)
  fresh hfetch x hx hx' := by
    rw [hworkers, List.mem_singleton] at hx
    rw [hrequests] at hx'
    rcases hbegun (hx ▸ hx') with hdone | ⟨hsame, hold⟩
    · exact hdone
    · have := h.fresh (hmain ▸ hfetch) w (by simp [hw]) hold
      unfold CaughtUp at this ⊢
      rw [hsame]
      exact this
  clearing hselect x hx hx' := by
    rw [hworkers, List.mem_singleton] at hx
    exact hclear (hmain ▸ hselect) (hx ▸ hx')
  quiet hq := by
    have hnone := hq.1
    rw [hworkers] at hnone
    simp at hnone

theorem Inv.receive {s s' : ReloadSystem} (h : s.Inv) (hnext : s.next .receive = some s') :
    s'.Inv := by
  obtain ⟨hsingle, hmark, hspawning⟩ := h.exclusive.step hnext
  change s.receiveNext = some s' at hnext
  unfold receiveNext at hnext
  split at hnext
  · obtain rfl := Option.some.inj hnext
    refine ⟨hsingle, hmark, hspawning, ?bounded, ?fresh, ?clearing, ?quiet⟩
    case bounded => exact h.bounded
    case fresh => simp
    case clearing => simp
    case quiet => simp [Quiescent]
  · cases hnext

theorem Inv.fetchAdd {s : ReloadSystem} (h : s.Inv)
    (hexclusive : Exclusive { s with reloadRequests := s.reloadRequests + 1, main := .swap }) :
    Inv { s with reloadRequests := s.reloadRequests + 1, main := .swap } := by
  refine ⟨hexclusive.single, hexclusive.mark, hexclusive.spawning, ?bounded, ?fresh, ?clearing,
    ?quiet⟩
  case bounded =>
    intro w hw g hg
    have := h.bounded w hw g hg
    show g ≤ s.reloadRequests + 1
    omega
  case fresh =>
    -- No worker can know of a SIGHUP counted just now.
    intro _ w hw hbegun
    have := h.bounded w hw _ (WorkerStep.generation_of_begun hbegun)
    change s.reloadRequests + 1 ≤ s.reloadRequests at this
    omega
  case clearing => simp
  case quiet => simp [Quiescent]

/-- The mark is found set: a worker is running and is left to notice the SIGHUP. -/
theorem Inv.swap_set {s : ReloadSystem} (h : s.Inv)
    (hexclusive : Exclusive { s with reloadInProgress := true, main := .select })
    (hok : s.undisturbed .main) (hmain : s.main = .swap) :
    Inv { s with reloadInProgress := true, main := .select } := by
  have hbusy : s.workers ≠ [] := by simpa using hexclusive.mark
  refine ⟨hexclusive.single, hexclusive.mark, hexclusive.spawning, ?bounded, ?fresh, ?clearing,
    ?quiet⟩
  case bounded => exact h.bounded
  case fresh => exact fun _ => h.fresh (by simp [hmain])
  case clearing =>
    intro _ w hw hclearing
    have hany : s.workers.any WorkerStep.clearing = true :=
      List.any_eq_true.mpr ⟨w, hw, hclearing⟩
    have hcaught : s.CaughtUp := by simpa [undisturbed, hmain, hany] using hok
    exact hcaught
  case quiet => exact fun hq => absurd hq.1 hbusy

/-- The mark is found clear: no worker is running. -/
theorem Inv.swap_clear {s : ReloadSystem}
    (hexclusive : Exclusive { s with reloadInProgress := true, main := .spawn }) :
    Inv { s with reloadInProgress := true, main := .spawn } := by
  have hidle : s.workers = [] := hexclusive.spawning rfl
  refine ⟨hexclusive.single, hexclusive.mark, hexclusive.spawning, ?bounded, ?fresh, ?clearing,
    ?quiet⟩
  case bounded => simp [hidle]
  case fresh => simp [hidle]
  case clearing => simp [hidle]
  case quiet => simp [Quiescent]

theorem Inv.spawn {s : ReloadSystem} (h : s.Inv)
    (hexclusive : Exclusive { s with workers := s.workers ++ [.load], main := .select })
    (hmain : s.main = .spawn) :
    Inv { s with workers := s.workers ++ [.load], main := .select } := by
  have hidle := h.spawning hmain
  refine ⟨hexclusive.single, hexclusive.mark, hexclusive.spawning, ?bounded, ?fresh, ?clearing,
    ?quiet⟩
  case bounded => simp [hidle, WorkerStep.generation?]
  case fresh => simp [hidle, WorkerStep.begun?]
  case clearing => simp [hidle, WorkerStep.clearing]
  case quiet => simp [Quiescent]

theorem Inv.main {s s' : ReloadSystem} (h : s.Inv) (hok : s.undisturbed .main)
    (hnext : s.next .main = some s') : s'.Inv := by
  have hexclusive := h.exclusive.step hnext
  change s.mainNext = some s' at hnext
  unfold mainNext at hnext
  cases hmain : s.main with
  | select => simp [hmain] at hnext
  | fetchAdd =>
    simp only [hmain, Option.some.injEq] at hnext
    subst hnext
    exact h.fetchAdd hexclusive
  | swap =>
    simp only [hmain, Option.some.injEq] at hnext
    cases hmark : s.reloadInProgress with
    | true =>
      rw [hmark, if_pos rfl] at hnext
      subst hnext
      exact h.swap_set hexclusive hok hmain
    | false =>
      rw [hmark, if_neg Bool.false_ne_true] at hnext
      subst hnext
      exact Inv.swap_clear hexclusive
  | spawn =>
    simp only [hmain, Option.some.injEq] at hnext
    subst hnext
    exact h.spawn hexclusive hmain

theorem Inv.worker {s s' : ReloadSystem} (h : s.Inv) {i : ℕ} {file : Except ConfigError Config}
    {connects : Bool} (hok : s.undisturbed (.worker i file connects))
    (hnext : s.next (.worker i file connects) = some s') : s'.Inv := by
  have hexclusive := h.exclusive.step hnext
  obtain ⟨rfl, _, w, hw, _⟩ := h.exclusive.worker_cases hnext
  have hmem : w ∈ s.workers := by simp [hw]
  have hhead : s.workers[0]? = some w := by simp [hw]
  -- Past the beginning of a call every step keeps the generation.
  have hkeep : ∀ w' : WorkerStep, w'.begun? = w.begun? → w'.generation? = w.generation? →
      (s.main = .select → w'.clearing → s.CaughtUp) → ∀ state : RuntimeState,
      Exclusive { s with workers := [w'], state := state } →
      Inv { s with workers := [w'], state := state } := by
    intro w' hbegun hgeneration hclear state hexclusive
    exact h.replace hexclusive hw rfl rfl rfl
      (fun g hg => h.bounded w hmem g (hgeneration ▸ hg)) (fun hb => .inr ⟨rfl, hbegun ▸ hb⟩) hclear
  change s.workerNext 0 file connects = some s' at hnext
  unfold workerNext at hnext
  simp only [hhead] at hnext
  simp only [hw, List.set_cons_zero, List.eraseIdx_cons_zero] at hnext
  cases w with
  | load =>
    obtain rfl := Option.some.inj hnext
    exact h.replace hexclusive hw rfl rfl rfl (fun g hg => (Option.some.inj hg).ge)
      (fun hb => by cases hb) (by simp [WorkerStep.clearing])
  | loadFull g =>
    obtain rfl := Option.some.inj hnext
    have hle := h.bounded _ hmem g rfl
    exact h.replace hexclusive hw rfl rfl rfl (fun g' hg => Option.some.inj hg ▸ hle)
      (fun _ => .inl (by simp [CaughtUp])) (by simp [WorkerStep.clearing])
  | readConfig g current =>
    obtain rfl := Option.some.inj hnext
    obtain ⟨hbegun, hclear⟩ := afterRead_generation g current file
    exact hkeep _ hbegun (WorkerStep.generation_of_begun hbegun) (by simp [hclear]) s.state
      hexclusive
  | connect g current newConfig =>
    obtain rfl := Option.some.inj hnext
    cases connects
    · exact hkeep (.compare g) rfl rfl (by simp [WorkerStep.clearing]) s.state hexclusive
    · exact hkeep (.store g _) rfl rfl (by simp [WorkerStep.clearing]) s.state hexclusive
  | store g newState =>
    obtain rfl := Option.some.inj hnext
    exact hkeep (.compare g) rfl rfl (by simp [WorkerStep.clearing]) newState hexclusive
  | compare g =>
    obtain rfl := Option.some.inj hnext
    by_cases hsame : counter s.reloadRequests = counter g
    · rw [if_pos hsame] at hexclusive ⊢
      refine hkeep (.clear g) rfl rfl ?_ s.state hexclusive
      intro hselect _
      by_cases hequal : s.reloadRequests = g
      · exact h.fresh (by simp [hselect]) _ hmem (by rw [hequal]; rfl)
      · simpa [undisturbed, hhead, hsame, hequal, hselect] using hok
    · rw [if_neg hsame] at hexclusive ⊢
      exact h.replace hexclusive hw rfl rfl rfl (fun g' hg => by cases hg)
        (fun hb => by cases hb) (by simp [WorkerStep.clearing])
  | clear g =>
    obtain rfl := Option.some.inj hnext
    refine ⟨hexclusive.single, hexclusive.mark, hexclusive.spawning, ?bounded, ?fresh, ?clearing,
      ?quiet⟩
    case bounded => simp
    case fresh => simp
    case clearing => simp
    case quiet => exact fun hq => h.clearing hq.2 _ hmem rfl

theorem Inv.step {s s' : ReloadSystem} {a : Action} (h : s.Inv) (hok : s.undisturbed a)
    (hnext : s.next a = some s') : s'.Inv := by
  cases a with
  | receive => exact h.receive hnext
  | main => exact h.main hok hnext
  | worker i file connects => exact h.worker hok hnext

/-- No SIGHUP is received. -/
def Action.isQuiet : Action → Bool
  | .receive => false
  | _ => true

/-- The last SIGHUP has been handled, no call of `reloadConfig` has begun since, and no worker is
going to begin one. -/
structure Lost (s : ReloadSystem) : Prop where
  handled : s.main = .select
  idle : s.workers = [] ∨ ∃ g, s.workers = [.clear g]
  missed : ¬s.CaughtUp

/-- Only another SIGHUP helps. -/
theorem Lost.step {s s' : ReloadSystem} {a : Action} (h : s.Lost) (hquiet : a.isQuiet)
    (hnext : s.next a = some s') : s'.Lost := by
  cases a with
  | receive => cases hquiet
  | main =>
    change s.mainNext = some s' at hnext
    simp [mainNext, h.handled] at hnext
  | worker i file connects =>
    change s.workerNext i file connects = some s' at hnext
    obtain ⟨w, hw⟩ : ∃ w, s.workers[i]? = some w := by
      cases hfound : s.workers[i]? with
      | none => simp [workerNext, hfound] at hnext
      | some w => exact ⟨w, rfl⟩
    rcases h.idle with hnone | ⟨g, hclear⟩
    · simp [hnone] at hw
    · obtain ⟨rfl, rfl⟩ : i = 0 ∧ WorkerStep.clear g = w := by
        simpa [hclear, List.getElem?_singleton] using hw
      unfold workerNext at hnext
      simp only [hw, Option.some.injEq] at hnext
      subst hnext
      exact ⟨h.handled, .inl (by rw [hclear]; rfl), h.missed⟩

/-- Once the worker has cleared the mark, all is quiet. -/
theorem Lost.quiesces {s : ReloadSystem} (h : s.Lost) :
    ∃ t, Reachable next (fun _ a => a.isQuiet) s t ∧ t.Quiescent := by
  rcases h.idle with hnone | ⟨g, hclear⟩
  · exact ⟨s, .start, hnone, h.handled⟩
  · have hnext : s.next (.worker 0 (.error .ambiguousPassword) true) =
        some { s with workers := [], reloadInProgress := false } := by
      show s.workerNext 0 _ true = _
      unfold workerNext
      simp [hclear]
    exact ⟨_, Reachable.start.step rfl hnext, rfl, h.handled⟩

/-- After a step that is ruled out the SIGHUP is lost. -/
theorem disturbed_loses {s s' : ReloadSystem} {a : Action} (h : s.Inv)
    (hok : s.undisturbed a = false) (hnext : s.next a = some s') : s'.Lost := by
  cases a with
  | receive => cases hok
  | main =>
    have hbad : (s.main = .swap ∧ s.workers.any WorkerStep.clearing = true) ∧ ¬s.CaughtUp := by
      simpa [undisturbed] using hok
    obtain ⟨⟨hmain, hany⟩, hmissed⟩ := hbad
    obtain ⟨w, hw, hclearing⟩ := List.any_eq_true.mp hany
    have hmark : s.reloadInProgress = true := h.mark.mpr (.inl (List.ne_nil_of_mem hw))
    obtain ⟨g, rfl⟩ : ∃ g, w = .clear g := by
      cases w with
      | clear g => exact ⟨g, rfl⟩
      | _ => cases hclearing
    have hworkers : s.workers = [.clear g] := by
      rcases h.single with hidle | ⟨w', hw'⟩
      · simp [hidle] at hw
      · rw [hw', List.mem_singleton] at hw
        rw [hw', hw]
    change s.mainNext = some s' at hnext
    simp only [mainNext, hmain, hmark, if_true, Option.some.injEq] at hnext
    subst hnext
    exact ⟨rfl, .inr ⟨g, hworkers⟩, hmissed⟩
  | worker i file connects =>
    obtain ⟨rfl, _, w, hw, _⟩ := h.exclusive.worker_cases hnext
    change s.workerNext 0 file connects = some s' at hnext
    have hhead : s.workers[0]? = some w := by simp [hw]
    cases w with
    | compare g =>
      have hbad : ((counter s.reloadRequests = counter g ∧ s.reloadRequests ≠ g) ∧
          s.main = .select) ∧ ¬s.CaughtUp := by
        simpa [undisturbed, hhead] using hok
      obtain ⟨⟨⟨hsame, _⟩, hmain⟩, hmissed⟩ := hbad
      unfold workerNext at hnext
      simp only [hhead, hsame, if_true, Option.some.injEq] at hnext
      simp only [hw, List.set_cons_zero] at hnext
      subst hnext
      exact ⟨hmain, .inr ⟨g, rfl⟩, hmissed⟩
    | _ => simp [undisturbed, hhead] at hok

/-- No SIGHUP is lost in any run without a disturbed step. After a disturbed step of such a run
the last SIGHUP is lost, however the run goes on, unless another one is received. A call of
`reloadConfig` begins with the load of the state, just before it reads the file. -/
theorem sighup_not_lost (state : RuntimeState) :
    (∀ s, Reachable next undisturbed (start state) s → s.Quiescent → s.CaughtUp) ∧
    ∀ s a s', Reachable next undisturbed (start state) s → s.next a = some s' →
      s.undisturbed a = false →
        (∃ t, Reachable next (fun _ a => a.isQuiet) s' t ∧ t.Quiescent) ∧
        ∀ t, Reachable next (fun _ a => a.isQuiet) s' t → t.Quiescent → ¬t.CaughtUp := by
  have hinv : ∀ s, Reachable next undisturbed (start state) s → s.Inv :=
    fun s h => h.invariant (Inv.start state) (fun _ _ _ hi hok hnext => hi.step hok hnext)
  refine ⟨fun s h hq => (hinv s h).quiet hq, ?_⟩
  intro s a s' h hnext hok
  have hlost : s'.Lost := disturbed_loses (hinv s h) hok hnext
  refine ⟨hlost.quiesces, ?_⟩
  intro t hrun _
  exact (hrun.invariant hlost (fun _ _ _ hl hquiet hstep => hl.step hquiet hstep)).missed

/-- One SIGHUP is reloaded for; a second one that is counted and finds the mark between the
worker's comparison and its clearing is lost. -/
theorem sighup_not_lost_twice :
    let config : Config := ⟨⟨.unix "/run/valkey.sock", 0, none, none, .resp2, none, none⟩,
      "postfix-ratelimitd", .defer, true, "/run/policy.sock", none, [], CheckPlan.new []⟩
    let state : RuntimeState := ⟨config, ⟨"postfix-ratelimitd"⟩, config.redisConnectionInfo⟩
    (⟨state, .select, [], 1, false, [.reloadBegan, .sighup]⟩ : ReloadSystem).CaughtUp ∧
      ∃ t, Reachable next (fun _ a => a.isQuiet)
        ⟨state, .select, [.clear 1], 2, true, [.sighup, .reloadBegan, .sighup]⟩ t ∧
          t.Quiescent ∧ ¬t.CaughtUp := by
  intro config state
  have hclear : Reachable next undisturbed (start state)
      ⟨state, .select, [.clear 1], 1, true, [.reloadBegan, .sighup]⟩ :=
    Reachable.start.of_replay ([.receive, .main, .main, .main] ++
      List.replicate 5 (.worker 0 (.ok config) true)) rfl
  have hswap : Reachable next undisturbed (start state)
      ⟨state, .swap, [.clear 1], 2, true, [.sighup, .reloadBegan, .sighup]⟩ :=
    hclear.of_replay [.receive, .main] rfl
  constructor
  · exact (sighup_not_lost state).1 _
      (hclear.of_replay [.worker 0 (.ok config) true] rfl) ⟨rfl, rfl⟩
  · obtain ⟨⟨t, hrun, hquiet⟩, hlost⟩ := (sighup_not_lost state).2 _ .main _ hswap rfl rfl
    exact ⟨t, hrun, hquiet, hlost t hrun hquiet⟩

/-- A SIGHUP can be lost. -/
theorem sighup_lost : ¬∀ (state : RuntimeState) (s : ReloadSystem),
    Reachable next (fun _ _ => true) (start state) s → s.Quiescent → s.CaughtUp := by
  intro hall
  let config : Config := ⟨⟨.unix "/run/valkey.sock", 0, none, none, .resp2, none, none⟩,
    "postfix-ratelimitd", .defer, true, "/run/policy.sock", none, [], CheckPlan.new []⟩
  let state : RuntimeState := ⟨config, ⟨"postfix-ratelimitd"⟩, config.redisConnectionInfo⟩
  have hrun : Reachable next (fun _ _ => true) (start state)
      ⟨state, .select, [], 2, false, [.sighup, .reloadBegan, .sighup]⟩ :=
    Reachable.start.of_replay ([.receive, .main, .main, .main] ++
      List.replicate 5 (.worker 0 (.ok config) true) ++
      [.receive, .main, .main, .worker 0 (.ok config) true]) rfl
  exact hall state _ hrun ⟨rfl, rfl⟩ rfl

end ReloadSystem
end PostfixRatelimitd
