import PostfixRatelimitd.CheckSpec
import PostfixRatelimitd.Limiter
import Mathlib.Data.List.Induction

/-!
# What the database remembers of a sender

A sender's requests arrive one after another, each with the plan in force at that
time. `Tracks` relates the database to the log of accepted requests: a bucket hash
holds nothing that was not accepted, and it still holds every accepted request that no
later write, under the retention that write came with, could have aged out. The
relation is stated for every later reading of the clock, so expiry needs no step of
its own, and it fixes no plan.
-/
namespace PostfixRatelimitd

/-- One request of a sender: when it ran, how many recipients, under which plan. -/
structure Check where
  clock : Clock
  recipientCount : UInt32
  plan : CheckPlan

namespace Check

/-- The recipients as the script adds them up. -/
def count (c : Check) : ℤ := c.recipientCount.toNat

/-- The server time the script sees. -/
def now (c : Check) : ℤ := c.clock.secs

theorem count_nonneg (c : Check) : 0 ≤ c.count := Int.natCast_nonneg _

/-- The bucket of size `b` the request is recorded in. -/
def bucket (b : ℕ) (c : Check) : ℤ := c.now / (b : ℤ)

/-- The request is recorded under bucket size `b` when its plan has that key. -/
def touches (b : ℕ) (c : Check) : Bool := decide (b ∈ c.plan.bucketSizes)

end Check

/-- A check of one sender through one instance, with nothing going wrong. -/
def runCheck (keyPrefix saslUsername : String) (c : Check) : EStateM RedisError Db Bool :=
  (Limiter.mk keyPrefix).checkSasl saslUsername c.recipientCount c.plan none c.clock .none

/-- With a key to look at, the check answers what the script answered. -/
theorem runCheck_script {p u : String} {c : Check} (hkeys : c.plan.bucketSizes ≠ []) (db : Db) :
    (runCheck p u c).run db =
      match (checkAndRecord c.clock (c.plan.bucketSizes.map (saslKey p u))
        ⟨c.recipientCount, none, c.plan⟩).run db with
      | .ok reply db' => .ok (reply == 1) db'
      | .error e db' => .error (.script e) db' := by
  have hsome : ¬(c.plan.bucketSizes.isEmpty = true) := by simpa using hkeys
  unfold runCheck Limiter.checkSasl
  rw [if_neg hsome]
  show EStateM.run (invokeAsync .none (checkAndRecord c.clock
    (c.plan.bucketSizes.map (saslKey p u)) ⟨c.recipientCount, none, c.plan⟩) >>= _) db = _
  rw [EStateM.run_bind, run_invokeAsync]
  cases (checkAndRecord c.clock (c.plan.bucketSizes.map (saslKey p u))
    ⟨c.recipientCount, none, c.plan⟩).run db <;> rfl

/-- What one check does, for a plan the code builds and hashes in range. -/
theorem run_runCheck (p u : String) (c : Check) {db : Db} (hplan : c.plan.WellFormed)
    (hsane : ∀ b, Sane (db.view c.clock (saslKey p u b))) :
    (Room (saslKey p u) c.clock c.plan db c.now c.count ∧
      ∃ db', (runCheck p u c).run db = .ok true db' ∧
        (∀ b r, (b, r) ∈ c.plan.slots → db' (saslKey p u b) =
          some (recordedCell (saslKey p u) c.clock db c.now c.count b r)) ∧
        ∀ k, (∀ b ∈ c.plan.bucketSizes, k ≠ saslKey p u b) → db' k = db k) ∨
    (¬Room (saslKey p u) c.clock c.plan db c.now c.count ∧
      (runCheck p u c).run db = .ok false db) := by
  by_cases hempty : c.plan.bucketSizes = []
  · have hslots : c.plan.slots = [] := by simp [CheckPlan.slots, hempty]
    refine .inl ⟨?_, db, ?_, ?_, fun _ _ => rfl⟩
    · intro q _ b r h
      simp [hslots] at h
    · unfold runCheck Limiter.checkSasl
      rw [hempty]
      rfl
    · intro b r h
      simp [hslots] at h
  · have hspec := run_checkAndRecord c.clock db (saslKey_injective p u)
      ⟨c.recipientCount, none, c.plan⟩ hplan (fun b _ => hsane b)
    rcases hspec with ⟨hroom, db', h, hdone, hframe⟩ | ⟨hroom, h⟩
    · exact .inl ⟨hroom, db', by rw [runCheck_script hempty, h]; rfl, hdone, hframe⟩
    · exact .inr ⟨hroom, by rw [runCheck_script hempty, h]; rfl⟩

/-- The write of request `e` under bucket size `b` is still called for at `clock`: no
later write under that size came with a retention that reaches only past it. -/
def Kept (b : ℕ) (clock : Clock) (log : List Check) (e : Check) : Prop :=
  b ∈ e.plan.bucketSizes ∧ ∀ e' ∈ log, e.clock ≤ e'.clock → ∀ r, (b, r) ∈ e'.plan.slots →
    counts b ((clock.secs : ℤ) - r) (e.bucket b)

/-- The sender's bucket hashes against the log of its accepted requests. -/
structure Tracks (p u : String) (db : Db) (log : List Check) : Prop where
  sane : ∀ b cell, db (saslKey p u b) = some cell → Sane cell.value
  origin : ∀ b cell, db (saslKey p u b) = some cell →
    ∀ entry ∈ cell.value.entries, ∃ e ∈ log, e.bucket b = entry.1
  upper : ∀ b clock, (∀ e ∈ log, e.clock ≤ clock) → ∀ pick : ℤ → Bool,
    (db.view clock (saslKey p u b)).sumOver pick ≤
      volume Check.count (fun e => e.touches b && pick (e.bucket b)) log
  lower : ∀ b clock, (∀ e ∈ log, e.clock ≤ clock) → ∀ (select : Check → Bool) (pick : ℤ → Bool),
    (∀ e ∈ log, select e → Kept b clock log e ∧ pick (e.bucket b)) →
    volume Check.count select log ≤ (db.view clock (saslKey p u b)).sumOver pick

namespace Tracks
variable {p u : String} {db db' : Db} {log : List Check} {c : Check}

theorem view_sane (h : Tracks p u db log) (b : ℕ) (clock : Clock) :
    Sane (db.view clock (saslKey p u b)) := Db.view_of_stored sane_empty (h.sane b) clock

theorem view_origin (h : Tracks p u db log) (b : ℕ) (clock : Clock) :
    ∀ entry ∈ (db.view clock (saslKey p u b)).entries, ∃ e ∈ log, e.bucket b = entry.1 :=
  Db.view_of_stored (P := fun h => ∀ entry ∈ h.entries, ∃ e ∈ log, e.bucket b = entry.1) (by simp)
    (h.origin b) clock

theorem empty (p u : String) : Tracks p u Keyspace.empty [] where
  sane b cell h := by simp [Keyspace.empty] at h
  origin b cell h := by simp [Keyspace.empty] at h
  upper b clock _ pick := by simp
  lower b clock _ select pick _ := by simp

/-- A recorded hash is in range: the window of the longest span was checked, and what
it does not count is gone. -/
theorem recorded_sane (h : Tracks p u db log) (hplan : c.plan.WellFormed)
    (hroom : Room (saslKey p u) c.clock c.plan db c.now c.count) {b r : ℕ}
    (hslot : (b, r) ∈ c.plan.slots) :
    Sane (recorded c.now c.count b r (db.view c.clock (saslKey p u b))) :=
  (h.view_sane b c.clock).recorded (c.plan.bucketSizes_pos b (CheckPlan.size_of_slot hslot))
    (Int.natCast_nonneg _) c.count_nonneg (hroom.fits hplan hslot)

/-- The recorded hash before it expires. -/
theorem record_live (h : Tracks p u db log) (hlater : ∀ e ∈ log, e.clock ≤ c.clock) {b r : ℕ}
    (hslot : (b, r) ∈ c.plan.slots) (clock : Clock) (hclock : c.clock ≤ clock) :
    (∀ pick : ℤ → Bool,
      (recorded c.now c.count b r (db.view c.clock (saslKey p u b))).sumOver pick ≤
        volume Check.count (fun e => e.touches b && pick (e.bucket b)) (c :: log)) ∧
    ∀ (select : Check → Bool) (pick : ℤ → Bool),
      (∀ e ∈ c :: log, select e → Kept b clock (c :: log) e ∧ pick (e.bucket b)) →
      volume Check.count select (c :: log) ≤
        (recorded c.now c.count b r (db.view c.clock (saslKey p u b))).sumOver pick := by
  have hb := c.plan.bucketSizes_pos b (CheckPlan.size_of_slot hslot)
  have htouch : c.touches b = true := by
    simpa [Check.touches] using CheckPlan.size_of_slot hslot
  have hsecs : c.now ≤ (clock.secs : ℤ) := Int.ofNat_le.mpr (Clock.secs_mono hclock)
  constructor
  · intro pick
    have hold := h.upper b c.clock hlater (fun id => counts b (c.now - r) id && pick id)
    have hwider : volume Check.count (fun e => e.touches b &&
        (counts b (c.now - r) (e.bucket b) && pick (e.bucket b))) log ≤
        volume Check.count (fun e => e.touches b && pick (e.bucket b)) log := by
      apply volume_mono (fun e _ => e.count_nonneg)
      intro e _ he
      simp only [Bool.and_eq_true] at he ⊢
      exact ⟨he.1, he.2.2⟩
    rw [sumOver_recorded hb, volume_cons, htouch, Bool.true_and, add_comm]
    exact add_le_add le_rfl (hold.trans hwider)
  · intro select pick hsel
    obtain ⟨hnew, hlog⟩ := List.forall_mem_cons.mp hsel
    have hold : volume Check.count select log ≤ (db.view c.clock (saslKey p u b)).sumOver
        (fun id => counts b (c.now - r) id && pick id) := by
      apply h.lower b c.clock hlater
      intro e he hse
      obtain ⟨⟨hsize, hkept⟩, hpick⟩ := hlog e he hse
      -- Aged out now or by then: the cutoff only moves forward.
      have hnow : ∀ e' ∈ c :: log, e.clock ≤ e'.clock → ∀ r', (b, r') ∈ e'.plan.slots →
          counts b (c.now - r') (e.bucket b) := by
        intro e' he' hle r' hr'
        exact counts_mono (by omega) (hkept e' he' hle r' hr')
      have hc := hnow c List.mem_cons_self (hlater e he) r hslot
      refine ⟨⟨hsize, fun e' he' => hnow e' (List.mem_cons_of_mem _ he')⟩, ?_⟩
      simp [hc, hpick]
    have hhead : (if select c then c.count else 0) ≤
        if pick (c.now / (b : ℤ)) then c.count else 0 := by
      by_cases hsc : select c
      · have hpick : pick (c.now / (b : ℤ)) = true := (hnew hsc).2
        simp [hsc, hpick]
      · rw [if_neg hsc]
        split
        · exact c.count_nonneg
        · exact le_rfl
    rw [sumOver_recorded hb, volume_cons, add_comm]
    exact add_le_add hold hhead

/-- Once the recorded hash has expired, nothing under its key is called for. -/
theorem record_expired (hlater : ∀ e ∈ log, e.clock ≤ c.clock) {b r : ℕ}
    (hslot : (b, r) ∈ c.plan.slots) {clock : Clock}
    (hdead : c.clock.millis + 1000 * (r + b) < clock.millis) {e : Check} (he : e ∈ c :: log) :
    ¬Kept b clock (c :: log) e := by
  intro hkept
  have hb := c.plan.bucketSizes_pos b (CheckPlan.size_of_slot hslot)
  have hle : e.clock ≤ c.clock := by
    rcases List.mem_cons.mp he with rfl | he
    · exact Clock.le_refl _
    · exact hlater e he
  have hcount := counts_iff.mp (hkept.2 c List.mem_cons_self hle r hslot)
  have hsecs := Clock.secs_mono hle
  have hnow := clock.secs_eq
  have hthen := c.clock.secs_eq
  have hend : (e.bucket b + 1) * (b : ℤ) ≤ e.now + b := by
    have hfloor : e.now / (b : ℤ) * b ≤ e.now := Int.ediv_mul_le e.now (by omega)
    unfold Check.bucket
    rw [add_mul, one_mul]
    omega
  unfold Check.now at hend
  omega

/-- Every bucket of a recorded hash is one of an accepted request. -/
theorem recorded_origin (h : Tracks p u db log) (c : Check) (b r : ℕ) :
    ∀ entry ∈ (recorded c.now c.count b r (db.view c.clock (saslKey p u b))).entries,
      ∃ e ∈ c :: log, e.bucket b = entry.1 := by
  apply Tally.forall_erase (P := fun id _ => ∃ e ∈ c :: log, e.bucket b = id)
  apply Tally.forall_add (P := fun id _ => ∃ e ∈ c :: log, e.bucket b = id)
  · intro entry hentry
    obtain ⟨e, he, hid⟩ := h.view_origin b c.clock entry hentry
    exact ⟨e, List.mem_cons_of_mem _ he, hid⟩
  · exact ⟨c, List.mem_cons_self, rfl⟩
  · exact fun _ hid => hid

/-- An accepted request: its effect on the database is its entry in the log. -/
theorem record (h : Tracks p u db log) (hplan : c.plan.WellFormed)
    (hlater : ∀ e ∈ log, e.clock ≤ c.clock)
    (hroom : Room (saslKey p u) c.clock c.plan db c.now c.count)
    (hdone : ∀ b r, (b, r) ∈ c.plan.slots → db' (saslKey p u b) =
      some (recordedCell (saslKey p u) c.clock db c.now c.count b r))
    (hframe : ∀ k, (∀ b ∈ c.plan.bucketSizes, k ≠ saslKey p u b) → db' k = db k) :
    Tracks p u db' (c :: log) := by
  -- Each key of the sender is recorded into or left alone.
  have hkey : ∀ b, (∃ r, (b, r) ∈ c.plan.slots) ∨
      (b ∉ c.plan.bucketSizes ∧ db' (saslKey p u b) = db (saslKey p u b)) := by
    intro b
    by_cases hb : b ∈ c.plan.bucketSizes
    · exact .inl (hplan.slot_of_size hb)
    · refine .inr ⟨hb, hframe _ ?_⟩
      intro b' hb' hsame
      exact hb (saslKey_injective p u hsame ▸ hb')
  constructor
  case sane =>
    intro b cell hcell
    rcases hkey b with ⟨r, hslot⟩ | ⟨_, hother⟩
    · obtain rfl := Option.some.inj ((hdone b r hslot).symm.trans hcell)
      exact h.recorded_sane hplan hroom hslot
    · exact h.sane b cell (hother.symm.trans hcell)
  case origin =>
    intro b cell hcell
    rcases hkey b with ⟨r, hslot⟩ | ⟨_, hother⟩
    · obtain rfl := Option.some.inj ((hdone b r hslot).symm.trans hcell)
      exact h.recorded_origin c b r
    · intro entry hentry
      obtain ⟨e, he, hid⟩ := h.origin b cell (hother.symm.trans hcell) entry hentry
      exact ⟨e, List.mem_cons_of_mem _ he, hid⟩
  case upper =>
    intro b clock hclock pick
    obtain ⟨hnew, hlog⟩ := List.forall_mem_cons.mp hclock
    rcases hkey b with ⟨r, hslot⟩ | ⟨hb, hother⟩
    · rw [Db.view_of_deadline (hdone b r hslot)]
      split
      · exact volume_nonneg (fun e _ => e.count_nonneg)
      · exact (h.record_live hlater hslot clock hnew).1 pick
    · have hno : c.touches b = false := by simpa [Check.touches] using hb
      rw [Db.view_congr hother, volume_cons, hno]
      simpa using h.upper b clock hlog pick
  case lower =>
    intro b clock hclock select pick hsel
    obtain ⟨hnew, hlog⟩ := List.forall_mem_cons.mp hclock
    rcases hkey b with ⟨r, hslot⟩ | ⟨hb, hother⟩
    · rw [Db.view_of_deadline (hdone b r hslot)]
      split
      · rename_i hdead
        have hnone : ∀ e ∈ c :: log, select e = false := by
          intro e he
          rw [← Bool.not_eq_true]
          exact fun hse => record_expired hlater hslot hdead he (hsel e he hse).1
        rw [volume_eq_zero hnone]
        exact le_rfl
      · exact (h.record_live hlater hslot clock hnew).2 select pick hsel
    · have hskip : select c = false := by
        rw [← Bool.not_eq_true]
        exact fun hsc => hb (hsel c List.mem_cons_self hsc).1.1
      rw [Db.view_congr hother, volume_cons, hskip]
      simp only [Bool.false_eq_true, if_false, zero_add]
      apply h.lower b clock hlog
      intro e he hse
      obtain ⟨⟨hsize, hkept⟩, hpick⟩ := hsel e (List.mem_cons_of_mem _ he) hse
      exact ⟨⟨hsize, fun e' he' => hkept e' (List.mem_cons_of_mem _ he')⟩, hpick⟩

end Tracks

/-- A run so far: the database, and every request with its answer, newest first. -/
structure Session where
  db : Db
  answers : List (Check × Except RedisError Bool)

namespace Session

def start : Session := ⟨Keyspace.empty, []⟩

/-- What the next request would be answered. -/
def reply (p u : String) (s : Session) (c : Check) : Except RedisError Bool :=
  match (runCheck p u c).run s.db with
  | .ok allowed _ => .ok allowed
  | .error e _ => .error e

def serve (p u : String) (s : Session) (c : Check) : Session :=
  match (runCheck p u c).run s.db with
  | .ok allowed db => ⟨db, (c, .ok allowed) :: s.answers⟩
  | .error e db => ⟨db, (c, .error e) :: s.answers⟩

theorem serve_answers (p u : String) (s : Session) (c : Check) :
    (s.serve p u c).answers = (c, s.reply p u c) :: s.answers := by
  unfold serve reply
  split <;> rfl

/-- Serve a sender's requests in the order they reach the server. -/
def serveAll (p u : String) (checks : List Check) : Session := checks.foldl (serve p u) start

/-- The requests that were accepted, newest first. -/
def accepted (s : Session) : List Check :=
  s.answers.filterMap (fun x => match x.2 with
    | .ok true => some x.1
    | _ => none)

theorem serveAll_snoc (p u : String) (checks : List Check) (c : Check) :
    serveAll p u (checks ++ [c]) = (serveAll p u checks).serve p u c := by
  simp [serveAll]

/-- Requests in server order, each under a plan the script can rely on. -/
structure Orderly (checks : List Check) : Prop where
  plans : ∀ c ∈ checks, c.plan.WellFormed
  clocks : checks.Pairwise (fun earlier later => earlier.clock ≤ later.clock)

theorem Orderly.init {checks : List Check} {c : Check} (h : Orderly (checks ++ [c])) :
    Orderly checks where
  plans x hx := h.plans x (List.mem_append_left _ hx)
  clocks := (List.pairwise_append.mp h.clocks).1

theorem Orderly.last {checks : List Check} {c : Check} (h : Orderly (checks ++ [c])) :
    c.plan.WellFormed ∧ ∀ e ∈ checks, e.clock ≤ c.clock := by
  refine ⟨h.plans c (by simp), ?_⟩
  intro e he
  exact (List.pairwise_append.mp h.clocks).2.2 e he c (by simp)

variable {p u : String}

theorem accepted_sublist (checks : List Check) :
    (serveAll p u checks).accepted.reverse.Sublist checks := by
  induction checks using List.reverseRecOn with
  | nil => exact List.Sublist.refl []
  | append_singleton checks c ih =>
    rw [serveAll_snoc]
    unfold serve accepted
    split
    · rename_i allowed db hrun
      cases allowed
      · exact ih.trans (List.sublist_append_left _ _)
      · simp only [List.filterMap_cons, List.reverse_cons]
        exact ih.append (List.Sublist.refl [c])
    · exact ih.trans (List.sublist_append_left _ _)

theorem mem_of_accepted {checks : List Check} {e : Check}
    (h : e ∈ (serveAll p u checks).accepted) : e ∈ checks :=
  (accepted_sublist checks).subset (List.mem_reverse.mpr h)

theorem accepted_sorted {checks : List Check} (h : Orderly checks) :
    (serveAll p u checks).accepted.Pairwise (fun newer older => older.clock ≤ newer.clock) :=
  List.pairwise_reverse.mp (h.clocks.sublist (accepted_sublist checks))

/-- The log keeps up with the database, and no request ends in an error. -/
theorem serve_spec {s : Session} {c : Check} (ht : Tracks p u s.db s.accepted)
    (hplan : c.plan.WellFormed) (hlater : ∀ e ∈ s.accepted, e.clock ≤ c.clock) :
    (Room (saslKey p u) c.clock c.plan s.db c.now c.count ∧ s.reply p u c = .ok true ∧
      (s.serve p u c).accepted = c :: s.accepted ∧
      Tracks p u (s.serve p u c).db (c :: s.accepted)) ∨
    (¬Room (saslKey p u) c.clock c.plan s.db c.now c.count ∧ s.reply p u c = .ok false ∧
      (s.serve p u c).accepted = s.accepted ∧ (s.serve p u c).db = s.db) := by
  rcases run_runCheck p u c hplan (fun b => ht.view_sane b c.clock) with
    ⟨hroom, db', hrun, hdone, hframe⟩ | ⟨hroom, hrun⟩
  · have hserve : s.serve p u c = ⟨db', (c, .ok true) :: s.answers⟩ := by
      simp only [serve, hrun]
    have hreply : s.reply p u c = .ok true := by
      simp only [reply, hrun]
    rw [hserve]
    exact .inl ⟨hroom, hreply, rfl, ht.record hplan hlater hroom hdone hframe⟩
  · have hserve : s.serve p u c = ⟨s.db, (c, .ok false) :: s.answers⟩ := by
      simp only [serve, hrun]
    have hreply : s.reply p u c = .ok false := by
      simp only [reply, hrun]
    rw [hserve]
    exact .inr ⟨hroom, hreply, rfl, rfl⟩

/-- Every orderly run, whatever plans it mixes, tracks its accepted requests. -/
theorem serveAll_tracks {checks : List Check} (h : Orderly checks) :
    Tracks p u (serveAll p u checks).db (serveAll p u checks).accepted := by
  induction checks using List.reverseRecOn with
  | nil => exact Tracks.empty p u
  | append_singleton checks c ih =>
    have ht := ih h.init
    have hlater : ∀ e ∈ (serveAll p u checks).accepted, e.clock ≤ c.clock :=
      fun e he => h.last.2 e (mem_of_accepted he)
    rw [serveAll_snoc]
    rcases serve_spec ht h.last.1 hlater with ⟨_, _, haccepted, htracks⟩ | ⟨_, _, haccepted, hdb⟩
    · rw [haccepted]
      exact htracks
    · rw [haccepted, hdb]
      exact ht

end Session
end PostfixRatelimitd
