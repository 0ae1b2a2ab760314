import PostfixRatelimitd.Footprint
import PostfixRatelimitd.Limiter

/-!
# Senders and instances do not interfere

The script stays within the keys it is given, whatever its plan, and the keys of two
senders, or of two instances with different prefixes, never meet. What a sender is
answered, and what is stored for it, is therefore decided by its own calls.
-/
namespace PostfixRatelimitd
open Keyspace (AgreeOn Within left outcome)

section Commands
variable {keys : String → Prop} {clock : Clock} {key : String}

theorem hgetall_within (hk : keys key) : Within keys (hgetall clock key) := by
  apply Within.command hk
  case hframe => exact fun _ _ _ => rfl
  case hsame =>
    intro db db' h
    refine ⟨?_, h⟩
    rw [run_hgetall, run_hgetall, Db.view_congr h clock]
    rfl

theorem hincrby_within (hk : keys key) (field increment : ℤ) :
    Within keys (hincrby clock key field increment) := by
  apply Within.command hk
  case hframe =>
    intro db k hne
    show left (hincrby clock key field increment db) k = _
    unfold hincrby
    dsimp only
    split
    · rfl
    · exact Keyspace.write_of_ne _ hne _
  case hsame =>
    intro db db' h
    show outcome (hincrby clock key field increment db) =
      outcome (hincrby clock key field increment db') ∧
      left (hincrby clock key field increment db) key =
        left (hincrby clock key field increment db') key
    unfold hincrby
    rw [Db.view_congr h clock, Keyspace.read_congr h clock.millis]
    dsimp only
    split
    · exact ⟨rfl, h⟩
    · exact ⟨rfl, by simp [left]⟩

theorem expire_within (hk : keys key) (seconds : ℤ) : Within keys (expire clock key seconds) := by
  apply Within.command hk
  case hframe =>
    intro db k hne
    show left (expire clock key seconds db) k = _
    unfold expire
    split
    · rfl
    · split
      · rfl
      · split <;> exact Keyspace.write_of_ne _ hne _
  case hsame =>
    intro db db' h
    show outcome (expire clock key seconds db) = outcome (expire clock key seconds db') ∧
      left (expire clock key seconds db) key = left (expire clock key seconds db') key
    unfold expire
    rw [Keyspace.read_congr h clock.millis]
    split
    · exact ⟨rfl, h⟩
    · split
      · exact ⟨rfl, h⟩
      · split <;> exact ⟨rfl, by simp [left]⟩

theorem hdel_within (hk : keys key) (fields : List ℤ) : Within keys (hdel clock key fields) := by
  apply Within.command hk
  case hframe =>
    intro db k hne
    show left (hdel clock key fields db) k = _
    unfold hdel
    split
    · rfl
    · split
      · rfl
      · exact Keyspace.write_of_ne _ hne _
  case hsame =>
    intro db db' h
    show outcome (hdel clock key fields db) = outcome (hdel clock key fields db') ∧
      left (hdel clock key fields db) key = left (hdel clock key fields db') key
    unfold hdel
    rw [Keyspace.read_congr h clock.millis]
    split
    · exact ⟨rfl, h⟩
    · split
      · exact ⟨rfl, h⟩
      · exact ⟨rfl, by simp [left]⟩

end Commands

section Script
variable {allowed : String → Prop} {clock : Clock} {keys : List String} {plan : CheckPlan}
  {now recipientCount : ℤ} {snapshots : List Snapshot}

/-- Indexing a table, for a program that relies on what the table holds. -/
theorem luaIndex_within {α β : Type} {table : List α} {i : ℕ} {rest : α → Script β}
    (hrest : ∀ x ∈ table, Within allowed (rest x)) :
    Within allowed (luaIndex table i >>= rest) := by
  apply Within.bind_of (fun x => x ∈ table)
  case h =>
    constructor
    · intro db k _
      show left (luaIndex table i db) k = _
      unfold luaIndex
      split <;> rfl
    · intro db db' h
      show Keyspace.Alike allowed (luaIndex table i db) (luaIndex table i db')
      unfold luaIndex
      split <;> exact ⟨rfl, h⟩
  case hreturns =>
    intro db x db' h
    change luaIndex table i db = _ at h
    unfold luaIndex at h
    split at h
    · rename_i hfound
      cases h
      exact List.mem_of_getElem? hfound
    · cases h
  case hrest => exact hrest

theorem fetchBuckets_within (hkeys : ∀ k ∈ keys, allowed k) (numKeys : ℕ) :
    Within allowed (fetchBuckets clock keys numKeys) := by
  apply Within.mapM
  intro i _
  apply luaIndex_within
  intro key hkey
  exact (hgetall_within (hkeys key hkey)).bind (fun _ => Within.pure allowed _)

theorem checkWindows_within (windows : List PlannedWindow) :
    Within allowed (checkWindows plan now recipientCount snapshots windows) := by
  induction windows with
  | nil => exact Within.pure allowed true
  | cons window rest ih =>
    unfold checkWindows
    apply luaIndex_within
    intro snapshot _
    apply luaIndex_within
    intro bucketSize _
    dsimp only
    split
    · exact Within.pure allowed false
    · exact ih

theorem recordKey_within (hkeys : ∀ k ∈ keys, allowed k) (i : ℕ) :
    Within allowed (recordKey clock keys plan now recipientCount snapshots i) := by
  unfold recordKey
  apply luaIndex_within
  intro bucketSize _
  apply luaIndex_within
  intro key hkey
  have hallowed := hkeys key hkey
  apply (hincrby_within hallowed _ _).bind
  intro _
  apply luaIndex_within
  intro retention _
  apply (expire_within hallowed _).bind
  intro _
  apply luaIndex_within
  intro snapshot _
  split
  · exact Within.pure allowed _
  · split
    · exact (hdel_within hallowed _).bind (fun _ => Within.pure allowed _)
    · exact Within.pure allowed _

theorem checkAndRecord_within (hkeys : ∀ k ∈ keys, allowed k) (request : CheckRequest) :
    Within allowed (checkAndRecord clock keys request) := by
  unfold checkAndRecord
  apply (fetchBuckets_within hkeys _).bind
  intro snapshots
  apply (checkWindows_within _).bind
  intro accepted
  split
  · exact (Within.forM (fun i _ => recordKey_within hkeys i)).bind (fun _ => Within.pure allowed 1)
  · exact Within.pure allowed 0

theorem invokeAsync_within {script : Script ℤ} (h : Within allowed script) (fault : Fault) :
    Within allowed (invokeAsync fault script) where
  frame db k hk := by
    have hscript := h.frame db k hk
    show left (invokeAsync fault script db) k = _
    unfold invokeAsync
    cases fault <;> cases hr : script.run db <;> simp_all [left]
  alike db db' hdb := by
    obtain ⟨houtcome, hleft⟩ := h.alike db db' hdb
    show Keyspace.Alike allowed (invokeAsync fault script db) (invokeAsync fault script db')
    unfold invokeAsync Keyspace.Alike
    cases fault <;> cases hr : script.run db <;> cases hr' : script.run db' <;>
      simp_all [outcome, left]

end Script

/-- The keys of one sender under one instance's prefix, whatever the bucket size. -/
def SaslKeys (keyPrefix saslUsername key : String) : Prop :=
  ∃ bucketSize, key = saslKey keyPrefix saslUsername bucketSize

theorem checkSasl_within (limiter : Limiter) (saslUsername : String) (recipientCount : UInt32)
    (plan : CheckPlan) (nowOverride : Option ℕ) (clock : Clock) (fault : Fault) :
    Within (SaslKeys limiter.keyPrefix saslUsername)
      (limiter.checkSasl saslUsername recipientCount plan nowOverride clock fault) := by
  have hkeys : ∀ k ∈ plan.bucketSizes.map (bucketKey limiter.keyPrefix
      (identity saslIdentityKind saslUsername)), SaslKeys limiter.keyPrefix saslUsername k := by
    intro k hk
    obtain ⟨bucketSize, _, rfl⟩ := List.mem_map.mp hk
    exact ⟨bucketSize, rfl⟩
  unfold Limiter.checkSasl
  split
  · exact Within.pure _ true
  · exact (invokeAsync_within (checkAndRecord_within hkeys _) fault).bind
      (fun _ => Within.pure _ _)

/-! ## Runs of calls by anyone -/

/-- One call of `checkSasl`, with what the environment adds to it. -/
structure SaslCall where
  limiter : Limiter
  saslUsername : String
  recipientCount : UInt32
  plan : CheckPlan
  nowOverride : Option ℕ
  clock : Clock
  fault : Fault

namespace SaslCall

def run (call : SaslCall) (db : Db) : EStateM.Result RedisError Db Bool :=
  (call.limiter.checkSasl call.saslUsername call.recipientCount call.plan call.nowOverride
    call.clock call.fault).run db

/-- The call is made for user `u` by an instance with prefix `p`. -/
def isFor (p u : String) (call : SaslCall) : Bool :=
  call.limiter.keyPrefix == p && call.saslUsername == u

theorem run_own {p u : String} (call : SaslCall) (h : call.isFor p u) {db db' : Db}
    (hdb : AgreeOn (SaslKeys p u) db db') :
    outcome (call.run db) = outcome (call.run db') ∧
      AgreeOn (SaslKeys p u) (left (call.run db)) (left (call.run db')) := by
  unfold isFor at h
  obtain ⟨rfl, rfl⟩ : call.limiter.keyPrefix = p ∧ call.saslUsername = u := by simpa using h
  exact (checkSasl_within _ _ _ _ _ _ _).alike db db' hdb

theorem run_other {p u : String} (call : SaslCall) (h : ¬call.isFor p u) (db : Db) :
    AgreeOn (SaslKeys p u) (left (call.run db)) db := by
  rintro k ⟨bucketSize, rfl⟩
  apply (checkSasl_within _ _ _ _ _ _ _).frame
  rintro ⟨bucketSize', hkey⟩
  obtain ⟨hp, hu, _⟩ := saslKey_inj hkey
  exact h (by simp [isFor, hp, hu])

end SaslCall

/-- Serve calls in the order their scripts run: the database after them, and each call's
result. -/
def serveCalls (db : Db) : List SaslCall → Db × List (SaslCall × Except RedisError Bool)
  | [] => (db, [])
  | call :: rest =>
    let served := serveCalls (left (call.run db)) rest
    (served.1, (call, outcome (call.run db)) :: served.2)

theorem serveCalls_cons (db : Db) (call : SaslCall) (rest : List SaslCall) :
    serveCalls db (call :: rest) = ((serveCalls (left (call.run db)) rest).1,
      (call, outcome (call.run db)) :: (serveCalls (left (call.run db)) rest).2) := rfl

/-- A sender's share of a run is the run of its own calls. -/
theorem serveCalls_own {p u : String} (calls : List SaslCall) {db db' : Db}
    (hdb : AgreeOn (SaslKeys p u) db db') :
    (serveCalls db calls).2.filter (fun x => x.1.isFor p u) =
        (serveCalls db' (calls.filter (SaslCall.isFor p u))).2 ∧
      AgreeOn (SaslKeys p u) (serveCalls db calls).1
        (serveCalls db' (calls.filter (SaslCall.isFor p u))).1 := by
  induction calls generalizing db db' with
  | nil => exact ⟨rfl, hdb⟩
  | cons call rest ih =>
    rw [serveCalls_cons]
    by_cases h : call.isFor p u
    · obtain ⟨houtcome, hleft⟩ := call.run_own h hdb
      obtain ⟨hanswers, hagree⟩ := ih hleft
      rw [List.filter_cons_of_pos h, serveCalls_cons]
      refine ⟨?_, hagree⟩
      dsimp only
      rw [List.filter_cons_of_pos (by exact h), hanswers, houtcome]
    · obtain ⟨hanswers, hagree⟩ := ih ((call.run_other h db).trans hdb)
      rw [List.filter_cons_of_neg h]
      refine ⟨?_, hagree⟩
      dsimp only
      rw [List.filter_cons_of_neg (by exact h)]
      exact hanswers

/-- Two runs that agree on one sender's calls under one prefix give that sender the same
results and leave the same in its keys, whatever else they do. -/
theorem senders_do_not_interfere (p u : String) (calls calls' : List SaslCall) (db db' : Db)
    (hdb : ∀ bucketSize, db (saslKey p u bucketSize) = db' (saslKey p u bucketSize))
    (hcalls : calls.filter (SaslCall.isFor p u) = calls'.filter (SaslCall.isFor p u)) :
    (serveCalls db calls).2.filter (fun x => x.1.isFor p u) =
        (serveCalls db' calls').2.filter (fun x => x.1.isFor p u) ∧
      ∀ bucketSize, (serveCalls db calls).1 (saslKey p u bucketSize) =
        (serveCalls db' calls').1 (saslKey p u bucketSize) := by
  have hstart : AgreeOn (SaslKeys p u) db db' := by
    rintro k ⟨bucketSize, rfl⟩
    exact hdb bucketSize
  obtain ⟨hanswers, hagree⟩ := serveCalls_own calls hstart
  obtain ⟨hanswers', hagree'⟩ := serveCalls_own calls' (AgreeOn.refl (SaslKeys p u) db')
  rw [hcalls] at hanswers hagree
  refine ⟨hanswers.trans hanswers'.symm, ?_⟩
  intro bucketSize
  exact (hagree.trans hagree'.symm) _ ⟨bucketSize, rfl⟩

/-- A name that looks like the rest of another sender's key does not reach it. -/
theorem senders_do_not_interfere_lookalike :
    let own : SaslCall := ⟨⟨"a"⟩, "bob", 1, CheckPlan.new [⟨1, .fromSecs 60⟩], none,
      ⟨0, by decide⟩, .none⟩
    let other : SaslCall := { own with limiter := ⟨"a:bucket:v1"⟩, saslUsername := "bob:1" }
    (serveCalls Keyspace.empty [other, own]).2.filter (fun x => x.1.isFor "a" "bob") =
        (serveCalls Keyspace.empty [own]).2.filter (fun x => x.1.isFor "a" "bob") ∧
      ∀ bucketSize, (serveCalls Keyspace.empty [other, own]).1 (saslKey "a" "bob" bucketSize) =
        (serveCalls Keyspace.empty [own]).1 (saslKey "a" "bob" bucketSize) := by
  intro own other
  apply senders_do_not_interfere "a" "bob" [other, own] [own] Keyspace.empty Keyspace.empty
  · exact fun _ => rfl
  · have hother : ¬other.isFor "a" "bob" = true := by decide
    rw [List.filter_cons_of_neg hother]

end PostfixRatelimitd
