import PostfixRatelimitd.BucketLadder
import PostfixRatelimitd.SharedStore

/-!
# Senders that have gone quiet

Every key expires with the retention of the plan that last wrote it. So the store keeps nothing
of a sender that sent nothing for longer than the longest window and one bucket, however busy the
others are, and the sender is then checked like one that was never seen.
-/
namespace PostfixRatelimitd
open Keyspace (left)

/-- The call gets to run the script, and the script records its recipients under the key. -/
def SaslCall.Writes (call : SaslCall) (db : Db) (k : String) : Prop :=
  call.executed ∧ (∃ b ∈ call.plan.bucketSizes, k = call.key b) ∧
    ∃ db', call.script.run db = .ok 1 db'

/-- Of calls that were made on an empty store one after another, the last that wrote the key. -/
def LastWriter (calls : List SaslCall) (k : String) (call : SaslCall) : Prop :=
  ∃ before after, calls = before ++ call :: after ∧
    call.Writes (serveCalls Keyspace.empty before).1 k ∧
    ∀ between other later, after = between ++ other :: later →
      ¬other.Writes (serveCalls Keyspace.empty (before ++ call :: between)).1 k

/-- The key expires once the last call that wrote it is longer ago than its plan retains for the
bucket size of the key, and one bucket. -/
def WrittenBy (calls : List SaslCall) (k : String) (cell : Cell Hash ℕ) : Prop :=
  ∃ call b r, LastWriter calls k call ∧ (b, r) ∈ call.plan.slots ∧ k = call.key b ∧
    cell.deadline = some (call.clock.millis + 1000 * (r + b))

namespace LastWriter
variable {calls : List SaslCall} {k : String} {call later : SaslCall}

theorem of_writes (h : call.Writes (serveCalls Keyspace.empty calls).1 k) :
    LastWriter (calls ++ [call]) k call :=
  ⟨calls, [], rfl, h, fun between _ _ hnil => by cases between <;> cases hnil⟩

theorem snoc (h : LastWriter calls k call)
    (hlater : ¬later.Writes (serveCalls Keyspace.empty calls).1 k) :
    LastWriter (calls ++ [later]) k call := by
  obtain ⟨before, after, rfl, hwrites, hlast⟩ := h
  refine ⟨before, after ++ [later], by simp, hwrites, ?_⟩
  intro between other rest hsplit
  rcases List.eq_nil_or_concat' rest with rfl | ⟨rest, x, rfl⟩
  · obtain ⟨rfl, hother⟩ := List.append_inj' hsplit rfl
    obtain rfl : later = other := List.singleton_inj.mp hother
    exact hlater
  · rw [← List.cons_append, ← List.append_assoc] at hsplit
    exact hlast between other rest (List.append_inj' hsplit rfl).1

theorem mem (h : LastWriter calls k call) : call ∈ calls ∧ call.executed := by
  obtain ⟨before, after, rfl, hwrites, _⟩ := h
  exact ⟨by simp, hwrites.1⟩

end LastWriter

/-- One call of anyone writes the key, with the deadline of its own plan, or leaves it alone. -/
theorem SaslCall.writes_or_keeps {call : SaslCall} {db : Db} (hplan : call.plan.WellFormed)
    (hsane : ∀ b, Sane (db.view call.clock (call.key b))) (k : String) :
    (call.Writes db k ∧ ∃ b r cell, (b, r) ∈ call.plan.slots ∧ k = call.key b ∧
      left (call.run db) k = some cell ∧
        cell.deadline = some (call.clock.millis + 1000 * (r + b))) ∨
    (¬call.Writes db k ∧ left (call.run db) k = db k) := by
  rw [call.left_run]
  by_cases hran : call.executed
  · rw [if_pos hran]
    rcases SaslCall.run_script hplan hsane with ⟨_, db', hrun, hdone, hframe⟩ | ⟨_, hrun⟩
    · rw [hrun]
      by_cases hmine : ∃ b ∈ call.plan.bucketSizes, k = call.key b
      · obtain ⟨b, hb, hkey⟩ := hmine
        obtain ⟨r, hslot⟩ := hplan.slot_of_size hb
        exact .inl ⟨⟨hran, ⟨b, hb, hkey⟩, db', hrun⟩, b, r, _, hslot, hkey,
          hkey ▸ hdone b r hslot, rfl⟩
      · refine .inr ⟨fun hwrites => hmine hwrites.2.1, ?_⟩
        push Not at hmine
        exact hframe k hmine
    · refine .inr ⟨?_, by rw [hrun]; rfl⟩
      rintro ⟨_, _, db', hwrites⟩
      rw [hrun] at hwrites
      cases hwrites
  · rw [if_neg hran]
    exact .inr ⟨fun hwrites => hran hwrites.1, rfl⟩

theorem serveCalls_writtenBy {calls : List SaslCall} (hplans : ∀ call ∈ calls, call.plan.Built)
    {k : String} {cell : Cell Hash ℕ}
    (hcell : (serveCalls Keyspace.empty calls).1 k = some cell) : WrittenBy calls k cell := by
  induction calls using List.reverseRecOn generalizing cell with
  | nil => cases hcell
  | append_singleton calls call ih =>
    have hbefore : ∀ x ∈ calls, x.plan.Built := fun x hx => hplans x (List.mem_append_left _ hx)
    rw [serveCalls_snoc] at hcell
    rcases SaslCall.writes_or_keeps (hplans call (by simp)).wellFormed
      (fun b => (serveCalls_stored hbefore).view_sane call.clock (call.key b)) k with
        ⟨hwrites, b, r, cell', hslot, hkey, hleft, hdeadline⟩ | ⟨hnot, hkeeps⟩
    · obtain rfl := Option.some.inj (hleft.symm.trans hcell)
      exact ⟨call, b, r, .of_writes hwrites, hslot, hkey, hdeadline⟩
    · obtain ⟨writer, b, r, hlast, hwritten⟩ := ih hbefore (hkeeps.symm.trans hcell)
      exact ⟨writer, b, r, hlast.snoc hnot, hwritten⟩

/-- A power of two that fits fifty times into 31 days. -/
theorem bucketSize_le_longest {w : Window} (h : w.Valid) :
    (bucketSize w.duration).secs ≤ 32768 := by
  obtain ⟨k, hk⟩ := (isGreatest_bucketSize w.duration).1.1
  have hfits := bucketSize_le_max h
  have hsmall : k < 16 := by
    by_contra hlarge
    have hpow : 2 ^ 16 ≤ 2 ^ k := Nat.pow_le_pow_right (by decide) (by omega)
    omega
  have hpow : 2 ^ k ≤ 2 ^ 15 := Nat.pow_le_pow_right (by decide) (by omega)
  omega

theorem CheckPlan.Built.slot_le {plan : CheckPlan} (h : plan.Built) {b r : ℕ}
    (hslot : (b, r) ∈ plan.slots) : b ≤ 32768 ∧ r ≤ 2678400 := by
  refine ⟨?_, (h.wellFormed.shortLived b r hslot).2⟩
  rcases h with rfl | ⟨_, windows, hvalid, rfl⟩
  · cases hslot
  · obtain ⟨w, hw, rfl⟩ := mem_new_bucketSizes.mp (CheckPlan.size_of_slot hslot)
    exact bucketSize_le_longest (((validateWindows_ok_iff _ _).mp hvalid).2 w hw)

/-- The longest time in milliseconds for which a key is kept: 31 days and a bucket of such a
window. -/
def longestExpiry : ℕ := 1000 * (2678400 + 32768)

/-- For the keys of a sender that is quiet for so long there is nothing to read. -/
theorem view_empty_of_quiet {calls : List SaslCall} (hplans : ∀ call ∈ calls, call.plan.Built)
    {p u : String} {clock : Clock}
    (hquiet : ∀ call ∈ calls, call.executed → call.isFor p u →
      call.clock.millis + longestExpiry < clock.millis)
    (b : ℕ) : (serveCalls Keyspace.empty calls).1.view clock (saslKey p u b) = .empty := by
  cases hcell : (serveCalls Keyspace.empty calls).1 (saslKey p u b) with
  | none =>
    unfold Db.view Keyspace.read
    rw [hcell]
    rfl
  | some cell =>
    obtain ⟨call, b', r, hlast, hslot, hkey, hdeadline⟩ := serveCalls_writtenBy hplans hcell
    obtain ⟨hcall, hran⟩ := hlast.mem
    obtain ⟨rfl, rfl, rfl⟩ := saslKey_inj hkey
    obtain ⟨hsize, hretention⟩ := (hplans call hcall).slot_le hslot
    have hlong := hquiet call hcall hran (by simp [SaslCall.isFor])
    obtain ⟨hash, deadline⟩ := cell
    obtain rfl : deadline = _ := hdeadline
    rw [Db.view_of_deadline hcell, if_pos]
    unfold longestExpiry at hlong
    omega

/-- What the windows have room for is a matter of what there is to read. -/
theorem room_congr {key : ℕ → String} {clock : Clock} {plan : CheckPlan} {db db' : Db}
    {now recipientCount : ℤ} (h : ∀ b, db.view clock (key b) = db'.view clock (key b)) :
    Room key clock plan db now recipientCount ↔ Room key clock plan db' now recipientCount := by
  unfold Room
  simp only [h]

/-- Whatever calls were made by whomever under whatever plans, each key in the store expires with
what the plan retains that last wrote it. Once a sender has sent nothing for 31 days and one bucket
of such a window, there is nothing to read of it, and its next message is decided like the first
one, though others have gone on all the time. -/
theorem quiet_sender_forgotten (calls : List SaslCall) (hplans : ∀ call ∈ calls, call.plan.Built) :
    let db := (serveCalls Keyspace.empty calls).1
    (∀ k cell, db k = some cell → WrittenBy calls k cell) ∧
    ∀ (p u : String) (clock : Clock),
      (∀ call ∈ calls, call.executed → call.isFor p u →
        call.clock.millis + longestExpiry < clock.millis) →
      (∀ b, db.view clock (saslKey p u b) = .empty) ∧
      ∀ call : SaslCall, call.plan.Built → call.isFor p u → call.clock = clock →
        ∃ reply db' db'', call.script.run db = .ok reply db' ∧
          call.script.run Keyspace.empty = .ok reply db'' := by
  intro db
  have hstored : Stored (calls.filter SaslCall.executed) db := serveCalls_stored hplans
  refine ⟨fun k cell hcell => serveCalls_writtenBy hplans hcell, ?_⟩
  intro p u clock hquiet
  have hempty : ∀ b, db.view clock (saslKey p u b) = .empty := view_empty_of_quiet hplans hquiet
  refine ⟨hempty, ?_⟩
  rintro call hplan hmine rfl
  obtain ⟨rfl, rfl⟩ : call.limiter.keyPrefix = p ∧ call.saslUsername = u := by
    simpa [SaslCall.isFor] using hmine
  have hroom : Room call.key call.clock call.plan db call.now call.count ↔
      Room call.key call.clock call.plan Keyspace.empty call.now call.count := room_congr hempty
  rcases SaslCall.run_script hplan.wellFormed
    (fun b => hstored.view_sane call.clock (call.key b)) with
    ⟨hfits, db', hrun, _⟩ | ⟨hfull, hrun⟩
  · rcases SaslCall.run_script hplan.wellFormed
      (fun b => Stored.empty.view_sane call.clock (call.key b)) with
        ⟨_, db'', hrun', _⟩ | ⟨hfull', _⟩
    · exact ⟨1, db', db'', hrun, hrun'⟩
    · exact absurd (hroom.mp hfits) hfull'
  · rcases SaslCall.run_script hplan.wellFormed
      (fun b => Stored.empty.view_sane call.clock (call.key b)) with
        ⟨hfits', _⟩ | ⟨_, hrun'⟩
    · exact absurd (hroom.mpr hfits') hfull
    · exact ⟨0, db, Keyspace.empty, hrun, hrun'⟩

/-- A sender sends under two plans and is then refused, another one sends a year later. The key
expires with what the second plan retains, and after the year there is nothing to read. -/
theorem quiet_sender_forgotten_year :
    let plan := CheckPlan.new [⟨3, .fromSecs 60⟩]
    let plan' := CheckPlan.new [⟨3, .fromSecs 90⟩]
    let limiter : Limiter := ⟨"postfix-ratelimitd"⟩
    let calls : List SaslCall :=
      [⟨limiter, "alice", 2, plan, none, ⟨0, by decide⟩, .none⟩,
        ⟨limiter, "alice", 1, plan', none, ⟨10000000, by decide⟩, .none⟩,
        ⟨limiter, "alice", 5, plan, none, ⟨20000000, by decide⟩, .none⟩,
        ⟨limiter, "bob", 1, plan, none, ⟨31536000000000, by decide⟩, .none⟩]
    let db := (serveCalls Keyspace.empty calls).1
    (∃ cell, db (saslKey "postfix-ratelimitd" "alice" 1) = some cell ∧
      cell.deadline = some (10000 + 1000 * (90 + 1)) ∧
      WrittenBy calls (saslKey "postfix-ratelimitd" "alice" 1) cell) ∧
    db.view ⟨31536000000000, by decide⟩ (saslKey "postfix-ratelimitd" "alice" 1) = .empty := by
  intro plan plan' limiter calls db
  have hplan : plan.Built := .inr ⟨0, _, by decide, rfl⟩
  have hplan' : plan'.Built := .inr ⟨0, _, by decide, rfl⟩
  have hplans : ∀ call ∈ calls, call.plan.Built := by simp [calls, hplan, hplan']
  obtain ⟨hwritten, hforgotten⟩ := quiet_sender_forgotten calls hplans
  constructor
  · have hdeadline : (db (saslKey "postfix-ratelimitd" "alice" 1)).map Cell.deadline =
        some (some (10000 + 1000 * (90 + 1))) := by decide +kernel
    obtain ⟨cell, hcell, hexpires⟩ := Option.map_eq_some_iff.mp hdeadline
    exact ⟨cell, hcell, hexpires, hwritten _ cell hcell⟩
  · refine (hforgotten _ _ _ ?_).1 1
    intro call hcall _ hmine
    simp only [calls, List.mem_cons, List.not_mem_nil, or_false] at hcall
    rcases hcall with rfl | rfl | rfl | rfl
    · decide
    · decide
    · decide
    · exact absurd hmine (by decide)

end PostfixRatelimitd
