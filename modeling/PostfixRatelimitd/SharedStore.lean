import PostfixRatelimitd.Isolation
import PostfixRatelimitd.NormalForm
import PostfixRatelimitd.PlanChanges
import PostfixRatelimitd.Status
import Mathlib.Data.Int.Interval

/-!
# The store under any mix of users and configs

Every check of any user writes under whatever plan is in force for it, at whatever time it
is given. The longest window of a key is always checked before the key is written, and the
write deletes exactly what that window did not count, so each hash stays in range. When the
times do not go back, what such a window counts lies in at most 101 buckets.
-/
namespace PostfixRatelimitd
open Keyspace (left outcome)

/-! ## What one write leaves in a hash -/

section Recorded
variable {now recipientCount : ℤ} {b r : ℕ} {h : Hash}

/-- The ids of a recorded hash: the new bucket, and old ones that the longest window still
counts. -/
theorem recorded_ids {P : ℤ → Prop} (hnew : P (now / (b : ℤ)))
    (hold : ∀ entry ∈ h.entries, counts b (now - r) entry.1 → P entry.1) :
    ∀ entry ∈ (recorded now recipientCount b r h).entries, P entry.1 := by
  have hgrown : ∀ entry ∈ (h.add (now / (b : ℤ)) recipientCount).entries,
      entry.1 = now / (b : ℤ) ∨ entry.1 ∈ h.entries.map Prod.fst := by
    apply Tally.forall_add (P := fun id _ => id = now / (b : ℤ) ∨ id ∈ h.entries.map Prod.fst)
    · exact fun entry hentry => .inr (List.mem_map_of_mem hentry)
    · exact .inl rfl
    · exact fun _ hid => hid
  intro entry hentry
  obtain ⟨hmem, hkept⟩ := List.mem_filter.mp hentry
  have hkept : entry.1 ∉ staleIds b (now - r) (parseFields h.entries).buckets :=
    of_decide_eq_true hkept
  rcases hgrown entry hmem with hid | hid
  · exact hid ▸ hnew
  · obtain ⟨old, hmem', hsame⟩ := List.mem_map.mp hid
    have hcounted : counts b (now - r) old.1 := by
      by_contra hstale
      exact hkept ((mem_staleIds h).mpr ⟨hid, by simpa [hsame] using hstale⟩)
    exact hsame ▸ hold old hmem' hcounted

/-- Ids within an interval are at most as many as the interval has. -/
theorem length_le_of_ids {t : Tally ℤ ℤ} {low high : ℤ}
    (hids : ∀ entry ∈ t.entries, low ≤ entry.1 ∧ entry.1 ≤ high) :
    t.entries.length ≤ (high + 1 - low).toNat := by
  have hsub : (t.entries.map Prod.fst).toFinset ⊆ Finset.Icc low high := by
    intro id hid
    obtain ⟨entry, hentry, rfl⟩ := List.mem_map.mp (List.mem_toFinset.mp hid)
    exact Finset.mem_Icc.mpr (hids entry hentry)
  have hcard := Finset.card_le_card hsub
  rw [List.toFinset_card_of_nodup t.nodup, List.length_map, Int.card_Icc] at hcard
  exact hcard

/-- A retention of less than a hundred buckets reaches into at most 101 of them. -/
theorem recorded_length_le (hb : 0 < b) (hspan : r < 100 * b)
    (hpast : ∀ entry ∈ h.entries, entry.1 ≤ now / (b : ℤ)) :
    (recorded now recipientCount b r h).entries.length ≤ 101 := by
  have hpos : (0 : ℤ) < b := by omega
  have hids : ∀ entry ∈ (recorded now recipientCount b r h).entries,
      (now - r) / (b : ℤ) ≤ entry.1 ∧ entry.1 ≤ now / (b : ℤ) := by
    apply recorded_ids (P := fun id => (now - r) / (b : ℤ) ≤ id ∧ id ≤ now / (b : ℤ))
    · exact ⟨Int.ediv_le_ediv hpos (by omega), le_rfl⟩
    · intro entry hentry hcounted
      have hlt := Int.ediv_lt_of_lt_mul hpos (counts_iff.mp hcounted)
      exact ⟨by omega, hpast entry hentry⟩
  have hwidth : now / (b : ℤ) ≤ (now - r) / (b : ℤ) + 100 := by
    have hle : now ≤ (now - r) + 100 * b := by omega
    have hdiv := Int.ediv_le_ediv hpos hle
    rwa [Int.add_mul_ediv_right _ _ hpos.ne'] at hdiv
  have hlength := length_le_of_ids hids
  omega

end Recorded

/-- A key of a built plan is kept for less than a hundred of its buckets. -/
theorem CheckPlan.Built.retention_lt {plan : CheckPlan} (h : plan.Built) {b r : ℕ}
    (hslot : (b, r) ∈ plan.slots) : r < 100 * b := by
  obtain ⟨windows, hvalid, rfl⟩ : ∃ windows : List Window, (∀ w ∈ windows, w.Valid) ∧
      plan = CheckPlan.new windows := by
    rcases h with rfl | ⟨ruleIndex, windows, hvalid, rfl⟩
    · exact ⟨[], by simp, rfl⟩
    · exact ⟨windows, ((validateWindows_ok_iff _ _).mp hvalid).2, rfl⟩
  obtain ⟨i, hi⟩ := List.mem_iff_getElem?.mp hslot
  obtain ⟨hsize, hretention⟩ := CheckPlan.slots_getElem?.mp hi
  obtain ⟨w, hw, rfl, rfl⟩ := (CheckPlan.new_retention hsize hretention).1
  exact bucketSize_covers (hvalid w hw)

/-! ## Calls of anyone under any plan -/

namespace SaslCall

/-- The instant the script decides by. -/
def now (call : SaslCall) : ℤ :=
  requestNow call.clock ⟨call.recipientCount, call.nowOverride, call.plan⟩

/-- The recipients as the script adds them up. -/
def count (call : SaslCall) : ℤ := call.recipientCount.toNat

/-- The sender's key for a bucket size. -/
def key (call : SaslCall) : ℕ → String := saslKey call.limiter.keyPrefix call.saslUsername

/-- The run of the script that the call asks for. -/
def script (call : SaslCall) : Script ℤ :=
  checkAndRecord call.clock (call.plan.bucketSizes.map call.key)
    ⟨call.recipientCount, call.nowOverride, call.plan⟩

/-- The server gets to run the script. -/
def executed (call : SaslCall) : Bool :=
  !call.plan.bucketSizes.isEmpty && decide (call.fault ≠ .notSent)

theorem now_nonneg (call : SaslCall) : 0 ≤ call.now := by
  unfold now requestNow
  cases call.nowOverride with
  | none => exact Int.natCast_nonneg _
  | some now => exact Int.natCast_nonneg now

theorem count_bounds (call : SaslCall) : 0 ≤ call.count ∧ call.count ≤ 4294967295 := by
  have := call.recipientCount.toNat_lt
  unfold count
  omega

/-- A call does to the store what its script does, if it is executed. -/
theorem left_run (call : SaslCall) (db : Db) :
    left (call.run db) = if call.executed then left (call.script.run db) else db := by
  have hinvoke : left (call.run db) = if call.plan.bucketSizes.isEmpty then db
      else left ((invokeAsync call.fault call.script).run db) := by
    unfold run Limiter.checkSasl
    split_ifs with hempty
    · rfl
    · show left (EStateM.run (invokeAsync call.fault call.script >>= fun allowed =>
        pure (allowed == 1)) db) = _
      rw [EStateM.run_bind]
      cases (invokeAsync call.fault call.script).run db <;> rfl
  have hscript : left ((invokeAsync call.fault call.script).run db) =
      if call.fault = .notSent then db else left (call.script.run db) := by
    show left (invokeAsync call.fault call.script db) = _
    unfold invokeAsync
    cases call.fault <;> cases call.script.run db <;> rfl
  rw [hinvoke, hscript]
  unfold executed
  by_cases hempty : call.plan.bucketSizes.isEmpty = true
  · simp [hempty]
  · by_cases hfault : call.fault = .notSent
    · simp [hempty, hfault]
    · simp [hempty, hfault]

section Script
variable {call : SaslCall} {db : Db}

/-- What the script does, for a plan the code builds and hashes in range. -/
theorem run_script (hplan : call.plan.WellFormed)
    (hsane : ∀ b, Sane (db.view call.clock (call.key b))) :
    (Room call.key call.clock call.plan db call.now call.count ∧
      ∃ db', call.script.run db = .ok 1 db' ∧
        (∀ b r, (b, r) ∈ call.plan.slots → db' (call.key b) =
          some (recordedCell call.key call.clock db call.now call.count b r)) ∧
        ∀ k, (∀ b ∈ call.plan.bucketSizes, k ≠ call.key b) → db' k = db k) ∨
    (¬Room call.key call.clock call.plan db call.now call.count ∧
      call.script.run db = .ok 0 db) :=
  run_checkAndRecord call.clock db (saslKey_injective _ _)
    ⟨call.recipientCount, call.nowOverride, call.plan⟩ hplan (fun b _ => hsane b)

end Script

end SaslCall

/-- What holds of the store after the calls that were executed: everything in it was written
by them, every hash is in range, and if their times never went back no hash has more than
101 fields. -/
structure Stored (executed : List SaslCall) (db : Db) : Prop where
  sane : ∀ k cell, db k = some cell → Sane cell.value
  origin : ∀ p u b cell, db (saslKey p u b) = some cell → ∀ entry ∈ cell.value.entries,
    ∃ call ∈ executed, entry.1 = call.now / (b : ℤ)
  few : executed.Pairwise (fun earlier later => earlier.now ≤ later.now) →
    ∀ k cell, db k = some cell → cell.value.entries.length ≤ 101

namespace Stored
variable {executed : List SaslCall} {db db' : Db} {call : SaslCall}

theorem empty : Stored [] Keyspace.empty where
  sane k cell h := by simp [Keyspace.empty] at h
  origin p u b cell h := by simp [Keyspace.empty] at h
  few _ k cell h := by simp [Keyspace.empty] at h

theorem view_sane (h : Stored executed db) (clock : Clock) (k : String) :
    Sane (db.view clock k) := Db.view_of_stored sane_empty (h.sane k) clock

theorem view_origin (h : Stored executed db) (clock : Clock) (p u : String) (b : ℕ) :
    ∀ entry ∈ (db.view clock (saslKey p u b)).entries,
      ∃ call ∈ executed, entry.1 = call.now / (b : ℤ) :=
  Db.view_of_stored
    (P := fun h => ∀ entry ∈ h.entries, ∃ call ∈ executed, entry.1 = call.now / (b : ℤ))
    (by simp) (h.origin p u b) clock

theorem view_few (h : Stored executed db)
    (htimes : executed.Pairwise (fun earlier later => earlier.now ≤ later.now)) (clock : Clock)
    (k : String) : (db.view clock k).entries.length ≤ 101 :=
  Db.view_of_stored (P := fun h => h.entries.length ≤ 101) (by simp) (h.few htimes k) clock

/-- A script that was executed and accepted. -/
theorem record (h : Stored executed db) (hplan : call.plan.Built)
    (hroom : Room call.key call.clock call.plan db call.now call.count)
    (hdone : ∀ b r, (b, r) ∈ call.plan.slots → db' (call.key b) =
      some (recordedCell call.key call.clock db call.now call.count b r))
    (hframe : ∀ k, (∀ b ∈ call.plan.bucketSizes, k ≠ call.key b) → db' k = db k) :
    Stored (executed ++ [call]) db' := by
  -- Each key is recorded into or left alone.
  have hkey : ∀ k, (∃ b r, (b, r) ∈ call.plan.slots ∧ k = call.key b) ∨ db' k = db k := by
    intro k
    by_cases hmine : ∀ b ∈ call.plan.bucketSizes, k ≠ call.key b
    · exact .inr (hframe k hmine)
    · push Not at hmine
      obtain ⟨b, hb, hk⟩ := hmine
      obtain ⟨r, hslot⟩ := hplan.wellFormed.slot_of_size hb
      exact .inl ⟨b, r, hslot, hk⟩
  have hpos : ∀ {b r : ℕ}, (b, r) ∈ call.plan.slots → 0 < b :=
    fun hslot => call.plan.bucketSizes_pos _ (CheckPlan.size_of_slot hslot)
  constructor
  case sane =>
    intro k cell hcell
    rcases hkey k with ⟨b, r, hslot, rfl⟩ | hother
    · obtain rfl := Option.some.inj ((hdone b r hslot).symm.trans hcell)
      exact (h.view_sane call.clock (call.key b)).recorded (hpos hslot) call.now_nonneg
        call.count_bounds.1 (hroom.fits hplan.wellFormed hslot)
    · exact h.sane k cell (hother.symm.trans hcell)
  case origin =>
    intro p u b cell hcell
    have hlater : ∀ id, (∃ e ∈ executed, id = e.now / (b : ℤ)) →
        ∃ e ∈ executed ++ [call], id = e.now / (b : ℤ) := by
      intro id hid
      obtain ⟨e, he, rfl⟩ := hid
      exact ⟨e, List.mem_append_left _ he, rfl⟩
    rcases hkey (saslKey p u b) with ⟨b', r, hslot, hk⟩ | hother
    · rw [hk] at hcell
      obtain rfl := Option.some.inj ((hdone b' r hslot).symm.trans hcell)
      obtain ⟨rfl, rfl, rfl⟩ := saslKey_inj hk
      apply recorded_ids (P := fun id => ∃ e ∈ executed ++ [call], id = e.now / (b : ℤ))
      · exact ⟨call, by simp, rfl⟩
      · intro entry hentry _
        exact hlater _ (h.view_origin call.clock _ _ b entry hentry)
    · intro entry hentry
      exact hlater _ (h.origin p u b cell (hother.symm.trans hcell) entry hentry)
  case few =>
    intro htimes k cell hcell
    obtain ⟨hbefore, _, hlast⟩ := List.pairwise_append.mp htimes
    rcases hkey k with ⟨b, r, hslot, rfl⟩ | hother
    · obtain rfl := Option.some.inj ((hdone b r hslot).symm.trans hcell)
      apply recorded_length_le (hpos hslot) (hplan.retention_lt hslot)
      intro entry hentry
      obtain ⟨e, he, hid⟩ := h.view_origin call.clock _ _ b entry hentry
      rw [hid]
      have hb : (0 : ℤ) < b := by exact_mod_cast hpos hslot
      exact Int.ediv_le_ediv hb (hlast e he call (by simp))
    · exact h.few hbefore k cell (hother.symm.trans hcell)

/-- One call of anyone. -/
theorem run (h : Stored executed db) (hplan : call.plan.Built) :
    Stored (executed ++ [call].filter SaslCall.executed) (left (call.run db)) := by
  rw [call.left_run]
  by_cases hran : call.executed = true
  · rw [if_pos hran, List.filter_cons_of_pos hran, List.filter_nil]
    rcases SaslCall.run_script hplan.wellFormed (fun b => h.view_sane call.clock (call.key b)) with
      ⟨hroom, db', hrun, hdone, hframe⟩ | ⟨_, hrun⟩
    · rw [hrun]
      exact h.record hplan hroom hdone hframe
    · rw [hrun]
      refine ⟨h.sane, ?_, ?_⟩
      · intro p u b cell hcell entry hentry
        obtain ⟨e, he, hid⟩ := h.origin p u b cell hcell entry hentry
        exact ⟨e, List.mem_append_left _ he, hid⟩
      · intro htimes
        exact h.few (List.pairwise_append.mp htimes).1
  · rw [if_neg hran, List.filter_cons_of_neg hran, List.filter_nil, List.append_nil]
    exact h

end Stored

theorem serveCalls_snoc (db : Db) (calls : List SaslCall) (call : SaslCall) :
    (serveCalls db (calls ++ [call])).1 = left (call.run (serveCalls db calls).1) := by
  induction calls generalizing db with
  | nil => rfl
  | cons first rest ih =>
    rw [List.cons_append, serveCalls_cons, serveCalls_cons]
    exact ih (left (first.run db))

theorem serveCalls_stored {calls : List SaslCall} (hplans : ∀ call ∈ calls, call.plan.Built) :
    Stored (calls.filter SaslCall.executed) (serveCalls Keyspace.empty calls).1 := by
  induction calls using List.reverseRecOn with
  | nil => exact Stored.empty
  | append_singleton calls call ih =>
    have hbefore := ih (fun x hx => hplans x (List.mem_append_left _ hx))
    rw [serveCalls_snoc, List.filter_append]
    exact hbefore.run (hplans call (by simp))

/-- With times that a Lua number holds exactly, every hash is one the status query can read. -/
theorem Stored.readable {executed : List SaslCall} {db : Db} (h : Stored executed db)
    (hexact : ∀ call ∈ executed, call.now < 2 ^ 53) {b : ℕ} (hb : 0 < b) (hsmall : b ≤ 53568)
    (p u : String) (clock : Clock) : Readable b (db.view clock (saslKey p u b)) where
  sane := h.view_sane clock _
  ends entry hentry := by
    obtain ⟨call, hcall, hid⟩ := h.view_origin clock p u b entry hentry
    have hfloor : call.now / (b : ℤ) * b ≤ call.now := Int.ediv_mul_le call.now (by omega)
    have hlt := hexact call hcall
    rw [hid, add_mul, one_mul]
    omega

/-- Whatever calls were made, under whatever plans: the store is in range, the next script
cannot fail, and the status query can read what it finds. -/
theorem shared_store_bounded (calls : List SaslCall) (hplans : ∀ call ∈ calls, call.plan.Built)
    (hexact : ∀ call ∈ calls, call.executed → call.now < 2 ^ 53) :
    let db := (serveCalls Keyspace.empty calls).1
    let ordered := (calls.filter SaslCall.executed).Pairwise
      (fun earlier later => earlier.now ≤ later.now)
    (∀ k cell, db k = some cell →
      (∀ entry ∈ cell.value.entries, 0 ≤ entry.1 ∧ 0 ≤ entry.2 ∧ entry.2 ≤ 4294967295) ∧
        (cell.value.entries.map Prod.snd).sum ≤ 4294967295 ∧
        (ordered → cell.value.entries.length ≤ 101)) ∧
    (∀ call : SaslCall, call.plan.Built →
      (∃ reply db', call.script.run db = .ok reply db') ∧
      ∀ b r, (b, r) ∈ call.plan.slots →
        let h := db.view call.clock (call.key b)
        let stale := staleIds b (call.now - r) (parseFields h.entries).buckets
        0 ≤ (h.find? (call.now / (b : ℤ))).getD 0 + call.count ∧
          (h.find? (call.now / (b : ℤ))).getD 0 + call.count ≤ i64Max ∧
          ∀ minId, (parseFields h.entries).minId = some minId →
            (minId + 1) * b ≤ call.now - r →
              1 ≤ stale.length ∧ (ordered → stale.length ≤ 101)) ∧
    ∀ (p u : String) (clock : Clock) (plan : CheckPlan), plan.Built → ∀ b ∈ plan.bucketSizes,
      ∃ fields, (db.view clock (saslKey p u b)).entries.mapM parseField = some fields ∧
        (∀ field ∈ fields, (field.1 + 1) * b < 2 ^ 64) ∧
        (fields.map (fun field => field.2.toNat)).sum < 2 ^ 32 := by
  intro db ordered
  have hstored : Stored (calls.filter SaslCall.executed) db := serveCalls_stored hplans
  refine ⟨?_, ?_, ?_⟩
  · intro k cell hcell
    have hsane := hstored.sane k cell hcell
    have htotal := hsane.total
    rw [← Tally.sum_counts] at htotal
    refine ⟨?_, htotal, fun htimes => hstored.few htimes k cell hcell⟩
    intro entry hentry
    exact ⟨hsane.ids entry hentry, hsane.counts entry hentry, hsane.count_le entry hentry⟩
  · intro call hplan
    have hview := fun b => hstored.view_sane call.clock (call.key b)
    constructor
    · rcases SaslCall.run_script hplan.wellFormed hview with ⟨_, db', hrun, _⟩ | ⟨_, hrun⟩
      · exact ⟨1, db', hrun⟩
      · exact ⟨0, db, hrun⟩
    · intro b r hslot h stale
      obtain ⟨hlow, hhigh⟩ := (hview b).incr_bounds (call.now / (b : ℤ)) call.count_bounds
      refine ⟨hlow, hhigh, ?_⟩
      intro minId hmin hstale
      have hsome := staleIds_of_minId h b (call.now - r)
      rw [hmin] at hsome
      refine ⟨List.length_pos_iff.mpr (hsome.mp hstale), ?_⟩
      intro htimes
      have hfew := hstored.view_few htimes call.clock (call.key b)
      exact (staleIds_length_le h b (call.now - r)).trans hfew
  · intro p u clock plan hplan b hb
    obtain ⟨r, hslot⟩ := hplan.wellFormed.slot_of_size hb
    have hran : ∀ call ∈ calls.filter SaslCall.executed, call.now < 2 ^ 53 := by
      intro call hcall
      obtain ⟨hmem, hexecuted⟩ := List.mem_filter.mp hcall
      exact hexact call hmem hexecuted
    have hshort : b ≤ 53568 := (hplan.wellFormed.shortLived b r hslot).1
    have hread : Readable b (db.view clock (saslKey p u b)) :=
      hstored.readable hran (plan.bucketSizes_pos b hb) hshort p u clock
    refine ⟨_, hread.parse (plan.bucketSizes_pos b hb), ?_, ?_⟩
    · intro field hfield
      obtain ⟨entry, hentry, rfl⟩ := List.mem_map.mp hfield
      exact hread.end_parsed entry hentry
    · have htotal := hread.sane.total
      have hall := sum_parsed hread (fun _ => true) (fun _ => true) (fun _ _ => rfl)
      rw [List.filter_true] at hall
      omega

/-- A minute's plan and then an hour's, under which the minute's hash is left behind. -/
theorem shared_store_bounded_reload :
    let before := CheckPlan.new [⟨3, .fromSecs 60⟩]
    let after := CheckPlan.new [⟨5, .fromSecs 3600⟩]
    let calls : List SaslCall :=
      [⟨⟨"postfix-ratelimitd"⟩, "alice", 2, before, none, ⟨0, by decide⟩, .none⟩,
        ⟨⟨"postfix-ratelimitd"⟩, "alice", 4, after, none, ⟨61000000, by decide⟩, .replyLost⟩]
    ∀ k cell, (serveCalls Keyspace.empty calls).1 k = some cell →
      (∀ entry ∈ cell.value.entries, 0 ≤ entry.1 ∧ 0 ≤ entry.2 ∧ entry.2 ≤ 4294967295) ∧
        (cell.value.entries.map Prod.snd).sum ≤ 4294967295 ∧
        ((calls.filter SaslCall.executed).Pairwise (fun earlier later => earlier.now ≤ later.now) →
          cell.value.entries.length ≤ 101) := by
  intro before after calls
  have hbefore : before.Built := .inr ⟨0, _, by decide, rfl⟩
  have hafter : after.Built := .inr ⟨0, _, by decide, rfl⟩
  have hplans : ∀ call ∈ calls, call.plan.Built := by simp [calls, hbefore, hafter]
  have hexact : ∀ call ∈ calls, call.executed → call.now < 2 ^ 53 := by
    intro call hcall _
    have hnow : call.now = (call.clock.secs : ℤ) := by
      simp only [calls, List.mem_cons, List.not_mem_nil, or_false] at hcall
      rcases hcall with rfl | rfl <;> rfl
    have hsecs := call.clock.secs_lt
    omega
  exact (shared_store_bounded calls hplans hexact).1

end PostfixRatelimitd
